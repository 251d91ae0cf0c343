import Mathlib.Data.List.Basic
import Mathlib.Data.List.Infix

/-!
# Texts made of parts

A text is made by writing its parts one after another, each before a separator or
of no length of its own. Two questions about such texts: which parts read back, and
how two lists of parts come to one text.

* `frame` — tagged fields, each closed by a separator, and a rest;
* `Overruns` — a part that goes on into what follows the part of another text;
* `twoParts` — two parts and a rest, with a separator after each part.

Main results:

* `frame_inj` — fields without the separator read back, and so does the rest;
* `append_binds_iff` — a leading part of any length reads back unless one of two
  overruns the other;
* `intercalate_inj` — parts without the separator that joins them read back;
* `splitOn_eq_iff` — splitting gives the parts that a text is joined of;
* `coded_append_sep_iff`, `twoParts_inj` — which of two texts with coded parts are one.
-/

namespace Framing

variable {α : Type*}

/-! ## Fields before separators -/

/-- What stands before the first separator reads back. -/
theorem append_sep_inj {sep : α} {a b x y : List α} (ha : sep ∉ a) (hb : sep ∉ b) :
    a ++ sep :: x = b ++ sep :: y ↔ a = b ∧ x = y := by
  constructor
  · intro h
    induction a generalizing b with
    | nil =>
      cases b with
      | nil => exact ⟨rfl, (List.cons.inj h).2⟩
      | cons c b => exact absurd (List.cons.inj h).1 fun hEq => hb (hEq ▸ List.mem_cons_self)
    | cons c a ih =>
      cases b with
      | nil => exact absurd (List.cons.inj h).1.symm fun hEq => ha (hEq ▸ List.mem_cons_self)
      | cons d b =>
        obtain ⟨rfl, hRest⟩ := List.cons.inj h
        obtain ⟨rfl, rfl⟩ := ih (fun hMem => ha (List.mem_cons_of_mem _ hMem))
          (fun hMem => hb (List.mem_cons_of_mem _ hMem)) hRest
        exact ⟨rfl, rfl⟩
  · rintro ⟨rfl, rfl⟩
    rfl

/-- Fields, each after its tag and before a separator, and what follows them. -/
def frame (sep : α) : List (List α × List α) → List α → List α
  | [], rest => rest
  | (tag, field) :: fields, rest => tag ++ (field ++ sep :: frame sep fields rest)

/-- Under the same tags, fields without the separator read back, and so does the rest. -/
theorem frame_inj {sep : α} {fields fields' : List (List α × List α)} {rest rest' : List α}
    (hTags : fields.map Prod.fst = fields'.map Prod.fst)
    (hPlain : ∀ f ∈ fields, sep ∉ f.2) (hPlain' : ∀ f ∈ fields', sep ∉ f.2) :
    frame sep fields rest = frame sep fields' rest' ↔ fields = fields' ∧ rest = rest' := by
  constructor
  · intro h
    -- on the fields: each ends at its first separator
    induction fields generalizing fields' with
    | nil =>
      obtain rfl : fields' = [] := List.map_eq_nil_iff.mp hTags.symm
      exact ⟨rfl, h⟩
    | cons f fields ih =>
      cases fields' with
      | nil => cases hTags
      | cons f' fields' =>
        obtain ⟨tag, field⟩ := f
        obtain ⟨tag', field'⟩ := f'
        rw [List.map_cons, List.map_cons, List.cons.injEq] at hTags
        obtain rfl : tag = tag' := hTags.1
        have hBoth := List.append_cancel_left h
        rw [append_sep_inj (hPlain (tag, field) List.mem_cons_self)
          (hPlain' (tag, field') List.mem_cons_self)] at hBoth
        obtain ⟨rfl, hRest⟩ := hBoth
        obtain ⟨rfl, rfl⟩ := ih hTags.2 (fun g hg => hPlain g (List.mem_cons_of_mem _ hg))
          (fun g hg => hPlain' g (List.mem_cons_of_mem _ hg)) hRest
        exact ⟨rfl, rfl⟩
  · rintro ⟨rfl, rfl⟩
    rfl

/-! ## Numbers -/

/-- The digits of a number read back. -/
theorem toDigits_inj {m n : ℕ} : Nat.toDigits 10 m = Nat.toDigits 10 n ↔ m = n := by
  constructor
  · intro h
    have hRead := congrArg (fun digits => Nat.ofDigitChars 10 digits 0) h
    simpa only [Nat.ofDigitChars_ten_toDigits] using hRead
  · rintro rfl
    rfl

/-- What is no digit is not in a number. -/
theorem notMem_toDigits {c : Char} (hc : c.isDigit = false) (n : ℕ) : c ∉ Nat.toDigits 10 n := by
  intro hMem
  have hDigit := Nat.isDigit_of_mem_toDigits (by omega) (by omega) hMem
  rw [hc] at hDigit
  cases hDigit

/-! ## A leading part of any length -/

/-- The leading part `b` goes on from `a` into what follows `a`. -/
def Overruns (a x b y : List α) : Prop := ∃ u, u ≠ [] ∧ b = a ++ u ∧ x = u ++ y

theorem append_eq_append_iff_overruns {a x b y : List α} :
    a ++ x = b ++ y ↔ (a = b ∧ x = y) ∨ Overruns a x b y ∨ Overruns b y a x := by
  constructor
  · intro h
    rcases List.append_eq_append_iff.mp h with ⟨u, hb, hx⟩ | ⟨u, ha, hy⟩
    · by_cases hu : u = []
      · subst hu
        exact .inl ⟨by rw [hb, List.append_nil], hx⟩
      · exact .inr (.inl ⟨u, hu, hb, hx⟩)
    · by_cases hu : u = []
      · subst hu
        exact .inl ⟨by rw [ha, List.append_nil], hy.symm⟩
      · exact .inr (.inr ⟨u, hu, ha, hy⟩)
  · rintro (⟨rfl, rfl⟩ | ⟨u, -, rfl, rfl⟩ | ⟨u, -, rfl, rfl⟩)
    · rfl
    · rw [List.append_assoc]
    · rw [List.append_assoc]

/-- Leading parts of one length do not overrun each other. -/
theorem not_overruns_of_length {a x b y : List α} (h : a.length = b.length) :
    ¬ Overruns a x b y := by
  rintro ⟨u, hu, hb, -⟩
  have hLength := congrArg List.length hb
  rw [List.length_append] at hLength
  exact hu (List.length_eq_zero_iff.mp (by omega))

/-- A leading part without a separator does not overrun one that a separator follows. -/
theorem not_overruns_of_notMem {sep : α} {a x b y : List α} (hb : sep ∉ b)
    (hx : ∃ x', x = sep :: x') : ¬ Overruns a x b y := by
  rintro ⟨u, hu, rfl, hxu⟩
  obtain ⟨x', rfl⟩ := hx
  cases u with
  | nil => exact hu rfl
  | cons c u =>
    obtain ⟨rfl, -⟩ := List.cons.inj hxu
    exact hb (List.mem_append_right _ List.mem_cons_self)

/-- Texts of a leading part and a rest tell apart what their parts do, unless a
leading part overruns another. -/
theorem append_binds_iff {σ : Type*} (lead rest : σ → List α) (Same : σ → σ → Prop)
    (hLead : ∀ s t, Same s t → lead s = lead t) (s t : σ) :
    (lead s ++ rest s = lead t ++ rest t → Same s t) ↔
      (lead s = lead t → rest s = rest t → Same s t) ∧
        ¬ Overruns (lead s) (rest s) (lead t) (rest t) ∧
          ¬ Overruns (lead t) (rest t) (lead s) (rest s) := by
  -- a leading part that is overrun is not the other
  have hApart (s t : σ) (hOver : Overruns (lead s) (rest s) (lead t) (rest t)) :
      lead s ≠ lead t := by
    obtain ⟨u, hu, hEq, -⟩ := hOver
    intro hSame
    exact hu (List.append_cancel_left (hEq.symm.trans (hSame.symm.trans (List.append_nil _).symm)))
  rw [append_eq_append_iff_overruns]
  constructor
  · intro h
    refine ⟨fun hs hr => h (.inl ⟨hs, hr⟩), fun hOver => ?_, fun hOver => ?_⟩
    · exact hApart s t hOver (hLead s t (h (.inr (.inl hOver))))
    · exact hApart t s hOver (hLead s t (h (.inr (.inr hOver)))).symm
  · rintro ⟨hSame, hOver, hOver'⟩ (⟨hs, hr⟩ | h | h)
    · exact hSame hs hr
    · exact absurd h hOver
    · exact absurd h hOver'

/-! ## Texts among the parts -/

/-- Two parts before separators: the first ones are the same, or one of them goes on
after the separator of the other. -/
theorem append_sep_eq_iff {sep : α} {a b x y : List α} :
    a ++ sep :: x = b ++ sep :: y ↔ (a = b ∧ x = y) ∨
      (∃ u, b = a ++ sep :: u ∧ x = u ++ sep :: y) ∨ ∃ u, a = b ++ sep :: u ∧ y = u ++ sep :: x := by
  constructor
  · intro h
    rcases append_eq_append_iff_overruns.mp h with ⟨rfl, hRest⟩ | ⟨u, hu, hb, hx⟩ | ⟨u, hu, ha, hy⟩
    · exact .inl ⟨rfl, (List.cons.inj hRest).2⟩
    · -- what goes on begins with the separator
      obtain ⟨c, u, rfl⟩ := List.exists_cons_of_ne_nil hu
      obtain ⟨rfl, hRest⟩ := List.cons.inj hx
      exact .inr (.inl ⟨u, hb, hRest⟩)
    · obtain ⟨c, u, rfl⟩ := List.exists_cons_of_ne_nil hu
      obtain ⟨rfl, hRest⟩ := List.cons.inj hy
      exact .inr (.inr ⟨u, ha, hRest⟩)
  · rintro (⟨rfl, rfl⟩ | ⟨u, rfl, rfl⟩ | ⟨u, rfl, rfl⟩)
    · rfl
    · rw [List.append_assoc, List.cons_append]
    · rw [List.append_assoc, List.cons_append]

/-- A text, each letter of which is written in its code. -/
def Coded {γ : Type*} (code : γ → List α) (a : List α) : Prop :=
  ∃ text : List γ, text.flatMap code = a

/-- Where one letter alone has the separator in its code, and nothing else, a text
is cut at a separator into two. -/
theorem coded_append_sep_iff {γ : Type*} {code : γ → List α} {bar : γ} {sep : α}
    (hBar : code bar = [sep]) (hPlain : ∀ c, sep ∈ code c → c = bar) (a b : List α) :
    Coded code (a ++ sep :: b) ↔ Coded code a ∧ Coded code b := by
  constructor
  · rintro ⟨text, hText⟩
    -- on the text: its first letter is of `a`, or is the one that is cut at
    induction text generalizing a with
    | nil => cases a <;> cases hText
    | cons c text ih =>
      rw [List.flatMap_cons] at hText
      rcases append_eq_append_iff_overruns.mp hText with
        ⟨rfl, hRest⟩ | ⟨u, hu, rfl, hRest⟩ | ⟨u, hu, hc, hRest⟩
      · obtain ⟨-, hb⟩ := ih [] hRest
        exact ⟨⟨[c], by simp⟩, hb⟩
      · obtain ⟨⟨text', hText'⟩, hb⟩ := ih u hRest
        exact ⟨⟨c :: text', by rw [List.flatMap_cons, hText']⟩, hb⟩
      · obtain ⟨d, u, rfl⟩ := List.exists_cons_of_ne_nil hu
        obtain ⟨rfl, hb⟩ := List.cons.inj hRest
        obtain rfl := hPlain c (hc ▸ List.mem_append_right _ List.mem_cons_self)
        -- the letter's code is the separator alone
        rw [hBar] at hc
        cases a with
        | nil =>
          obtain ⟨-, rfl⟩ := List.cons.inj hc
          exact ⟨⟨[], rfl⟩, text, hb.symm⟩
        | cons e a => cases a <;> cases (List.cons.inj hc).2
  · rintro ⟨⟨s, rfl⟩, t, rfl⟩
    exact ⟨s ++ bar :: t, by rw [List.flatMap_append, List.flatMap_cons, hBar]; rfl⟩

/-- Two parts and a rest, with separators between. -/
def twoParts (sep : α) (a b rest : List α) : List α := a ++ sep :: (b ++ sep :: rest)

section

variable {sep : α} {IsText : List α → Prop}
  (hText : ∀ a b, IsText (a ++ sep :: b) ↔ IsText a ∧ IsText b)

include hText

/-- Two texts and a rest read back if the texts have no separator in them and the rest
does not begin with a text that a separator follows. -/
theorem twoParts_inj {a b rest a' b' rest' : List α} (ha : sep ∉ a) (hb : sep ∉ b)
    (hRest : ∀ x y, rest = x ++ sep :: y → ¬ IsText x) (ha' : IsText a') (hb' : IsText b')
    (h : twoParts sep a b rest = twoParts sep a' b' rest') : a = a' ∧ b = b' ∧ rest = rest' := by
  unfold twoParts at h
  rcases append_sep_eq_iff.mp h with ⟨rfl, hTail⟩ | ⟨u, rfl, hTail⟩ | ⟨u, rfl, -⟩
  · rcases append_sep_eq_iff.mp hTail with ⟨rfl, rfl⟩ | ⟨v, rfl, hEnd⟩ | ⟨v, rfl, -⟩
    · exact ⟨rfl, rfl, rfl⟩
    · exact absurd ((hText _ _).mp hb').2 (hRest _ _ hEnd)
    · exact absurd (List.mem_append_right _ List.mem_cons_self) hb
  · -- the first text goes on over the second, and over no more
    have hu := ((hText _ _).mp ha').2
    rcases append_sep_eq_iff.mp hTail with ⟨rfl, hEnd⟩ | ⟨v, rfl, hEnd⟩ | ⟨v, rfl, -⟩
    · exact absurd hb' (hRest _ _ hEnd)
    · exact absurd ((hText _ _).mp hu).2 (hRest _ _ hEnd)
    · exact absurd (List.mem_append_right _ List.mem_cons_self) hb
  · exact absurd (List.mem_append_right _ List.mem_cons_self) ha

/-- A leading part before the same is read as two texts only if it is a text, or the
two are in it. -/
theorem lead_of_twoParts {lead rest a' b' rest' : List α} (ha' : IsText a') (hb' : IsText b')
    (h : lead ++ sep :: rest = twoParts sep a' b' rest') :
    IsText lead ∨ ∃ u, lead = twoParts sep a' b' u ∧ rest' = u ++ sep :: rest := by
  unfold twoParts at h
  rcases append_sep_eq_iff.mp h with ⟨rfl, -⟩ | ⟨u, rfl, -⟩ | ⟨u, rfl, hTail⟩
  · exact .inl ha'
  · exact .inl ((hText _ _).mp ha').1
  · rcases append_sep_eq_iff.mp hTail with ⟨rfl, -⟩ | ⟨v, rfl, hEnd⟩ | ⟨v, rfl, -⟩
    · exact .inl ((hText _ _).mpr ⟨ha', hb'⟩)
    · exact .inr ⟨v, rfl, hEnd⟩
    · exact .inl ((hText _ _).mpr ⟨ha', ((hText _ _).mp hb').1⟩)

/-- Two texts without separators are read after a leading part only if the leading
part has them both. -/
theorem twoParts_of_lead {lead a b rest a' b' rest' : List α} (ha : sep ∉ a) (hb : sep ∉ b)
    (hRest : ∀ x y, rest = x ++ sep :: y → ¬ IsText x) (ha' : IsText a') (hb' : IsText b')
    (h : twoParts sep a b rest = lead ++ sep :: twoParts sep a' b' rest') :
    ∃ u, lead = twoParts sep a b u ∧ rest = u ++ sep :: twoParts sep a' b' rest' := by
  unfold twoParts at h
  rcases append_sep_eq_iff.mp h with ⟨rfl, hTail⟩ | ⟨u, rfl, hTail⟩ | ⟨u, rfl, -⟩
  · -- the leading part is the first text
    rcases append_sep_eq_iff.mp hTail with ⟨rfl, hEnd⟩ | ⟨v, rfl, hEnd⟩ | ⟨v, rfl, -⟩
    · exact absurd hb' (hRest _ _ hEnd)
    · exact absurd ((hText _ _).mp ha').2 (hRest _ _ hEnd)
    · exact absurd (List.mem_append_right _ List.mem_cons_self) hb
  · rcases append_sep_eq_iff.mp hTail with ⟨rfl, hEnd⟩ | ⟨v, rfl, hEnd⟩ | ⟨v, rfl, -⟩
    · exact absurd ha' (hRest _ _ hEnd)
    · exact ⟨v, rfl, hEnd⟩
    · exact absurd (List.mem_append_right _ List.mem_cons_self) hb
  · exact absurd (List.mem_append_right _ List.mem_cons_self) ha

end

/-! ## Parts joined by a separator -/

/-- Parts without the separator, joined by it, read back. -/
theorem intercalate_inj {sep : α} {parts parts' : List (List α)} (hNe : parts ≠ [])
    (hNe' : parts' ≠ []) (hPlain : ∀ p ∈ parts, sep ∉ p) (hPlain' : ∀ p ∈ parts', sep ∉ p)
    (h : List.intercalate [sep] parts = List.intercalate [sep] parts') : parts = parts' := by
  -- on the parts: the first one ends at the first separator, or is the only one
  induction parts generalizing parts' with
  | nil => exact absurd rfl hNe
  | cons p rest ih =>
    cases parts' with
    | nil => exact absurd rfl hNe'
    | cons p' rest' =>
      have hp := hPlain p List.mem_cons_self
      have hp' := hPlain' p' List.mem_cons_self
      cases rest with
      | nil =>
        cases rest' with
        | nil => simpa using h
        | cons q' rest' =>
          rw [List.intercalate_singleton, List.intercalate_cons_cons] at h
          -- a part alone has no separator
          exact absurd (h ▸ hp) (by simp)
      | cons q rest =>
        cases rest' with
        | nil =>
          rw [List.intercalate_singleton, List.intercalate_cons_cons] at h
          exact absurd (h ▸ hp') (by simp)
        | cons q' rest' =>
          rw [List.intercalate_cons_cons, List.intercalate_cons_cons, List.append_assoc,
            List.append_assoc, List.singleton_append, List.singleton_append,
            append_sep_inj hp hp'] at h
          obtain ⟨rfl, hRest⟩ := h
          rw [ih (List.cons_ne_nil _ _) (List.cons_ne_nil _ _)
            (fun r hr => hPlain r (List.mem_cons_of_mem _ hr))
            (fun r hr => hPlain' r (List.mem_cons_of_mem _ hr)) hRest]

/-- The parts that a text is split into do not have the separator. -/
theorem notMem_of_mem_splitOn [DecidableEq α] {sep : α} {x part : List α}
    (h : part ∈ x.splitOn sep) : sep ∉ part := by
  induction x generalizing part with
  | nil =>
    rw [List.splitOn_nil, List.mem_singleton] at h
    rw [h]
    exact List.not_mem_nil
  | cons a x ih =>
    obtain ⟨first, rest, hSplit⟩ := List.exists_cons_of_ne_nil (List.splitOn_ne_nil sep x)
    rw [List.splitOn_cons_eq_if_modifyHead] at h
    split at h
    · rcases List.mem_cons.mp h with rfl | h
      · exact List.not_mem_nil
      · exact ih h
    · rename_i hOther
      rw [hSplit, List.modifyHead_cons] at h
      -- a letter that is no separator goes to the first part
      rcases List.mem_cons.mp h with rfl | h
      · intro hMem
        rcases List.mem_cons.mp hMem with rfl | hMem
        · exact hOther (beq_self_eq_true _)
        · exact ih (hSplit ▸ List.mem_cons_self) hMem
      · exact ih (hSplit ▸ List.mem_cons_of_mem _ h)

/-- A text is split into the parts without the separator that it is joined of. -/
theorem splitOn_eq_iff [DecidableEq α] {sep : α} {x : List α} {parts : List (List α)} :
    x.splitOn sep = parts ↔
      parts ≠ [] ∧ (∀ p ∈ parts, sep ∉ p) ∧ List.intercalate [sep] parts = x := by
  constructor
  · rintro rfl
    exact ⟨List.splitOn_ne_nil sep x, fun p hp => notMem_of_mem_splitOn hp,
      List.intercalate_splitOn sep⟩
  · rintro ⟨hNe, hPlain, rfl⟩
    exact List.splitOn_intercalate sep hPlain hNe

end Framing
