import Mathlib.Data.List.Forall2

/-!
# Lists of results

A loop whose body can fail is `List.mapM` in `Except`: the first failure ends
it. The lemmas pair what it yields with what it ran over.

* `bind_eq_ok` — a chain is fine exactly when both of its links are;
* `mapM_eq_ok` — a loop is fine exactly when each of its rounds is;
* `Alike` — two results both fine or both failed, whatever the failures
  (`mapM_alike`).
-/

namespace Results

theorem bind_eq_ok {ε α β : Type} {x : Except ε α} {f : α → Except ε β} {b : β} :
    (x >>= f) = .ok b ↔ ∃ a, x = .ok a ∧ f a = .ok b := by
  cases x with
  | error e => simp [bind, Except.bind]
  | ok a => simp [bind, Except.bind]

theorem map_eq_ok {ε α β : Type} {x : Except ε α} {f : α → β} {b : β} :
    x.map f = .ok b ↔ ∃ a, x = .ok a ∧ f a = b := by
  cases x with
  | error e => simp [Except.map]
  | ok a => simp [Except.map]

/-- A loop whose steps are all fine is the loop over what they come to. -/
theorem foldlM_ok {ε α β γ : Type} {f : γ → α → Except ε γ} (g : α → β) (step : γ → β → γ)
    {as : List α} (h : ∀ a ∈ as, ∀ c, f c a = .ok (step c (g a))) (c : γ) :
    as.foldlM f c = .ok ((as.map g).foldl step c) := by
  induction as generalizing c with
  | nil => rfl
  | cons a as ih =>
    obtain ⟨ha, has⟩ := List.forall_mem_cons.mp h
    rw [List.foldlM_cons, ha]
    exact ih has _

/-- A list of results is fine exactly when each of them is. -/
theorem mapM_eq_ok {ε α β : Type} {f : α → Except ε β} {as : List α} {bs : List β} :
    as.mapM f = .ok bs ↔ List.Forall₂ (fun a b => f a = .ok b) as bs := by
  induction as generalizing bs with
  | nil =>
    rw [List.forall₂_nil_left_iff, List.mapM_nil]
    exact ⟨fun h => (Except.ok.inj h).symm, fun h => h ▸ rfl⟩
  | cons a as ih =>
    rw [List.mapM_cons, bind_eq_ok, List.forall₂_cons_left_iff]
    constructor
    · rintro ⟨b, hb, h⟩
      obtain ⟨rest, hRest, hEq⟩ := bind_eq_ok.mp h
      exact ⟨b, rest, hb, ih.mp hRest, (Except.ok.inj hEq).symm⟩
    · rintro ⟨b, rest, hb, hRest, rfl⟩
      exact ⟨b, hb, bind_eq_ok.mpr ⟨rest, ih.mpr hRest, rfl⟩⟩

theorem mapM_map_ok {ε α β γ : Type} {f : α → Except ε β} {g : γ → α} {r : γ → β} {l : List γ}
    (h : ∀ x ∈ l, f (g x) = .ok (r x)) : (l.map g).mapM f = .ok (l.map r) := by
  rw [mapM_eq_ok, List.forall₂_map_left_iff, List.forall₂_map_right_iff, List.forall₂_same]
  exact h

/-- A loop whose rounds are all fine. -/
theorem mapM_ok {ε α β : Type} {f : α → Except ε β} {r : α → β} {l : List α}
    (h : ∀ x ∈ l, f x = .ok (r x)) : l.mapM f = .ok (l.map r) := by
  rw [mapM_eq_ok, List.forall₂_map_right_iff, List.forall₂_same]
  exact h

/-- One element that fails fails the list. -/
theorem exists_of_mapM_ok {ε α β : Type} {f : α → Except ε β} {as : List α} {bs : List β}
    (h : as.mapM f = .ok bs) : ∀ a ∈ as, ∃ b, f a = .ok b := by
  have hAll := mapM_eq_ok.mp h
  clear h
  induction hAll with
  | nil => simp
  | cons hb _ ih =>
    rw [List.forall_mem_cons]
    exact ⟨⟨_, hb⟩, ih⟩

/-- What a loop yields is a function of what it ran over. -/
theorem exists_fun_of_mapM_ok {ε α β : Type} {f : α → Except ε β} {as : List α} {bs : List β}
    (h : as.mapM f = .ok bs) (hNe : as ≠ []) :
    ∃ g : α → β, bs = as.map g ∧ ∀ a ∈ as, f a = .ok (g a) := by
  have hEach := exists_of_mapM_ok h
  obtain ⟨first, hFirst⟩ := List.exists_mem_of_ne_nil as hNe
  obtain ⟨b, -⟩ := hEach first hFirst
  have : Nonempty β := ⟨b⟩
  choose! g hg using hEach
  have hRun := mapM_map_ok (g := id) hg
  rw [List.map_id, h] at hRun
  exact ⟨g, Except.ok.inj hRun, hg⟩

/-- What stands on the right of paired lists has a partner on the left. -/
theorem exists_of_mem_forall₂ {α β : Type*} {R : α → β → Prop} {as : List α} {bs : List β}
    (h : List.Forall₂ R as bs) {b : β} (hb : b ∈ bs) : ∃ a ∈ as, R a b := by
  induction h with
  | nil => cases hb
  | cons hR _ ih =>
    rcases List.mem_cons.mp hb with rfl | hRest
    · exact ⟨_, List.mem_cons_self .., hR⟩
    · obtain ⟨a, ha, hR'⟩ := ih hRest
      exact ⟨a, List.mem_cons_of_mem _ ha, hR'⟩

theorem forall₂_comp {α β γ : Type*} {R : α → β → Prop} {S : β → γ → Prop} {as : List α}
    {bs : List β} {cs : List γ} (h : List.Forall₂ R as bs) (h' : List.Forall₂ S bs cs) :
    List.Forall₂ (fun a c => ∃ b, R a b ∧ S b c) as cs := by
  induction h generalizing cs with
  | nil =>
    rw [List.forall₂_nil_left_iff] at h'
    exact h' ▸ List.Forall₂.nil
  | cons hR _ ih =>
    obtain ⟨c, cs', hS, hRest, rfl⟩ := List.forall₂_cons_left_iff.mp h'
    exact List.Forall₂.cons ⟨_, hR, hS⟩ (ih hRest)

/-- Each result is some element's. -/
theorem exists_of_mem_mapM {ε α β : Type} {f : α → Except ε β} {as : List α} {bs : List β}
    (h : as.mapM f = .ok bs) : ∀ b ∈ bs, ∃ a ∈ as, f a = .ok b :=
  fun _ hb => exists_of_mem_forall₂ (mapM_eq_ok.mp h) hb

/-- Both are fine, with related values, or both failed. -/
def Alike {ε ε' α β : Type} (R : α → β → Prop) : Except ε α → Except ε' β → Prop
  | .ok a, .ok b => R a b
  | .error _, .error _ => True
  | _, _ => False

theorem Alike.cases {ε ε' α β : Type} {R : α → β → Prop} {x : Except ε α} {y : Except ε' β}
    (h : Alike R x y) :
    (∃ e e', x = .error e ∧ y = .error e') ∨ ∃ a b, x = .ok a ∧ y = .ok b ∧ R a b := by
  cases x with
  | error e =>
    cases y with
    | error e' => exact .inl ⟨e, e', rfl, rfl⟩
    | ok b => exact h.elim
  | ok a =>
    cases y with
    | error e' => exact h.elim
    | ok b => exact .inr ⟨a, b, rfl, rfl, h⟩

theorem Alike.map {ε ε' α β γ δ : Type} {R : α → β → Prop} {S : γ → δ → Prop} {x : Except ε α}
    {y : Except ε' β} (h : Alike R x y) {f : α → γ} {g : β → δ}
    (hMap : ∀ a b, R a b → S (f a) (g b)) : Alike S (x.map f) (y.map g) := by
  rcases h.cases with ⟨e, e', rfl, rfl⟩ | ⟨a, b, rfl, rfl, hR⟩
  · trivial
  · exact hMap a b hR

/-- Loops whose rounds are alike are alike. -/
theorem mapM_alike {ε ε' α β γ : Type} {R : β → γ → Prop} {f : α → Except ε β}
    {g : α → Except ε' γ} {l : List α} (h : ∀ a ∈ l, Alike R (f a) (g a)) :
    Alike (List.Forall₂ R) (l.mapM f) (l.mapM g) := by
  induction l with
  | nil => exact List.Forall₂.nil
  | cons a rest ih =>
    rw [List.forall_mem_cons] at h
    rw [List.mapM_cons, List.mapM_cons]
    rcases h.1.cases with ⟨e, e', hf, hg⟩ | ⟨b, c, hf, hg, hR⟩
    · rw [hf, hg]
      trivial
    · rw [hf, hg]
      -- the first rounds agree, so the rest decides
      show Alike _ ((rest.mapM f).bind _) ((rest.mapM g).bind _)
      rcases (ih h.2).cases with ⟨e, e', hfs, hgs⟩ | ⟨bs, cs, hfs, hgs, hRest⟩
      · rw [hfs, hgs]
        trivial
      · rw [hfs, hgs]
        exact List.Forall₂.cons hR hRest

end Results
