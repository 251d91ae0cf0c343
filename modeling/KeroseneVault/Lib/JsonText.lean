import Mathlib.Algebra.Order.BigOperators.Group.List
import Mathlib.Data.List.Basic
import Mathlib.Tactic.IntervalCases

/-!
# Texts of JSON

The grammar of JSON as a relation between values and texts: blanks, escapes of
both kinds, surrogate pairs, and numbers as their tokens. A writer that puts
strings between quotes as they are writes the shortest text of a value that has
nothing to escape in it. What has something to escape needs more characters than
that, in whatever way it is written.

* `Value`, `Spelled` — the values, and their texts;
* `Shows` — a value in which all that is expected can be read;
* `Readable` — a text is one value, in which all that is expected can be read;
* `compact` — the text without blanks and without escapes;
* `weight` — the least number of characters of a value.

Main results:

* `weight_le_length` — no text of a value is shorter than its weight;
* `weight_le_of_shows` — what shows a value weighs as much at least;
* `readable_compact_iff` — the compact text is readable exactly where there is
  nothing to escape;
* `not_readable_of_short` — a shorter text is never readable.
-/

namespace JsonText

/-! ## Values -/

/-- A value; a number is its token, and an object its members in order. -/
inductive Value where
  | null
  | bool (b : Bool)
  | num (token : List Char)
  | str (s : List Char)
  | arr (items : List Value)
  | obj (members : List (List Char × Value))

/-- A character that stands in no string as it is. -/
def needsEscape (c : Char) : Bool := c == '"' || c == '\\' || c.toNat < 0x20

/-! ## The grammar -/

def isBlank (c : Char) : Bool := c == ' ' || c == '\t' || c == '\n' || c == '\r'

def Blank (t : List Char) : Prop := ∀ c ∈ t, isBlank c = true

/-- A text of `P` with blanks around it. -/
def Padded (P : List Char → Prop) (t : List Char) : Prop :=
  ∃ left u right, Blank left ∧ P u ∧ Blank right ∧ t = left ++ (u ++ right)

/-- A character after a backslash, and what it stands for. -/
def shortEscapes : List (Char × Char) :=
  [('"', '"'), ('\\', '\\'), ('/', '/'), ('b', '\x08'), ('f', '\x0c'), ('n', '\n'), ('r', '\r'),
    ('t', '\t')]

def hexValue (c : Char) : Option ℕ :=
  if c.isDigit then some (c.toNat - 48)
  else if 'a' ≤ c ∧ c ≤ 'f' then some (c.toNat - 87)
  else if 'A' ≤ c ∧ c ≤ 'F' then some (c.toNat - 55)
  else none

/-- The number of four hexadecimal digits. -/
def hexCode : List Char → Option ℕ
  | [a, b, c, d] =>
    match hexValue a, hexValue b, hexValue c, hexValue d with
    | some a, some b, some c, some d => some (4096 * a + 256 * b + 16 * c + d)
    | _, _, _, _ => none
  | _ => none

/-- What stands between the quotes of a string. -/
inductive Spells : List Char → List Char → Prop
  | nil : Spells [] []
  | plain {c : Char} {t s : List Char} (hPlain : needsEscape c = false) (h : Spells t s) :
      Spells (c :: t) (c :: s)
  | short {e c : Char} {t s : List Char} (hEscape : (e, c) ∈ shortEscapes) (h : Spells t s) :
      Spells ('\\' :: e :: t) (c :: s)
  | unicode {hex : List Char} {c : Char} {t s : List Char} (hCode : hexCode hex = some c.toNat)
      (h : Spells t s) : Spells ('\\' :: 'u' :: (hex ++ t)) (c :: s)
  | surrogates {high low : List Char} {m n : ℕ} {c : Char} {t s : List Char}
      (hHigh : hexCode high = some (0xD800 + m)) (hLow : hexCode low = some (0xDC00 + n))
      (hM : m < 0x400) (hN : n < 0x400) (hCode : c.toNat = 0x10000 + 0x400 * m + n)
      (h : Spells t s) :
      Spells ('\\' :: 'u' :: (high ++ '\\' :: 'u' :: (low ++ t))) (c :: s)

/-- A string and its quotes. -/
def Quoted (s t : List Char) : Prop := ∃ u, Spells u s ∧ t = '"' :: (u ++ ['"'])

def Digits (t : List Char) : Prop := t ≠ [] ∧ ∀ c ∈ t, c.isDigit = true

/-- An integer, a fraction and an exponent, the latter two if there are any. -/
def IsNumber (t : List Char) : Prop :=
  ∃ sign int frac exp, t = sign ++ (int ++ (frac ++ exp)) ∧ (sign = [] ∨ sign = ['-']) ∧
    (Digits int ∧ (int = ['0'] ∨ int.head? ≠ some '0')) ∧
    (frac = [] ∨ ∃ ds, Digits ds ∧ frac = '.' :: ds) ∧
    (exp = [] ∨ ∃ e sign ds, (e = 'e' ∨ e = 'E') ∧ sign ∈ [[], ['+'], ['-']] ∧ Digits ds ∧
      exp = e :: (sign ++ ds))

mutual

/-- The texts of a value. -/
def Spelled : Value → List Char → Prop
  | .null, t => t = "null".toList
  | .bool b, t => t = (if b then "true" else "false").toList
  | .num token, t => IsNumber token ∧ t = token
  | .str s, t => Quoted s t
  | .arr items, t => ∃ u, SpelledItems items u ∧ t = '[' :: (u ++ [']'])
  | .obj members, t => ∃ u, SpelledMembers members u ∧ t = '{' :: (u ++ ['}'])

def SpelledItems : List Value → List Char → Prop
  | [], t => Blank t
  | [v], t => Padded (Spelled v) t
  | v :: w :: rest, t =>
    ∃ a b, Padded (Spelled v) a ∧ SpelledItems (w :: rest) b ∧ t = a ++ ',' :: b

def SpelledMembers : List (List Char × Value) → List Char → Prop
  | [], t => Blank t
  | [(k, v)], t => ∃ a b, Padded (Quoted k) a ∧ Padded (Spelled v) b ∧ t = a ++ ':' :: b
  | (k, v) :: m :: rest, t =>
    ∃ a b c, Padded (Quoted k) a ∧ Padded (Spelled v) b ∧ SpelledMembers (m :: rest) c ∧
      t = a ++ ':' :: (b ++ ',' :: c)

end

/-! ## What is read of a value -/

/-- The last member of a name. -/
def member (k : List Char) : List (List Char × Value) → Option Value
  | [] => none
  | (k', v) :: rest => (member k rest).or (if k' = k then some v else none)

mutual

/-- All that is expected can be read in the value; an object may have more members. -/
def Shows : Value → Value → Prop
  | .null, v => v = .null
  | .bool b, v => v = .bool b
  | .num token, v => v = .num token
  | .str s, v => v = .str s
  | .arr items, v => ∃ read, v = .arr read ∧ ShowsItems items read
  | .obj members, v => ∃ read, v = .obj read ∧ ShowsMembers members read

def ShowsItems : List Value → List Value → Prop
  | [], read => read = []
  | e :: rest, read => ∃ v read', read = v :: read' ∧ Shows e v ∧ ShowsItems rest read'

def ShowsMembers : List (List Char × Value) → List (List Char × Value) → Prop
  | [], _ => True
  | (k, e) :: rest, read => (∃ v, member k read = some v ∧ Shows e v) ∧ ShowsMembers rest read

end

/-- The text is one value, with blanks around it, in which all that is expected can be read. -/
def Readable (text : List Char) (expected : Value) : Prop :=
  ∃ read, Padded (Spelled read) text ∧ Shows expected read

/-! ## Compact texts -/

mutual

/-- The value without blanks, its strings between quotes as they are. -/
def compact : Value → List Char
  | .null => "null".toList
  | .bool b => (if b then "true" else "false").toList
  | .num token => token
  | .str s => '"' :: (s ++ ['"'])
  | .arr items => '[' :: (compactItems items ++ [']'])
  | .obj members => '{' :: (compactMembers members ++ ['}'])

def compactItems : List Value → List Char
  | [] => []
  | [v] => compact v
  | v :: w :: rest => compact v ++ ',' :: compactItems (w :: rest)

def compactMembers : List (List Char × Value) → List Char
  | [] => []
  | [(k, v)] => '"' :: (k ++ '"' :: ':' :: compact v)
  | (k, v) :: m :: rest => '"' :: (k ++ '"' :: ':' :: (compact v ++ ',' :: compactMembers (m :: rest)))

end

mutual

/-- The characters of its strings that are to be escaped. -/
def escapes : Value → ℕ
  | .null => 0
  | .bool _ => 0
  | .num _ => 0
  | .str s => s.countP needsEscape
  | .arr items => itemsEscapes items
  | .obj members => membersEscapes members

def itemsEscapes : List Value → ℕ
  | [] => 0
  | v :: rest => escapes v + itemsEscapes rest

def membersEscapes : List (List Char × Value) → ℕ
  | [] => 0
  | (k, v) :: rest => k.countP needsEscape + escapes v + membersEscapes rest

end

mutual

/-- Its tokens are numbers, and the names of each object differ. -/
def Wf : Value → Prop
  | .null => True
  | .bool _ => True
  | .num token => IsNumber token
  | .str _ => True
  | .arr items => WfItems items
  | .obj members => (members.map Prod.fst).Nodup ∧ WfMembers members

def WfItems : List Value → Prop
  | [] => True
  | v :: rest => Wf v ∧ WfItems rest

def WfMembers : List (List Char × Value) → Prop
  | [] => True
  | (_, v) :: rest => Wf v ∧ WfMembers rest

end

/-! ## Weights -/

/-- A character that is to be escaped counts for two. -/
def textWeight (s : List Char) : ℕ := s.length + s.countP needsEscape

mutual

/-- The least number of characters of a value. -/
def weight : Value → ℕ
  | .null => 4
  | .bool b => (if b then "true" else "false").toList.length
  | .num token => token.length
  | .str s => textWeight s + 2
  | .arr items => max 1 (itemsWeight items) + 1
  | .obj members => max 1 (membersWeight members) + 1

/-- Each item with what follows it. -/
def itemsWeight : List Value → ℕ
  | [] => 0
  | v :: rest => weight v + 1 + itemsWeight rest

def membersWeight : List (List Char × Value) → ℕ
  | [] => 0
  | (k, v) :: rest => textWeight k + 3 + weight v + 1 + membersWeight rest

end

theorem length_of_hexCode {hex : List Char} {n : ℕ} (h : hexCode hex = some n) :
    hex.length = 4 := by
  unfold hexCode at h
  split at h
  · rfl
  · cases h

theorem textWeight_cons_le (c : Char) (s : List Char) :
    textWeight (c :: s) ≤ textWeight s + 2 := by
  unfold textWeight
  rw [List.length_cons, List.countP_cons]
  split <;> omega

/-- A string is not written with fewer characters than it weighs. -/
theorem textWeight_le_length {t s : List Char} (h : Spells t s) : textWeight s ≤ t.length := by
  -- on the spelling: an escape is longer than the character that it stands for
  induction h with
  | nil => exact Nat.le_refl 0
  | @plain c t s hPlain h ih =>
    unfold textWeight at *
    rw [List.countP_cons_of_neg (by rw [hPlain]; exact Bool.false_ne_true), List.length_cons,
      List.length_cons]
    omega
  | @short e c t s hEscape h ih =>
    have hCons := textWeight_cons_le c s
    rw [List.length_cons, List.length_cons]
    omega
  | @unicode hex c t s hCode h ih =>
    have hCons := textWeight_cons_le c s
    rw [List.length_cons, List.length_cons, List.length_append, length_of_hexCode hCode]
    omega
  | @surrogates high low m n c t s hHigh hLow hM hN hCode h ih =>
    have hCons := textWeight_cons_le c s
    rw [List.length_cons, List.length_cons, List.length_append, List.length_cons, List.length_cons,
      List.length_append, length_of_hexCode hHigh, length_of_hexCode hLow]
    omega

theorem quoted_length {s t : List Char} (h : Quoted s t) : textWeight s + 2 ≤ t.length := by
  obtain ⟨u, hSpells, rfl⟩ := h
  have hWeight := textWeight_le_length hSpells
  rw [List.length_cons, List.length_append, List.length_singleton]
  omega

/-- Blanks only add to a text. -/
theorem le_length_of_padded {P : List Char → Prop} {n : ℕ} (hP : ∀ u, P u → n ≤ u.length)
    {t : List Char} (h : Padded P t) : n ≤ t.length := by
  obtain ⟨left, u, right, -, hu, -, rfl⟩ := h
  have hLe := hP u hu
  rw [List.length_append, List.length_append]
  omega

mutual

/-- No text of a value is shorter than its weight. -/
theorem weight_le_length : ∀ (v : Value) (t : List Char), Spelled v t → weight v ≤ t.length
  | .null, t, h => by
    rw [Spelled] at h
    rw [h, weight]
    decide
  | .bool b, t, h => by
    rw [Spelled] at h
    rw [h, weight]
  | .num token, t, h => by
    rw [Spelled] at h
    rw [h.2, weight]
  | .str s, t, h => by
    rw [Spelled] at h
    rw [weight]
    exact quoted_length h
  | .arr items, t, h => by
    rw [Spelled] at h
    -- between the brackets stand the items
    obtain ⟨u, hItems, rfl⟩ := h
    have hLe := itemsWeight_le_length items u hItems
    rw [weight, List.length_cons, List.length_append, List.length_singleton]
    omega
  | .obj members, t, h => by
    rw [Spelled] at h
    -- between the braces stand the members
    obtain ⟨u, hMembers, rfl⟩ := h
    have hLe := membersWeight_le_length members u hMembers
    rw [weight, List.length_cons, List.length_append, List.length_singleton]
    omega

theorem itemsWeight_le_length : ∀ (items : List Value) (t : List Char), SpelledItems items t →
    itemsWeight items ≤ t.length + 1
  | [], t, _ => by
    rw [itemsWeight]
    omega
  | [v], t, h => by
    rw [SpelledItems] at h
    have hLe := le_length_of_padded (weight_le_length v) h
    rw [itemsWeight, itemsWeight]
    omega
  | v :: w :: rest, t, h => by
    rw [SpelledItems] at h
    obtain ⟨a, b, ha, hb, rfl⟩ := h
    have hHead := le_length_of_padded (weight_le_length v) ha
    have hRest := itemsWeight_le_length (w :: rest) b hb
    rw [itemsWeight, List.length_append, List.length_cons]
    omega

theorem membersWeight_le_length : ∀ (members : List (List Char × Value)) (t : List Char),
    SpelledMembers members t → membersWeight members ≤ t.length + 1
  | [], t, _ => by
    rw [membersWeight]
    omega
  | [(k, v)], t, h => by
    rw [SpelledMembers] at h
    obtain ⟨a, b, ha, hb, rfl⟩ := h
    have hName := le_length_of_padded (fun _ => quoted_length) ha
    have hValue := le_length_of_padded (weight_le_length v) hb
    rw [membersWeight, membersWeight, List.length_append, List.length_cons]
    omega
  | (k, v) :: m :: rest, t, h => by
    rw [SpelledMembers] at h
    obtain ⟨a, b, c, ha, hb, hc, rfl⟩ := h
    have hName := le_length_of_padded (fun _ => quoted_length) ha
    have hValue := le_length_of_padded (weight_le_length v) hb
    have hRest := membersWeight_le_length (m :: rest) c hc
    rw [membersWeight, List.length_append, List.length_cons, List.length_append, List.length_cons]
    omega

end

/-! ### Against the compact text -/

theorem length_quoted (s : List Char) : ('"' :: (s ++ ['"'])).length = s.length + 2 := by
  rw [List.length_cons, List.length_append, List.length_singleton]

mutual

/-- A value weighs as much as its compact text and what is to be escaped in it. -/
theorem weight_eq : ∀ v : Value, weight v = (compact v).length + escapes v
  | .null => by rw [weight, compact, escapes]; decide
  | .bool b => by rw [weight, compact, escapes]; omega
  | .num token => by rw [weight, compact, escapes]; omega
  | .str s => by
    rw [weight, compact, escapes, length_quoted]
    unfold textWeight
    omega
  | .arr items => by
    have hItems := itemsWeight_eq items
    rw [weight, compact, escapes, List.length_cons, List.length_append, List.length_singleton]
    omega
  | .obj members => by
    have hMembers := membersWeight_eq members
    rw [weight, compact, escapes, List.length_cons, List.length_append, List.length_singleton]
    omega

theorem itemsWeight_eq : ∀ items : List Value,
    max 1 (itemsWeight items) = (compactItems items).length + 1 + itemsEscapes items
  | [] => by rw [itemsWeight, compactItems, itemsEscapes]; rfl
  | [v] => by
    have hv := weight_eq v
    rw [itemsWeight, itemsWeight, compactItems, itemsEscapes, itemsEscapes]
    omega
  | v :: w :: rest => by
    have hv := weight_eq v
    have hRest := itemsWeight_eq (w :: rest)
    -- a nonempty list weighs something
    have hPos : 1 ≤ itemsWeight (w :: rest) := by
      rw [itemsWeight]
      omega
    rw [itemsWeight, compactItems, itemsEscapes, List.length_append, List.length_cons]
    omega

theorem membersWeight_eq : ∀ members : List (List Char × Value),
    max 1 (membersWeight members) =
      (compactMembers members).length + 1 + membersEscapes members
  | [] => by rw [membersWeight, compactMembers, membersEscapes]; rfl
  | [(k, v)] => by
    have hv := weight_eq v
    rw [membersWeight, membersWeight, compactMembers, membersEscapes, membersEscapes,
      List.length_cons, List.length_append, List.length_cons, List.length_cons]
    unfold textWeight
    omega
  | (k, v) :: m :: rest => by
    have hv := weight_eq v
    have hRest := membersWeight_eq (m :: rest)
    -- a member has at least its quotes
    have hPos : 1 ≤ membersWeight (m :: rest) := by
      obtain ⟨k', v'⟩ := m
      rw [membersWeight]
      omega
    rw [membersWeight, compactMembers, membersEscapes, List.length_cons, List.length_append,
      List.length_cons, List.length_cons, List.length_append, List.length_cons]
    unfold textWeight
    omega

end

/-! ### Against what is read -/

theorem mem_of_member {k : List Char} {members : List (List Char × Value)} {v : Value}
    (h : member k members = some v) : (k, v) ∈ members := by
  induction members with
  | nil => cases h
  | cons m rest ih =>
    obtain ⟨k', v'⟩ := m
    rw [member, Option.or_eq_some_iff] at h
    rcases h with h | ⟨-, h⟩
    · exact List.mem_cons_of_mem _ (ih h)
    · split at h
      · rename_i hName
        rw [hName, Option.some.inj h]
        exact List.mem_cons_self
      · cases h

/-- What a member weighs, with what follows it. -/
def memberWeight (m : List Char × Value) : ℕ := textWeight m.1 + 3 + weight m.2 + 1

theorem membersWeight_eq_sum (members : List (List Char × Value)) :
    membersWeight members = (members.map memberWeight).sum := by
  induction members with
  | nil => rw [membersWeight]; rfl
  | cons m rest ih =>
    obtain ⟨k, v⟩ := m
    rw [membersWeight, List.map_cons, List.sum_cons, ih]
    rfl

/-- Different names are read in different members. -/
theorem sum_memberWeight_le {expected read : List (List Char × Value)}
    (hNodup : (expected.map Prod.fst).Nodup)
    (hRead : ∀ m ∈ expected, ∃ v, (m.1, v) ∈ read ∧ weight m.2 ≤ weight v) :
    (expected.map memberWeight).sum ≤ (read.map memberWeight).sum := by
  -- each expected member is found among the read ones, and taken out of them
  induction expected generalizing read with
  | nil => exact Nat.zero_le _
  | cons m rest ih =>
    obtain ⟨v, hMem, hWeight⟩ := hRead m List.mem_cons_self
    obtain ⟨before, after, rfl⟩ := List.append_of_mem hMem
    obtain ⟨hName, hNodup⟩ := List.nodup_cons.mp hNodup
    have hRest := @ih (before ++ after) hNodup fun m' hm' => by
      obtain ⟨v', hMem', hWeight'⟩ := hRead m' (List.mem_cons_of_mem _ hm')
      refine ⟨v', ?_, hWeight'⟩
      -- another name, so that it is still there
      have hNe : m'.1 ≠ m.1 := fun hEq => hName (hEq ▸ List.mem_map_of_mem hm')
      rcases List.mem_append.mp hMem' with h | h
      · exact List.mem_append_left _ h
      · rcases List.mem_cons.mp h with h | h
        · exact absurd (Prod.mk.inj h).1 hNe
        · exact List.mem_append_right _ h
    have hHead : memberWeight m ≤ memberWeight (m.1, v) := by
      unfold memberWeight
      dsimp only
      omega
    rw [List.map_append, List.sum_append] at hRest
    rw [List.map_cons, List.sum_cons, List.map_append, List.sum_append, List.map_cons, List.sum_cons]
    omega

mutual

/-- What shows a value weighs as much at least. -/
theorem weight_le_of_shows : ∀ (e v : Value), Wf e → Shows e v → weight e ≤ weight v
  | .null, v, _, h => by
    rw [Shows] at h
    rw [h]
  | .bool b, v, _, h => by
    rw [Shows] at h
    rw [h]
  | .num token, v, _, h => by
    rw [Shows] at h
    rw [h]
  | .str s, v, _, h => by
    rw [Shows] at h
    rw [h]
  | .arr items, v, hWf, h => by
    rw [Wf] at hWf
    rw [Shows] at h
    obtain ⟨read, rfl, hItems⟩ := h
    have hLe := itemsWeight_le_of_shows items read hWf hItems
    rw [weight, weight]
    omega
  | .obj members, v, hWf, h => by
    rw [Wf] at hWf
    rw [Shows] at h
    obtain ⟨read, rfl, hMembers⟩ := h
    have hRead := weight_le_of_showsMembers members read hWf.2 hMembers
    -- each member that is expected is found under its own key, and no key stands twice
    have hLe := sum_memberWeight_le hWf.1 hRead
    rw [weight, weight, membersWeight_eq_sum, membersWeight_eq_sum]
    omega

theorem itemsWeight_le_of_shows : ∀ (items read : List Value), WfItems items →
    ShowsItems items read → itemsWeight items ≤ itemsWeight read
  | [], read, _, _ => by
    rw [itemsWeight]
    exact Nat.zero_le _
  | e :: rest, read, hWf, h => by
    rw [WfItems] at hWf
    rw [ShowsItems] at h
    obtain ⟨v, read', rfl, hHead, hRest⟩ := h
    have hHeadLe := weight_le_of_shows e v hWf.1 hHead
    have hRestLe := itemsWeight_le_of_shows rest read' hWf.2 hRest
    rw [itemsWeight, itemsWeight]
    omega

theorem weight_le_of_showsMembers : ∀ (members read : List (List Char × Value)),
    WfMembers members → ShowsMembers members read →
      ∀ m ∈ members, ∃ v, (m.1, v) ∈ read ∧ weight m.2 ≤ weight v
  | [], read, _, _ => fun m hm => absurd hm List.not_mem_nil
  | (k, e) :: rest, read, hWf, h => by
    rw [WfMembers] at hWf
    rw [ShowsMembers] at h
    obtain ⟨⟨v, hMember, hShows⟩, hRest⟩ := h
    intro m hm
    rcases List.mem_cons.mp hm with rfl | hm
    · exact ⟨v, mem_of_member hMember, weight_le_of_shows e v hWf.1 hShows⟩
    · exact weight_le_of_showsMembers rest read hWf.2 hRest m hm

end

/-- What is readable is not shorter than what is expected weighs. -/
theorem weight_le_of_readable {text : List Char} {e : Value} (hWf : Wf e) (h : Readable text e) :
    weight e ≤ text.length := by
  obtain ⟨read, hText, hShows⟩ := h
  exact (weight_le_of_shows e read hWf hShows).trans
    (le_length_of_padded (weight_le_length read) hText)

/-! ## Nothing to escape -/

theorem spells_of_plain {s : List Char} (h : s.countP needsEscape = 0) : Spells s s := by
  induction s with
  | nil => exact .nil
  | cons c s ih =>
    rw [List.countP_cons] at h
    cases hc : needsEscape c with
    | true => rw [hc] at h; simp at h
    | false => exact .plain hc (ih (by rw [hc] at h; simpa using h))

theorem padded_self {P : List Char → Prop} {t : List Char} (h : P t) : Padded P t :=
  ⟨[], t, [], nofun, h, nofun, by rw [List.nil_append, List.append_nil]⟩

theorem quoted_of_plain {s : List Char} (h : s.countP needsEscape = 0) :
    Quoted s ('"' :: (s ++ ['"'])) := ⟨s, spells_of_plain h, rfl⟩

mutual

/-- The compact text of a value without anything to escape is one of its texts. -/
theorem spelled_compact : ∀ v : Value, Wf v → escapes v = 0 → Spelled v (compact v)
  | .null, _, _ => by rw [Spelled, compact]
  | .bool b, _, _ => by rw [Spelled, compact]
  | .num token, hWf, _ => by
    rw [Wf] at hWf
    rw [Spelled, compact]
    exact ⟨hWf, rfl⟩
  -- a string with nothing to escape is itself between quotes
  | .str s, _, h => by
    rw [escapes] at h
    rw [Spelled, compact]
    exact quoted_of_plain h
  | .arr items, hWf, h => by
    rw [Wf] at hWf
    rw [escapes] at h
    rw [Spelled, compact]
    exact ⟨_, spelledItems_compact items hWf h, rfl⟩
  | .obj members, hWf, h => by
    rw [Wf] at hWf
    rw [escapes] at h
    rw [Spelled, compact]
    exact ⟨_, spelledMembers_compact members hWf.2 h, rfl⟩

theorem spelledItems_compact : ∀ items : List Value, WfItems items → itemsEscapes items = 0 →
    SpelledItems items (compactItems items)
  | [], _, _ => by
    rw [SpelledItems, compactItems]
    exact nofun
  | [v], hWf, h => by
    rw [WfItems] at hWf
    rw [itemsEscapes, itemsEscapes] at h
    rw [SpelledItems, compactItems]
    exact padded_self (spelled_compact v hWf.1 (by omega))
  | v :: w :: rest, hWf, h => by
    rw [WfItems] at hWf
    rw [itemsEscapes] at h
    rw [SpelledItems, compactItems]
    exact ⟨_, _, padded_self (spelled_compact v hWf.1 (by omega)),
      spelledItems_compact (w :: rest) hWf.2 (by omega), rfl⟩

/-- The compact members are a spelling of the members. -/
theorem spelledMembers_compact : ∀ members : List (List Char × Value), WfMembers members →
    membersEscapes members = 0 → SpelledMembers members (compactMembers members)
  | [], _, _ => by
    rw [SpelledMembers, compactMembers]
    exact nofun
  | [(k, v)], hWf, h => by
    rw [WfMembers] at hWf
    rw [membersEscapes, membersEscapes] at h
    rw [SpelledMembers, compactMembers]
    refine ⟨_, _, padded_self (quoted_of_plain (by omega)),
      padded_self (spelled_compact v hWf.1 (by omega)), ?_⟩
    simp
  | (k, v) :: m :: rest, hWf, h => by
    rw [WfMembers] at hWf
    rw [membersEscapes] at h
    rw [SpelledMembers, compactMembers]
    refine ⟨_, _, _, padded_self (quoted_of_plain (by omega)),
      padded_self (spelled_compact v hWf.1 (by omega)),
      spelledMembers_compact (m :: rest) hWf.2 (by omega), ?_⟩
    simp

end

theorem member_of_mem {members : List (List Char × Value)} (hNodup : (members.map Prod.fst).Nodup)
    {m : List Char × Value} (h : m ∈ members) : member m.1 members = some m.2 := by
  induction members with
  | nil => cases h
  | cons m' rest ih =>
    obtain ⟨k', v'⟩ := m'
    obtain ⟨hName, hNodup⟩ := List.nodup_cons.mp hNodup
    rw [member]
    rcases List.mem_cons.mp h with rfl | h
    · have hNone : member k' rest = none := by
        cases hMember : member k' rest with
        | none => rfl
        | some v => exact absurd (List.mem_map_of_mem (mem_of_member hMember)) hName
      rw [hNone, if_pos rfl]
      rfl
    · rw [ih hNodup h]
      rfl

mutual

/-- In a value, the value itself can be read. -/
theorem shows_self : ∀ v : Value, Wf v → Shows v v
  | .null, _ => by rw [Shows]
  | .bool b, _ => by rw [Shows]
  | .num token, _ => by rw [Shows]
  | .str s, _ => by rw [Shows]
  | .arr items, hWf => by
    rw [Wf] at hWf
    rw [Shows]
    exact ⟨items, rfl, showsItems_self items hWf⟩
  | .obj members, hWf => by
    rw [Wf] at hWf
    rw [Shows]
    exact ⟨members, rfl, showsMembers_of_subset members members hWf.1 hWf.2 fun _ h => h⟩

theorem showsItems_self : ∀ items : List Value, WfItems items → ShowsItems items items
  | [], _ => by rw [ShowsItems]
  | v :: rest, hWf => by
    rw [WfItems] at hWf
    rw [ShowsItems]
    exact ⟨v, rest, rfl, shows_self v hWf.1, showsItems_self rest hWf.2⟩

theorem showsMembers_of_subset : ∀ members read : List (List Char × Value),
    (read.map Prod.fst).Nodup → WfMembers members → (∀ m ∈ members, m ∈ read) →
      ShowsMembers members read
  | [], read, _, _, _ => by rw [ShowsMembers]; trivial
  | (k, v) :: rest, read, hNodup, hWf, hSub => by
    rw [WfMembers] at hWf
    rw [ShowsMembers]
    refine ⟨⟨v, ?_, shows_self v hWf.1⟩, showsMembers_of_subset rest read hNodup hWf.2
      fun m hm => hSub m (List.mem_cons_of_mem _ hm)⟩
    exact member_of_mem hNodup (hSub (k, v) List.mem_cons_self)

end

/-! ## Lists of values -/

theorem compactItems_eq (items : List Value) :
    compactItems items = [','].intercalate (items.map compact) := by
  induction items with
  | nil => rfl
  | cons v rest ih =>
    cases rest with
    | nil => rw [compactItems, List.map_singleton, List.intercalate_singleton]
    | cons w rest =>
      rw [compactItems, ih, List.map_cons, List.map_cons, List.map_cons, List.intercalate_cons_cons,
        List.append_assoc, List.singleton_append]

theorem wfItems_iff {items : List Value} : WfItems items ↔ ∀ v ∈ items, Wf v := by
  induction items with
  | nil => simp [WfItems]
  | cons v rest ih => rw [WfItems, ih, List.forall_mem_cons]

theorem wfMembers_iff {members : List (List Char × Value)} :
    WfMembers members ↔ ∀ m ∈ members, Wf m.2 := by
  induction members with
  | nil => simp [WfMembers]
  | cons m rest ih =>
    obtain ⟨k, v⟩ := m
    rw [WfMembers, ih, List.forall_mem_cons]

theorem membersEscapes_eq_zero_iff {members : List (List Char × Value)} :
    membersEscapes members = 0 ↔ ∀ m ∈ members, m.1.countP needsEscape = 0 ∧ escapes m.2 = 0 := by
  induction members with
  | nil => simp [membersEscapes]
  | cons m rest ih =>
    obtain ⟨k, v⟩ := m
    rw [membersEscapes, List.forall_mem_cons, ← ih, Nat.add_eq_zero_iff, Nat.add_eq_zero_iff]

theorem itemsEscapes_eq_zero_iff {items : List Value} :
    itemsEscapes items = 0 ↔ ∀ v ∈ items, escapes v = 0 := by
  induction items with
  | nil => simp [itemsEscapes]
  | cons v rest ih => rw [itemsEscapes, List.forall_mem_cons, ← ih, Nat.add_eq_zero_iff]

/-! ## Readable texts -/

/--
**Compact texts.** The compact text of a value is one value in which it can be
read exactly where there is nothing to escape in it.
-/
theorem readable_compact_iff {v : Value} (hWf : Wf v) : Readable (compact v) v ↔ escapes v = 0 := by
  constructor
  · intro h
    have hLe := weight_le_of_readable hWf h
    rw [weight_eq] at hLe
    omega
  · intro h
    exact ⟨v, padded_self (spelled_compact v hWf h), shows_self v hWf⟩

/-- A text shorter than the compact one is not readable. -/
theorem not_readable_of_short {text : List Char} {v : Value} (hWf : Wf v)
    (h : text.length < (compact v).length) : ¬ Readable text v := by
  intro hRead
  have hLe := weight_le_of_readable hWf hRead
  rw [weight_eq] at hLe
  omega

/-! ## Numbers -/

/-- Only the number zero starts with a zero. -/
theorem head_toDigits (n : ℕ) (h : 0 < n) : (Nat.toDigits 10 n).head? ≠ some '0' := by
  induction n using Nat.strongRecOn with
  | ind n ih =>
    rcases Nat.lt_or_ge n 10 with hSmall | hLarge
    · rw [Nat.toDigits_of_lt_base hSmall, List.head?_cons]
      interval_cases n <;> decide
    · rw [Nat.toDigits_of_base_le (by omega) hLarge, List.head?_append_of_ne_nil _ Nat.toDigits_ne_nil]
      exact ih (n / 10) (by omega) (by omega)

/-- The digits of a number are a token. -/
theorem isNumber_toDigits (n : ℕ) : IsNumber (Nat.toDigits 10 n) := by
  have hDigits : Digits (Nat.toDigits 10 n) :=
    ⟨Nat.toDigits_ne_nil, fun c hc => Nat.isDigit_of_mem_toDigits (by omega) (by omega) hc⟩
  have hHead : Nat.toDigits 10 n = ['0'] ∨ (Nat.toDigits 10 n).head? ≠ some '0' := by
    rcases Nat.eq_zero_or_pos n with rfl | hPos
    · exact .inl (Nat.toDigits_zero 10)
    · exact .inr (head_toDigits n hPos)
  exact ⟨[], Nat.toDigits 10 n, [], [], by simp, .inl rfl, ⟨hDigits, hHead⟩, .inl rfl, .inl rfl⟩

end JsonText
