import KeroseneVault.Lib.SortedMap
import Mathlib.Data.String.Basic

/-!
# JSON

Values of null, booleans, unsigned 64-bit numbers, strings, arrays and objects, and
their compact text in which a string escapes its backslashes and its quotes and
nothing else. A reader that holds to the grammar takes such a text back exactly
where no string in it has a control character, which the grammar forbids.

* `chars`, `render` — the text of a value;
* `Clean` — no string of the value has a control character;
* `normal` — the value with the fields of its objects in the order of their keys;
* `get`, `field`, `asBool`, `asStr`, `asArray`, `asU64` — what is read of a value;
* `read` — a reader of such texts.

Main results:

* `read_render` — a text reads back exactly where its value is clean;
* `field_normal` — the order of the fields does not matter to what is read.
-/

inductive Json where
  | null
  | bool (b : Bool)
  | num (n : UInt64)
  | str (s : String)
  | arr (items : List Json)
  | obj (fields : List (String × Json))

namespace Json

/-! ## Texts -/

def escapeChars (cs : List Char) : List Char :=
  cs.flatMap fun c => if c = '\\' then ['\\', '\\'] else if c = '"' then ['\\', '"'] else [c]

theorem escapeChars_nil : escapeChars [] = [] := rfl

theorem escapeChars_cons (c : Char) (cs : List Char) : escapeChars (c :: cs) =
    (if c = '\\' then ['\\', '\\'] else if c = '"' then ['\\', '"'] else [c]) ++ escapeChars cs :=
  List.flatMap_cons ..

def quote (s : String) : List Char := '"' :: (escapeChars s.toList ++ ['"'])

mutual

def chars : Json → List Char
  | .null => "null".toList
  | .bool b => (if b then "true" else "false").toList
  | .num n => Nat.toDigits 10 n.toNat
  | .str s => quote s
  | .arr items => '[' :: (itemChars items ++ [']'])
  | .obj fields => '{' :: (fieldChars fields ++ ['}'])

def itemChars : List Json → List Char
  | [] => []
  | [v] => chars v
  | v :: w :: rest => chars v ++ ',' :: itemChars (w :: rest)

def fieldChars : List (String × Json) → List Char
  | [] => []
  | [(k, v)] => quote k ++ ':' :: chars v
  | (k, v) :: e :: rest => quote k ++ ':' :: chars v ++ ',' :: fieldChars (e :: rest)

end

def render (v : Json) : String := String.ofList (chars v)

theorem itemChars_eq (vs : List Json) : itemChars vs = [','].intercalate (vs.map chars) := by
  induction vs with
  | nil => rfl
  | cons v rest ih =>
    cases rest with
    | nil => simp [itemChars]
    | cons w ws => simp [itemChars, ih, List.intercalate]

/-! ## Values -/

mutual

/-- How deep arrays and objects are nested. -/
def depth : Json → Nat
  | .arr items => itemsDepth items + 1
  | .obj fields => fieldsDepth fields + 1
  | _ => 0

def itemsDepth : List Json → Nat
  | [] => 0
  | v :: rest => max (depth v) (itemsDepth rest)

def fieldsDepth : List (String × Json) → Nat
  | [] => 0
  | (_, v) :: rest => max (depth v) (fieldsDepth rest)

end

/-- `U+0000` to `U+001F`. -/
def isControl (c : Char) : Bool := c.toNat < 0x20

/-- The text has no control character. -/
def Clear (s : String) : Prop := ∀ c ∈ s.toList, isControl c = false

instance decidableClear (s : String) : Decidable (Clear s) := List.decidableBAll _ s.toList

mutual

/-- No string of the value has a control character. -/
def Clean : Json → Prop
  | .str s => Clear s
  | .arr items => CleanItems items
  | .obj fields => CleanFields fields
  | _ => True

def CleanItems : List Json → Prop
  | [] => True
  | v :: rest => Clean v ∧ CleanItems rest

def CleanFields : List (String × Json) → Prop
  | [] => True
  | (k, v) :: rest => Clear k ∧ Clean v ∧ CleanFields rest

end

mutual

/-- The fields of the objects in the order of their keys. -/
def normal : Json → Json
  | .arr items => .arr (normalItems items)
  | .obj fields => .obj (SortedMap.ofList (normalFields fields)).entries
  | v => v

def normalItems : List Json → List Json
  | [] => []
  | v :: rest => normal v :: normalItems rest

def normalFields : List (String × Json) → List (String × Json)
  | [] => []
  | (k, v) :: rest => (k, normal v) :: normalFields rest

end

theorem normalItems_eq (items : List Json) : normalItems items = items.map normal := by
  induction items with
  | nil => rfl
  | cons v rest ih => rw [normalItems, ih, List.map_cons]

theorem normalFields_eq (fields : List (String × Json)) :
    normalFields fields = fields.map fun e => (e.1, normal e.2) := by
  induction fields with
  | nil => rfl
  | cons e rest ih => rw [normalFields, ih, List.map_cons]

theorem cleanItems_iff {items : List Json} : CleanItems items ↔ ∀ v ∈ items, Clean v := by
  induction items with
  | nil => simp [CleanItems]
  | cons v rest ih => rw [CleanItems, ih, List.forall_mem_cons]

theorem itemsDepth_le {items : List Json} {n : Nat} (h : ∀ v ∈ items, depth v ≤ n) :
    itemsDepth items ≤ n := by
  induction items with
  | nil => exact Nat.zero_le n
  | cons v rest ih =>
    obtain ⟨hv, hRest⟩ := List.forall_mem_cons.mp h
    exact max_le hv (ih hRest)

/-! ### What is read of a value -/

/-- The field of an object, if there is one. -/
def get : Json → String → Option Json
  | .obj fields, k => SortedMap.lookupEntry k fields
  | _, _ => none

/-- The field of an object, or null. -/
def field : Json → String → Json
  | .obj fields, k => (SortedMap.lookupEntry k fields).getD .null
  | _, _ => .null

def asBool : Json → Option Bool
  | .bool b => some b
  | _ => none

def asStr : Json → Option String
  | .str s => some s
  | _ => none

def asArray : Json → Option (List Json)
  | .arr items => some items
  | _ => none

def asU64 : Json → Option UInt64
  | .num n => some n
  | _ => none

@[simp] theorem asBool_normal (v : Json) : (normal v).asBool = v.asBool := by
  cases v <;> rfl

@[simp] theorem asStr_normal (v : Json) : (normal v).asStr = v.asStr := by
  cases v <;> rfl

@[simp] theorem asU64_normal (v : Json) : (normal v).asU64 = v.asU64 := by
  cases v <;> rfl

@[simp] theorem asArray_normal (v : Json) :
    (normal v).asArray = v.asArray.map (List.map normal) := by
  cases v with
  | arr items =>
    rw [normal, normalItems_eq]
    rfl
  | _ => rfl

theorem get_normal {fields : List (String × Json)} (h : (fields.map Prod.fst).Nodup)
    (k : String) : (normal (.obj fields)).get k = ((Json.obj fields).get k).map normal := by
  have hKeys : ((normalFields fields).map Prod.fst).Nodup := by
    rwa [normalFields_eq, List.map_map]
  have hLookup : SortedMap.lookupEntry k (normalFields fields) =
      (SortedMap.lookupEntry k fields).map normal := by
    clear h hKeys
    induction fields with
    | nil => rfl
    | cons e rest ih =>
      rw [normalFields, SortedMap.lookupEntry, SortedMap.lookupEntry]
      split
      · rfl
      · exact ih
  have hEntries : SortedMap.lookupEntry k (SortedMap.ofList (normalFields fields)).entries =
      SortedMap.lookupEntry k (normalFields fields) := SortedMap.lookup_ofList hKeys k
  rw [normal, get, hEntries, hLookup, get]

theorem field_eq (v : Json) (k : String) : v.field k = (v.get k).getD .null := by
  cases v <;> rfl

/-- The order of the fields does not matter to what is read. -/
theorem field_normal {fields : List (String × Json)} (h : (fields.map Prod.fst).Nodup)
    (k : String) : (normal (.obj fields)).field k = normal ((Json.obj fields).field k) := by
  rw [field_eq, field_eq, get_normal h]
  cases (Json.obj fields).get k with
  | none => rfl
  | some v => rfl

/-! ## A reader -/

/-- A string up to its closing quote. A control character is refused. -/
def readText : List Char → Option (List Char × List Char)
  | [] => none
  | '"' :: rest => some ([], rest)
  | '\\' :: c :: rest =>
    if c = '"' ∨ c = '\\' then (readText rest).map fun r => (c :: r.1, r.2) else none
  | c :: rest => if isControl c then none else (readText rest).map fun r => (c :: r.1, r.2)

def readDigits (cs : List Char) : Option (Json × List Char) :=
  let digits := cs.takeWhile Char.isDigit
  if digits = [] then none
  else some (.num (UInt64.ofNat (Nat.ofDigitChars 10 digits 0)), cs.dropWhile Char.isDigit)

/-- What comes after a key. -/
def afterColon {α : Type} (cs : List Char) (f : List Char → Option α) : Option α :=
  match cs with
  | ':' :: rest => f rest
  | _ => none

mutual

def readValue : Nat → List Char → Option (Json × List Char)
  | 0, _ => none
  | _ + 1, 'n' :: 'u' :: 'l' :: 'l' :: rest => some (.null, rest)
  | _ + 1, 't' :: 'r' :: 'u' :: 'e' :: rest => some (.bool true, rest)
  | _ + 1, 'f' :: 'a' :: 'l' :: 's' :: 'e' :: rest => some (.bool false, rest)
  | _ + 1, '"' :: rest => (readText rest).map fun r => (.str (String.ofList r.1), r.2)
  | _ + 1, '[' :: ']' :: rest => some (.arr [], rest)
  | fuel + 1, '[' :: rest => (readItems fuel rest).map fun r => (.arr r.1, r.2)
  | _ + 1, '{' :: '}' :: rest => some (.obj [], rest)
  | fuel + 1, '{' :: rest => (readFields fuel rest).map fun r => (.obj r.1, r.2)
  | _ + 1, cs => readDigits cs

def readItems : Nat → List Char → Option (List Json × List Char)
  | 0, _ => none
  | fuel + 1, cs =>
    match readValue fuel cs with
    | some (v, ']' :: rest) => some ([v], rest)
    | some (v, ',' :: rest) => (readItems fuel rest).map fun r => (v :: r.1, r.2)
    | _ => none

def readFields : Nat → List Char → Option (List (String × Json) × List Char)
  | 0, _ => none
  | fuel + 1, '"' :: rest =>
    (readText rest).bind fun key => afterColon key.2 fun rest =>
      match readValue fuel rest with
      | some (v, '}' :: rest) => some ([(String.ofList key.1, v)], rest)
      | some (v, ',' :: rest) =>
        (readFields fuel rest).map fun r => ((String.ofList key.1, v) :: r.1, r.2)
      | _ => none
  | _ + 1, _ => none

end

/-- A reader of compact texts. Every call of a reading takes a character, so that
the length of the text is enough of them. -/
def read (text : String) : Option Json :=
  match readValue text.toList.length text.toList with
  | some (v, []) => some v
  | _ => none

/-! ### Strings and numbers -/

theorem readText_escapeChars {cs : List Char} (rest : List Char)
    (h : ∀ c ∈ cs, isControl c = false) :
    readText (escapeChars cs ++ '"' :: rest) = some (cs, rest) := by
  induction cs with
  | nil => rfl
  | cons c cs ih =>
    obtain ⟨hc, hcs⟩ := List.forall_mem_cons.mp h
    rw [escapeChars_cons]
    by_cases hBackslash : c = '\\'
    · subst hBackslash
      rw [if_pos rfl]
      show readText ('\\' :: '\\' :: (escapeChars cs ++ '"' :: rest)) = _
      rw [readText, if_pos (.inr rfl), ih hcs]
      rfl
    rw [if_neg hBackslash]
    by_cases hQuote : c = '"'
    · subst hQuote
      rw [if_pos rfl]
      show readText ('\\' :: '"' :: (escapeChars cs ++ '"' :: rest)) = _
      rw [readText, if_pos (.inl rfl), ih hcs]
      rfl
    · rw [if_neg hQuote]
      show readText (c :: (escapeChars cs ++ '"' :: rest)) = _
      rw [readText, ih hcs]
      · rw [hc]; rfl
      · exact hQuote
      · intro _ _ hEq; exact absurd hEq hBackslash

theorem readText_control {cs : List Char} (rest : List Char)
    (h : ∃ c ∈ cs, isControl c = true) : readText (escapeChars cs ++ '"' :: rest) = none := by
  induction cs with
  | nil => simp at h
  | cons c cs ih =>
    rw [escapeChars_cons]
    by_cases hBackslash : c = '\\'
    · subst hBackslash
      have hcs : ∃ c ∈ cs, isControl c = true := by simpa [isControl] using h
      rw [if_pos rfl]
      show readText ('\\' :: '\\' :: (escapeChars cs ++ '"' :: rest)) = _
      rw [readText, if_pos (.inr rfl), ih hcs]
      rfl
    rw [if_neg hBackslash]
    by_cases hQuote : c = '"'
    · subst hQuote
      have hcs : ∃ c ∈ cs, isControl c = true := by simpa [isControl] using h
      rw [if_pos rfl]
      show readText ('\\' :: '"' :: (escapeChars cs ++ '"' :: rest)) = _
      rw [readText, if_pos (.inl rfl), ih hcs]
      rfl
    · rw [if_neg hQuote]
      show readText (c :: (escapeChars cs ++ '"' :: rest)) = _
      rw [readText]
      · by_cases hc : isControl c = true
        · rw [if_pos hc]
        · have hcs : ∃ c ∈ cs, isControl c = true := by simpa [hc] using h
          rw [if_neg hc, ih hcs]
          rfl
      · exact hQuote
      · intro _ _ hEq; exact absurd hEq hBackslash

theorem readText_quote (s : String) (rest : List Char) :
    (Clear s → readText (escapeChars s.toList ++ '"' :: rest) = some (s.toList, rest)) ∧
    (¬ Clear s → readText (escapeChars s.toList ++ '"' :: rest) = none) := by
  refine ⟨fun h => readText_escapeChars rest h, fun h => readText_control rest ?_⟩
  unfold Clear at h
  push Not at h
  obtain ⟨c, hc, hControl⟩ := h
  exact ⟨c, hc, by simpa using hControl⟩

/-- A value does not begin as an array ends. -/
theorem chars_head (v : Json) : ∃ c cs, chars v = c :: cs ∧ c ≠ ']' := by
  cases v with
  | null => exact ⟨'n', _, rfl, by decide⟩
  | bool b =>
    cases b with
    | true => exact ⟨'t', _, rfl, by decide⟩
    | false => exact ⟨'f', _, rfl, by decide⟩
  -- a number begins with a digit, which is no closing bracket
  | num n =>
    cases hDigits : Nat.toDigits 10 n.toNat with
    | nil => exact absurd hDigits Nat.toDigits_ne_nil
    | cons c cs =>
      refine ⟨c, cs, hDigits, ?_⟩
      rintro rfl
      have hDigit := Nat.isDigit_of_mem_toDigits (b := 10) (by omega) (by omega)
        (hDigits ▸ List.mem_cons_self ..)
      exact absurd hDigit (by decide)
  | str s => exact ⟨'"', _, rfl, by decide⟩
  | arr items => exact ⟨'[', _, rfl, by decide⟩
  | obj fields => exact ⟨'{', _, rfl, by decide⟩

/-- The digits of a number are read as that number, up to what is no digit. -/
theorem readDigits_toDigits (n : UInt64) {rest : List Char}
    (hRest : ∀ c ∈ rest.head?, c.isDigit = false) :
    readDigits (Nat.toDigits 10 n.toNat ++ rest) = some (.num n, rest) := by
  have hDigits : ∀ c ∈ Nat.toDigits 10 n.toNat, c.isDigit = true := fun c hc =>
    Nat.isDigit_of_mem_toDigits (by omega) (by omega) hc
  have hTake : (Nat.toDigits 10 n.toNat ++ rest).takeWhile Char.isDigit =
      Nat.toDigits 10 n.toNat := by
    rw [List.takeWhile_append_of_pos hDigits]
    cases rest with
    | nil => simp
    | cons c cs => rw [List.takeWhile_cons_of_neg (by simpa using hRest c rfl), List.append_nil]
  have hDrop : (Nat.toDigits 10 n.toNat ++ rest).dropWhile Char.isDigit = rest := by
    rw [List.dropWhile_append_of_pos hDigits]
    cases rest with
    | nil => rfl
    | cons c cs => rw [List.dropWhile_cons_of_neg (by simpa using hRest c rfl)]
  unfold readDigits
  rw [hTake, hDrop]
  dsimp only
  rw [if_neg Nat.toDigits_ne_nil, Nat.ofDigitChars_ten_toDigits, UInt64.ofNat_toNat]

theorem readValue_num (n : UInt64) {rest : List Char}
    (hRest : ∀ c ∈ rest.head?, c.isDigit = false) (fuel : Nat) :
    readValue (fuel + 1) (chars (.num n) ++ rest) = some (.num n, rest) := by
  rw [← readDigits_toDigits n hRest, chars]
  cases hDigits : Nat.toDigits 10 n.toNat with
  | nil => exact absurd hDigits Nat.toDigits_ne_nil
  | cons c cs =>
    have hDigit : c.isDigit = true := Nat.isDigit_of_mem_toDigits (b := 10) (by omega) (by omega)
      (hDigits ▸ List.mem_cons_self ..)
    rw [List.cons_append]
    have h1 : c ≠ 'n' := by rintro rfl; revert hDigit; decide
    have h2 : c ≠ '"' := by rintro rfl; revert hDigit; decide
    have h3 : c ≠ '[' := by rintro rfl; revert hDigit; decide
    have h4 : c ≠ '{' := by rintro rfl; revert hDigit; decide
    have h5 : c ≠ 't' := by rintro rfl; revert hDigit; decide
    have h6 : c ≠ 'f' := by rintro rfl; revert hDigit; decide
    rw [readValue]
    all_goals simp_all

/-! ### Arrays and objects -/

theorem readValue_arr (v : Json) (vs : List Json) (rest : List Char) (fuel : Nat) :
    readValue (fuel + 1) (chars (.arr (v :: vs)) ++ rest) =
      (readItems fuel (itemChars (v :: vs) ++ ']' :: rest)).map fun r => (.arr r.1, r.2) := by
  obtain ⟨c, cs, hChars, hNe⟩ := chars_head v
  have hHead : ∃ tail, itemChars (v :: vs) = c :: tail := by
    cases vs with
    | nil => exact ⟨cs, hChars⟩
    | cons w rest => exact ⟨cs ++ ',' :: itemChars (w :: rest), by rw [itemChars, hChars]; rfl⟩
  obtain ⟨tail, hTail⟩ := hHead
  have hText : chars (.arr (v :: vs)) ++ rest = '[' :: c :: (tail ++ ']' :: rest) := by
    rw [chars, hTail]
    simp
  rw [hText, hTail, readValue]
  · rfl
  · rintro _ hEq
    exact absurd (List.cons.inj hEq).1 hNe

theorem readValue_obj (e : String × Json) (es : List (String × Json)) (rest : List Char)
    (fuel : Nat) :
    readValue (fuel + 1) (chars (.obj (e :: es)) ++ rest) =
      (readFields fuel (fieldChars (e :: es) ++ '}' :: rest)).map fun r => (.obj r.1, r.2) := by
  obtain ⟨k, v⟩ := e
  have hHead : ∃ tail, fieldChars ((k, v) :: es) = '"' :: tail := by
    cases es with
    | nil => exact ⟨_, rfl⟩
    | cons f rest => exact ⟨_, rfl⟩
  obtain ⟨tail, hTail⟩ := hHead
  have hText : chars (.obj ((k, v) :: es)) ++ rest = '{' :: '"' :: (tail ++ '}' :: rest) := by
    rw [chars, hTail]
    simp
  rw [hText, hTail, readValue]
  · rfl
  · rintro _ hEq
    cases hEq

/-- What follows a value in an array. -/
def afterItem : List Json → List Char → List Char
  | [], rest => ']' :: rest
  | w :: ws, rest => ',' :: (itemChars (w :: ws) ++ ']' :: rest)

theorem itemChars_cons (v : Json) (vs : List Json) (rest : List Char) :
    itemChars (v :: vs) ++ ']' :: rest = chars v ++ afterItem vs rest := by
  cases vs with
  | nil => simp [itemChars, afterItem]
  | cons w ws => simp [itemChars, afterItem]

def afterField : List (String × Json) → List Char → List Char
  | [], rest => '}' :: rest
  | e :: es, rest => ',' :: (fieldChars (e :: es) ++ '}' :: rest)

theorem fieldChars_cons (k : String) (v : Json) (fs : List (String × Json)) (rest : List Char) :
    fieldChars ((k, v) :: fs) ++ '}' :: rest =
      '"' :: (escapeChars k.toList ++ '"' :: ':' :: (chars v ++ afterField fs rest)) := by
  cases fs with
  | nil => simp [fieldChars, afterField, quote]
  | cons e es => simp [fieldChars, afterField, quote]

mutual

/-- How many calls reading a value takes. -/
def size : Json → Nat
  | .arr items => itemsSize items + 1
  | .obj fields => fieldsSize fields + 1
  | _ => 1

def itemsSize : List Json → Nat
  | [] => 0
  | v :: rest => size v + itemsSize rest + 1

def fieldsSize : List (String × Json) → Nat
  | [] => 0
  | (_, v) :: rest => size v + fieldsSize rest + 1

end

/-! ### Round trip -/

mutual

/-- The text of a value is read as that value if it is clean, and refused if it is not,
whatever follows it: by induction on the value, with the fuel above its size. -/
theorem readValue_chars (v : Json) {rest : List Char}
    (hRest : ∀ c ∈ rest.head?, c.isDigit = false) {fuel : Nat} (hFuel : size v ≤ fuel) :
    (Clean v → readValue fuel (chars v ++ rest) = some (v, rest)) ∧
      (¬ Clean v → readValue fuel (chars v ++ rest) = none) := by
  match v with
  | .null =>
    obtain ⟨fuel, rfl⟩ := Nat.exists_eq_add_of_le' hFuel
    exact ⟨fun _ => rfl, fun h => absurd trivial h⟩
  | .bool b =>
    obtain ⟨fuel, rfl⟩ := Nat.exists_eq_add_of_le' hFuel
    refine ⟨fun _ => ?_, fun h => absurd trivial h⟩
    cases b with
    | true => rfl
    | false => rfl
  | .num n =>
    obtain ⟨fuel, rfl⟩ := Nat.exists_eq_add_of_le' hFuel
    exact ⟨fun _ => readValue_num n hRest fuel, fun h => absurd trivial h⟩
  | .str s =>
    obtain ⟨fuel, rfl⟩ := Nat.exists_eq_add_of_le' hFuel
    -- a text is read back, or has a control character that was written as it is
    obtain ⟨hClear, hControl⟩ := readText_quote s rest
    have hRead : readValue (fuel + 1) (chars (.str s) ++ rest) =
        (readText (escapeChars s.toList ++ '"' :: rest)).map
          fun r => (.str (String.ofList r.1), r.2) := by
      simp [chars, quote, readValue]
    refine ⟨fun h => ?_, fun h => ?_⟩
    · show readValue (fuel + 1) (chars (.str s) ++ rest) = _
      rw [hRead, hClear h, Option.map_some, String.ofList_toList]
    · show readValue (fuel + 1) (chars (.str s) ++ rest) = _
      rw [hRead, hControl h, Option.map_none]
  | .arr [] =>
    obtain ⟨fuel, rfl⟩ := Nat.exists_eq_add_of_le' hFuel
    exact ⟨fun _ => rfl, fun h => absurd trivial h⟩
  | .arr (w :: ws) =>
    obtain ⟨fuel, rfl⟩ := Nat.exists_eq_add_of_le' hFuel
    -- the bracket costs one step, and the items have the rest
    have hSize : itemsSize (w :: ws) ≤ fuel + itemsSize (w :: ws) := Nat.le_add_left _ _
    obtain ⟨hRead, hNone⟩ := @readItems_chars (w :: ws) nofun rest _ hSize
    rw [size, ← Nat.add_assoc, readValue_arr]
    refine ⟨fun h => ?_, fun h => ?_⟩
    · rw [hRead h, Option.map_some]
    · rw [hNone h, Option.map_none]
  | .obj [] =>
    obtain ⟨fuel, rfl⟩ := Nat.exists_eq_add_of_le' hFuel
    exact ⟨fun _ => rfl, fun h => absurd trivial h⟩
  | .obj (e :: es) =>
    obtain ⟨fuel, rfl⟩ := Nat.exists_eq_add_of_le' hFuel
    have hSize : fieldsSize (e :: es) ≤ fuel + fieldsSize (e :: es) := Nat.le_add_left _ _
    obtain ⟨hRead, hNone⟩ := @readFields_chars (e :: es) nofun rest _ hSize
    rw [size, ← Nat.add_assoc, readValue_obj]
    refine ⟨fun h => ?_, fun h => ?_⟩
    · rw [hRead h, Option.map_some]
    · rw [hNone h, Option.map_none]

/-- The same of the items of an array, up to its end. -/
theorem readItems_chars (items : List Json) (hItems : items ≠ []) {rest : List Char} {fuel : Nat}
    (hFuel : itemsSize items ≤ fuel) :
    (CleanItems items → readItems fuel (itemChars items ++ ']' :: rest) = some (items, rest)) ∧
      (¬ CleanItems items → readItems fuel (itemChars items ++ ']' :: rest) = none) := by
  match items with
  | v :: vs =>
    obtain ⟨fuel, rfl⟩ := Nat.exists_eq_add_of_le' hFuel
    have hAfter : ∀ c ∈ (afterItem vs rest).head?, c.isDigit = false := by
      cases vs <;> simp [afterItem]
    obtain ⟨hValue, hNoValue⟩ := @readValue_chars v _ hAfter (fuel + size v + itemsSize vs)
      (by omega)
    rw [itemChars_cons, itemsSize, ← Nat.add_assoc, ← Nat.add_assoc, readItems]
    -- the first item decides, or else those after it
    by_cases hv : Clean v
    · rw [hValue hv]
      match vs with
      | [] => exact ⟨fun _ => rfl, fun h => absurd ⟨hv, trivial⟩ h⟩
      | w :: ws =>
        obtain ⟨hRead, hNone⟩ := @readItems_chars (w :: ws) nofun rest
          (fuel + size v + itemsSize (w :: ws)) (by omega)
        show (CleanItems (v :: w :: ws) → (readItems (fuel + size v + itemsSize (w :: ws))
            (itemChars (w :: ws) ++ ']' :: rest)).map (fun r => (v :: r.1, r.2)) = _) ∧
          (¬ CleanItems (v :: w :: ws) → (readItems (fuel + size v + itemsSize (w :: ws))
            (itemChars (w :: ws) ++ ']' :: rest)).map (fun r => (v :: r.1, r.2)) = _)
        refine ⟨fun h => ?_, fun h => ?_⟩
        · rw [hRead h.2, Option.map_some]
        · rw [hNone fun hws => h ⟨hv, hws⟩, Option.map_none]
    · rw [hNoValue hv]
      exact ⟨fun h => absurd h.1 hv, fun _ => rfl⟩

/-- The same of the fields of an object, where the keys are read too. -/
theorem readFields_chars (fields : List (String × Json)) (hFields : fields ≠ []) {rest : List Char}
    {fuel : Nat} (hFuel : fieldsSize fields ≤ fuel) :
    (CleanFields fields →
      readFields fuel (fieldChars fields ++ '}' :: rest) = some (fields, rest)) ∧
      (¬ CleanFields fields → readFields fuel (fieldChars fields ++ '}' :: rest) = none) := by
  match fields with
  | (k, v) :: fs =>
    obtain ⟨fuel, rfl⟩ := Nat.exists_eq_add_of_le' hFuel
    have hAfter : ∀ c ∈ (afterField fs rest).head?, c.isDigit = false := by
      cases fs <;> simp [afterField]
    obtain ⟨hValue, hNoValue⟩ := @readValue_chars v _ hAfter (fuel + size v + fieldsSize fs)
      (by omega)
    obtain ⟨hKey, hNoKey⟩ := readText_quote k (':' :: (chars v ++ afterField fs rest))
    rw [fieldChars_cons, fieldsSize, ← Nat.add_assoc, ← Nat.add_assoc, readFields]
    -- the key, then the value, then the fields after them
    by_cases hk : Clear k
    · rw [hKey hk, Option.bind_some, afterColon]
      by_cases hv : Clean v
      · rw [hValue hv]
        match fs with
        | [] =>
          refine ⟨fun _ => ?_, fun h => absurd ⟨hk, hv, trivial⟩ h⟩
          show some ([(String.ofList k.toList, v)], rest) = _
          rw [String.ofList_toList]
        | e :: es =>
          obtain ⟨hRead, hNone⟩ := @readFields_chars (e :: es) nofun rest
            (fuel + size v + fieldsSize (e :: es)) (by omega)
          show (CleanFields ((k, v) :: e :: es) →
              (readFields (fuel + size v + fieldsSize (e :: es))
                (fieldChars (e :: es) ++ '}' :: rest)).map
                  (fun r => ((String.ofList k.toList, v) :: r.1, r.2)) = _) ∧
            (¬ CleanFields ((k, v) :: e :: es) →
              (readFields (fuel + size v + fieldsSize (e :: es))
                (fieldChars (e :: es) ++ '}' :: rest)).map
                  (fun r => ((String.ofList k.toList, v) :: r.1, r.2)) = _)
          refine ⟨fun h => ?_, fun h => ?_⟩
          · rw [hRead h.2.2, Option.map_some, String.ofList_toList]
          · rw [hNone fun hes => h ⟨hk, hv, hes⟩, Option.map_none]
      · rw [hNoValue hv]
        exact ⟨fun h => absurd h.2.1 hv, fun _ => rfl⟩
    · rw [hNoKey hk, Option.bind_none]
      exact ⟨fun h => absurd h.1 hk, fun _ => rfl⟩

end

mutual

/-- A text is at least as long as its value is large, so that its length is fuel enough. -/
theorem size_le_length (v : Json) : size v ≤ (chars v).length := by
  match v with
  | .null => decide
  | .bool b => cases b <;> decide
  | .num n =>
    have hNe : Nat.toDigits 10 n.toNat ≠ [] := Nat.toDigits_ne_nil
    exact List.length_pos_iff.mpr hNe
  | .str s =>
    rw [chars, quote, List.length_cons]
    exact Nat.le_add_left _ _
  | .arr items =>
    have hItems := itemsSize_le_length items
    rw [size, chars, List.length_cons, List.length_append]
    exact Nat.succ_le_succ hItems
  | .obj fields =>
    have hFields := fieldsSize_le_length fields
    rw [size, chars, List.length_cons, List.length_append]
    exact Nat.succ_le_succ hFields

theorem itemsSize_le_length (items : List Json) : itemsSize items ≤ (itemChars items).length + 1 := by
  match items with
  | [] => exact Nat.zero_le _
  | [v] =>
    have hv := size_le_length v
    rw [itemsSize, itemsSize, itemChars]
    omega
  | v :: w :: rest =>
    have hv := size_le_length v
    have hRest := itemsSize_le_length (w :: rest)
    rw [itemsSize, itemChars, List.length_append, List.length_cons]
    omega

theorem fieldsSize_le_length (fields : List (String × Json)) :
    fieldsSize fields ≤ (fieldChars fields).length + 1 := by
  match fields with
  | [] => exact Nat.zero_le _
  | [(k, v)] =>
    have hv := size_le_length v
    rw [fieldsSize, fieldsSize, fieldChars, List.length_append, List.length_cons]
    omega
  | (k, v) :: e :: rest =>
    have hv := size_le_length v
    have hRest := fieldsSize_le_length (e :: rest)
    rw [fieldsSize, fieldChars, List.length_append, List.length_append, List.length_cons,
      List.length_cons]
    omega

end

/-- A text reads back exactly where its value is clean. -/
theorem read_render (v : Json) :
    (Clean v → read (render v) = some v) ∧ (¬ Clean v → read (render v) = none) := by
  obtain ⟨hRead, hNone⟩ := @readValue_chars v [] nofun _ (size_le_length v)
  rw [List.append_nil] at hRead hNone
  unfold read render
  rw [String.toList_ofList]
  refine ⟨fun h => ?_, fun h => ?_⟩
  · rw [hRead h]
  · rw [hNone h]

end Json
