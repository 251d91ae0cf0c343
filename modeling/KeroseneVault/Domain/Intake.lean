import KeroseneVault.Domain.Hex

/-!
# Answers of functions that may panic

Slices, indices and sums of lengths are checked while a program runs: outside their
bounds it panics instead of returning. A function that uses them answers with an `Intake`.

* `Intake` — an answer, or a panic;
* `slice`, `sliceFrom`, `byteAt` — parts of a byte string;
* `usizeAdd` — a sum of lengths.

Main results:

* `slice_parts`, `sliceFrom_parts`, `byteAt_parts` — what they are on parts that stand one
  after the other;
* `exists_parts` — and a byte string long enough has such parts.
-/

namespace KeroseneVault

/-- The answer of a function that may panic. -/
inductive Intake (ε α : Type) where
  | panicked
  | error (e : ε)
  | ok (a : α)

namespace Intake

/-- What follows an answer that is Ok. -/
def andThen {ε α β : Type} : Intake ε α → (α → Intake ε β) → Intake ε β
  | .panicked, _ => .panicked
  | .error e, _ => .error e
  | .ok a, f => f a

/-- A result, of which there is always one. -/
def ofExcept {ε α : Type} : Except ε α → Intake ε α
  | .error e => .error e
  | .ok a => .ok a

instance monad {ε : Type} : Monad (Intake ε) where
  pure := .ok
  bind := andThen

@[simp] theorem ok_bind {ε α β : Type} (a : α) (f : α → Intake ε β) :
    (Intake.ok a >>= f) = f a := rfl

@[simp] theorem ok_andThen {ε α β : Type} (a : α) (f : α → Intake ε β) :
    (Intake.ok a).andThen f = f a := rfl

/-- What follows a result. -/
theorem ofExcept_andThen {ε α β : Type} (x : Except ε α) (f : α → Intake ε β) :
    (ofExcept x).andThen f = match x with
      | .error e => .error e
      | .ok a => f a := by
  cases x <;> rfl

theorem ofExcept_ne_panicked {ε α : Type} (x : Except ε α) : ofExcept x ≠ .panicked := by
  intro h
  cases x with
  | error e => cases h
  | ok a => cases h

end Intake

-- ---------------------------------------------------------------------------
-- Parts of a byte string
-- ---------------------------------------------------------------------------

section Parts

variable {ε : Type}

/-- `&bytes[i..j]`. -/
def slice (bytes : List UInt8) (i j : ℕ) : Intake ε (List UInt8) :=
  if i ≤ j ∧ j ≤ bytes.length then .ok ((bytes.drop i).take (j - i)) else .panicked

/-- `&bytes[i..]`. -/
def sliceFrom (bytes : List UInt8) (i : ℕ) : Intake ε (List UInt8) :=
  if i ≤ bytes.length then .ok (bytes.drop i) else .panicked

/-- `bytes[i]`. -/
def byteAt (bytes : List UInt8) (i : ℕ) : Intake ε UInt8 :=
  match bytes[i]? with
  | some b => .ok b
  | none => .panicked

/-- `a + b` on `usize`. -/
def usizeAdd (a b : ℕ) : Intake ε ℕ := if a + b < 2 ^ 64 then .ok (a + b) else .panicked

/-- A slice within bounds. -/
theorem slice_eq {bytes : List UInt8} {i j n : ℕ} (hj : j ≤ bytes.length) (hn : i + n = j) :
    (slice bytes i j : Intake ε (List UInt8)) = .ok ((bytes.drop i).take n) := by
  subst hn
  unfold slice
  rw [if_pos ⟨Nat.le_add_right i n, hj⟩, Nat.add_sub_cancel_left]

theorem slice_parts {a b c : List UInt8} {i j : ℕ} (hi : a.length = i) (hj : i + b.length = j) :
    (slice (a ++ (b ++ c)) i j : Intake ε (List UInt8)) = .ok b := by
  subst hi
  have hLength : j ≤ (a ++ (b ++ c)).length := by
    rw [List.length_append, List.length_append]
    omega
  rw [slice_eq hLength hj, List.drop_left, List.take_left]

theorem sliceFrom_parts {a b : List UInt8} {i : ℕ} (hi : a.length = i) :
    (sliceFrom (a ++ b) i : Intake ε (List UInt8)) = .ok b := by
  subst hi
  unfold sliceFrom
  rw [if_pos (by rw [List.length_append]; omega), List.drop_left]

theorem byteAt_parts {a b : List UInt8} {x : UInt8} {i : ℕ} (hi : a.length = i) :
    (byteAt (a ++ x :: b) i : Intake ε UInt8) = .ok x := by
  subst hi
  unfold byteAt
  rw [List.getElem?_append_right (Nat.le_refl _), Nat.sub_self]
  rfl

theorem usizeAdd_eq {a b : ℕ} (h : a + b < 2 ^ 64) : (usizeAdd a b : Intake ε ℕ) = .ok (a + b) :=
  if_pos h

/-- The first part of a byte string that is long enough, and the rest. -/
theorem exists_parts {bytes : List UInt8} {n : ℕ} (h : n ≤ bytes.length) :
    ∃ a b, bytes = a ++ b ∧ a.length = n :=
  ⟨bytes.take n, bytes.drop n, (List.take_append_drop n bytes).symm, List.length_take_of_le h⟩

end Parts

-- ---------------------------------------------------------------------------
-- Numbers, the first byte the greatest
-- ---------------------------------------------------------------------------

/-- `to_be_bytes`. -/
def beBytes (k n : ℕ) : List UInt8 := (leBytes k n).reverse

/-- `from_be_bytes`. -/
def beNat (bytes : List UInt8) : ℕ := leNat bytes.reverse

@[simp] theorem length_beBytes (k n : ℕ) : (beBytes k n).length = k := by
  rw [beBytes, List.length_reverse, length_leBytes]

theorem leNat_lt (bytes : List UInt8) : leNat bytes < 256 ^ bytes.length := by
  induction bytes with
  | nil => exact Nat.one_pos
  | cons b bytes ih =>
    have hb := b.toNat_lt
    rw [leNat, List.length_cons, Nat.pow_succ]
    omega

/-- Four bytes are a `u32`. -/
theorem leNat_lt_of_length {bytes : List UInt8} (h : bytes.length = 4) : leNat bytes < 2 ^ 32 := by
  have hLess := leNat_lt bytes
  have hPow : 256 ^ bytes.length = 2 ^ 32 := by
    rw [h]
    norm_num
  rwa [hPow] at hLess

/-- The bytes are the digits of the number they are read as. -/
theorem leBytes_leNat (bytes : List UInt8) : leBytes bytes.length (leNat bytes) = bytes := by
  induction bytes with
  | nil => rfl
  | cons b bytes ih =>
    have hb := b.toNat_lt
    rw [List.length_cons, leBytes_succ, leNat, Nat.add_mul_mod_self_left, Nat.mod_eq_of_lt hb,
      UInt8.ofNat_toNat, Nat.add_mul_div_left _ _ (by omega), Nat.div_eq_of_lt hb, Nat.zero_add, ih]

theorem beNat_lt_of_four (b0 b1 b2 b3 : UInt8) : beNat [b0, b1, b2, b3] < 2 ^ 32 :=
  leNat_lt_of_length rfl

theorem beNat_beBytes {k n : ℕ} (h : n < 256 ^ k) : beNat (beBytes k n) = n := by
  rw [beNat, beBytes, List.reverse_reverse, leNat_leBytes h]

theorem beBytes_beNat (bytes : List UInt8) : beBytes bytes.length (beNat bytes) = bytes := by
  have h := leBytes_leNat bytes.reverse
  rw [List.length_reverse] at h
  rw [beBytes, beNat, h, List.reverse_reverse]

end KeroseneVault
