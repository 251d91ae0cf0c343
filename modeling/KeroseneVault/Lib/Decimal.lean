import Mathlib.Data.Char
import Mathlib.Data.List.Lex
import Mathlib.Data.Nat.Digits.Defs

/-!
# Decimals of a fixed width

Numbers written with as many digits as the width says, zeros in front. Texts of one
length compare as their first parts do, and as the rest where those are equal; so
decimals of one width compare as the numbers.

* `digits` — the last digits of a number, as many as the width.

Main results:

* `digits_lt_iff` — the order of the texts is that of the numbers;
* `replicate_append_toDigits` — a number padded with zeros has this form.
-/

namespace Decimal

-- ---------------------------------------------------------------------------
-- The order of texts part by part
-- ---------------------------------------------------------------------------

/-- Two texts whose first parts have one length compare part by part. -/
theorem append_lt_append_iff {α : Type*} [LinearOrder α] {l l' : List α} {r r' : List α}
    (hLength : l.length = l'.length) : l ++ r < l' ++ r' ↔ l < l' ∨ l = l' ∧ r < r' := by
  induction l generalizing l' with
  | nil =>
    have hNil : l' = [] := List.eq_nil_of_length_eq_zero hLength.symm
    subst hNil
    simp
  | cons a l ih =>
    cases l' with
    | nil => cases hLength
    | cons b l' =>
      have hRest := ih (Nat.succ.inj hLength)
      rw [List.cons_append, List.cons_append, List.cons_lt_cons_iff, List.cons_lt_cons_iff, hRest,
        List.cons.injEq]
      tauto

-- ---------------------------------------------------------------------------
-- Digits
-- ---------------------------------------------------------------------------

/-- The last `w` digits of a number. -/
def digits : ℕ → ℕ → List Char
  | 0, _ => []
  | w + 1, n => digits w (n / 10) ++ [Nat.digitChar (n % 10)]

theorem digits_length (w n : ℕ) : (digits w n).length = w := by
  induction w generalizing n with
  | zero => rfl
  | succ w ih =>
    unfold digits
    rw [List.length_append, ih, List.length_singleton]

/-- Digits compare as what they stand for. -/
theorem digitChar_lt_iff {m n : ℕ} (hm : m < 10) (hn : n < 10) :
    Nat.digitChar m < Nat.digitChar n ↔ m < n := by
  have hCode : Nat.digitChar m < Nat.digitChar n ↔
      (Nat.digitChar m).toNat < (Nat.digitChar n).toNat := Iff.rfl
  rw [hCode, Nat.toNat_digitChar_of_lt_ten hm, Nat.toNat_digitChar_of_lt_ten hn]
  omega

/-- The order of the texts is the order of the numbers. -/
theorem digits_lt_iff {w m n : ℕ} (hm : m < 10 ^ w) (hn : n < 10 ^ w) :
    digits w m < digits w n ↔ m < n := by
  induction w generalizing m n with
  | zero =>
    rw [pow_zero] at hm hn
    have hEq : m = n := by omega
    subst hEq
    simp
  | succ w ih =>
    have hm' : m / 10 < 10 ^ w := by rw [pow_succ] at hm; omega
    have hn' : n / 10 < 10 ^ w := by rw [pow_succ] at hn; omega
    have hLess := ih hm' hn'
    have hMore := ih hn' hm'
    -- equal texts are those of which neither is the smaller
    have hEqual : digits w (m / 10) = digits w (n / 10) ↔ m / 10 = n / 10 := by
      constructor
      · intro hEq
        rw [hEq] at hLess hMore
        have hNotLess : ¬ m / 10 < n / 10 := fun h => lt_irrefl _ (hLess.mpr h)
        have hNotMore : ¬ n / 10 < m / 10 := fun h => lt_irrefl _ (hMore.mpr h)
        omega
      · intro hEq
        rw [hEq]
    have hLast : [Nat.digitChar (m % 10)] < [Nat.digitChar (n % 10)] ↔ m % 10 < n % 10 := by
      rw [List.cons_lt_cons_iff, digitChar_lt_iff (by omega) (by omega)]
      simp
    unfold digits
    rw [append_lt_append_iff (by rw [digits_length, digits_length]), hLess, hEqual, hLast]
    omega

theorem digits_inj {w m n : ℕ} (hm : m < 10 ^ w) (hn : n < 10 ^ w) :
    digits w m = digits w n ↔ m = n := by
  constructor
  · intro hEq
    have hNotLess : ¬ m < n := fun h => (hEq ▸ (digits_lt_iff hm hn).mpr h).false
    have hNotMore : ¬ n < m := fun h => (hEq ▸ (digits_lt_iff hn hm).mpr h).false
    omega
  · intro hEq
    rw [hEq]

/-- Numbers of one width, each followed by one separator, compare before what follows. -/
theorem digits_sep_lt_iff {w m n : ℕ} {c : Char} {rest rest' : List Char} (hm : m < 10 ^ w)
    (hn : n < 10 ^ w) :
    digits w m ++ c :: rest < digits w n ++ c :: rest' ↔ m < n ∨ m = n ∧ rest < rest' := by
  have hSep : c :: rest < c :: rest' ↔ rest < rest' := by
    rw [List.cons_lt_cons_iff]
    simp
  rw [append_lt_append_iff (by rw [digits_length, digits_length]), digits_lt_iff hm hn,
    digits_inj hm hn, hSep]

/-- Leading zeros add nothing to zero. -/
theorem digits_zero (w : ℕ) : digits w 0 = List.replicate w '0' := by
  induction w with
  | zero => rfl
  | succ w ih =>
    unfold digits
    rw [Nat.zero_div, ih, List.replicate_succ']
    rfl

/-- A number that fits the width, with zeros in front. -/
theorem replicate_append_toDigits {w n : ℕ} (hn : n < 10 ^ (w + 1)) :
    List.replicate (w + 1 - (Nat.toDigits 10 n).length) '0' ++ Nat.toDigits 10 n =
      digits (w + 1) n := by
  induction w generalizing n with
  | zero =>
    have hLess : n < 10 := by simpa using hn
    rw [Nat.toDigits_of_lt_base hLess]
    unfold digits digits
    rw [Nat.mod_eq_of_lt hLess]
    rfl
  | succ w ih =>
    unfold digits
    by_cases hLess : n < 10
    · -- one digit, and all others zeros
      have hZero : n / 10 = 0 := by omega
      rw [Nat.toDigits_of_lt_base hLess, hZero, digits_zero, Nat.mod_eq_of_lt hLess]
      rfl
    · have hn' : n / 10 < 10 ^ (w + 1) := by rw [pow_succ] at hn; omega
      rw [← ih hn', Nat.toDigits_eq_if (by omega), if_neg hLess, List.length_append,
        List.length_singleton, Nat.add_sub_add_right, List.append_assoc]

end Decimal
