import Mathlib.Algebra.BigOperators.Group.List.Basic
import Mathlib.Algebra.Ring.Nat
import Mathlib.Data.List.Basic

/-!
# Equal shares

An amount divided among some in whole units: each gets the quotient, and the first
ones one unit more until the remainder is used up.

* `shares each rem n` — the shares of `n`, of which the first `rem` have one more.

Main results:

* `sum_shares` — what the shares come to;
* `shares_even` — no two of them are more than one unit apart;
* `one_le_shares_iff` — nobody goes away empty exactly where there is a unit for each.
-/

namespace Shares

/-- Shares of `n`: `each`, and one more for the first `rem`. -/
def shares (each : ℕ) : ℕ → ℕ → List ℕ
  | _, 0 => []
  | 0, n + 1 => each :: shares each 0 n
  | rem + 1, n + 1 => (each + 1) :: shares each rem n

variable {each rem n amount : ℕ}

theorem length_shares : (shares each rem n).length = n := by
  induction n generalizing rem with
  | zero => rfl
  | succ n ih =>
    cases rem with
    | zero => exact congrArg (· + 1) ih
    | succ rem => exact congrArg (· + 1) ih

/-- The remainder is used up where there are enough to take it. -/
theorem sum_shares (h : rem ≤ n) : (shares each rem n).sum = each * n + rem := by
  induction n generalizing rem with
  | zero =>
    obtain rfl := Nat.le_zero.mp h
    rfl
  | succ n ih =>
    cases rem with
    | zero =>
      have hRest := ih (Nat.zero_le n)
      show each + (shares each 0 n).sum = _
      rw [hRest, Nat.mul_succ]
      omega
    | succ rem =>
      have hRest := ih (Nat.le_of_succ_le_succ h)
      show each + 1 + (shares each rem n).sum = _
      rw [hRest, Nat.mul_succ]
      omega

theorem mem_shares {share : ℕ} (h : share ∈ shares each rem n) :
    share = each ∨ share = each + 1 := by
  induction n generalizing rem with
  | zero => cases h
  | succ n ih =>
    cases rem with
    | zero =>
      rcases List.mem_cons.mp h with hFirst | hRest
      · exact .inl hFirst
      · exact ih hRest
    | succ rem =>
      rcases List.mem_cons.mp h with hFirst | hRest
      · exact .inr hFirst
      · exact ih hRest

/-- No two shares are more than one unit apart. -/
theorem shares_even {a b : ℕ} (ha : a ∈ shares each rem n) (hb : b ∈ shares each rem n) :
    a ≤ b + 1 := by
  have hA := mem_shares ha
  have hB := mem_shares hb
  omega

/-- The last one gets no more than the quotient where the remainder does not reach it. -/
theorem each_mem_shares (h : rem < n) : each ∈ shares each rem n := by
  induction n generalizing rem with
  | zero => omega
  | succ n ih =>
    cases rem with
    | zero => exact List.mem_cons_self
    | succ rem => exact List.mem_cons_of_mem _ (ih (Nat.lt_of_succ_lt_succ h))

/-! ## A division -/

/-- The shares of a division come to the amount. -/
theorem sum_shares_div (h : 0 < n) : (shares (amount / n) (amount % n) n).sum = amount := by
  rw [sum_shares (Nat.le_of_lt (Nat.mod_lt _ h)), Nat.div_add_mod']

/-- Nobody goes away empty exactly where there is a unit for each. -/
theorem one_le_shares_iff (h : 0 < n) :
    (∀ share ∈ shares (amount / n) (amount % n) n, 1 ≤ share) ↔ n ≤ amount := by
  constructor
  · intro hAll
    have hLast := hAll _ (each_mem_shares (Nat.mod_lt amount h))
    exact (Nat.div_pos_iff.mp hLast).2
  · intro hLe share hShare
    have hEach : 1 ≤ amount / n := Nat.div_pos hLe h
    have hIs := mem_shares hShare
    omega

end Shares
