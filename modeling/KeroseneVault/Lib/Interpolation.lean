import Mathlib.LinearAlgebra.Lagrange

/-!
# Interpolation at zero

The value at zero of the polynomial through some points, as it is computed from their
coordinates.

* `weight xs x` — what the value at `x` counts for, among the places `xs`;
* `atZero points` — the weighted sum of the values.

Main results:

* `atZero_eq` — it is the value at zero of every polynomial through the points whose degree is
  below their number.
-/

namespace Interpolation

open Polynomial

variable {K : Type*} [Field K] [DecidableEq K]

/-- The weight of the value at `x`, among the places `xs`. -/
def weight (xs : List K) (x : K) : K :=
  ((xs.filter fun y => y ≠ x).map fun y => 0 - y).prod /
    ((xs.filter fun y => y ≠ x).map fun y => x - y).prod

/-- The value at zero that the points make. -/
def atZero (points : List (K × K)) : K :=
  (points.map fun p => p.2 * weight (points.map Prod.fst) p.1).sum

/-- The weights are the values at zero of Lagrange's basis. -/
theorem weight_eq_eval_basis {xs : List K} (h : xs.Nodup) (x : K) :
    weight xs x = (Lagrange.basis xs.toFinset id x).eval 0 := by
  have hFilter : (xs.filter fun y => y ≠ x).toFinset = xs.toFinset.erase x := by
    ext y
    simp [and_comm]
  have hProd (f : K → K) : ((xs.filter fun y => y ≠ x).map f).prod =
      ∏ y ∈ xs.toFinset.erase x, f y := by
    rw [← hFilter, List.prod_toFinset f (h.filter _)]
  unfold weight
  rw [hProd, hProd, ← Finset.prod_div_distrib, Lagrange.basis, eval_prod]
  refine Finset.prod_congr rfl fun y _ => ?_
  rw [Lagrange.basisDivisor, eval_mul, eval_C, eval_sub, eval_X, eval_C]
  show (0 - y) / (x - y) = (x - y)⁻¹ * (0 - y)
  rw [div_eq_mul_inv, mul_comm]

/-- **Interpolation** finds the value at zero of a polynomial of low degree. -/
theorem atZero_eq {points : List (K × K)} (hNodup : (points.map Prod.fst).Nodup) {f : K[X]}
    (hDegree : f.degree < points.length) (hPoints : ∀ p ∈ points, f.eval p.1 = p.2) :
    atZero points = f.eval 0 := by
  let xs := points.map Prod.fst
  have hCard : f.degree < xs.toFinset.card := by
    rw [List.toFinset_card_of_nodup hNodup, List.length_map]
    exact hDegree
  have hInterpolate := Lagrange.eq_interpolate (s := xs.toFinset) (v := id)
    (Function.injective_id.injOn) hCard
  have hSum : atZero points = (xs.map fun x => f.eval x * weight xs x).sum := by
    unfold atZero
    rw [List.map_map]
    refine congrArg List.sum (List.map_congr_left fun p hp => ?_)
    rw [Function.comp_apply, hPoints p hp]
  -- the polynomial is its own interpolant, and at zero that is the weighted sum
  conv_rhs => rw [hInterpolate]
  rw [hSum, ← List.sum_toFinset _ hNodup, Lagrange.interpolate_apply, eval_finsetSum]
  refine Finset.sum_congr rfl fun x _ => ?_
  rw [eval_mul, eval_C, weight_eq_eval_basis hNodup]
  rfl

end Interpolation
