import Mathlib.Algebra.Module.Basic
import Mathlib.RingTheory.Polynomial.Basic
import Mathlib.Tactic.Module

/-!
# Committed polynomials

A polynomial over `K` as the list of its coefficients, lowest first, and a
commitment to it: the coefficients times a generator of a `K`-module. A
commitment is evaluated like the polynomial, so a share can be checked against
it without the coefficients.

* `eval`, `evalCommit` — evaluation, by Horner's rule;
* `commit` — the commitment to a polynomial;
* `constantTerm` — the commitment to the constant coefficient;
* `Proves` — a proof of knowledge of the constant coefficient.

Main results:

* `evalCommit_commit` — a commitment evaluates to the commitment to the value;
* `eval_toPolynomial` — the list evaluates like the polynomial it stands for;
* `proves_respond` — who knows the constant coefficient can prove it.
-/

namespace PolyCommit

variable {K V : Type*} [CommRing K] [AddCommGroup V] [Module K V]

/-! ## Polynomials -/

def eval (coeffs : List K) (x : K) : K := coeffs.foldr (fun a rest => a + x * rest) 0

def commit (g : V) (coeffs : List K) : List V := coeffs.map (· • g)

def evalCommit (commitment : List V) (x : K) : V :=
  commitment.foldr (fun φ rest => φ + x • rest) 0

/-- The commitment to the constant coefficient. -/
def constantTerm (commitment : List V) : V := commitment.headD 0

@[simp] theorem length_commit (g : V) (coeffs : List K) :
    (commit g coeffs).length = coeffs.length := List.length_map _

/-- A commitment evaluates to the commitment to the value. -/
theorem evalCommit_commit (g : V) (coeffs : List K) (x : K) :
    evalCommit (commit g coeffs) x = eval coeffs x • g := by
  induction coeffs with
  | nil => exact (zero_smul K g).symm
  | cons a rest ih =>
    show a • g + x • evalCommit (commit g rest) x = (a + x * eval rest x) • g
    rw [ih]
    module

theorem constantTerm_commit (g : V) (coeffs : List K) :
    constantTerm (commit g coeffs) = coeffs.headD 0 • g := by
  cases coeffs with
  | nil => exact (zero_smul K g).symm
  | cons a rest => rfl

theorem evalCommit_zero (commitment : List V) :
    evalCommit commitment (0 : K) = constantTerm commitment := by
  cases commitment with
  | nil => rfl
  | cons φ rest =>
    show φ + (0 : K) • evalCommit rest (0 : K) = φ
    rw [zero_smul, add_zero]

/-! ## As polynomials -/

/-- The polynomial with these coefficients. -/
noncomputable def toPolynomial (coeffs : List K) : Polynomial K :=
  coeffs.foldr (fun a rest => Polynomial.C a + Polynomial.X * rest) 0

theorem eval_toPolynomial (coeffs : List K) (x : K) :
    (toPolynomial coeffs).eval x = eval coeffs x := by
  induction coeffs with
  | nil => exact Polynomial.eval_zero
  | cons a rest ih =>
    show (Polynomial.C a + Polynomial.X * toPolynomial rest).eval x = a + x * eval rest x
    rw [Polynomial.eval_add, Polynomial.eval_mul, Polynomial.eval_C, Polynomial.eval_X, ih]

/-- The degree is below the number of coefficients. -/
theorem toPolynomial_mem_degreeLT (coeffs : List K) :
    toPolynomial coeffs ∈ Polynomial.degreeLT K coeffs.length := by
  rw [Polynomial.mem_degreeLT, Polynomial.degree_lt_iff_coeff_zero]
  induction coeffs with
  | nil => exact fun n _ => Polynomial.coeff_zero n
  | cons a rest ih =>
    intro n hn
    show (Polynomial.C a + Polynomial.X * toPolynomial rest).coeff n = 0
    obtain ⟨k, rfl⟩ : ∃ k, n = k + 1 := ⟨n - 1, by rw [List.length_cons] at hn; omega⟩
    rw [Polynomial.coeff_add, Polynomial.coeff_C_succ, Polynomial.coeff_X_mul, zero_add]
    exact ih k (by rw [List.length_cons] at hn; omega)

theorem eval_cons_zero (coeffs : List K) : eval (0 :: coeffs) (0 : K) = 0 := by
  show 0 + 0 * eval coeffs 0 = (0 : K)
  ring

/-! ## Knowledge of the constant coefficient -/

/-- A nonce commitment and a response prove knowledge of the coefficient behind
`φ` under the challenge `c`. -/
def Proves (g φ nonce : V) (c response : K) : Prop := nonce = response • g - c • φ

instance decidableProves [DecidableEq V] (g φ nonce : V) (c response : K) :
    Decidable (Proves g φ nonce c response) :=
  inferInstanceAs (Decidable (nonce = response • g - c • φ))

/-- Who knows the coefficient `a` answers the challenge with `r + a * c`. -/
theorem proves_respond (g : V) (a r c : K) :
    Proves g (a • g) (r • g) c (r + a * c) := by
  unfold Proves
  module

end PolyCommit
