import KeroseneVault.Domain.Intake
import KeroseneVault.Lib.Interpolation
import KeroseneVault.Lib.PolyCommit
import Mathlib.FieldTheory.Finite.Basic
import Mathlib.NumberTheory.LucasLehmer

/-!
# The lab field

`threshold.rs`: arithmetic modulo a Mersenne prime on `u64`, with intermediate values in
`u128`. Each operation is checked: one that leaves its type panics, and so does a division
by zero.

* `fits`, `minus`, `remainder` — the checked operations;
* `fieldAdd` to `modInv`, `evalPoly`, `interpolateSecret` — the field, as it is computed;
* `Gives` — a computation that ends, below the prime, in an element of `ZMod labPrime`.

Main results:

* `labPrime_prime`;
* `Gives.modInv` — by Fermat's little theorem the power that is taken is the inverse;
* `Gives.evalPoly` — evaluation;
* `interpolateSecret_gives` — interpolation at zero, where no two indices are the same.
-/

namespace KeroseneVault

/-- `LAB_PRIME`. -/
def labPrime : ℕ := 2147483647

theorem labPrime_prime : labPrime.Prime := by
  have h : (mersenne 31).Prime := lucas_lehmer_sufficiency 31 (by norm_num) (by norm_num)
  have hValue : mersenne 31 = labPrime := by norm_num [mersenne, labPrime]
  rwa [hValue] at h

instance labPrime_fact : Fact labPrime.Prime := ⟨labPrime_prime⟩

-- ---------------------------------------------------------------------------
-- The field as it is computed
-- ---------------------------------------------------------------------------

section Checked

variable {ε : Type}

/-- A value in a type of so many bits. -/
def fits (bits n : ℕ) : Intake ε ℕ := if n < 2 ^ bits then .ok n else .panicked

/-- `a - b`. -/
def minus (a b : ℕ) : Intake ε ℕ := if b ≤ a then .ok (a - b) else .panicked

/-- `a % b`. -/
def remainder (a b : ℕ) : Intake ε ℕ := if b = 0 then .panicked else .ok (a % b)

end Checked

/-- `field_add`. -/
def fieldAdd (a b : ℕ) : Intake DomainError ℕ := do
  let sum ← fits 128 (a + b)
  let r ← remainder sum labPrime
  pure (r % 2 ^ 64)

/-- `field_mul`. -/
def fieldMul (a b : ℕ) : Intake DomainError ℕ := do
  let product ← fits 128 (a * b)
  let r ← remainder product labPrime
  pure (r % 2 ^ 64)

/-- `field_sub`. -/
def fieldSub (a b : ℕ) : Intake DomainError ℕ := do
  let a ← remainder a labPrime
  let b ← remainder b labPrime
  if a ≥ b then minus a b
  else do
    let d ← minus b a
    minus labPrime d

/-- `if exp & 1 == 1` of `mod_pow`. -/
def modPowBit (base exp result : ℕ) : Intake DomainError ℕ :=
  if exp % 2 = 1 then fieldMul result base else .ok result

/-- The loop of `mod_pow`, for an exponent of at most so many bits. -/
def modPowLoop : ℕ → ℕ → ℕ → ℕ → Intake DomainError ℕ
  | 0, _, _, result => .ok result
  | bits + 1, base, exp, result =>
    if exp > 0 then do
      let result ← modPowBit base exp result
      let base ← fieldMul base base
      modPowLoop bits base (exp / 2) result
    else .ok result

/-- `mod_pow`. -/
def modPow (base exp : ℕ) : Intake DomainError ℕ := do
  let base ← remainder base labPrime
  -- `exp >>= 1` leaves nothing of a `u64` after 64 rounds
  modPowLoop 64 base exp 1

/-- `mod_inv`. -/
def modInv (a : ℕ) : Intake DomainError ℕ := do
  let a ← remainder a labPrime
  if a = 0 then .error (.thresholdError "inverse of 0")
  else do
    let exp ← minus labPrime 2
    modPow a exp

/-- The loop of `eval_poly`. -/
def evalPolyLoop (x : ℕ) : List ℕ → ℕ → ℕ → Intake DomainError ℕ
  | [], y, _ => .ok y
  | c :: rest, y, pow => do
    let term ← fieldMul c pow
    let y ← fieldAdd y term
    let pow ← fieldMul pow x
    evalPolyLoop x rest y pow

/-- `eval_poly`. -/
def evalPoly (coeffs : List ℕ) (x : ℕ) : Intake DomainError ℕ := evalPolyLoop x coeffs 0 1

/-- The inner loop of `interpolate_secret`: numerator and denominator of the `i`-th weight. -/
def weightLoop (i xi : ℕ) : List ((ℕ × ℕ) × ℕ) → ℕ → ℕ → Intake DomainError (ℕ × ℕ)
  | [], num, den => .ok (num, den)
  | ((xj, _), j) :: rest, num, den =>
    if i = j then weightLoop i xi rest num den
    else do
      let minusXj ← fieldSub 0 xj
      let num ← fieldMul num minusXj
      let difference ← fieldSub xi xj
      let den ← fieldMul den difference
      weightLoop i xi rest num den

/-- The outer loop of `interpolate_secret`. -/
def interpolateLoop (shares : List (ℕ × ℕ)) : List ((ℕ × ℕ) × ℕ) → ℕ → Intake DomainError ℕ
  | [], secret => .ok secret
  | ((xi, yi), i) :: rest, secret => do
    let (num, den) ← weightLoop i xi shares.zipIdx 1 1
    let inverse ← modInv den
    let li ← fieldMul num inverse
    let term ← fieldMul yi li
    let secret ← fieldAdd secret term
    interpolateLoop shares rest secret

/-- `interpolate_secret`. -/
def interpolateSecret (shares : List (ℕ × ℕ)) : Intake DomainError ℕ :=
  if shares = [] then .error (.thresholdError "no shares")
  else interpolateLoop shares shares.zipIdx 0

-- ---------------------------------------------------------------------------
-- What it computes
-- ---------------------------------------------------------------------------

/-- The computation ends, in a number below the prime that stands for `k`. -/
def Gives (r : Intake DomainError ℕ) (k : ZMod labPrime) : Prop :=
  ∃ v, r = .ok v ∧ v < labPrime ∧ (v : ZMod labPrime) = k

theorem lt_of_lt_labPrime {v : ℕ} (h : v < labPrime) : v < 2 ^ 64 :=
  lt_trans h (by decide)

theorem fits_eq {ε : Type} {bits n : ℕ} (h : n < 2 ^ bits) : (fits bits n : Intake ε ℕ) = .ok n :=
  if_pos h

theorem minus_eq {ε : Type} {a b : ℕ} (h : b ≤ a) : (minus a b : Intake ε ℕ) = .ok (a - b) :=
  if_pos h

theorem remainder_labPrime {ε : Type} (a : ℕ) :
    (remainder a labPrime : Intake ε ℕ) = .ok (a % labPrime) := if_neg labPrime_prime.ne_zero

theorem mod_labPrime_lt (a : ℕ) : a % labPrime < labPrime := Nat.mod_lt _ labPrime_prime.pos

theorem cast_mod_labPrime (a : ℕ) : ((a % labPrime : ℕ) : ZMod labPrime) = a :=
  ZMod.natCast_mod a labPrime

/-- The coefficients as elements of the field. -/
def labCoeffs (coeffs : List ℕ) : List (ZMod labPrime) := coeffs.map Nat.cast

namespace Gives

/-- A computation goes on with a number below the prime. -/
theorem bind {r : Intake DomainError ℕ} {f : ℕ → Intake DomainError ℕ} {k l : ZMod labPrime}
    (h : Gives r k) (hf : ∀ v, v < labPrime → (v : ZMod labPrime) = k → Gives (f v) l) :
    Gives (r >>= f) l := by
  obtain ⟨v, rfl, hLess, hCast⟩ := h
  exact hf v hLess hCast

theorem ok {v : ℕ} (h : v < labPrime) : Gives (.ok v) v := ⟨v, rfl, h, rfl⟩

/-- Two computations of one element give the same number. -/
theorem eq_ok {r : Intake DomainError ℕ} {n : ℕ} (h : Gives r n) : r = .ok (n % labPrime) := by
  obtain ⟨v, rfl, hLess, hCast⟩ := h
  rw [ZMod.natCast_eq_natCast_iff', Nat.mod_eq_of_lt hLess] at hCast
  rw [hCast]

/-- A value in `u128` that is reduced and fits in `u64` again. -/
theorem reduced {n : ℕ} (h : n < 2 ^ 128) :
    Gives (do
      let n ← fits 128 n
      let r ← remainder n labPrime
      pure (r % 2 ^ 64)) n := by
  rw [fits_eq h, Intake.ok_bind, remainder_labPrime, Intake.ok_bind,
    Nat.mod_eq_of_lt (lt_of_lt_labPrime (mod_labPrime_lt n))]
  exact ⟨_, rfl, mod_labPrime_lt n, cast_mod_labPrime n⟩

variable {a b : ℕ}

theorem fieldAdd (ha : a < 2 ^ 64) (hb : b < 2 ^ 64) : Gives (fieldAdd a b) (a + b) := by
  have h := reduced (n := a + b) (by omega)
  rwa [Nat.cast_add] at h

theorem fieldMul (ha : a < 2 ^ 64) (hb : b < 2 ^ 64) : Gives (fieldMul a b) (a * b) := by
  have hLess : a * b < 2 ^ 64 * 2 ^ 64 := Nat.mul_lt_mul'' ha hb
  have h := reduced hLess
  rwa [Nat.cast_mul] at h

theorem fieldSub (a b : ℕ) : Gives (fieldSub a b) (a - b) := by
  have ha := mod_labPrime_lt a
  have hb := mod_labPrime_lt b
  rw [KeroseneVault.fieldSub, remainder_labPrime, Intake.ok_bind, remainder_labPrime,
    Intake.ok_bind, ← cast_mod_labPrime a, ← cast_mod_labPrime b]
  -- both are reduced first, so neither subtraction can go below zero
  generalize a % labPrime = a at *
  generalize b % labPrime = b at *
  split
  · rename_i hLe
    rw [minus_eq hLe]
    exact ⟨_, rfl, by omega, Nat.cast_sub hLe⟩
  · rename_i hLess
    rw [minus_eq (by omega), Intake.ok_bind, minus_eq (by omega)]
    refine ⟨_, rfl, by omega, ?_⟩
    -- the prime is zero in the field
    rw [Nat.cast_sub (by omega), Nat.cast_sub (by omega), ZMod.natCast_self]
    ring

/-- The loop has seen some bits of the exponent; the rest of them is still to come. -/
theorem modPowLoop {bits base exp result : ℕ} (hBase : base < labPrime)
    (hResult : result < labPrime) (hExp : exp < 2 ^ bits) :
    Gives (modPowLoop bits base exp result) (result * (base : ZMod labPrime) ^ exp) := by
  induction bits generalizing base exp result with
  | zero =>
    obtain rfl : exp = 0 := by omega
    rw [pow_zero, mul_one]
    exact ok hResult
  | succ bits ih =>
    unfold KeroseneVault.modPowLoop
    split
    · have hHalf : exp / 2 < 2 ^ bits := by
        rw [pow_succ] at hExp
        omega
      have hStep : Gives (modPowBit base exp result)
          (result * (base : ZMod labPrime) ^ (exp % 2)) := by
        unfold modPowBit
        split
        · rename_i hOdd
          rw [hOdd, pow_one]
          exact fieldMul (lt_of_lt_labPrime hResult) (lt_of_lt_labPrime hBase)
        · have hEven : exp % 2 = 0 := by omega
          rw [hEven, pow_zero, mul_one]
          exact ok hResult
      -- one bit is used up; what is left is half the exponent, of the squared base
      refine bind hStep fun result' hResult' hCast => ?_
      refine bind (fieldMul (lt_of_lt_labPrime hBase) (lt_of_lt_labPrime hBase))
        fun base' hBase' hSquare => ?_
      have hRest := ih hBase' hResult' hHalf
      have hPower : (base' : ZMod labPrime) ^ (exp / 2) =
          (base : ZMod labPrime) ^ (2 * (exp / 2)) := by
        rw [hSquare, ← pow_two, ← pow_mul]
      rwa [hCast, hPower, mul_assoc, ← pow_add, Nat.mod_add_div] at hRest
    · obtain rfl : exp = 0 := by omega
      rw [pow_zero, mul_one]
      exact ok hResult

theorem modPow {exp : ℕ} (hExp : exp < 2 ^ 64) :
    Gives (modPow a exp) ((a : ZMod labPrime) ^ exp) := by
  rw [KeroseneVault.modPow, remainder_labPrime, Intake.ok_bind]
  have h := modPowLoop (mod_labPrime_lt a) labPrime_prime.one_lt hExp
  rwa [cast_mod_labPrime, Nat.cast_one, one_mul] at h

/-- **Fermat**: the power that is taken is the inverse. -/
theorem modInv (h : (a : ZMod labPrime) ≠ 0) : Gives (modInv a) (a : ZMod labPrime)⁻¹ := by
  have hMod : a % labPrime ≠ 0 := by
    intro hZero
    rw [← cast_mod_labPrime, hZero] at h
    exact h Nat.cast_zero
  rw [KeroseneVault.modInv, remainder_labPrime, Intake.ok_bind, if_neg hMod,
    minus_eq (by decide), Intake.ok_bind]
  have hExp : labPrime - 2 < 2 ^ 64 := by decide
  have hPow := modPow (a := a % labPrime) hExp
  have hFermat : (a : ZMod labPrime) ^ (labPrime - 2) = (a : ZMod labPrime)⁻¹ := by
    refine eq_inv_of_mul_eq_one_left ?_
    rw [← pow_succ, show labPrime - 2 + 1 = labPrime - 1 from rfl]
    exact ZMod.pow_card_sub_one_eq_one h
  rwa [cast_mod_labPrime, hFermat] at hPow

/-- The loop has added some terms; the rest of them is still to come. -/
theorem evalPolyLoop {coeffs : List ℕ} {x y pow : ℕ} (hCoeffs : ∀ c ∈ coeffs, c < 2 ^ 64)
    (hx : x < 2 ^ 64) (hy : y < labPrime) (hPow : pow < labPrime) :
    Gives (evalPolyLoop x coeffs y pow) (y + pow * PolyCommit.eval (labCoeffs coeffs) x) := by
  induction coeffs generalizing y pow with
  | nil =>
    rw [labCoeffs, List.map_nil, PolyCommit.eval, List.foldr_nil, mul_zero, add_zero]
    exact ok hy
  | cons c rest ih =>
    rw [List.forall_mem_cons] at hCoeffs
    unfold KeroseneVault.evalPolyLoop
    refine bind (fieldMul hCoeffs.1 (lt_of_lt_labPrime hPow)) fun term hTerm hTermCast => ?_
    refine bind (fieldAdd (lt_of_lt_labPrime hy) (lt_of_lt_labPrime hTerm)) fun y' hy' hYCast => ?_
    refine bind (fieldMul (lt_of_lt_labPrime hPow) hx) fun pow' hPow' hPowCast => ?_
    have hRest := ih hCoeffs.2 hy' hPow'
    -- the powers go up with the coefficients, where `eval` is nested
    have hSplit : (y : ZMod labPrime) + pow * PolyCommit.eval (labCoeffs (c :: rest)) x =
        y + c * pow + pow * x * PolyCommit.eval (labCoeffs rest) x := by
      show (y : ZMod labPrime) + pow * (c + x * PolyCommit.eval (labCoeffs rest) x) = _
      ring
    rwa [hYCast, hTermCast, hPowCast, ← hSplit] at hRest

theorem evalPoly {coeffs : List ℕ} {x : ℕ} (hCoeffs : ∀ c ∈ coeffs, c < 2 ^ 64)
    (hx : x < 2 ^ 64) : Gives (evalPoly coeffs x) (PolyCommit.eval (labCoeffs coeffs) x) := by
  have h := evalPolyLoop hCoeffs hx labPrime_prime.pos labPrime_prime.one_lt
  rwa [Nat.cast_zero, zero_add, Nat.cast_one, one_mul] at h

end Gives

-- ---------------------------------------------------------------------------
-- Interpolation
-- ---------------------------------------------------------------------------

/-- The indices of the other entries. -/
def others (i : ℕ) (entries : List ((ℕ × ℕ) × ℕ)) : List (ZMod labPrime) :=
  (entries.filter fun e => i ≠ e.2).map fun e => (e.1.1 : ZMod labPrime)

/-- Numerator and denominator are products over the other entries. -/
theorem weightLoop_gives (i xi : ℕ) (entries : List ((ℕ × ℕ) × ℕ)) {num den : ℕ}
    (hNum : num < labPrime) (hDen : den < labPrime) :
    ∃ num' den', weightLoop i xi entries num den = .ok (num', den') ∧
      num' < labPrime ∧ den' < labPrime ∧
      (num' : ZMod labPrime) = num * ((others i entries).map fun y => 0 - y).prod ∧
      (den' : ZMod labPrime) =
        den * ((others i entries).map fun y => (xi : ZMod labPrime) - y).prod := by
  induction entries generalizing num den with
  | nil => exact ⟨num, den, rfl, hNum, hDen, by simp [others], by simp [others]⟩
  | cons e rest ih =>
    obtain ⟨⟨xj, yj⟩, j⟩ := e
    unfold weightLoop
    by_cases hSame : i = j
    · have hOthers : others i (((xj, yj), j) :: rest) = others i rest := by simp [others, hSame]
      -- its own entry is passed over
      rw [if_pos hSame, hOthers]
      exact ih hNum hDen
    · have hOthers : others i (((xj, yj), j) :: rest) = (xj : ZMod labPrime) :: others i rest := by
        simp [others, hSame]
      rw [if_neg hSame, hOthers, List.map_cons, List.prod_cons, List.map_cons, List.prod_cons]
      obtain ⟨minusXj, hMinus, hMinusLess, hMinusCast⟩ := Gives.fieldSub 0 xj
      obtain ⟨num', hNum', hNumLess, hNumCast⟩ :=
        Gives.fieldMul (lt_of_lt_labPrime hNum) (lt_of_lt_labPrime hMinusLess)
      obtain ⟨difference, hDiff, hDiffLess, hDiffCast⟩ := Gives.fieldSub xi xj
      obtain ⟨den', hDen', hDenLess, hDenCast⟩ :=
        Gives.fieldMul (lt_of_lt_labPrime hDen) (lt_of_lt_labPrime hDiffLess)
      rw [hMinus, Intake.ok_bind, hNum', Intake.ok_bind, hDiff, Intake.ok_bind, hDen',
        Intake.ok_bind]
      obtain ⟨num'', den'', hRest, hLess, hLess', hCast, hCast'⟩ := ih hNumLess hDenLess
      refine ⟨num'', den'', hRest, hLess, hLess', ?_, ?_⟩
      · rw [hCast, hNumCast, hMinusCast, Nat.cast_zero, mul_assoc]
      · rw [hCast', hDenCast, hDiffCast, mul_assoc]

/-- The points of shares in the field. -/
def labPoints (shares : List (ℕ × ℕ)) : List (ZMod labPrime × ZMod labPrime) :=
  shares.map fun s => (s.1, s.2)

theorem labPoints_zipIdx (shares : List (ℕ × ℕ)) : labPoints shares =
    shares.zipIdx.map fun e => ((e.1.1 : ZMod labPrime), (e.1.2 : ZMod labPrime)) := by
  conv_lhs => rw [labPoints, ← List.zipIdx_map_fst 0 shares, List.map_map]
  rfl

/-- Shares with indices and values of their types, no two of one index. -/
structure LabShares (shares : List (ℕ × ℕ)) : Prop where
  nodup : (shares.map Prod.fst).Nodup
  index : ∀ s ∈ shares, s.1 < 2 ^ 8
  value : ∀ s ∈ shares, s.2 < 2 ^ 64

/-- Indices are below the prime. -/
theorem index_cast_inj {m n : ℕ} (hm : m < 2 ^ 8) (hn : n < 2 ^ 8)
    (h : (m : ZMod labPrime) = n) : m = n := by
  have hLess : 2 ^ 8 < labPrime := by decide
  rwa [ZMod.natCast_eq_natCast_iff', Nat.mod_eq_of_lt (by omega), Nat.mod_eq_of_lt (by omega)] at h

namespace LabShares

variable {shares : List (ℕ × ℕ)}

theorem nodup_points (h : LabShares shares) : ((labPoints shares).map Prod.fst).Nodup := by
  have hFirst : (labPoints shares).map Prod.fst = (shares.map Prod.fst).map Nat.cast := by
    rw [labPoints, List.map_map, List.map_map]
    rfl
  rw [hFirst]
  refine List.Nodup.map_on ?_ h.nodup
  intro m hm n hn hCast
  obtain ⟨s, hs, rfl⟩ := List.mem_map.mp hm
  obtain ⟨s', hs', rfl⟩ := List.mem_map.mp hn
  exact index_cast_inj (h.index s hs) (h.index s' hs') hCast

/-- The same place, the same index. -/
theorem place_iff (h : LabShares shares) {e e' : (ℕ × ℕ) × ℕ} (he : e ∈ shares.zipIdx)
    (he' : e' ∈ shares.zipIdx) :
    e.2 = e'.2 ↔ (e'.1.1 : ZMod labPrime) = e.1.1 := by
  obtain ⟨⟨xi, yi⟩, i⟩ := e
  obtain ⟨⟨xj, yj⟩, j⟩ := e'
  have hi := List.mem_zipIdx_iff_getElem?.mp he
  have hj := List.mem_zipIdx_iff_getElem?.mp he'
  constructor
  · rintro (rfl : i = j)
    have hSame := Option.some.inj (hi.symm.trans hj)
    exact congrArg (fun s : ℕ × ℕ => (s.1 : ZMod labPrime)) hSame.symm
  · -- two places with one index would be one place
    intro hCast
    have hIndex : xj = xi := index_cast_inj (h.index _ (List.mem_of_getElem? hj))
      (h.index _ (List.mem_of_getElem? hi)) hCast
    have hLess : i < (shares.map Prod.fst).length := by
      rw [List.length_map]
      exact (List.getElem?_eq_some_iff.mp hi).1
    refine (List.getElem?_inj hLess h.nodup).mp ?_
    rw [List.getElem?_map, List.getElem?_map, hi, hj, Option.map_some, Option.map_some, hIndex]

theorem others_eq (h : LabShares shares) {e : (ℕ × ℕ) × ℕ} (he : e ∈ shares.zipIdx) :
    others e.2 shares.zipIdx =
      ((labPoints shares).map Prod.fst).filter fun y => y ≠ (e.1.1 : ZMod labPrime) := by
  rw [labPoints_zipIdx, List.map_map, List.filter_map, others]
  congr 1
  refine List.filter_congr fun e' he' => ?_
  show decide (e.2 ≠ e'.2) = decide ((e'.1.1 : ZMod labPrime) ≠ e.1.1)
  rw [decide_eq_decide, ne_eq, ne_eq, h.place_iff he he']

/-- The loop has added the terms of some shares; those of the rest are still to come. -/
theorem interpolateLoop_gives (h : LabShares shares) {rest : List ((ℕ × ℕ) × ℕ)} {secret : ℕ}
    (hRest : ∀ e ∈ rest, e ∈ shares.zipIdx) (hSecret : secret < labPrime) :
    Gives (interpolateLoop shares rest secret)
      (secret + (rest.map fun e => (e.1.2 : ZMod labPrime) *
        Interpolation.weight ((labPoints shares).map Prod.fst) e.1.1).sum) := by
  induction rest generalizing secret with
  | nil =>
    rw [List.map_nil, List.sum_nil, add_zero]
    exact Gives.ok hSecret
  | cons e rest ih =>
    rw [List.forall_mem_cons] at hRest
    have hOthers := h.others_eq hRest.1
    obtain ⟨⟨xi, yi⟩, i⟩ := e
    unfold interpolateLoop
    obtain ⟨num, den, hWeight, hNum, hDen, hNumCast, hDenCast⟩ :=
      weightLoop_gives i xi shares.zipIdx labPrime_prime.one_lt labPrime_prime.one_lt
    rw [hWeight, Intake.ok_bind]
    rw [hOthers, Nat.cast_one, one_mul] at hNumCast hDenCast
    -- no other index is this one
    have hNe : (den : ZMod labPrime) ≠ 0 := by
      rw [hDenCast]
      refine List.prod_ne_zero fun hZero => ?_
      obtain ⟨y, hy, hSub⟩ := List.mem_map.mp hZero
      have hOther := of_decide_eq_true (List.mem_filter.mp hy).2
      exact hOther (sub_eq_zero.mp hSub).symm
    refine Gives.bind (Gives.modInv hNe) fun inverse hInverse hInverseCast => ?_
    refine Gives.bind (Gives.fieldMul (lt_of_lt_labPrime hNum) (lt_of_lt_labPrime hInverse))
      fun li hLi hLiCast => ?_
    have hShare := List.mem_of_getElem? (List.mem_zipIdx_iff_getElem?.mp hRest.1)
    have hValue : yi < 2 ^ 64 := h.value (xi, yi) hShare
    refine Gives.bind (Gives.fieldMul hValue (lt_of_lt_labPrime hLi)) fun term hTerm hTermCast => ?_
    refine Gives.bind (Gives.fieldAdd (lt_of_lt_labPrime hSecret) (lt_of_lt_labPrime hTerm))
      fun secret' hSecret' hSecretCast => ?_
    have hLoop := ih hRest.2 hSecret'
    have hLiWeight : (li : ZMod labPrime) =
        Interpolation.weight ((labPoints shares).map Prod.fst) xi := by
      rw [hLiCast, hInverseCast, hNumCast, hDenCast, ← div_eq_mul_inv]
      rfl
    rwa [hSecretCast, hTermCast, hLiWeight, add_assoc] at hLoop

/-- **Interpolation at zero** of shares of different indices never fails. -/
theorem interpolateSecret_gives (h : LabShares shares) (hSome : shares ≠ []) :
    Gives (interpolateSecret shares) (Interpolation.atZero (labPoints shares)) := by
  have hLoop := h.interpolateLoop_gives (fun _ he => he) labPrime_prime.pos
  have hSum : (shares.zipIdx.map fun e => (e.1.2 : ZMod labPrime) *
      Interpolation.weight ((labPoints shares).map Prod.fst) e.1.1).sum =
        Interpolation.atZero (labPoints shares) := by
    unfold Interpolation.atZero
    generalize (labPoints shares).map Prod.fst = nodes
    rw [labPoints_zipIdx, List.map_map]
    rfl
  rw [hSum, Nat.cast_zero, zero_add] at hLoop
  rwa [interpolateSecret, if_neg hSome]

/-- Shares of one polynomial of low degree give its value at zero. -/
theorem interpolateSecret_of_poly (h : LabShares shares) (hSome : shares ≠ [])
    {f : Polynomial (ZMod labPrime)} (hDegree : f.degree < shares.length)
    (hShares : ∀ s ∈ shares, f.eval (s.1 : ZMod labPrime) = s.2) :
    Gives (interpolateSecret shares) (f.eval 0) := by
  have hGives := h.interpolateSecret_gives hSome
  have hPoints : ∀ p ∈ labPoints shares, f.eval p.1 = p.2 := by
    intro p hp
    obtain ⟨s, hs, rfl⟩ := List.mem_map.mp hp
    exact hShares s hs
  have hLength : f.degree < (labPoints shares).length := by
    rwa [labPoints, List.length_map]
  rwa [Interpolation.atZero_eq h.nodup_points hLength hPoints] at hGives

end LabShares

end KeroseneVault
