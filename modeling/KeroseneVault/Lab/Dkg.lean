import KeroseneVault.Lab.Field
import KeroseneVault.Release.Candidate

/-!
# The lab key generation

`dkg.rs`: each participant has a polynomial, and a share is the sum of their values at the
participant's index. The coefficients are taken from a hash, so they are what SHA-256 makes
them.

* `labRandomU64`, `dkgPolynomial` — the coefficients;
* `dealShares` — the shares of given polynomials;
* `runDkg` — the key generation;
* `SharesSecret` — any `t` of the shares interpolate to the secret.

Main results:

* `dealShares_sharesSecret` — whatever the polynomials are;
* `run_dkg_shares_sum_of_constant_terms` — and so it is for those of the key generation.
-/

namespace KeroseneVault

/-- `ShareIndex`. -/
structure ShareIndex where
  value : ℕ
deriving DecidableEq

/-- `ShareIndex::new`. -/
def ShareIndex.new (v : ℕ) : Except DomainError ShareIndex :=
  if v = 0 then .error (.invalidShare "share index must be >= 1") else .ok ⟨v⟩

/-- `KeyShare`. -/
structure KeyShare where
  index : ShareIndex
  value : ℕ
  nodeId : NodeId
deriving DecidableEq

/-- `GroupKey`. -/
structure GroupKey where
  n : ℕ
  t : ℕ
  commitment : String

/-- `lab_random_u64`: the first 16 digits of a digest, reduced to a number that is not zero. -/
def labRandomU64 (sha256 : List UInt8 → Digest) (seed : List UInt8) : ℕ :=
  let hex := hexText (sha256 seed).1
  let v := (hex.toList.take 16).zipIdx.foldl
    (fun v e => v ||| ((hexDigit e.1).getD 0 <<< (4 * (15 - e.2)))) 0
  v % (labPrime - 1) + 1

theorem labRandomU64_lt (sha256 : List UInt8 → Digest) (seed : List UInt8) :
    labRandomU64 sha256 seed < labPrime := by
  have hMod := Nat.mod_lt ((((hexText (sha256 seed).1).toList.take 16).zipIdx.foldl
    (fun v e => v ||| ((hexDigit e.1).getD 0 <<< (4 * (15 - e.2)))) 0)) (show 0 < labPrime - 1 by
      decide)
  show _ % (labPrime - 1) + 1 < labPrime
  omega

section Dkg

variable (sha256 : List UInt8 → Digest)

/-- The coefficients of a participant. -/
def dkgPolynomial (t : ℕ) (entropy : List UInt8) (node : NodeId) : List ℕ :=
  (List.range t).map fun k =>
    labRandomU64 sha256 (textBytes s!"dkg|{hexText entropy}|{node.text}|{k}")

/-- The sum of the values of the polynomials at `x`. -/
def sumValues (x : ℕ) : List (List ℕ) → ℕ → Intake DomainError ℕ
  | [], value => .ok value
  | poly :: rest, value => do
    let y ← evalPoly poly x
    let value ← fieldAdd value y
    sumValues x rest value

/-- The shares of the nodes from the `j`-th on. -/
def dealFrom (polynomials : List (List ℕ)) : ℕ → List NodeId → Intake DomainError (List KeyShare)
  | _, [] => .ok []
  | j, node :: rest => do
    let x ← fits 64 (j + 1)
    let value ← sumValues x polynomials 0
    -- `(j as u8) + 1`
    let index ← fits 8 (j % 2 ^ 8 + 1)
    let index ← .ofExcept (ShareIndex.new index)
    let shares ← dealFrom polynomials (j + 1) rest
    .ok (⟨index, value, node⟩ :: shares)

/-- The shares of given polynomials. -/
def dealShares (polynomials : List (List ℕ)) (nodes : List NodeId) :
    Intake DomainError (List KeyShare) := dealFrom polynomials 0 nodes

/-- The commitment of a participant to the first coefficient. -/
def dkgCommitment (node : NodeId) (coeffs : List ℕ) : String :=
  let commitment := (ContentHash.fromBytes sha256 (textBytes s!"commit:{coeffs.headD 0}")).text
  s!"{node.text}:{commitment}"

/-- The commitments of all participants, hashed. -/
def groupCommitment (t : ℕ) (entropy : List UInt8) (activeSet : List NodeId) : String :=
  let commitments := activeSet.map fun node =>
    dkgCommitment sha256 node (dkgPolynomial sha256 t entropy node)
  (ContentHash.fromBytes sha256 (textBytes ("|".intercalate commitments))).text

/-- `run_dkg`. -/
def runDkg (activeSet : List NodeId) (t : ℕ) (entropy : List UInt8) :
    Intake DomainError (GroupKey × List KeyShare) :=
  let n := activeSet.length
  if n < 2 ∨ t = 0 ∨ t > n then .error (.thresholdError s!"bad n/t: n={n} t={t}")
  else do
    let polynomials := activeSet.map (dkgPolynomial sha256 t entropy)
    let shares ← dealShares polynomials activeSet
    .ok (⟨n, t, groupCommitment sha256 t entropy activeSet⟩, shares)

end Dkg

-- ---------------------------------------------------------------------------
-- Shares of a polynomial
-- ---------------------------------------------------------------------------

/-- The polynomials of participants, with coefficients in `u64`, as many as the threshold. -/
def LabPolynomials (t : ℕ) (polynomials : List (List ℕ)) : Prop :=
  ∀ poly ∈ polynomials, poly.length = t ∧ ∀ c ∈ poly, c < 2 ^ 64

/-- The sum of the polynomials. -/
noncomputable def jointPolynomial (polynomials : List (List ℕ)) : Polynomial (ZMod labPrime) :=
  (polynomials.map fun poly => PolyCommit.toPolynomial (labCoeffs poly)).sum

/-- The sum of the constant terms, reduced. -/
def jointSecret (polynomials : List (List ℕ)) : ℕ :=
  (polynomials.map fun poly => poly.headD 0).sum % labPrime

/-- Any `t` of the shares, in any order, interpolate to the secret. -/
def SharesSecret (t : ℕ) (shares : List KeyShare) (secret : ℕ) : Prop :=
  ∀ picked : List KeyShare, picked.Nodup → (∀ share ∈ picked, share ∈ shares) →
    picked.length = t →
      interpolateSecret (picked.map fun share => (share.index.value, share.value)) = .ok secret

section Poly

variable {t : ℕ} {polynomials : List (List ℕ)}

theorem sumValues_gives {x value : ℕ} (hPoly : LabPolynomials t polynomials) (hx : x < 2 ^ 64)
    (hValue : value < labPrime) :
    Gives (sumValues x polynomials value)
      (value + (jointPolynomial polynomials).eval (x : ZMod labPrime)) := by
  induction polynomials generalizing value with
  | nil =>
    rw [jointPolynomial, List.map_nil, List.sum_nil, Polynomial.eval_zero, add_zero]
    exact Gives.ok hValue
  | cons poly rest ih =>
    obtain ⟨hFirst, hRest⟩ := List.forall_mem_cons.mp hPoly
    unfold sumValues
    -- the value of the first polynomial goes into the sum before the rest
    refine Gives.bind (Gives.evalPoly hFirst.2 hx) fun y hy hYCast => ?_
    refine Gives.bind (Gives.fieldAdd (lt_of_lt_labPrime hValue) (lt_of_lt_labPrime hy))
      fun value' hValue' hValueCast => ?_
    have hSum := ih hRest hValue'
    have hJoint : (jointPolynomial (poly :: rest)).eval (x : ZMod labPrime) =
        PolyCommit.eval (labCoeffs poly) x + (jointPolynomial rest).eval (x : ZMod labPrime) := by
      rw [jointPolynomial, List.map_cons, List.sum_cons, Polynomial.eval_add,
        PolyCommit.eval_toPolynomial]
      rfl
    rwa [hValueCast, hYCast, add_assoc, ← hJoint] at hSum

/-- The sum has a degree below the threshold. -/
theorem degree_jointPolynomial (hPoly : LabPolynomials t polynomials) :
    (jointPolynomial polynomials).degree < t := by
  rw [← Polynomial.mem_degreeLT]
  refine list_sum_mem fun p hp => ?_
  obtain ⟨poly, hMem, rfl⟩ := List.mem_map.mp hp
  have hDegree := PolyCommit.toPolynomial_mem_degreeLT (labCoeffs poly)
  rwa [labCoeffs, List.length_map, (hPoly poly hMem).1] at hDegree

/-- Its value at zero is the sum of the constant terms. -/
theorem jointPolynomial_eval_zero (polynomials : List (List ℕ)) :
    (jointPolynomial polynomials).eval 0 = (jointSecret polynomials : ℕ) := by
  have hConstant (poly : List ℕ) :
      PolyCommit.eval (labCoeffs poly) 0 = ((poly.headD 0 : ℕ) : ZMod labPrime) := by
    cases poly with
    | nil => exact Nat.cast_zero.symm
    | cons c rest =>
      show (c : ZMod labPrime) + 0 * _ = c
      ring
  rw [jointSecret, cast_mod_labPrime]
  induction polynomials with
  | nil => exact Polynomial.eval_zero.trans Nat.cast_zero.symm
  | cons poly rest ih =>
    rw [jointPolynomial, List.map_cons, List.sum_cons, Polynomial.eval_add,
      PolyCommit.eval_toPolynomial, hConstant, List.map_cons, List.sum_cons, Nat.cast_add, ← ih]
    rfl

/-- The shares are values of the sum, one at each index from the next on. -/
structure Dealt (polynomials : List (List ℕ)) (j : ℕ) (nodes : List NodeId)
    (shares : List KeyShare) : Prop where
  ids : shares.map KeyShare.nodeId = nodes
  indices : (shares.map fun share => share.index.value) = List.range' (j + 1) nodes.length
  less : ∀ share ∈ shares, share.value < labPrime
  value : ∀ share ∈ shares, (share.value : ZMod labPrime) =
    (jointPolynomial polynomials).eval (share.index.value : ZMod labPrime)

/-- Up to 255 nodes get their shares. -/
theorem dealFrom_dealt (hPoly : LabPolynomials t polynomials) (j : ℕ) (nodes : List NodeId)
    (hNodes : j + nodes.length ≤ 255) :
    ∃ shares, dealFrom polynomials j nodes = .ok shares ∧ Dealt polynomials j nodes shares := by
  induction nodes generalizing j with
  | nil => exact ⟨[], rfl, rfl, rfl, nofun, nofun⟩
  | cons node rest ih =>
    rw [List.length_cons] at hNodes
    obtain ⟨value, hValue, hLess, hCast⟩ := sumValues_gives hPoly (x := j + 1) (by omega)
      labPrime_prime.pos
    obtain ⟨shares, hShares, hDealt⟩ := ih (j + 1) (by omega)
    -- `j` is below 255, so neither the cast to `u8` nor the sum wraps
    have hIndex : fits 8 (j % 2 ^ 8 + 1) = (.ok (j + 1) : Intake DomainError ℕ) := by
      rw [Nat.mod_eq_of_lt (by omega)]
      exact fits_eq (by omega)
    unfold dealFrom
    rw [fits_eq (by omega), Intake.ok_bind, hValue, Intake.ok_bind, hIndex, Intake.ok_bind,
      ShareIndex.new, if_neg (by omega), Intake.ofExcept, Intake.ok_bind, hShares, Intake.ok_bind]
    refine ⟨_, rfl, ?_, ?_, ?_, ?_⟩
    · rw [List.map_cons, hDealt.ids]
    · rw [List.map_cons, hDealt.indices, List.length_cons, List.range'_succ]
    · exact List.forall_mem_cons.mpr ⟨hLess, hDealt.less⟩
    · rw [Nat.cast_zero, zero_add] at hCast
      exact List.forall_mem_cons.mpr ⟨hCast, hDealt.value⟩

/-- **Reconstruction**: whatever the polynomials are, any `t` of the shares interpolate to the
sum of the constant terms. -/
theorem dealShares_sharesSecret (hPoly : LabPolynomials t polynomials) (ht : 1 ≤ t)
    {nodes : List NodeId} (hNodes : nodes.length ≤ 255) :
    ∃ shares, dealShares polynomials nodes = .ok shares ∧ shares.map KeyShare.nodeId = nodes ∧
      SharesSecret t shares (jointSecret polynomials) := by
  obtain ⟨shares, hShares, hDealt⟩ := dealFrom_dealt hPoly 0 nodes (by omega)
  refine ⟨shares, hShares, hDealt.ids, ?_⟩
  intro picked hNodup hMem hLength
  have hIndices : (shares.map fun share => share.index.value).Nodup := by
    rw [hDealt.indices]
    exact List.nodup_range'
  -- the shares that were picked are points of the joint polynomial, with indices that differ
  let points := picked.map fun share => (share.index.value, share.value)
  have hPoints : LabShares points := by
    refine ⟨?_, ?_, ?_⟩
    · -- shares of one index are one share
      rw [List.map_map]
      refine List.Nodup.map_on ?_ hNodup
      intro share hShare share' hShare' hSame
      exact List.inj_on_of_nodup_map hIndices (hMem share hShare) (hMem share' hShare') hSame
    · intro point hPoint
      obtain ⟨share, hShare, rfl⟩ := List.mem_map.mp hPoint
      have hIndex : share.index.value ∈ List.range' (0 + 1) nodes.length := by
        rw [← hDealt.indices]
        exact List.mem_map_of_mem (hMem share hShare)
      have hRange := List.mem_range'_1.mp hIndex
      show share.index.value < 2 ^ 8
      omega
    · intro point hPoint
      obtain ⟨share, hShare, rfl⟩ := List.mem_map.mp hPoint
      exact lt_of_lt_labPrime (hDealt.less share (hMem share hShare))
  have hCount : points.length = t := (List.length_map _).trans hLength
  have hSome : points ≠ [] := by
    intro hNil
    rw [hNil] at hCount
    exact absurd hCount (by simp; omega)
  have hDegree : (jointPolynomial polynomials).degree < points.length := by
    rw [hCount]
    exact degree_jointPolynomial hPoly
  have hValues : ∀ point ∈ points,
      (jointPolynomial polynomials).eval (point.1 : ZMod labPrime) = point.2 := by
    intro point hPoint
    obtain ⟨share, hShare, rfl⟩ := List.mem_map.mp hPoint
    exact (hDealt.value share (hMem share hShare)).symm
  have hGives := hPoints.interpolateSecret_of_poly hSome hDegree hValues
  rw [jointPolynomial_eval_zero] at hGives
  have hOk := hGives.eq_ok
  rwa [jointSecret, Nat.mod_mod, ← jointSecret] at hOk

end Poly

-- ---------------------------------------------------------------------------
-- The key generation
-- ---------------------------------------------------------------------------

theorem labPolynomials_dkg (sha256 : List UInt8 → Digest) (t : ℕ) (entropy : List UInt8)
    (nodes : List NodeId) : LabPolynomials t (nodes.map (dkgPolynomial sha256 t entropy)) := by
  intro poly hPoly
  obtain ⟨node, -, rfl⟩ := List.mem_map.mp hPoly
  refine ⟨(List.length_map _).trans List.length_range, ?_⟩
  intro c hc
  obtain ⟨k, -, rfl⟩ := List.mem_map.mp hc
  exact lt_of_lt_labPrime (labRandomU64_lt sha256 _)

/-- Up to 255 nodes, of which one alone is refused, get the shares of their polynomials. -/
theorem runDkg_eq (sha256 : List UInt8 → Digest) {activeSet : List NodeId} {t : ℕ}
    (entropy : List UInt8) (hn : activeSet.length ≤ 255) (ht : 1 ≤ t)
    (htn : t ≤ activeSet.length) :
    ∃ shares, shares.map KeyShare.nodeId = activeSet ∧
      SharesSecret t shares (jointSecret (activeSet.map (dkgPolynomial sha256 t entropy))) ∧
      runDkg sha256 activeSet t entropy =
        if 2 ≤ activeSet.length then
          .ok (⟨activeSet.length, t, groupCommitment sha256 t entropy activeSet⟩, shares)
        else .error (.thresholdError s!"bad n/t: n={activeSet.length} t={t}") := by
  obtain ⟨shares, hShares, hNodes, hSecret⟩ :=
    dealShares_sharesSecret (labPolynomials_dkg sha256 t entropy activeSet) ht hn
  refine ⟨shares, hNodes, hSecret, ?_⟩
  unfold runDkg
  dsimp only
  -- of the three guards only that of a single node can still stop it
  by_cases hTwo : 2 ≤ activeSet.length
  · have hGuard : ¬ (activeSet.length < 2 ∨ t = 0 ∨ t > activeSet.length) := by omega
    rw [if_pos hTwo, if_neg hGuard, hShares, Intake.ok_bind]
  · rw [if_neg hTwo, if_pos (.inl (by omega))]

/-- **The key generation** shares the sum of the constant terms, whatever SHA-256 makes them;
and so it would with any other polynomials. -/
theorem run_dkg_shares_sum_of_constant_terms (sha256 : List UInt8 → Digest)
    (activeSet : List NodeId) (t : ℕ) (entropy : List UInt8) (hn : activeSet.length ≤ 255)
    (ht : 1 ≤ t) (htn : t ≤ activeSet.length) :
    (∀ group shares, runDkg sha256 activeSet t entropy = .ok (group, shares) →
      shares.map KeyShare.nodeId = activeSet ∧
        SharesSecret t shares (jointSecret (activeSet.map (dkgPolynomial sha256 t entropy)))) ∧
    (2 ≤ activeSet.length → ∃ result, runDkg sha256 activeSet t entropy = .ok result) ∧
    ∀ polynomials, LabPolynomials t polynomials → ∃ shares,
      dealShares polynomials activeSet = .ok shares ∧ shares.map KeyShare.nodeId = activeSet ∧
        SharesSecret t shares (jointSecret polynomials) := by
  obtain ⟨shares, hNodes, hSecret, hRun⟩ := runDkg_eq sha256 entropy hn ht htn
  refine ⟨?_, ?_, fun polynomials hPoly => dealShares_sharesSecret hPoly ht hn⟩
  · intro group shares' hOk
    rw [hRun] at hOk
    split at hOk
    · cases hOk
      exact ⟨hNodes, hSecret⟩
    · cases hOk
  · intro hTwo
    exact ⟨_, hRun.trans (if_pos hTwo)⟩

/-- Two of three nodes. -/
theorem run_dkg_two_of_three :
    let activeSet : List NodeId := [⟨"a"⟩, ⟨"b"⟩, ⟨"c"⟩]
    (∃ group shares, runDkg foldDigest activeSet 2 [1] = .ok (group, shares) ∧
      SharesSecret 2 shares (jointSecret (activeSet.map (dkgPolynomial foldDigest 2 [1])))) ∧
    ∃ shares, dealShares [[5, 7], [11, 2147483646], [2147483646, 1]] activeSet = .ok shares ∧
      SharesSecret 2 shares 15 := by
  intro activeSet
  obtain ⟨hShares, hRun, hAny⟩ := run_dkg_shares_sum_of_constant_terms foldDigest activeSet 2 [1]
    (by decide) (by decide) (by decide)
  obtain ⟨⟨group, shares⟩, hOk⟩ := hRun (by decide)
  refine ⟨⟨group, shares, hOk, (hShares group shares hOk).2⟩, ?_⟩
  obtain ⟨dealt, hDealt, -, hSecret⟩ :=
    hAny [[5, 7], [11, 2147483646], [2147483646, 1]] (by unfold LabPolynomials; decide)
  exact ⟨dealt, hDealt, hSecret⟩

end KeroseneVault
