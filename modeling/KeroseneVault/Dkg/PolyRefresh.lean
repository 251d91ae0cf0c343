import KeroseneVault.Dkg.Refresh
import KeroseneVault.Dkg.SmallFrost

/-!
# Refreshing over committed polynomials

The refresh routines as the `frost` crates run them: the polynomials have no
constant term, the commitment to that term is left out of the packages and put
back by who reads them, and no proof of knowledge is checked.

* `refreshPart1`, `refreshPart2`, `refreshShares` — the routines;
* `refreshSpec` — **they return what their documentation says**;
* `smallRefresh` — the small instance.
-/

namespace KeroseneVault

open PolyCommit

namespace PolyFrost

variable {K V : Type} [LinearOrder K] [CommRing K] [DecidableEq V] [AddCommGroup V] [Module K V]

/-! ## The routines -/

/-- `refresh_dkg_part1`. -/
def refreshPart1 (P : PolyFrost K V) (identifier : K) (maxSigners minSigners : Nat)
    (rand : (Nat → K) × K) : Except String (PolySecret1 K × PolyRound1 K V) :=
  if minSigners < 2 ∨ minSigners > maxSigners then
    .error "min_signers must be at least 2 and not larger than max_signers"
  -- the argument is a `u16`
  else if 2 ^ 16 ≤ maxSigners then .error "max_signers is not a u16"
  else
    let coefficients := 0 :: (List.range (minSigners - 1)).map rand.1
    let commitment := (commit P.generator coefficients).tail
    let nonce := rand.2 • P.generator
    .ok (⟨identifier, coefficients, maxSigners, minSigners⟩,
      { commitment, nonce
        response := rand.2 + coefficients.headD 0 *
          P.challenge identifier (constantTerm commitment) nonce })

/-- `refresh_dkg_part2`. -/
def refreshPart2 (P : PolyFrost K V) (secret : PolySecret1 K)
    (received : Table K (PolyRound1 K V)) : Except String (PolySecret2 K V × Table K K) :=
  if received.size ≠ secret.maxSigners - 1 then .error "Incorrect number of packages."
  else .ok ({ identifier := secret.identifier
              commitment := commit P.generator secret.coefficients
              secretShare := eval secret.coefficients secret.identifier
              maxSigners := secret.maxSigners
              minSigners := secret.minSigners },
    Table.tabulate received.keys (eval secret.coefficients))

/-- A package with the commitment that was left out. -/
def withIdentity (package : PolyRound1 K V) : PolyRound1 K V :=
  { package with commitment := 0 :: package.commitment }

/-- What a package says of the value for `j`. -/
def committedTo (package : PolyRound1 K V) (j : K) : V := evalCommit (0 :: package.commitment) j

/-- A member's new verifying share. -/
def refreshedShare [DecidableEq K] (old : List (K × V)) (zeroShare : K → V) (j : K) :
    Except String (K × V) :=
  match old.lookup j with
  | none => .error "Unknown identifier."
  | some share => .ok (j, share + zeroShare j)

/-- `refresh_dkg_shares`. -/
def refreshShares (P : PolyFrost K V) (secret : PolySecret2 K V)
    (received : Table K (PolyRound1 K V)) (inbox : Table K K) (oldPubkey : PolyPubkey K V)
    (oldKp : PolyKey K V) : Except String (PolyKey K V × PolyPubkey K V) :=
  let packages := Table.insertAll ∅ (received.toPairs.map fun e => (e.1, withIdentity e.2))
  if received.size ≠ secret.maxSigners - 1 ∨ received.size ≠ inbox.size then
    .error "Incorrect number of packages."
  else if received.keys.any fun j => j ∉ inbox.keys then .error "Incorrect package."
  else if inbox.toPairs.all (P.verifiesShare secret.identifier packages) then do
    let zeroShare := fun j => evalCommit secret.commitment j +
      (received.toPairs.map fun e => committedTo e.2 j).sum
    let verifyingShares ← (secret.identifier :: received.keys).mapM
      (refreshedShare oldPubkey.verifyingShares zeroShare)
    let signingShare := secret.secretShare + (inbox.toPairs.map Prod.snd).sum + oldKp.signingShare
    .ok (
      { identifier := secret.identifier
        signingShare
        verifyingShare := signingShare • P.generator
        verifyingKey := oldPubkey.verifyingKey
        minSigners := UInt16.ofNat secret.minSigners },
      { verifyingShares
        verifyingKey := oldPubkey.verifyingKey
        minSigners := UInt16.ofNat secret.minSigners })
  else .error "Invalid secret share."

/-- The crate with its refresh routines. -/
def toFrostRefresh (P : PolyFrost K V) : FrostRefresh where
  toFrostDkg := P.toFrostDkg
  verifyingKeyEq := (inferInstance : DecidableEq V)
  sha384 := id
  refreshPart1 := P.refreshPart1
  refreshPart2 := P.refreshPart2
  refreshShares := P.refreshShares

/-! ## What they return -/

variable {P : PolyFrost K V}

open Polynomial in
omit [LinearOrder K] [DecidableEq V] in
/-- What is drawn is a polynomial without a constant term, and its package commits to it. -/
theorem refreshPart1_ok {identifier : K} {maxSigners minSigners : Nat} {rand : (Nat → K) × K}
    {secret : PolySecret1 K} {package : PolyRound1 K V}
    (h : P.refreshPart1 identifier maxSigners minSigners rand = .ok (secret, package)) :
    secret.identifier = identifier ∧
      toPolynomial secret.coefficients ∈ degreeLT K minSigners ∧
      (toPolynomial secret.coefficients).eval 0 = 0 ∧
      ∀ j, committedTo package j = (toPolynomial secret.coefficients).eval j • P.generator := by
  unfold refreshPart1 at h
  split at h
  · cases h
  rename_i hParams
  split at h
  · cases h
  cases Except.ok.inj h
  set coefficients : List K := 0 :: (List.range (minSigners - 1)).map rand.1 with hCoefficients
  have hLength : coefficients.length = minSigners := by
    rw [hCoefficients, List.length_cons, List.length_map, List.length_range]
    omega
  have hZero : eval coefficients 0 = 0 := eval_cons_zero _
  -- the commitment that is left out is that to zero
  have hCommit : 0 :: (commit P.generator coefficients).tail = commit P.generator coefficients := by
    show 0 :: _ = (0 : K) • P.generator :: _
    rw [zero_smul]
    rfl
  refine ⟨rfl, ?_, ?_, fun j => ?_⟩
  · rw [← hLength]
    exact toPolynomial_mem_degreeLT coefficients
  · rw [eval_toPolynomial, hZero]
  · rw [committedTo, hCommit, evalCommit_commit, eval_toPolynomial]

omit [DecidableEq V] in
theorem refreshPart2_ok {secret : PolySecret1 K} {received : Table K (PolyRound1 K V)}
    {secret2 : PolySecret2 K V} {outbound : Table K K}
    (h : P.refreshPart2 secret received = .ok (secret2, outbound)) :
    secret2.identifier = secret.identifier ∧
      secret2.secretShare = (toPolynomial secret.coefficients).eval secret.identifier ∧
      (∀ j, evalCommit secret2.commitment j =
        (toPolynomial secret.coefficients).eval j • P.generator) ∧
      outbound.ReadsAs received.keys id fun j => (toPolynomial secret.coefficients).eval j := by
  unfold refreshPart2 at h
  split at h
  · cases h
  cases Except.ok.inj h
  refine ⟨rfl, (eval_toPolynomial ..).symm, fun j => ?_, ?_⟩
  · rw [eval_toPolynomial]
    exact evalCommit_commit ..
  · simp only [eval_toPolynomial]
    exact Table.ReadsAs.tabulate received.keys_nodup (eval secret.coefficients) id

omit [CommRing K] [DecidableEq V] [Module K V] in
/-- The sums a loop makes of looked-up shares are found under the same names. -/
theorem lookup_of_mapM {ids : List K} {old shares : List (K × V)} {zeroShare : K → V}
    (h : ids.mapM (refreshedShare old zeroShare) = .ok shares) {j : K} (hj : j ∈ ids) :
    shares.lookup j = (old.lookup j).map (· + zeroShare j) := by
  have hEach := Results.mapM_eq_ok.mp h
  clear h
  -- the refreshed shares stand in the order of the identifiers, each under its own
  induction hEach with
  | nil => cases hj
  | @cons i share rest shares hFirst _ ih =>
    unfold refreshedShare at hFirst
    cases hFound : old.lookup i with
    | none =>
      rw [hFound] at hFirst
      cases hFirst
    | some oldShare =>
      rw [hFound] at hFirst
      cases Except.ok.inj hFirst
      by_cases hEq : j = i
      · subst hEq
        rw [List.lookup_cons_self, hFound]
        rfl
      · rw [List.lookup_cons, beq_eq_false_iff_ne.mpr hEq]
        exact ih ((List.mem_cons.mp hj).resolve_left hEq)

theorem refreshShares_ok {secret : PolySecret2 K V} {received : Table K (PolyRound1 K V)}
    {inbox : Table K K} {oldPubkey pk : PolyPubkey K V} {oldKp kp : PolyKey K V}
    (h : P.refreshShares secret received inbox oldPubkey oldKp = .ok (kp, pk)) :
    kp.identifier = secret.identifier ∧ kp.verifyingKey = pk.verifyingKey ∧
      kp.signingShare = oldKp.signingShare + secret.secretShare +
        (inbox.toPairs.map Prod.snd).sum ∧
      ∀ j ∈ secret.identifier :: received.keys, pk.verifyingShares.lookup j =
        (oldPubkey.verifyingShares.lookup j).map (· + (evalCommit secret.commitment j +
          (received.toPairs.map fun e => committedTo e.2 j).sum)) := by
  unfold refreshShares at h
  dsimp only at h
  split at h
  · cases h
  split at h
  · cases h
  split at h
  · obtain ⟨shares, hShares, h⟩ := Results.bind_eq_ok.mp h
    cases Except.ok.inj h
    exact ⟨rfl, rfl, by ring, fun j hj => lookup_of_mapM hShares hj⟩
  · cases h

/-- **The routines return what their documentation says.** -/
noncomputable def refreshSpec (P : PolyFrost K V) : RefreshSpec P.toFrostRefresh K V where
  generator := P.generator
  scalar := fun id : K => id
  point := fun key : V => key
  keyIdentifier := fun kp : PolyKey K V => kp.identifier
  keyVerifyingKey := fun kp : PolyKey K V => kp.verifyingKey
  signingShare := fun kp : PolyKey K V => kp.signingShare
  verifyingShare := fun (pk : PolyPubkey K V) id => pk.verifyingShares.lookup id
  owner1 := fun secret : PolySecret1 K => secret.identifier
  owner2 := fun secret : PolySecret2 K V => secret.identifier
  polynomial := fun secret : PolySecret1 K => toPolynomial secret.coefficients
  committed1 := committedTo (K := K) (V := V)
  committed2 := fun (secret : PolySecret2 K V) (j : K) => evalCommit secret.commitment j
  ownShare := fun secret : PolySecret2 K V => secret.secretShare
  share := fun share : K => share
  part1 := fun _ _ _ _ _ _ h => refreshPart1_ok (K := K) (V := V) h
  part2 := fun _ _ _ _ h => refreshPart2_ok (K := K) (V := V) h
  part3 := fun _ _ _ _ _ _ _ h => refreshShares_ok (K := K) (V := V) h

end PolyFrost

/-! ## The small instance -/

def smallRefresh : FrostRefresh := smallFrost.toFrostRefresh

end KeroseneVault
