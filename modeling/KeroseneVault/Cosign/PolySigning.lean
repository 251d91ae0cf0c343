import KeroseneVault.Cosign.IntentSign
import KeroseneVault.Dkg.InProcess

/-!
# Signing with a shared key

What the Intent signer relies on: a threshold of signers whose keys are of one keyset make
a signature of its group key. `frost-secp256k1` over committed polynomials does so.

* `FrostSuite` — the crate, with its refresh and its signing routines;
* `SigningSpec` — the documentation of the signing routines;
* `PolyFrost.signShare`, `PolyFrost.aggregateShares`, `PolyFrost.verifySignature` — the
  routines, over what they hash.

Main results:

* `PolyFrost.aggregate_verifies` — the shares of a threshold add up to a signature;
* `PolyFrost.signingSpec` — **the routines do as documented**.
-/

namespace KeroseneVault

open Polynomial

/-! ## The crate -/

/-- `frost-secp256k1`, with what the refresh and the Intent signer use of it. -/
structure FrostSuite extends FrostRefresh, FrostSigning

/-- The package that the signers of `sign_lab_quorum` sign. -/
def FrostSigning.signingPackage (F : FrostSigning) (signers : List (F.Identifier × F.KeyPackage))
    (rand : F.Identifier → F.Randomness) (message : List UInt8) :
    SigningPackage F.Identifier F.Commitments :=
  ⟨message, signers.map fun e => (e.1, (F.commit e.2 (rand e.1)).2)⟩

/-- The documentation of the signing routines: a threshold of signers with keys of one
keyset make shares of a signature that verifies under the group key. The routines refuse
a package with an identity among its points. -/
structure SigningSpec (F : FrostSuite) {K V : Type} [CommRing K] [AddCommGroup V] [Module K V]
    (S : RefreshSpec F.toFrostRefresh K V) where
  usable : F.VerifyingKey → SigningPackage F.Identifier F.Commitments → Prop
  signs : ∀ {f : K[X]} {minSigners : Nat} {keys : SortedMap F.Identifier F.KeyPackage}
    {pubkey : F.PublicKeyPackage}, SharedBy S f minSigners keys pubkey →
    ∀ {signers : List (F.Identifier × F.KeyPackage)}, signers.Sublist keys.entries →
    signers.length = minSigners → ∀ rand message,
    usable (F.verifyingKey pubkey) (F.signingPackage signers rand message) →
    ∃ (share : F.Identifier × F.KeyPackage → F.SignatureShare) (signature : F.Signature)
      (bytes : List UInt8),
      (∀ e ∈ signers, F.sign (F.signingPackage signers rand message)
        (F.commit e.2 (rand e.1)).1 e.2 = .ok (share e)) ∧
      F.aggregate (F.signingPackage signers rand message)
        (signers.map fun e => (e.1, share e)) pubkey = .ok signature ∧
      F.verify (F.verifyingKey pubkey) message signature = .ok () ∧
      F.signatureBytes signature = .ok bytes

/-! ## Over committed polynomials -/

/-- What the routines hash, how nonces are drawn, and the encoding of a signature. -/
structure PolyHashes (K V : Type) where
  bindingFactor : V → List UInt8 → List (K × (V × V)) → K → K
  challenge : V → V → List UInt8 → K
  nonces : (Nat → K) × K → K → K × K
  signatureBytes : V → K → List UInt8

namespace PolyFrost

variable {K V : Type} [LinearOrder K] [Field K] [DecidableEq V] [AddCommGroup V] [Module K V]
  (P : PolyFrost K V) (H : PolyHashes K V)

/-- The commitments to a hiding and a binding nonce. -/
def commitNonces (nonces : K × K) : V × V := (nonces.1 • P.generator, nonces.2 • P.generator)

/-- `compute_group_commitment`, where no commitment is the identity. -/
def groupNonce (key : V) (package : SigningPackage K (V × V)) : Except String V :=
  if package.commitments.any fun e => e.2.1 = 0 ∨ e.2.2 = 0 then
    .error "The participant's commitment is the identity."
  else
    .ok (package.commitments.map fun e =>
      e.2.1 + H.bindingFactor key package.message package.commitments e.1 • e.2.2).sum

/-- `round2::sign`. -/
def signShare (package : SigningPackage K (V × V)) (nonces : K × K) (kp : PolyKey K V) :
    Except String K :=
  if package.commitments.length < kp.minSigners.toNat then .error "Incorrect number of commitments."
  else
    match package.commitments.lookup kp.identifier with
    | none => .error "The participant's commitment is missing from the Signing Package"
    | some commitment =>
      if commitment ≠ P.commitNonces nonces then .error "The participant's commitment is incorrect."
      else do
        let nonce ← groupNonce H kp.verifyingKey package
        .ok (nonces.1 + nonces.2 *
            H.bindingFactor kp.verifyingKey package.message package.commitments kp.identifier +
          Interpolation.weight (package.commitments.map Prod.fst) kp.identifier *
            kp.signingShare * H.challenge nonce kp.verifyingKey package.message)

/-- `VerifyingKey::verify`. -/
def verifySignature (key : V) (message : List UInt8) (signature : V × K) : Except String Unit :=
  if signature.2 • P.generator = signature.1 + H.challenge signature.1 key message • key then .ok ()
  else .error "Invalid signature."

/-- `aggregate`. -/
def aggregateShares (package : SigningPackage K (V × V)) (shares : List (K × K))
    (pubkey : PolyPubkey K V) : Except String (V × K) :=
  if shares.map Prod.fst ≠ package.commitments.map Prod.fst then .error "Unknown identifier."
  else do
    let nonce ← groupNonce H pubkey.verifyingKey package
    let signature := (nonce, (shares.map Prod.snd).sum)
    match P.verifySignature H pubkey.verifyingKey package.message signature with
    | .ok () => .ok signature
    | .error _ => .error "Invalid signature share."

/-- The crate with its signing routines. -/
def toFrostSuite : FrostSuite where
  toFrostRefresh := P.toFrostRefresh
  Nonces := K × K
  Commitments := V × V
  SignatureShare := K
  Signature := V × K
  commit := fun (kp : PolyKey K V) rand =>
    (H.nonces rand kp.signingShare, P.commitNonces (H.nonces rand kp.signingShare))
  sign := P.signShare H
  aggregate := P.aggregateShares H
  verify := P.verifySignature H
  signatureBytes := fun signature : V × K =>
    if signature.1 = 0 then .error "Invalid identity element."
    else .ok (H.signatureBytes signature.1 signature.2)

/-! ## The sum of the shares -/

variable {P H}

omit [DecidableEq V] in
/-- **The shares of a threshold add up.** Each signer adds its nonces, with its binding
factor on one, to its weighted share of the key, times the challenge. -/
theorem aggregate_verifies {ids : List K} (hNodup : ids.Nodup) {f : K[X]}
    (hDegree : f.degree < ids.length) (nonces : K → K × K) (factor : K → K) (challenge : K) :
    (ids.map fun i => (nonces i).1 + (nonces i).2 * factor i +
        Interpolation.weight ids i * f.eval i * challenge).sum • P.generator =
      (ids.map fun i => (P.commitNonces (nonces i)).1 + factor i • (P.commitNonces (nonces i)).2).sum +
        challenge • f.eval 0 • P.generator := by
  have hFirst : (ids.map fun i => (i, f.eval i)).map Prod.fst = ids := by
    rw [List.map_map]
    exact List.map_id ids
  -- the weighted shares are the secret
  have hSecret : (ids.map fun i => f.eval i * Interpolation.weight ids i).sum = f.eval 0 := by
    have hZero : Interpolation.atZero (ids.map fun i => (i, f.eval i)) = f.eval 0 := by
      apply Interpolation.atZero_eq (by rw [hFirst]; exact hNodup)
        (by rw [List.length_map]; exact hDegree)
      intro p hp
      obtain ⟨i, -, rfl⟩ := List.mem_map.mp hp
      rfl
    rw [← hZero]
    unfold Interpolation.atZero
    rw [hFirst, List.map_map]
    rfl
  rw [← hSecret, smul_smul, List.sum_smul, List.map_map]
  clear hSecret hFirst hDegree hNodup
  -- on the signers, with the weights of all of them
  generalize Interpolation.weight ids = weight
  induction ids with
  | nil => simp
  | cons i ids ih =>
    simp only [List.map_cons, List.sum_cons, Function.comp_apply] at ih ⊢
    rw [ih]
    unfold commitNonces
    module

/-! ## The routines together -/

omit [LinearOrder K] in
/-- The value of the sum for the signers of a package. -/
theorem groupNonce_ok {H : PolyHashes K V} {key nonce : V} {package : SigningPackage K (V × V)}
    (h : groupNonce H key package = .ok nonce) :
    nonce = (package.commitments.map fun e =>
      e.2.1 + H.bindingFactor key package.message package.commitments e.1 • e.2.2).sum := by
  unfold groupNonce at h
  split at h
  · cases h
  · exact (Except.ok.inj h).symm

/-- **The routines do as documented.** -/
noncomputable def signingSpec (P : PolyFrost K V) (H : PolyHashes K V) :
    SigningSpec (P.toFrostSuite H) P.refreshSpec where
  usable := fun key package => ∃ nonce : V, groupNonce H key package = .ok nonce ∧ nonce ≠ 0
  signs := by
    intro f minSigners keys pubkey hShared signers hSublist hLength rand message hUsable
    change List (K × PolyKey K V) at signers
    change PolyPubkey K V at pubkey
    let ids := signers.map Prod.fst
    let nonces (i : K) : K × K := H.nonces (rand i) (f.eval i)
    have hNodup : ids.Nodup := (hSublist.map Prod.fst).nodup (keys.sorted.imp ne_of_lt)
    have hKey : ∀ e ∈ signers, e.2.identifier = e.1 ∧ e.2.verifyingKey = pubkey.verifyingKey ∧
        e.2.minSigners.toNat = minSigners ∧ e.2.signingShare = f.eval e.1 :=
      fun e he => hShared.key e (hSublist.subset he)
    -- what is signed has the commitments of the signers, by their identifiers
    let package : SigningPackage K (V × V) := ⟨message, ids.map fun i => (i, P.commitNonces (nonces i))⟩
    have hPackage : (P.toFrostSuite H).toFrostSigning.signingPackage signers rand message =
        package := by
      show SigningPackage.mk message (signers.map fun e => (e.1, P.commitNonces
        (H.nonces (rand e.1) e.2.signingShare))) = SigningPackage.mk message
          ((signers.map Prod.fst).map fun i => (i, P.commitNonces (nonces i)))
      rw [List.map_map]
      refine congrArg _ (List.map_congr_left fun e he => ?_)
      rw [(hKey e he).2.2.2]
      rfl
    rw [hPackage] at hUsable ⊢
    obtain ⟨nonce, hNonce, hNe⟩ := hUsable
    change groupNonce H pubkey.verifyingKey package = .ok nonce at hNonce
    have hIds : package.commitments.map Prod.fst = ids := by
      show (ids.map fun i => (i, P.commitNonces (nonces i))).map Prod.fst = ids
      rw [List.map_map]
      exact List.map_id ids
    let factor := H.bindingFactor pubkey.verifyingKey message package.commitments
    let challenge := H.challenge nonce pubkey.verifyingKey message
    let share (e : K × PolyKey K V) : K := (nonces e.1).1 + (nonces e.1).2 * factor e.1 +
      Interpolation.weight ids e.1 * f.eval e.1 * challenge
    let signature : V × K := (nonce, (signers.map share).sum)
    have hVerify : P.verifySignature H pubkey.verifyingKey message signature = .ok () := by
      have hSum := aggregate_verifies (P := P) hNodup (f := f) (by
        rw [show ids.length = minSigners from (List.length_map _).trans hLength]
        exact Polynomial.mem_degreeLT.mp hShared.degree) nonces factor challenge
      have hSecret : f.eval 0 • P.generator = pubkey.verifyingKey := hShared.secret
      have hShares : signers.map share = ids.map fun i => (nonces i).1 + (nonces i).2 * factor i +
          Interpolation.weight ids i * f.eval i * challenge := by
        rw [List.map_map]
        rfl
      have hSumNonce : nonce = (ids.map fun i => (P.commitNonces (nonces i)).1 +
          factor i • (P.commitNonces (nonces i)).2).sum := by
        rw [groupNonce_ok hNonce]
        show ((ids.map fun i => (i, P.commitNonces (nonces i))).map _).sum = _
        rw [List.map_map]
        rfl
      refine if_pos ?_
      show (signers.map share).sum • P.generator = nonce + challenge • pubkey.verifyingKey
      rw [hShares, hSum, ← hSumNonce, hSecret]
    refine ⟨share, signature, H.signatureBytes signature.1 signature.2, fun e he => ?_, ?_,
      hVerify, if_neg hNe⟩
    · obtain ⟨hIdentifier, hVk, hMin, hShare⟩ := hKey e he
      show P.signShare H package (H.nonces (rand e.1) e.2.signingShare) e.2 = .ok (share e)
      have hCount : ¬ package.commitments.length < e.2.minSigners.toNat := by
        have hSize : package.commitments.length = minSigners := by
          show ((signers.map Prod.fst).map fun i => (i, P.commitNonces (nonces i))).length = _
          rw [List.length_map, List.length_map]
          exact hLength
        rw [hMin, hSize]
        exact lt_irrefl _
      have hFound : package.commitments.lookup e.2.identifier =
          some (P.commitNonces (nonces e.1)) := by
        rw [hIdentifier]
        exact List.lookup_graph (fun i => P.commitNonces (nonces i)) (List.mem_map_of_mem he)
      unfold signShare
      rw [if_neg hCount, hFound, hShare, hVk]
      dsimp only
      rw [if_neg (not_not.mpr rfl), hNonce, hIdentifier, hIds]
      rfl
    · show P.aggregateShares H package (signers.map fun e => (e.1, share e)) pubkey = .ok signature
      have hFirst : (signers.map fun e => (e.1, share e)).map Prod.fst = ids := by
        rw [List.map_map]
        rfl
      have hSecond : (signers.map fun e => (e.1, share e)).map Prod.snd = signers.map share := by
        rw [List.map_map]
        rfl
      unfold aggregateShares
      rw [if_neg (not_not.mpr (hFirst.trans hIds.symm)), hNonce, hSecond]
      show (match P.verifySignature H pubkey.verifyingKey message signature with
        | .ok () => Except.ok signature
        | .error _ => .error "Invalid signature share.") = .ok signature
      rw [hVerify]

end PolyFrost

end KeroseneVault
