import KeroseneVault.Cosign.Honest
import KeroseneVault.Cosign.PolySigning

/-!
# Co-signing with a key of the wire DKG

The key generation and the co-signer use one crate, `frost-secp256k1-tr`. What the
co-signing proofs assume of a keyset holds of the keys that members share by a
polynomial, even and tweaked as the node makes them before it signs.

* `TrSuite` — the crate, as both use it;
* `ShareOf`, `KeysOf` — the keys that members share by a polynomial;
* `AffineOnKeys` — `into_even_y` and `tweak`: they scale what is shared, and shift it;
* `TrSpec` — the documentation of the signing routines;
* `PolyTr` — the routines over committed polynomials.

Main results:

* `ShareOf.map`, `KeysOf.map` — keys that are made even or tweaked are shared still;
* `TrSpec.correct` — **the keys of one polynomial are a correct keyset**;
* `PolyTr.trSpec` — the routines do as documented.
-/

namespace KeroseneVault

open Polynomial

/-! ## The crate -/

/-- `frost-secp256k1-tr`, with what a co-signer and a coordinator use of it. -/
structure TrSuite extends FrostRefresh where
  Nonces : Type
  Commitments : Type
  Share : Type
  Signature : Type
  /-- `into_even_y(None).tweak(None)` -/
  tweakKey : KeyPackage → KeyPackage
  tweakPubkey : PublicKeyPackage → PublicKeyPackage
  /-- `round1::commit` with the randomness it draws -/
  commit : KeyPackage → Nat → Nonces × Commitments
  /-- `round2::sign` -/
  sign : SigningPackage Identifier Commitments → Nonces → KeyPackage → Except String Share
  aggregate : SigningPackage Identifier Commitments → List (Identifier × Share) →
    PublicKeyPackage → Except String Signature
  /-- `verifying_key().verify` -/
  verify : PublicKeyPackage → List UInt8 → Signature → Except String Unit
  serializeCommitments : Commitments → Except String (List UInt8)
  deserializeCommitments : List UInt8 → Except String Commitments
  serializePackage : SigningPackage Identifier Commitments → Except String (List UInt8)
  deserializePackage : List UInt8 → Except String (SigningPackage Identifier Commitments)
  shareBytes : Share → List UInt8
  deserializeShare : List UInt8 → Except String Share

namespace TrSuite

/-- The crate as the co-sign peer sees it. -/
def toFrostTr (T : TrSuite) : FrostTr where
  Identifier := T.Identifier
  KeyPackage := T.KeyPackage
  Nonces := T.Nonces
  Commitments := T.Commitments
  Share := T.Share
  decIdentifier := inferInstance
  tweak := T.tweakKey
  commit := T.commit
  serializeCommitments := T.serializeCommitments
  deserializePackage := T.deserializePackage
  sign := T.sign
  identifierBytes := T.identifierBytes
  shareBytes := T.shareBytes
  hexDecode := T.hexDecode
  hexEncode := T.hexEncode

/-- The crate as the coordinator sees it. -/
def toCoordinator (T : TrSuite) : FrostTrCoordinator T.toFrostTr where
  PubkeyPackage := T.PublicKeyPackage
  Signature := T.Signature
  tweakPubkey := T.tweakPubkey
  deserializeIdentifier := T.readIdentifier
  deserializeCommitments := T.deserializeCommitments
  deserializeShare := T.deserializeShare
  serializePackage := T.serializePackage
  aggregate := T.aggregate
  verify := T.verify

/-- The package that signers sign with their keys and what they draw. -/
def signingPackage (T : TrSuite) (key : T.Identifier → T.KeyPackage) (r : T.Identifier → Nat)
    (message : List UInt8) (signers : List T.Identifier) :
    SigningPackage T.Identifier T.Commitments :=
  ⟨message, signers.map fun i => (i, (T.commit (key i) (r i)).2)⟩

end TrSuite

/-! ## Keys of one polynomial -/

section Keys

variable {F : FrostRefresh} {K V : Type} [CommRing K] [AddCommGroup V] [Module K V]

/-- The key of member `i` is its value of `f`, under the group key. -/
structure ShareOf (S : RefreshSpec F K V) (f : K[X]) (minSigners : Nat)
    (groupKey : F.VerifyingKey) (i : F.Identifier) (kp : F.KeyPackage) : Prop where
  identifier : S.keyIdentifier kp = i
  verifyingKey : S.keyVerifyingKey kp = groupKey
  minSigners : F.keyMinSigners kp = minSigners
  signingShare : S.signingShare kp = f.eval (S.scalar i)

/-- The keys of the members are their values of `f`, under the group key of the package. -/
structure KeysOf (S : RefreshSpec F K V) (f : K[X]) (minSigners : Nat) (ids : List F.Identifier)
    (key : F.Identifier → F.KeyPackage) (pubkey : F.PublicKeyPackage) : Prop where
  degree : f ∈ degreeLT K minSigners
  secret : f.eval 0 • S.generator = S.point (F.verifyingKey pubkey)
  share : ∀ i ∈ ids, ShareOf S f minSigners (F.verifyingKey pubkey) i (key i)

/-- An operation on keys that scales the share and shifts it, and the point of the group
key with it, by what the group key says. -/
structure AffineOnKeys (S : RefreshSpec F K V) (onKey : F.KeyPackage → F.KeyPackage)
    (onPubkey : F.PublicKeyPackage → F.PublicKeyPackage) where
  scale : F.VerifyingKey → K
  shift : F.VerifyingKey → K
  image : F.VerifyingKey → F.VerifyingKey
  point : ∀ v, S.point (image v) = scale v • S.point v + shift v • S.generator
  pubkey : ∀ pk, F.verifyingKey (onPubkey pk) = image (F.verifyingKey pk)
  identifier : ∀ kp, S.keyIdentifier (onKey kp) = S.keyIdentifier kp
  verifyingKey : ∀ kp, S.keyVerifyingKey (onKey kp) = image (S.keyVerifyingKey kp)
  minSigners : ∀ kp, F.keyMinSigners (onKey kp) = F.keyMinSigners kp
  signingShare : ∀ kp, S.signingShare (onKey kp) =
    scale (S.keyVerifyingKey kp) * S.signingShare kp + shift (S.keyVerifyingKey kp)

section Affine

variable {S : RefreshSpec F K V} {onKey : F.KeyPackage → F.KeyPackage}
  {onPubkey : F.PublicKeyPackage → F.PublicKeyPackage} (A : AffineOnKeys S onKey onPubkey)
  {f : K[X]} {minSigners : Nat}

/-- The polynomial, scaled and shifted. -/
noncomputable def AffineOnKeys.onPolynomial (groupKey : F.VerifyingKey) (f : K[X]) : K[X] :=
  A.scale groupKey • f + C (A.shift groupKey)

theorem AffineOnKeys.eval_onPolynomial (groupKey : F.VerifyingKey) (f : K[X]) (x : K) :
    (A.onPolynomial groupKey f).eval x = A.scale groupKey * f.eval x + A.shift groupKey := by
  rw [onPolynomial, eval_add, eval_smul, eval_C, smul_eq_mul]

theorem AffineOnKeys.degree_onPolynomial (groupKey : F.VerifyingKey) (hMin : 0 < minSigners)
    (h : f ∈ degreeLT K minSigners) : A.onPolynomial groupKey f ∈ degreeLT K minSigners := by
  refine Submodule.add_mem _ (Submodule.smul_mem _ _ h) (Polynomial.mem_degreeLT.mpr ?_)
  exact degree_C_le.trans_lt (by exact_mod_cast hMin)

/-- A key that is scaled and shifted is a value of the polynomial so scaled and shifted. -/
theorem ShareOf.map {groupKey : F.VerifyingKey} {i : F.Identifier} {kp : F.KeyPackage}
    (h : ShareOf S f minSigners groupKey i kp) :
    ShareOf S (A.onPolynomial groupKey f) minSigners (A.image groupKey) i (onKey kp) where
  identifier := by rw [A.identifier, h.identifier]
  verifyingKey := by rw [A.verifyingKey, h.verifyingKey]
  minSigners := by rw [A.minSigners, h.minSigners]
  signingShare := by rw [A.signingShare, h.verifyingKey, h.signingShare, A.eval_onPolynomial]

/-- The secret of the group key goes along. -/
theorem AffineOnKeys.secret {groupKey : F.VerifyingKey}
    (h : f.eval 0 • S.generator = S.point groupKey) :
    (A.onPolynomial groupKey f).eval 0 • S.generator = S.point (A.image groupKey) := by
  rw [A.eval_onPolynomial, A.point, ← h, add_smul, mul_smul]

/-- So do all the keys of a keyset. -/
theorem KeysOf.map {ids : List F.Identifier} {key : F.Identifier → F.KeyPackage}
    {pubkey : F.PublicKeyPackage} (h : KeysOf S f minSigners ids key pubkey)
    (hMin : 0 < minSigners) :
    KeysOf S (A.onPolynomial (F.verifyingKey pubkey) f) minSigners ids (fun i => onKey (key i))
      (onPubkey pubkey) where
  degree := A.degree_onPolynomial _ hMin h.degree
  secret := by
    rw [A.pubkey]
    exact A.secret h.secret
  share i hi := by
    rw [A.pubkey]
    exact (h.share i hi).map A

end Affine

end Keys

/-! ## Signing -/

section Spec

variable {T : TrSuite} {K V : Type} [CommRing K] [AddCommGroup V] [Module K V]

/-- The documentation of the routines: keys are made even and tweaked as a whole keyset, and
a threshold of signers with keys of one polynomial make shares that aggregate, in any order,
to a signature under the group key. -/
structure TrSpec (T : TrSuite) {K V : Type} [CommRing K] [AddCommGroup V] [Module K V]
    (S : RefreshSpec T.toFrostRefresh K V) where
  even : AffineOnKeys S T.evenKey T.evenPubkey
  tweak : AffineOnKeys S T.tweakKey T.tweakPubkey
  signs : ∀ {f : K[X]} {minSigners : Nat} {ids : List T.Identifier}
    {key : T.Identifier → T.KeyPackage} {pubkey : T.PublicKeyPackage},
    KeysOf S f minSigners ids key pubkey →
    ∀ {signers : List T.Identifier}, signers.Nodup → signers ⊆ ids →
    minSigners ≤ signers.length → ∀ (r : T.Identifier → Nat) (message : List UInt8),
    ∃ share : T.Identifier → T.Share,
      (∀ i ∈ signers, T.sign (T.signingPackage key r message signers)
        (T.commit (key i) (r i)).1 (key i) = .ok (share i)) ∧
      ∀ order : List T.Identifier, order.Perm signers → ∃ signature,
        T.aggregate (T.signingPackage key r message signers)
          (order.map fun i => (i, share i)) pubkey = .ok signature ∧
        T.verify pubkey message signature = .ok ()

/--
**The keys of one polynomial are a correct keyset.** Whatever polynomial members share their
keys by, any of them that reach the threshold sign, with the keys tweaked as the co-signer
tweaks them.
-/
theorem TrSpec.correct {S : RefreshSpec T.toFrostRefresh K V} (G : TrSpec T S) {f : K[X]}
    {minSigners : Nat} {ids : List T.Identifier} {key : T.Identifier → T.KeyPackage}
    {pubkey : T.PublicKeyPackage} (h : KeysOf S f minSigners ids key pubkey)
    (hTwo : 2 ≤ minSigners) :
    Keyset.Correct (F := T.toFrostTr) (W := T.toCoordinator) ⟨key, pubkey, minSigners⟩ ids := by
  have hTweaked := h.map G.tweak (by omega)
  have hSigns (signers : List T.Identifier) (hNodup : signers.Nodup) (hSub : signers ⊆ ids)
      (hLength : minSigners ≤ signers.length) (r : T.Identifier → Nat) (message : List UInt8) :=
    G.signs hTweaked hNodup hSub hLength r message
  refine ⟨hTwo, fun signers hNodup hSub hLength r message i hi => ?_,
    fun (signers : List T.Identifier) hNodup hSub hLength r message
      (s : T.Identifier → T.Share) hs (order : List T.Identifier) hOrder => ?_⟩
  · obtain ⟨share, hShare, -⟩ := hSigns signers hNodup hSub hLength r message
    exact ⟨share i, hShare i hi⟩
  · obtain ⟨share, hShare, hAggregate⟩ := hSigns signers hNodup hSub hLength r message
    obtain ⟨signature, hSignature, hVerify⟩ := hAggregate order hOrder
    refine ⟨signature, ?_, hVerify⟩
    -- the shares are the ones that signing yields
    have hSame : (order.map fun i => (i, s i)) = order.map fun i => (i, share i) := by
      refine List.map_congr_left fun i hi => ?_
      have hIn := hOrder.mem_iff.mp hi
      exact congrArg (Prod.mk i) (Except.ok.inj ((hs i hIn).symm.trans (hShare i hIn)))
    show T.aggregate (T.signingPackage (fun i => T.tweakKey (key i)) r message signers)
      (order.map fun i => (i, s i)) (T.tweakPubkey pubkey) = .ok signature
    rw [hSame]
    exact hSignature

end Spec

/-! ## Over committed polynomials -/

/-- What the routines hash and draw, which points are even, and the encodings. -/
structure PolyTr {K V : Type} [LinearOrder K] [CommRing K] [DecidableEq V] [AddCommGroup V]
    [Module K V] (P : PolyFrost K V) extends PolyHashes K V where
  isEven : V → Bool
  evenKey : ∀ v, P.evenKey v = if isEven v then v else -v
  evenShare : ∀ v share, P.evenShare v share = if isEven v then share else -share
  tweakHash : V → K
  /-- the randomness that a number stands for -/
  draw : Nat → (Nat → K) × K
  nonces_ne : ∀ rand share, (nonces rand share).1 • P.generator ≠ 0 ∧
    (nonces rand share).2 • P.generator ≠ 0
  commitments : Codec (V × V)
  package : Codec (SigningPackage K (V × V))
  share : Codec K

namespace PolyTr

variable {K V : Type} [LinearOrder K] [Field K] [DecidableEq V] [AddCommGroup V] [Module K V]
  {P : PolyFrost K V} (H : PolyTr P)

/-- What makes a point even. -/
def parity (v : V) : K := if H.isEven v then 1 else -1

/-- The point with its coordinate, and an even one. -/
def even (v : V) : V := H.parity v • v

/-- `into_even_y(None)`, then `tweak(None)`. -/
def tweakKey (kp : PolyKey K V) : PolyKey K V :=
  let key := H.even kp.verifyingKey
  let signingShare := H.parity kp.verifyingKey * kp.signingShare + H.tweakHash key
  { kp with
    signingShare
    verifyingShare := signingShare • P.generator
    verifyingKey := key + H.tweakHash key • P.generator }

def tweakPubkey (pk : PolyPubkey K V) : PolyPubkey K V :=
  let key := H.even pk.verifyingKey
  { verifyingShares := pk.verifyingShares.map fun e =>
      (e.1, H.parity pk.verifyingKey • e.2 + H.tweakHash key • P.generator)
    verifyingKey := key + H.tweakHash key • P.generator
    minSigners := pk.minSigners }

/-- `round2::sign`: the key is made even, and the nonces are, by what they add up to. -/
def sign (package : SigningPackage K (V × V)) (nonces : K × K) (kp : PolyKey K V) :
    Except String K :=
  if package.commitments.length < kp.minSigners.toNat then .error "Incorrect number of commitments."
  else
    match package.commitments.lookup kp.identifier with
    | none => .error "The participant's commitment is missing from the Signing Package"
    | some commitment =>
      if commitment ≠ P.commitNonces nonces then .error "The participant's commitment is incorrect."
      else do
        let key := H.even kp.verifyingKey
        let nonce ← PolyFrost.groupNonce H.toPolyHashes key package
        .ok (H.parity nonce * (nonces.1 + nonces.2 *
            H.bindingFactor key package.message package.commitments kp.identifier) +
          Interpolation.weight (package.commitments.map Prod.fst) kp.identifier *
            (H.parity kp.verifyingKey * kp.signingShare) *
            H.challenge (H.even nonce) key package.message)

/-- `VerifyingKey::verify`, by BIP-340: of the key and the nonce only the even points count. -/
def verifySignature (key : V) (message : List UInt8) (signature : V × K) : Except String Unit :=
  let nonce := H.even signature.1
  if signature.2 • P.generator =
      nonce + H.challenge nonce (H.even key) message • H.even key then .ok ()
  else .error "Invalid signature."

/-- `aggregate`. -/
def aggregate (package : SigningPackage K (V × V)) (shares : List (K × K))
    (pubkey : PolyPubkey K V) : Except String (V × K) :=
  if shares.length ≠ package.commitments.length ∨
      shares.any (fun e => e.1 ∉ package.commitments.map Prod.fst) then
    .error "Unknown identifier."
  else do
    let nonce ← PolyFrost.groupNonce H.toPolyHashes (H.even pubkey.verifyingKey) package
    let signature := (nonce, (shares.map Prod.snd).sum)
    match H.verifySignature pubkey.verifyingKey package.message signature with
    | .ok () => .ok signature
    | .error _ => .error "Invalid signature share."

/-- The crate with its co-signing routines. -/
def toTrSuite : TrSuite where
  toFrostRefresh := P.toFrostRefresh
  Nonces := K × K
  Commitments := V × V
  Share := K
  Signature := V × K
  tweakKey := H.tweakKey
  tweakPubkey := H.tweakPubkey
  commit := fun (kp : PolyKey K V) r =>
    (H.nonces (H.draw r) kp.signingShare, P.commitNonces (H.nonces (H.draw r) kp.signingShare))
  sign := H.sign
  aggregate := H.aggregate
  verify := fun (pk : PolyPubkey K V) => H.verifySignature pk.verifyingKey
  serializeCommitments c := .ok (H.commitments.bytes c)
  deserializeCommitments := H.commitments.read
  serializePackage package := .ok (H.package.bytes package)
  deserializePackage := H.package.read
  shareBytes := H.share.bytes
  deserializeShare := H.share.read

/-- What is encoded decodes, in hex with space around it too. -/
theorem frostLaws (hTrim : ∀ bytes, P.hexDecode (strTrim (P.hexEncode bytes)) = .ok bytes) :
    FrostLaws H.toTrSuite.toCoordinator where
  hex := hTrim
  identifier := P.identifier.read_bytes
  commitments _ _ := ⟨_, rfl, H.commitments.read_bytes _⟩
  package package _ _ := ⟨_, rfl, H.package.read_bytes package⟩
  share := H.share.read_bytes

/-! ### What they do to keys -/

theorem evenKey_eq (v : V) : P.evenKey v = H.even v := by
  rw [H.evenKey, even, parity]
  split
  · rw [one_smul]
  · rw [neg_smul, one_smul]

theorem evenShare_eq (v : V) (share : K) : P.evenShare v share = H.parity v * share := by
  rw [H.evenShare, parity]
  split
  · rw [one_mul]
  · rw [neg_mul, one_mul]

/-- `into_even_y` scales a key by its parity. -/
noncomputable def affineEven : AffineOnKeys P.refreshSpec H.toTrSuite.evenKey H.toTrSuite.evenPubkey where
  scale := H.parity
  shift _ := 0
  image := P.evenKey
  point v := by
    rw [zero_smul, add_zero]
    exact H.evenKey_eq v
  pubkey _ := rfl
  identifier _ := rfl
  verifyingKey _ := rfl
  minSigners _ := rfl
  signingShare kp := by
    rw [add_zero]
    exact H.evenShare_eq _ _

/-- The tweak shifts an even key by its hash. -/
noncomputable def affineTweak :
    AffineOnKeys P.refreshSpec H.toTrSuite.tweakKey H.toTrSuite.tweakPubkey where
  scale := H.parity
  shift v := H.tweakHash (H.even v)
  image v := H.even v + H.tweakHash (H.even v) • P.generator
  point _ := rfl
  pubkey _ := rfl
  identifier _ := rfl
  verifyingKey _ := rfl
  minSigners _ := rfl
  signingShare _ := rfl

/-! ### How they sign -/

/-- The package of signers with the shares `share`. -/
def packageOf (share : K → K) (r : K → Nat) (message : List UInt8) (ids : List K) :
    SigningPackage K (V × V) :=
  ⟨message, ids.map fun i => (i, P.commitNonces (H.nonces (H.draw (r i)) (share i)))⟩

theorem packageOf_ids (share : K → K) (r : K → Nat) (message : List UInt8) (ids : List K) :
    (H.packageOf share r message ids).commitments.map Prod.fst = ids := by
  rw [packageOf, List.map_map]
  exact List.map_id ids

theorem packageOf_length (share : K → K) (r : K → Nat) (message : List UInt8) (ids : List K) :
    (H.packageOf share r message ids).commitments.length = ids.length := List.length_map _

/-- No commitment is the identity, and the group's nonce is the sum of the signers'. -/
theorem groupNonce_packageOf (key : V) (share : K → K) (r : K → Nat) (message : List UInt8)
    (ids : List K) : ∃ (factor : K → K) (nonce : V),
      H.bindingFactor key message (H.packageOf share r message ids).commitments = factor ∧
      nonce = (ids.map fun i => (P.commitNonces (H.nonces (H.draw (r i)) (share i))).1 +
        factor i • (P.commitNonces (H.nonces (H.draw (r i)) (share i))).2).sum ∧
      PolyFrost.groupNonce H.toPolyHashes key (H.packageOf share r message ids) = .ok nonce := by
  refine ⟨_, _, rfl, rfl, ?_⟩
  have hNone : ¬ (H.packageOf share r message ids).commitments.any
      (fun e => e.2.1 = 0 ∨ e.2.2 = 0) = true := by
    rw [List.any_eq_true]
    rintro ⟨e, he, hZero⟩
    obtain ⟨i, -, rfl⟩ := List.mem_map.mp he
    obtain ⟨hFirst, hSecond⟩ := H.nonces_ne (H.draw (r i)) (share i)
    exact (of_decide_eq_true hZero).elim hFirst hSecond
  unfold PolyFrost.groupNonce
  rw [if_neg hNone, packageOf, List.map_map]
  rfl

variable {H}

omit [LinearOrder K] [DecidableEq V] in
/-- Nonces scaled by one factor add up to the nonce so scaled. -/
theorem sum_scaled {P : PolyFrost K V} (ids : List K) (c : K) (nonces : K → K × K) (factor : K → K) :
    (ids.map fun i => (P.commitNonces (c * (nonces i).1, c * (nonces i).2)).1 +
        factor i • (P.commitNonces (c * (nonces i).1, c * (nonces i).2)).2).sum =
      c • (ids.map fun i => (P.commitNonces (nonces i)).1 +
        factor i • (P.commitNonces (nonces i)).2).sum := by
  rw [List.smul_sum, List.map_map]
  refine congrArg List.sum (List.map_congr_left fun i _ => ?_)
  unfold PolyFrost.commitNonces
  dsimp only [Function.comp_apply]
  module

/-- The share of signer `i`. -/
def shareOf (H : PolyTr P) (nonce key : V) (f : K[X]) (factor : K → K) (nonces : K → K × K)
    (message : List UInt8) (ids : List K) (i : K) : K :=
  H.parity nonce * ((nonces i).1 + (nonces i).2 * factor i) +
    Interpolation.weight ids i * (H.parity key * f.eval i) *
      H.challenge (H.even nonce) (H.even key) message

/-- **The shares of a threshold verify.** The key and the nonce are each taken even, so that
the shares add up to a signature whichever sign the two points have. -/
theorem shares_verify {ids : List K} (hNodup : ids.Nodup) {f : K[X]} (hDegree : f.degree < ids.length)
    {key : V} (hKey : f.eval 0 • P.generator = key) (factor : K → K) (nonces : K → K × K)
    (message : List UInt8) {nonce : V}
    (hNonce : nonce = (ids.map fun i => (P.commitNonces (nonces i)).1 +
      factor i • (P.commitNonces (nonces i)).2).sum) :
    H.verifySignature key message
      (nonce, (ids.map (H.shareOf nonce key f factor nonces message ids)).sum) = .ok () := by
  have hScaled : (C (H.parity key) * f).degree < ids.length :=
    (smul_eq_C_mul (H.parity key) ▸ degree_smul_le (H.parity key) f).trans_lt hDegree
  -- the shares of the even key, with the nonces that make the group's even
  have hSum := PolyFrost.aggregate_verifies (P := P) hNodup hScaled
    (fun i => (H.parity nonce * (nonces i).1, H.parity nonce * (nonces i).2)) factor
    (H.challenge (H.even nonce) (H.even key) message)
  rw [sum_scaled ids (H.parity nonce) nonces factor, ← hNonce] at hSum
  have hShares : ids.map (H.shareOf nonce key f factor nonces message ids) = ids.map fun i =>
      H.parity nonce * (nonces i).1 + H.parity nonce * (nonces i).2 * factor i +
        Interpolation.weight ids i * (C (H.parity key) * f).eval i *
          H.challenge (H.even nonce) (H.even key) message := by
    refine List.map_congr_left fun i _ => ?_
    rw [shareOf, eval_mul, eval_C]
    ring
  refine if_pos ?_
  dsimp only
  rw [hShares, hSum, eval_mul, eval_C, mul_smul (H.parity key), hKey]
  rfl

section Package

variable {share : K → K} {r : K → Nat} {message : List UInt8} {signers : List K} {factor : K → K}

/-- A signer with its key makes its share of the package. -/
theorem sign_packageOf {kp : PolyKey K V} {f : K[X]} {nonce : V}
    (hLength : kp.minSigners.toNat ≤ signers.length) (hIn : kp.identifier ∈ signers)
    (hShare : ∀ i, share i = f.eval i) (hOwn : kp.signingShare = share kp.identifier)
    (hFactor : H.bindingFactor (H.even kp.verifyingKey) message
      (H.packageOf share r message signers).commitments = factor)
    (hNonce : PolyFrost.groupNonce H.toPolyHashes (H.even kp.verifyingKey)
      (H.packageOf share r message signers) = .ok nonce) :
    H.sign (H.packageOf share r message signers)
        (H.nonces (H.draw (r kp.identifier)) kp.signingShare) kp =
      .ok (H.shareOf nonce kp.verifyingKey f factor
        (fun i => H.nonces (H.draw (r i)) (share i)) message signers kp.identifier) := by
  have hCount : ¬ (H.packageOf share r message signers).commitments.length <
      kp.minSigners.toNat := by
    rw [H.packageOf_length]
    omega
  have hFound : (H.packageOf share r message signers).commitments.lookup kp.identifier =
      some (P.commitNonces (H.nonces (H.draw (r kp.identifier)) (share kp.identifier))) :=
    List.lookup_graph (fun i => P.commitNonces (H.nonces (H.draw (r i)) (share i))) hIn
  unfold sign
  rw [if_neg hCount, hFound, hOwn]
  dsimp only
  rw [if_neg (not_not.mpr rfl), hNonce, H.packageOf_ids,
    show (H.packageOf share r message signers).message = message from rfl, hFactor]
  show Except.ok _ = Except.ok _
  rw [shareOf, hShare kp.identifier]

/-- The shares of all signers aggregate in any order, where they verify. -/
theorem aggregate_packageOf {pubkey : PolyPubkey K V} {nonce : V} {sent : K → K}
    (hNonce : PolyFrost.groupNonce H.toPolyHashes (H.even pubkey.verifyingKey)
      (H.packageOf share r message signers) = .ok nonce)
    (hVerify : H.verifySignature pubkey.verifyingKey message (nonce, (signers.map sent).sum) = .ok ())
    {order : List K} (hOrder : order.Perm signers) :
    H.aggregate (H.packageOf share r message signers) (order.map fun i => (i, sent i)) pubkey =
      .ok (nonce, (signers.map sent).sum) := by
  have hKnown : ¬ ((order.map fun i => (i, sent i)).length ≠
        (H.packageOf share r message signers).commitments.length ∨
      (order.map fun i => (i, sent i)).any (fun e =>
        e.1 ∉ (H.packageOf share r message signers).commitments.map Prod.fst) = true) := by
    rw [H.packageOf_ids, H.packageOf_length, List.length_map, hOrder.length_eq]
    rintro (hNe | hStranger)
    · exact hNe rfl
    · obtain ⟨e, he, hNot⟩ := List.any_eq_true.mp hStranger
      obtain ⟨i, hi, rfl⟩ := List.mem_map.mp he
      exact of_decide_eq_true hNot (hOrder.mem_iff.mp hi)
  have hSum : ((order.map fun i => (i, sent i)).map Prod.snd).sum = (signers.map sent).sum := by
    rw [List.map_map]
    exact (hOrder.map sent).sum_eq
  -- none of the shares is a stranger's, and the order they come in does not change the sum
  unfold aggregate
  rw [if_neg hKnown, hNonce, hSum]
  show (match H.verifySignature pubkey.verifyingKey message (nonce, (signers.map sent).sum) with
    | .ok () => Except.ok (nonce, (signers.map sent).sum)
    | .error _ => .error "Invalid signature share.") = .ok (nonce, (signers.map sent).sum)
  rw [hVerify]

end Package

/-- **The routines do as documented.** -/
noncomputable def trSpec (H : PolyTr P) : TrSpec H.toTrSuite P.refreshSpec where
  even := H.affineEven
  tweak := H.affineTweak
  signs := by
    intro f minSigners ids (key : K → PolyKey K V) (pubkey : PolyPubkey K V) hKeys
      (signers : List K) hNodup hSub hLength (r : K → Nat) message
    let share (i : K) : K := f.eval i
    have hKey : ∀ i ∈ signers, (key i).identifier = i ∧ (key i).signingShare = share i ∧
        (key i).verifyingKey = pubkey.verifyingKey ∧ (key i).minSigners.toNat = minSigners :=
      fun i hi =>
        have hShare := hKeys.share i (hSub hi)
        ⟨hShare.identifier, hShare.signingShare, hShare.verifyingKey, hShare.minSigners⟩
    have hPackage : H.toTrSuite.signingPackage key r message signers =
        H.packageOf share r message signers := by
      refine congrArg (SigningPackage.mk message) (List.map_congr_left fun (i : K) hi => ?_)
      show (i, P.commitNonces (H.nonces (H.draw (r i)) (key i).signingShare)) = _
      rw [(hKey i hi).2.1]
    rw [hPackage]
    obtain ⟨factor, nonce, hFactor, hSum, hNonce⟩ :=
      H.groupNonce_packageOf (H.even pubkey.verifyingKey) share r message signers
    let nonces (i : K) : K × K := H.nonces (H.draw (r i)) (share i)
    have hVerify : H.verifySignature pubkey.verifyingKey message (nonce,
        (signers.map (H.shareOf nonce pubkey.verifyingKey f factor nonces message signers)).sum) =
          .ok () := by
      have hDegree : f.degree < signers.length :=
        (Polynomial.mem_degreeLT.mp hKeys.degree).trans_le (by exact_mod_cast hLength)
      have hSecret : f.eval (0 : K) • P.generator = pubkey.verifyingKey := hKeys.secret
      have hDistinct : signers.Nodup := hNodup
      exact shares_verify hDistinct hDegree hSecret factor nonces message hSum
    refine ⟨H.shareOf nonce pubkey.verifyingKey f factor nonces message signers,
      fun (i : K) hi => ?_, fun (order : List K) hOrder =>
        ⟨_, aggregate_packageOf hNonce hVerify hOrder, hVerify⟩⟩
    obtain ⟨hId, hOwn, hVk, hMin⟩ := hKey i hi
    have hSign : H.sign (H.packageOf share r message signers)
        (H.nonces (H.draw (r (key i).identifier)) (key i).signingShare) (key i) =
        .ok (H.shareOf nonce (key i).verifyingKey f factor nonces message signers
          (key i).identifier) :=
      sign_packageOf (hMin ▸ hLength) (hId.symm ▸ hi) (fun _ => rfl) (hId.symm ▸ hOwn)
        (hVk.symm ▸ hFactor) (hVk.symm ▸ hNonce)
    rw [hId, hVk] at hSign
    exact hSign

end PolyTr

end KeroseneVault
