import KeroseneVault.Cosign.Honest
import KeroseneVault.Cosign.PolicyCheck

/-!
# Plain FROST

A FROST with bytes in place of scalars and curve points, no secrecy, and the
checks of the real one: a signer refuses a package that is too small, that
leaves it out, or that carries other commitments than its nonces', and the
aggregator refuses a share that is not its signer's. It shows that the
promises of `FrostLaws` and `Keyset.Correct` can be kept, for every set of
members and every threshold from two on.

* `plainFrost`, `plainCoordinator` — the operations;
* `plainKeyset` — the keyset of given secrets.

Main results:

* `plainFrost_laws` — what is encoded decodes;
* `plainKeyset_correct` — any members that reach the threshold sign.
-/

namespace KeroseneVault

/-! ## Hex -/

/-- What hex encodes it decodes, trimmed or not. -/
theorem hexPairs_strTrim_hexText (bytes : List UInt8) :
    hexPairs (strTrim (hexText bytes)).toList = .ok bytes := by
  rw [strTrim_hexText]
  exact hexPairs_hexText bytes

/-! ## The operations -/

structure PlainKey where
  identifier : UInt8
  secret : UInt8
  minSigners : Nat

/-- The bytes of a signing package. -/
def plainEncode : List (UInt8 × UInt8) → List UInt8 → List UInt8
  | [], message => 0 :: message
  | (id, c) :: entries, message => 1 :: id :: c :: plainEncode entries message

def plainDecode : List UInt8 → Except String (SigningPackage UInt8 UInt8)
  | [] => .error "unexpected end of input"
  | [tag] => if tag = 0 then .ok ⟨[], []⟩ else .error "unexpected end of input"
  | [tag, b] => if tag = 0 then .ok ⟨[b], []⟩ else .error "unexpected end of input"
  | tag :: id :: c :: rest =>
    if tag = 0 then .ok ⟨id :: c :: rest, []⟩
    else
      match plainDecode rest with
      | .error e => .error e
      | .ok package => .ok ⟨package.message, (id, c) :: package.commitments⟩

theorem plainDecode_encode (entries : List (UInt8 × UInt8)) (message : List UInt8) :
    plainDecode (plainEncode entries message) = .ok ⟨message, entries⟩ := by
  induction entries with
  | nil =>
    rw [plainEncode]
    match message with
    | [] => rfl
    | [b] => rfl
    | id :: c :: rest => rfl
  | cons e entries ih =>
    rw [plainEncode, plainDecode, ih]
    rfl

/-- `round2::sign`. -/
def plainSign (package : SigningPackage UInt8 UInt8) (nonces : UInt8) (key : PlainKey) :
    Except String UInt8 :=
  if package.commitments.length < key.minSigners then .error "incorrect number of commitments"
  else
    match package.commitments.lookup key.identifier with
    | none => .error "the participant's commitment is missing"
    | some c =>
      if c = nonces then .ok (nonces + key.secret)
      else .error "the participant's commitment is incorrect"

/-- Each share is the sum of its signer's commitment and secret. -/
def plainAggregate (package : SigningPackage UInt8 UInt8) (shares : List (UInt8 × UInt8))
    (secret : UInt8 → UInt8) : Except String (List UInt8) :=
  if shares.length = package.commitments.length ∧
      shares.all fun e => (package.commitments.lookup e.1).map (· + secret e.1) = some e.2 then
    .ok package.message
  else .error "invalid signature share"

/-- One byte. -/
def plainByte : List UInt8 → Except String UInt8
  | [b] => .ok b
  | _ => .error "malformed encoding"

def plainFrost : FrostTr where
  Identifier := UInt8
  KeyPackage := PlainKey
  Nonces := UInt8
  Commitments := UInt8
  Share := UInt8
  decIdentifier := inferInstance
  tweak key := key
  commit _ randomness := (UInt8.ofNat randomness, UInt8.ofNat randomness)
  serializeCommitments c := .ok [c]
  deserializePackage := plainDecode
  sign := plainSign
  identifierBytes id := [id]
  shareBytes share := [share]
  hexDecode s := hexPairs s.toList
  hexEncode := hexText

/-- A signature is the message it is for; the public key is the secrets. -/
def plainCoordinator : FrostTrCoordinator plainFrost where
  PubkeyPackage := UInt8 → UInt8
  Signature := List UInt8
  tweakPubkey pubkey := pubkey
  deserializeIdentifier := plainByte
  deserializeCommitments := plainByte
  deserializeShare := plainByte
  serializePackage package := .ok (plainEncode package.commitments package.message)
  aggregate := plainAggregate
  verify _ message (signature : List UInt8) :=
    if signature = message then .ok () else .error "invalid signature"

theorem plainFrost_laws : FrostLaws plainCoordinator where
  hex bytes := by
    dsimp only [plainFrost]
    exact hexPairs_strTrim_hexText bytes
  identifier _ := rfl
  commitments _ randomness := ⟨[UInt8.ofNat randomness], rfl, rfl⟩
  package package _ _ := ⟨plainEncode package.commitments package.message, rfl,
    plainDecode_encode package.commitments package.message⟩
  share _ := rfl

/-! ## Keysets -/

def plainKeyset (secret : UInt8 → UInt8) (threshold : Nat) : Keyset plainFrost plainCoordinator where
  key id := ⟨id, secret id, threshold⟩
  pubkey := secret
  threshold := threshold

section Correct

variable {secret r : UInt8 → UInt8} {threshold : Nat} {signers : List UInt8} {message : List UInt8}

/-- A signer signs a package that carries its commitment. -/
theorem plainSign_ok (hLength : threshold ≤ signers.length) {id : UInt8} (hId : id ∈ signers) :
    plainSign ⟨message, signers.map fun i => (i, r i)⟩ (r id) ⟨id, secret id, threshold⟩ =
      .ok (r id + secret id) := by
  have hCount : ¬ (signers.map fun i => (i, r i)).length < threshold := by
    rw [List.length_map]
    omega
  rw [plainSign, if_neg hCount, List.lookup_graph r hId]
  exact if_pos rfl

/-- The shares of all signers aggregate, in any order. -/
theorem plainAggregate_ok {ids : List UInt8} (hIds : ids.Perm signers) :
    plainAggregate ⟨message, signers.map fun i => (i, r i)⟩ (ids.map fun i => (i, r i + secret i))
      secret = .ok message := by
  refine if_pos ⟨?_, ?_⟩
  · rw [List.length_map, List.length_map, hIds.length_eq]
  · rw [List.all_eq_true]
    intro e he
    obtain ⟨i, hi, rfl⟩ := List.mem_map.mp he
    rw [List.lookup_graph r (hIds.mem_iff.mp hi)]
    exact decide_eq_true rfl

/-- Any members that reach the threshold sign. -/
theorem plainKeyset_correct (hTwo : 2 ≤ threshold) (members : List UInt8) :
    (plainKeyset secret threshold).Correct members where
  two_le := hTwo
  signs signers _ _ hLength r message i hi :=
    ⟨_, plainSign_ok (r := fun i => UInt8.ofNat (r i)) hLength hi⟩
  aggregates signers _ _ hLength r message s hs ids hIds := by
    have hShares : (ids.map fun i => (i, s i)) =
        ids.map fun i => (i, UInt8.ofNat (r i) + secret i) := by
      refine List.map_congr_left fun i hi => ?_
      have hSign : plainSign ⟨message, signers.map fun i => (i, UInt8.ofNat (r i))⟩
          (UInt8.ofNat (r i)) ⟨i, secret i, threshold⟩ = .ok (UInt8.ofNat (r i) + secret i) :=
        plainSign_ok (r := fun i => UInt8.ofNat (r i)) hLength (hIds.mem_iff.mp hi)
      exact congrArg (Prod.mk i) (Except.ok.inj ((hs i (hIds.mem_iff.mp hi)).symm.trans hSign))
    refine ⟨message, ?_, if_pos rfl⟩
    rw [hShares]
    exact plainAggregate_ok (r := fun i => UInt8.ofNat (r i)) hIds

end Correct

end KeroseneVault
