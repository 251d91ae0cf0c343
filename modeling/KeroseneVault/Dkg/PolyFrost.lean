import KeroseneVault.Dkg.Honest
import KeroseneVault.Lib.PolyCommit

/-!
# FROST key generation over committed polynomials

The three parts as the `frost` crates run them, over any field of scalars and
group of points: a package commits to a polynomial and proves knowledge of its
constant coefficient, a share is checked against the commitment, and the group
key is the sum of the constant terms. What the crates encode and how the
Taproot crate adjusts its keys are parameters (`PolyFrost`).

* `part1`, `part2`, `part3` — the parts, with their checks;
* `toFrostDkg` — the crate, as the hubs see it.

Main results:

* `part3_key` — part 3 ends with the sum of the constant terms;
* `laws` — honest members' parts fit together.
-/

namespace KeroseneVault

open PolyCommit
open Table (Others)

/-! ## Data -/

/-- An encoding that reads back. -/
structure Codec (α : Type) where
  bytes : α → List UInt8
  read : List UInt8 → Except String α
  read_bytes : ∀ a, read (bytes a) = .ok a

/-- `round1::SecretPackage`. -/
structure PolySecret1 (K : Type) where
  identifier : K
  coefficients : List K
  maxSigners : Nat
  minSigners : Nat

/-- `round1::Package`: a commitment, and the proof of knowledge. -/
structure PolyRound1 (K V : Type) where
  commitment : List V
  nonce : V
  response : K

/-- `round2::SecretPackage`. -/
structure PolySecret2 (K V : Type) where
  identifier : K
  commitment : List V
  secretShare : K
  maxSigners : Nat
  minSigners : Nat

/-- `KeyPackage`. -/
structure PolyKey (K V : Type) where
  identifier : K
  signingShare : K
  verifyingShare : V
  verifyingKey : V
  minSigners : UInt16

/-- `PublicKeyPackage`. -/
structure PolyPubkey (K V : Type) where
  verifyingShares : List (K × V)
  verifyingKey : V
  minSigners : UInt16

/-- The scalars' and points' encodings, the challenge hash, and what the crate
does to a finished key: `post_dkg` and `into_even_y`. -/
structure PolyFrost (K V : Type) where
  generator : V
  challenge : K → V → V → K
  scalarOfU16 : Nat → K
  scalarOfU16_injective : ∀ u v, u < 2 ^ 16 → v < 2 ^ 16 → scalarOfU16 u = scalarOfU16 v → u = v
  identifier : Codec K
  round1 : Codec (PolyRound1 K V)
  round2 : Codec K
  key : Codec (PolyKey K V)
  pubkey : Codec (PolyPubkey K V)
  pointBytes : V → List UInt8
  identifierDebug : K → String
  postKey : V → V
  postShare : V → K → K
  evenKey : V → V
  evenShare : V → K → K
  hexEncode : List UInt8 → String
  hexDecode : String → Except String (List UInt8)
  hexDecode_hexEncode : ∀ bytes, hexDecode (hexEncode bytes) = .ok bytes
  sha256 : String → List UInt8

namespace PolyFrost

/-- Keys are compared by `=`. -/
instance lawfulBEqKey {K : Type} [LinearOrder K] : LawfulBEq K := inferInstance

variable {K V : Type} [LinearOrder K] [CommRing K] [DecidableEq V] [AddCommGroup V] [Module K V]

/-! ## The three parts -/

/-- `Identifier::try_from`. -/
def ofU16 (P : PolyFrost K V) (v : Nat) : Except String K :=
  if v = 0 then .error "Invalid zero scalar" else .ok (P.scalarOfU16 v)

/-- The coefficients and the nonce come from the randomness. -/
def part1 (P : PolyFrost K V) (identifier : K) (maxSigners minSigners : Nat)
    (rand : (Nat → K) × K) : Except String (PolySecret1 K × PolyRound1 K V) :=
  if minSigners < 2 ∨ minSigners > maxSigners then
    .error "min_signers must be at least 2 and not larger than max_signers"
  -- the argument is a `u16`
  else if 2 ^ 16 ≤ maxSigners then .error "max_signers is not a u16"
  else
    let coefficients := (List.range minSigners).map rand.1
    let φ := coefficients.headD 0 • P.generator
    let nonce := rand.2 • P.generator
    .ok (⟨identifier, coefficients, maxSigners, minSigners⟩,
      { commitment := commit P.generator coefficients
        nonce
        response := rand.2 + coefficients.headD 0 * P.challenge identifier φ nonce })

/-- `verify_proof_of_knowledge`. -/
def knows (P : PolyFrost K V) (entry : K × PolyRound1 K V) : Bool :=
  let φ := constantTerm entry.2.commitment
  decide (Proves P.generator φ entry.2.nonce (P.challenge entry.1 φ entry.2.nonce)
    entry.2.response)

def part2 (P : PolyFrost K V) (secret : PolySecret1 K) (received : Table K (PolyRound1 K V)) :
    Except String (PolySecret2 K V × Table K K) :=
  if received.size ≠ secret.maxSigners - 1 then .error "Incorrect number of packages."
  else if received.toPairs.any fun e => e.2.commitment.length ≠ secret.minSigners then
    .error "Incorrect number of commitments."
  else if received.toPairs.all P.knows then
    .ok ({ identifier := secret.identifier
           commitment := commit P.generator secret.coefficients
           secretShare := eval secret.coefficients secret.identifier
           maxSigners := secret.maxSigners
           minSigners := secret.minSigners },
      Table.insertAll ∅ (received.toPairs.map fun e => (e.1, eval secret.coefficients e.1)))
  else .error "The proof of knowledge is not valid."

/-- `SecretShare::verify` of the share `entry.2` from `entry.1`. -/
def verifiesShare (P : PolyFrost K V) (identifier : K) (received : Table K (PolyRound1 K V))
    (entry : K × K) : Bool :=
  match received.lookup entry.1 with
  | none => false
  | some package => entry.2 • P.generator = evalCommit package.commitment identifier

/-- The sum of the constant terms. -/
def groupCommitment (commitments : List (List V)) : V := (commitments.map constantTerm).sum

def part3 (P : PolyFrost K V) (secret : PolySecret2 K V) (received : Table K (PolyRound1 K V))
    (inbox : Table K K) : Except String (PolyKey K V × PolyPubkey K V) :=
  if received.size ≠ secret.maxSigners - 1 ∨ received.size ≠ inbox.size then
    .error "Incorrect number of packages."
  else if received.keys.any fun j => j ∉ inbox.keys then .error "Incorrect package."
  else if inbox.toPairs.all (P.verifiesShare secret.identifier received) then
    let commitments := secret.commitment :: received.toPairs.map fun e => e.2.commitment
    let verifyingKey := groupCommitment commitments
    let signingShare := secret.secretShare + (inbox.toPairs.map Prod.snd).sum
    let finished := P.postKey verifyingKey
    let finishedShare := P.postShare verifyingKey signingShare
    .ok (
      { identifier := secret.identifier
        signingShare := finishedShare
        verifyingShare := finishedShare • P.generator
        verifyingKey := finished
        minSigners := UInt16.ofNat secret.minSigners },
      { verifyingShares := (secret.identifier :: received.keys).map fun j =>
          (j, (commitments.map fun c => evalCommit c j).sum)
        verifyingKey := finished
        minSigners := UInt16.ofNat secret.minSigners })
  else .error "Invalid secret share."

/-- The crate, as the hubs see it. -/
def toFrostDkg (P : PolyFrost K V) : FrostDkg where
  Identifier := K
  Randomness := (Nat → K) × K
  Round1Secret := PolySecret1 K
  Round1Package := PolyRound1 K V
  Round2Secret := PolySecret2 K V
  Round2Package := K
  KeyPackage := PolyKey K V
  PublicKeyPackage := PolyPubkey K V
  VerifyingKey := V
  identifierOrder := inferInstance
  ofU16 := P.ofU16
  identifierBytes := P.identifier.bytes
  readIdentifier := P.identifier.read
  identifierDebug := P.identifierDebug
  part1 := P.part1
  part2 := P.part2
  part3 := P.part3
  round1Bytes package := .ok (P.round1.bytes package)
  readRound1 := P.round1.read
  round2Bytes share := .ok (P.round2.bytes share)
  readRound2 := P.round2.read
  keyBytes kp := .ok (P.key.bytes kp)
  readKey := P.key.read
  pubkeyBytes pk := .ok (P.pubkey.bytes pk)
  readPubkey := P.pubkey.read
  keyMinSigners kp := kp.minSigners.toNat
  pubkeyMinSigners pk := some pk.minSigners.toNat
  pubkeyMaxSigners pk := pk.verifyingShares.length
  verifyingKey pk := pk.verifyingKey
  verifyingKeyBytes key := .ok (P.pointBytes key)
  evenKey kp := { kp with
    signingShare := P.evenShare kp.verifyingKey kp.signingShare
    verifyingShare := P.evenShare kp.verifyingKey kp.signingShare • P.generator
    verifyingKey := P.evenKey kp.verifyingKey }
  evenPubkey pk := { pk with verifyingKey := P.evenKey pk.verifyingKey }
  hexDecode := P.hexDecode
  hexEncode := P.hexEncode
  sha256 := P.sha256

/-! ## What the parts come to -/

variable {P : PolyFrost K V}

/-- What part 1 gives a member. -/
structure Drawn (P : PolyFrost K V) (maxSigners minSigners : Nat) (identifier : K)
    (secret : PolySecret1 K) (package : PolyRound1 K V) : Prop where
  made : secret = ⟨identifier, secret.coefficients, maxSigners, minSigners⟩
  length : secret.coefficients.length = minSigners
  commitment : package.commitment = commit P.generator secret.coefficients
  knows : P.knows (identifier, package)

omit [LinearOrder K] in
theorem part1_ok {identifier : K} {maxSigners minSigners : Nat} {rand : (Nat → K) × K}
    {secret : PolySecret1 K} {package : PolyRound1 K V}
    (h : P.part1 identifier maxSigners minSigners rand = .ok (secret, package)) :
    maxSigners < 2 ^ 16 ∧ P.Drawn maxSigners minSigners identifier secret package := by
  unfold part1 at h
  split at h
  · cases h
  split at h
  · cases h
  rename_i hFits
  cases Except.ok.inj h
  refine ⟨by omega, rfl, by simp, rfl, ?_⟩
  rw [PolyFrost.knows, decide_eq_true_eq]
  dsimp only
  rw [constantTerm_commit]
  exact proves_respond ..

theorem part2_commitment {secret : PolySecret1 K} {received : Table K (PolyRound1 K V)}
    {secret2 : PolySecret2 K V} {outbound : Table K K}
    (h : P.part2 secret received = .ok (secret2, outbound)) :
    secret2.commitment = commit P.generator secret.coefficients := by
  unfold part2 at h
  split at h
  · cases h
  split at h
  · cases h
  split at h
  · cases Except.ok.inj h
    rfl
  · cases h

/-- Part 3 ends with the sum of the constant terms, however it got its
packages. -/
theorem part3_key {secret : PolySecret2 K V} {received : Table K (PolyRound1 K V)}
    {inbox : Table K K} {kp : PolyKey K V} {pk : PolyPubkey K V}
    (h : P.part3 secret received inbox = .ok (kp, pk)) :
    pk.verifyingKey = P.postKey (groupCommitment
      (secret.commitment :: received.toPairs.map fun e => e.2.commitment)) := by
  unfold part3 at h
  split at h
  · cases h
  split at h
  · cases h
  split at h
  · cases Except.ok.inj h
    rfl
  · cases h

/-! ## Honest members -/

section Honest

variable {ids : List K} {maxSigners minSigners : Nat} {secret : K → PolySecret1 K}
  {package : K → PolyRound1 K V}

/-- What an honest member makes of the others' packages. -/
def secret2 (P : PolyFrost K V) (secret : PolySecret1 K) : PolySecret2 K V where
  identifier := secret.identifier
  commitment := commit P.generator secret.coefficients
  secretShare := eval secret.coefficients secret.identifier
  maxSigners := secret.maxSigners
  minSigners := secret.minSigners

/-- With the packages of all others part 2 gives each of them its value. -/
theorem part2_ok (hNodup : ids.Nodup) (hLength : ids.length = maxSigners)
    (hDrawn : ∀ i ∈ ids, P.Drawn maxSigners minSigners i (secret i) (package i)) {i : K}
    (hi : i ∈ ids) {received : Table K (PolyRound1 K V)}
    (h : Others ids i package received) :
    ∃ outbound, P.part2 (secret i) received = .ok (P.secret2 (secret i), outbound) ∧
      Others ids i (fun j => eval (secret i).coefficients j) outbound := by
  have hSecret := (hDrawn i hi).made
  have hMax : (secret i).maxSigners = maxSigners := by rw [hSecret]
  have hMin : (secret i).minSigners = minSigners := by rw [hSecret]
  refine ⟨Table.insertAll ∅
    (received.toPairs.map fun e => (e.1, eval (secret i).coefficients e.1)), ?_, ?_⟩
  · have hSize : received.size = (secret i).maxSigners - 1 := by
      rw [hMax, ← hLength]
      exact Others.size h hNodup hi
    -- the three checks of part two: how many packages, their lengths, their proofs
    have hCounts : ¬ received.toPairs.any fun e => e.2.commitment.length ≠ (secret i).minSigners := by
      rw [Bool.not_eq_true, List.any_eq_false]
      intro e he
      obtain ⟨hId, -, hEq⟩ := h.of_mem_toPairs he
      have hCommit := (hDrawn e.1 hId).commitment
      simp [hEq, hCommit, (hDrawn e.1 hId).length, hMin]
    have hKnows : received.toPairs.all P.knows = true := by
      rw [List.all_eq_true]
      intro e he
      obtain ⟨hId, -, hEq⟩ := h.of_mem_toPairs he
      have hProof := (hDrawn e.1 hId).knows
      rwa [← hEq] at hProof
    rw [part2, if_neg (not_not.mpr hSize), if_neg hCounts, if_pos hKnows]
    rfl
  · exact h.map fun j => eval (secret i).coefficients j

/-- What `i` sends to `j`. -/
def shareOf (_ : PolyFrost K V) (secret : K → PolySecret1 K) (i j : K) : K :=
  eval (secret i).coefficients j

/-- The group key of honest members. -/
def honestKey (P : PolyFrost K V) (ids : List K) (package : K → PolyRound1 K V) : V :=
  P.postKey (groupCommitment (ids.map fun i => (package i).commitment))

/-- With the packages and the values of all others part 3 ends with the key of them all. Its
checks hold one after the other: as many as the thresholds say, a value from each, and each as
committed. -/
theorem part3_ok (hNodup : ids.Nodup) (hLength : ids.length = maxSigners)
    (hDrawn : ∀ i ∈ ids, P.Drawn maxSigners minSigners i (secret i) (package i)) {i : K}
    (hi : i ∈ ids) {received : Table K (PolyRound1 K V)} {inbox : Table K K}
    (h : Others ids i package received)
    (hInbox : Others ids i (fun j => eval (secret j).coefficients i) inbox) :
    ∃ kp pk, P.part3 (P.secret2 (secret i)) received inbox = .ok (kp, pk) ∧
      kp.minSigners = UInt16.ofNat minSigners ∧ pk.minSigners = UInt16.ofNat minSigners ∧
      pk.verifyingShares.length = maxSigners ∧ pk.verifyingKey = P.honestKey ids package := by
  have hSecret := (hDrawn i hi).made
  have hMax : (P.secret2 (secret i)).maxSigners = maxSigners := by rw [secret2, hSecret]
  have hMin : (P.secret2 (secret i)).minSigners = minSigners := by rw [secret2, hSecret]
  have hId : (P.secret2 (secret i)).identifier = i := by rw [secret2, hSecret]
  have hSize : received.size = maxSigners - 1 := by
    rw [← hLength]
    exact Others.size h hNodup hi
  have hInboxSize : inbox.size = maxSigners - 1 := by
    rw [← hLength]
    exact Others.size hInbox hNodup hi
  -- the checks of part 3, in their order
  have hCount : ¬ (received.size ≠ (P.secret2 (secret i)).maxSigners - 1 ∨
      received.size ≠ inbox.size) := by
    rw [hMax, hInboxSize, hSize]
    simp
  have hKeys : ¬ received.keys.any fun j => j ∉ inbox.keys := by
    rw [Bool.not_eq_true, List.any_eq_false]
    intro j hj
    have hMem := hInbox.mem_keys_iff.mpr (h.mem_keys_iff.mp hj)
    simpa using hMem
  have hVerifies : inbox.toPairs.all
      (P.verifiesShare (P.secret2 (secret i)).identifier received) = true := by
    rw [List.all_eq_true, hId]
    intro e he
    obtain ⟨hIn, hNe, hEq⟩ := hInbox.of_mem_toPairs he
    have hPackage := (h e.1 _).mpr ⟨hIn, hNe, rfl⟩
    have hShare : e.2 • P.generator = evalCommit (package e.1).commitment i := by
      rw [hEq, (hDrawn e.1 hIn).commitment, evalCommit_commit]
    simp only [verifiesShare]
    rw [show received.lookup e.1 = some (package e.1) from hPackage]
    exact decide_eq_true hShare
  have hPositive := List.length_pos_of_mem hi
  refine ⟨_, _, by rw [part3, if_neg hCount, if_neg hKeys, if_pos hVerifies], ?_, ?_, ?_, ?_⟩
  · rw [hMin]
  · rw [hMin]
  · simp only [List.length_map, List.length_cons]
    rw [← Table.size_eq_keys, hSize]
    omega
  · -- the others' constant terms and its own are those of all
    have hOwn : (P.secret2 (secret i)).commitment = (package i).commitment :=
      (hDrawn i hi).commitment.symm
    have hOthers := (h.perm hNodup).map fun e : K × PolyRound1 K V => e.2.commitment
    rw [List.map_map] at hOthers
    have hAll : ((P.secret2 (secret i)).commitment ::
        received.toPairs.map fun e => e.2.commitment).Perm
        (ids.map fun j => (package j).commitment) := by
      rw [hOwn]
      refine (List.Perm.cons _ hOthers).trans ?_
      exact ((List.perm_cons_erase hi).map fun j => (package j).commitment).symm
    show P.postKey _ = P.postKey _
    rw [groupCommitment, (hAll.map constantTerm).sum_eq]
    rfl

end Honest

/-- What honest members draw is a correct run. -/
theorem generates (P : PolyFrost K V) (ids : List K) (maxSigners minSigners : Nat)
    (secret : K → PolySecret1 K) (package : K → PolyRound1 K V) (hNodup : ids.Nodup)
    (hLength : ids.length = maxSigners) (_ : 2 ≤ minSigners) (hLe : minSigners ≤ maxSigners)
    (hPart : ∀ i ∈ ids, ∃ rand, P.part1 i maxSigners minSigners rand = .ok (secret i, package i)) :
    ∃ G : KeyGeneration P.toFrostDkg ids maxSigners minSigners,
      G.secret = secret ∧ G.package = package := by
  have hDrawn : ∀ i ∈ ids, P.Drawn maxSigners minSigners i (secret i) (package i) := by
    intro i hi
    obtain ⟨rand, hRand⟩ := hPart i hi
    exact (part1_ok hRand).2
  -- a threshold that part 1 took survives its sixteen bits
  have hSmall : ∀ i ∈ ids, (UInt16.ofNat minSigners).toNat = minSigners := by
    intro i hi
    obtain ⟨rand, hRand⟩ := hPart i hi
    have hBound := (part1_ok hRand).1
    rw [UInt16.toNat_ofNat', Nat.mod_eq_of_lt (by omega)]
  refine ⟨{
    secret, package
    secret2 := fun i => P.secret2 (secret i)
    share := P.shareOf secret
    shareBytes := fun i j => P.round2.bytes (P.shareOf secret i j)
    key := P.honestKey ids package
    encodes := fun i _ j _ => rfl
    part2 := fun i hi received h => part2_ok hNodup hLength hDrawn hi h
    part3 := fun i hi received inbox h hInbox => ?_ }, rfl, rfl⟩
  obtain ⟨kp, pk, hOk, hKpMin, hPkMin, hPkMax, hKey⟩ :=
    part3_ok hNodup hLength hDrawn hi h hInbox
  refine ⟨kp, pk, P.key.bytes kp, P.pubkey.bytes pk, hOk, ?_, ?_, hPkMax, hKey, rfl, rfl⟩
  · show kp.minSigners.toNat = minSigners
    rw [hKpMin, hSmall i hi]
  · show pk.minSigners.toNat = minSigners
    rw [hPkMin, hSmall i hi]

/-- **The laws the hubs rely on.** -/
theorem laws (P : PolyFrost K V) : P.toFrostDkg.Laws where
  hex := P.hexDecode_hexEncode
  identifier_zero id h := by
    have hZero : P.ofU16 0 = .ok id := h
    simp [ofU16] at hZero
  identifier_injective u v id hu hv hIdU hIdV := by
    have hU : P.ofU16 u = .ok id := hIdU
    have hV : P.ofU16 v = .ok id := hIdV
    unfold ofU16 at hU hV
    split at hU
    · cases hU
    split at hV
    · cases hV
    exact P.scalarOfU16_injective u v hu hv
      ((Except.ok.inj hU).trans (Except.ok.inj hV).symm)
  round1 package bytes h := by
    cases Except.ok.inj h
    exact P.round1.read_bytes package
  round2 package bytes h := by
    cases Except.ok.inj h
    exact P.round2.read_bytes package
  generates := P.generates
  evenKeyBytes _ _ _ := ⟨_, rfl⟩
  evenPubkeyBytes _ _ _ := ⟨_, rfl⟩
  evenVerifyingKey key := ⟨P.evenKey key, fun pk hKey => by
    show P.evenKey pk.verifyingKey = P.evenKey key
    rw [show pk.verifyingKey = key from hKey]⟩

end PolyFrost

end KeroseneVault
