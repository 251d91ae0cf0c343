import KeroseneVault.Application.EconomyOps
import KeroseneVault.Http.HybridGate
import KeroseneVault.Lib.Framing

/-!
# The hash of a constitution

`compute_hash` joins fields of the constitution to one text and hashes it, and
`validate` takes a constitution only under this hash. The numbers stand before
bars; the suite and the previous hash stand side by side at the end.

* `FullConstitution` — the constitution with all that it governs;
* `FullConstitution.material`, `computeHash`, `validate`;
* `SameGoverned` — two constitutions govern alike;
* `Confused` — two constitutions that agree in what is hashed, and not in all
  that they govern.

Main results:

* `material_eq_iff` — which constitutions have one text;
* `binds_iff` — the hash of two valid constitutions binds what they govern exactly
  where they are not confused;
* `withPayoutFrequency_hash` — another payout frequency does not change the hash.
-/

namespace KeroseneVault

/-! ## The constitution -/

inductive MinerPayoutCadence where
  | manual
  | daily
  | weekly
  | epoch
  deriving DecidableEq

/-- `DowngradePolicy`, with all its fields. -/
structure FullDowngradePolicy extends DowngradePolicy where
  pqKemSecurityCategory : Nat
  pqSignatureSecurityCategory : Nat
  symmetricSecurityBits : Nat
  hybridKemRequired : Bool
  requirePqKem : Bool
  deriving DecidableEq

namespace FullDowngradePolicy

/-- `DowngradePolicy::default`. -/
def default : FullDowngradePolicy where
  pqKemSecurityCategory := 3
  pqSignatureSecurityCategory := 3
  symmetricSecurityBits := 256
  hybridKemRequired := true
  hybridSignatureRequired := true
  requirePqSignatures := true
  requirePqKem := true

def validate (policy : FullDowngradePolicy) : Outcome :=
  if policy.pqKemSecurityCategory < 3 then
    .error (.invalidConstitution
      s!"pq_kem_security_category {policy.pqKemSecurityCategory} < 3")
  else if policy.pqSignatureSecurityCategory < 3 then
    .error (.invalidConstitution
      s!"pq_signature_security_category {policy.pqSignatureSecurityCategory} < 3")
  else if policy.symmetricSecurityBits < 256 then
    .error (.invalidConstitution
      s!"symmetric_security_bits {policy.symmetricSecurityBits} < 256")
  else .ok ()

end FullDowngradePolicy

structure FormatVersions where
  intent : Nat
  receipt : Nat
  shareEnvelope : Nat
  dkgTranscript : Nat
  reshareTranscript : Nat
  certificate : Nat
  auditRecord : Nat
  minProtocolVersion : Nat
  currentProtocolVersion : Nat
  deriving DecidableEq

/-- `FormatVersions::default`. -/
def FormatVersions.default : FormatVersions := ⟨1, 1, 1, 1, 1, 1, 1, 1, 1⟩

/-- `Constitution`, but for the state of the quantum migration. -/
structure FullConstitution extends Constitution where
  version : Nat
  maxWithdrawPerDaySats : Nat
  maxWithdrawPerTxSats : Nat
  signingN : Nat
  signingT : Nat
  governanceT : Nat
  pRewardBps : Nat
  pRewardMaxBps : Nat
  payoutFrequency : MinerPayoutCadence
  cryptoSuiteId : String
  measurementPin : Option String
  downgradePolicy : FullDowngradePolicy
  formatVersions : FormatVersions
  previousHash : Option String
  deriving DecidableEq

namespace FullConstitution

/-- What follows the suite: the previous hash, unless it is empty. -/
def previousPart (c : FullConstitution) : String :=
  let prev := c.previousHash.getD ""
  if prev = "" then "" else s!"|prev_{prev}"

/-- What `compute_hash` hashes. -/
def material (c : FullConstitution) : String :=
  s!"v{c.version}|day{c.maxWithdrawPerDaySats}|tx{c.maxWithdrawPerTxSats}|n{c.signingN}|" ++
    s!"t{c.signingT}|gt{c.governanceT}|p{c.pRewardBps}|max{c.pRewardMaxBps}|" ++
    s!"m{c.profitSplits.minersBps}|ch{c.profitSplits.channelsBps}|" ++
    s!"inf{c.profitSplits.infraBps}|{c.cryptoSuiteId}{c.previousPart}"

/-- `compute_hash`, with the hash of a crate outside the repository. -/
def computeHash (sha256Hex : String → String) (c : FullConstitution) : String :=
  sha256Hex c.material

def validate (sha256Hex : String → String) (c : FullConstitution) : Outcome :=
  if c.signingN < 2 then .error (.invalidConstitution "n < 2")
  else if c.signingT = 0 ∨ c.signingT > c.signingN then
    .error (.invalidConstitution "bad signing_t")
  else if c.governanceT < c.signingT ∨ c.governanceT > c.signingN then
    .error (.invalidConstitution "bad governance_t")
  else if c.pRewardBps > c.pRewardMaxBps then
    .error (.invalidConstitution "p_reward exceeds max")
  else
    match c.profitSplits.validate with
    | .error e => .error e
    | .ok () =>
      match c.downgradePolicy.validate with
      | .error e => .error e
      | .ok () =>
        if c.hash ≠ c.computeHash sha256Hex then
          .error (.invalidConstitution "constitution hash mismatch")
        else .ok ()

/-- `with_payout_frequency`, which computes the hash anew. -/
def withPayoutFrequency (sha256Hex : String → String) (c : FullConstitution)
    (freq : MinerPayoutCadence) : FullConstitution :=
  let c := { c with payoutFrequency := freq }
  { c with hash := c.computeHash sha256Hex }

/-- The constitution of `v1_open`, before its hash and its pin are set. -/
def openDraft (n : Nat) : FullConstitution where
  version := 2
  maxWithdrawPerDaySats := 1000000
  maxWithdrawPerTxSats := 250000
  signingN := n
  signingT := quorumTwoThirds n
  governanceT := min (quorumTwoThirds n + 1) n
  pRewardBps := 100
  pRewardMaxBps := 800
  profitSplits := ⟨100, 4950, 4950⟩
  payoutFrequency := .daily
  cryptoSuiteId := "hybrid-v1-placeholder"
  hash := ""
  measurementPin := none
  downgradePolicy := .default
  formatVersions := .default
  previousHash := none

/-- `v1_open`. Where no pin is given, it is the hash of the hash. -/
def v1Open (sha256Hex : String → String) (n : Nat) : Except DomainError FullConstitution :=
  if n < 2 then .error (.invalidConstitution "signing_n must be >= 2")
  else
    let hash := (openDraft n).computeHash sha256Hex
    .ok { openDraft n with hash, measurementPin := some (sha256Hex hash) }

/-! ## What is hashed -/

/-- The numbers that are hashed. -/
def hashedNumbers (c : FullConstitution) : List Nat :=
  [c.version, c.maxWithdrawPerDaySats, c.maxWithdrawPerTxSats, c.signingN, c.signingT,
    c.governanceT, c.pRewardBps, c.pRewardMaxBps, c.profitSplits.minersBps,
    c.profitSplits.channelsBps, c.profitSplits.infraBps]

/-- What stands before each of them. -/
def numberTags : List String :=
  ["v", "day", "tx", "n", "t", "gt", "p", "max", "m", "ch", "inf"]

/-- The suite and the previous hash, side by side. -/
def suiteAndPrevious (c : FullConstitution) : String := c.cryptoSuiteId ++ c.previousPart

/-- The numbers as tagged fields. -/
def numberFields (c : FullConstitution) : List (List Char × List Char) :=
  (numberTags.map String.toList).zip (c.hashedNumbers.map (Nat.toDigits 10))

theorem toList_material (c : FullConstitution) :
    c.material.toList = Framing.frame '|' c.numberFields c.suiteAndPrevious.toList := by
  simp [material, suiteAndPrevious, numberFields, numberTags, hashedNumbers, Framing.frame,
    toString_text]

theorem numberFields_inj {a b : FullConstitution} :
    a.numberFields = b.numberFields ↔ a.hashedNumbers = b.hashedNumbers := by
  constructor
  · intro h
    have hDigits := congrArg (List.map Prod.snd) h
    unfold numberFields at hDigits
    rw [List.map_snd_zip (by simp [numberTags, hashedNumbers]),
      List.map_snd_zip (by simp [numberTags, hashedNumbers])] at hDigits
    exact List.map_injective_iff.mpr (fun _ _ => Framing.toDigits_inj.mp) hDigits
  · intro h
    unfold numberFields
    rw [h]

theorem notMem_numberFields (c : FullConstitution) : ∀ f ∈ c.numberFields, '|' ∉ f.2 := by
  intro f hf
  obtain ⟨n, -, hn⟩ := List.mem_map.mp (List.of_mem_zip hf).2
  rw [← hn]
  exact Framing.notMem_toDigits (by decide) n

/-- Two constitutions have one text where their numbers are the same, and what stands at the end. -/
theorem material_eq_iff {a b : FullConstitution} : a.material = b.material ↔
    a.hashedNumbers = b.hashedNumbers ∧ a.suiteAndPrevious = b.suiteAndPrevious := by
  have hTags : a.numberFields.map Prod.fst = b.numberFields.map Prod.fst := by
    unfold numberFields
    rw [List.map_fst_zip (by simp [numberTags, hashedNumbers]),
      List.map_fst_zip (by simp [numberTags, hashedNumbers])]
  rw [← String.toList_inj, toList_material, toList_material,
    Framing.frame_inj hTags a.notMem_numberFields b.notMem_numberFields, numberFields_inj,
    String.toList_inj]

/-- A valid constitution carries the hash of its text. -/
theorem hash_of_validate {sha256Hex : String → String} {c : FullConstitution}
    (h : c.validate sha256Hex = .ok ()) : c.hash = sha256Hex c.material := by
  unfold validate at h
  split at h
  · cases h
  split at h
  · cases h
  split at h
  · cases h
  split at h
  · cases h
  split at h
  · cases h
  split at h
  · cases h
  split at h
  · cases h
  · -- the hash is compared last
    rename_i hHash
    exact not_not.mp hHash

/-! ## What the hash binds -/

/-- Two constitutions govern alike. -/
structure SameGoverned (a b : FullConstitution) : Prop where
  version : a.version = b.version
  maxWithdrawPerDaySats : a.maxWithdrawPerDaySats = b.maxWithdrawPerDaySats
  maxWithdrawPerTxSats : a.maxWithdrawPerTxSats = b.maxWithdrawPerTxSats
  signingN : a.signingN = b.signingN
  signingT : a.signingT = b.signingT
  governanceT : a.governanceT = b.governanceT
  pRewardBps : a.pRewardBps = b.pRewardBps
  pRewardMaxBps : a.pRewardMaxBps = b.pRewardMaxBps
  profitSplits : a.profitSplits = b.profitSplits
  payoutFrequency : a.payoutFrequency = b.payoutFrequency
  downgradePolicy : a.downgradePolicy = b.downgradePolicy
  formatVersions : a.formatVersions = b.formatVersions
  cryptoSuiteId : a.cryptoSuiteId = b.cryptoSuiteId
  previousHash : a.previousHash = b.previousHash

/-- They are alike in what they govern besides their numbers. -/
structure SameUnhashed (a b : FullConstitution) : Prop where
  payoutFrequency : a.payoutFrequency = b.payoutFrequency
  downgradePolicy : a.downgradePolicy = b.downgradePolicy
  formatVersions : a.formatVersions = b.formatVersions
  cryptoSuiteId : a.cryptoSuiteId = b.cryptoSuiteId
  previousHash : a.previousHash = b.previousHash

/--
Two constitutions agree in the numbers that are hashed and in the joint text of
suite and previous hash, but differ in what is not hashed, or in where this text
divides.
-/
def Confused (a b : FullConstitution) : Prop :=
  a.hashedNumbers = b.hashedNumbers ∧ a.suiteAndPrevious = b.suiteAndPrevious ∧
    ¬ SameUnhashed a b

/-- To govern alike is to agree in the numbers that are hashed and in what is not. -/
theorem sameGoverned_iff {a b : FullConstitution} :
    SameGoverned a b ↔ a.hashedNumbers = b.hashedNumbers ∧ SameUnhashed a b := by
  -- the splits are hashed one by one
  have hSplits : a.profitSplits = b.profitSplits ↔
      a.profitSplits.minersBps = b.profitSplits.minersBps ∧
        a.profitSplits.channelsBps = b.profitSplits.channelsBps ∧
          a.profitSplits.infraBps = b.profitSplits.infraBps := by
    rw [ProfitSplits.mk.injEq]
  constructor
  · intro h
    refine ⟨?_, h.payoutFrequency, h.downgradePolicy, h.formatVersions, h.cryptoSuiteId,
      h.previousHash⟩
    unfold hashedNumbers
    rw [h.version, h.maxWithdrawPerDaySats, h.maxWithdrawPerTxSats, h.signingN, h.signingT,
      h.governanceT, h.pRewardBps, h.pRewardMaxBps, h.profitSplits]
  · rintro ⟨hNumbers, hRest⟩
    simp only [hashedNumbers, List.cons.injEq, and_true] at hNumbers
    obtain ⟨hVersion, hDay, hTx, hN, hT, hGt, hP, hMax, hMiners, hChannels, hInfra⟩ := hNumbers
    exact ⟨hVersion, hDay, hTx, hN, hT, hGt, hP, hMax, hSplits.mpr ⟨hMiners, hChannels, hInfra⟩,
      hRest.payoutFrequency, hRest.downgradePolicy, hRest.formatVersions, hRest.cryptoSuiteId,
      hRest.previousHash⟩

/--
**What the hash binds.** Of two valid constitutions, under a hash without
collisions, the same hash means the same in all that they govern, exactly where
they are not confused.
-/
theorem binds_iff (sha256Hex : String → String) (hSha : Function.Injective sha256Hex)
    (a b : FullConstitution) (ha : a.validate sha256Hex = .ok ())
    (hb : b.validate sha256Hex = .ok ()) :
    (a.hash = b.hash → SameGoverned a b) ↔ ¬ Confused a b := by
  rw [hash_of_validate ha, hash_of_validate hb, hSha.eq_iff, material_eq_iff, sameGoverned_iff]
  unfold Confused
  tauto

/-- Valid constitutions that differ in the payout frequency alone have one hash. -/
theorem withPayoutFrequency_hash {sha256Hex : String → String} {c : FullConstitution}
    (h : c.validate sha256Hex = .ok ()) (freq : MinerPayoutCadence) :
    (c.withPayoutFrequency sha256Hex freq).hash = c.hash := by
  rw [hash_of_validate h]
  rfl

/-- The constitution of `v1_open` for three, with a payout frequency. -/
def openOf (freq : MinerPayoutCadence) : FullConstitution :=
  (openDraft 3).withPayoutFrequency id freq

/-- With the measurement of a build, which is not governed. -/
def pinnedOf (freq : MinerPayoutCadence) (pin : String) : FullConstitution :=
  { openOf freq with measurementPin := some pin }

theorem binds_pinned : (openOf .daily).hash = (pinnedOf .daily "pin").hash ∧
    SameGoverned (openOf .daily) (pinnedOf .daily "pin") :=
  ⟨rfl, (binds_iff id Function.injective_id (openOf .daily) (pinnedOf .daily "pin")
    (by decide +kernel) (by decide +kernel)).mpr
      (fun h => h.2.2 ⟨rfl, rfl, rfl, rfl, rfl⟩) rfl⟩

/-- One hash for daily and for weekly payouts. -/
theorem binds_fails : (openOf .daily).validate id = .ok () ∧
    (openOf .weekly).validate id = .ok () ∧
      ¬ ((openOf .daily).hash = (openOf .weekly).hash →
        SameGoverned (openOf .daily) (openOf .weekly)) := by
  refine ⟨by decide +kernel, by decide +kernel, fun h => ?_⟩
  exact absurd (h rfl).payoutFrequency (by decide)

end FullConstitution

end KeroseneVault
