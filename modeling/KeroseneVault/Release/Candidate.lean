import KeroseneVault.Domain.Hex
import KeroseneVault.Lib.SortedMap

/-!
# Release candidates

The domain of the release mesh: content hashes, the policy of a release, and
the candidate with the evidence it gathers. `sha256` is the digest of a crate
outside the repository.

* `ContentHash` — 64 lower-case hexadecimal digits, of bytes or of a text;
* `labRebuildBinaryHash` — the binary a rebuild of a source comes to;
* `ReleaseCandidate.recordRebuild`, `predicatesOk`, `addCosign`.

Main results:

* `recordRebuild_ok`, `addCosign_ok` — what an accepted piece of evidence adds,
  and to which candidates;
* `predicatesOk_iff` — the predicates of a release, read back.
-/

namespace KeroseneVault

/-! ## Content hashes -/

/-- 32 bytes in lower-case hexadecimal digits. -/
def MeasurementHex (text : String) : Prop :=
  text.toList.length = 64 ∧ ∀ c ∈ text.toList, (hexDigit c).isSome

/-- `ContentHash`, which wraps the digits of a `Measurement`. -/
structure ContentHash where
  text : String
  hex : MeasurementHex text
  deriving DecidableEq

/-- What SHA-256 returns. -/
abbrev Digest := {bytes : List UInt8 // bytes.length = 32}

/-- A digest for runs on given inputs: 32 bytes of a polynomial in those of the text. -/
def foldDigest (bytes : List UInt8) : Digest :=
  let value := bytes.foldl (fun acc b => (acc * 257 + b.toNat + 1) % 2 ^ 256) 0
  ⟨(List.range 32).map fun i => UInt8.ofNat (value / 256 ^ i),
    (List.length_map _).trans List.length_range⟩

theorem measurementHex_hexText (digest : Digest) : MeasurementHex (hexText digest.1) := by
  constructor
  · rw [hexText, String.toList_ofList, List.length_flatMap]
    simp [digest.2]
  · intro c hc
    obtain ⟨n, hn, rfl⟩ := mem_hexText hc
    rw [hexDigit_digitChar hn]
    rfl

namespace ContentHash

theorem ext_text {a b : ContentHash} (h : a.text = b.text) : a = b := by
  cases a
  cases b
  cases h
  rfl

/-- `from_bytes`. -/
def fromBytes (sha256 : List UInt8 → Digest) (bytes : List UInt8) : ContentHash :=
  ⟨hexText (sha256 bytes).1, measurementHex_hexText _⟩

end ContentHash

/-- `char::is_ascii_hexdigit`. -/
def isAsciiHexdigit (c : Char) : Bool := "0123456789abcdefABCDEF".toList.contains c

theorem hexDigit_toLower {c : Char} (h : isAsciiHexdigit c = true) :
    (hexDigit c.toLower).isSome = true := by
  have hAll : "0123456789abcdefABCDEF".toList.all (fun d => (hexDigit d.toLower).isSome) = true := by
    decide
  exact List.all_eq_true.mp hAll c (List.contains_iff_mem.mp h)

/-- `ContentHash::parse`. The digits are one byte each, so that the bytes are counted by them. -/
def ContentHash.parse (raw : String) : Except DomainError ContentHash :=
  if h : raw.toList.length = 64 ∧ raw.toList.all isAsciiHexdigit = true then
    .ok ⟨String.ofList (raw.toList.map Char.toLower), by
      rw [MeasurementHex, String.toList_ofList, List.length_map]
      refine ⟨h.1, fun c hc => ?_⟩
      obtain ⟨d, hd, rfl⟩ := List.mem_map.mp hc
      exact hexDigit_toLower (List.all_eq_true.mp h.2 d hd)⟩
  else .error (.attestationRejected "measurement must be 32-byte SHA-256 hex (64 chars)")

theorem isAsciiHexdigit_of_hexDigit {c : Char} (h : (hexDigit c).isSome = true) :
    isAsciiHexdigit c = true ∧ c.toLower = c := by
  have hRange : (48 ≤ c.toNat ∧ c.toNat ≤ 57) ∨ (97 ≤ c.toNat ∧ c.toNat ≤ 102) := by
    unfold hexDigit at h
    split at h
    · rename_i hDecimal
      exact .inl hDecimal
    · split at h
      · rename_i hLetter
        exact .inr hLetter
      · cases h
  have hAll : ∀ n < 103, (48 ≤ n ∧ n ≤ 57) ∨ (97 ≤ n ∧ n ≤ 102) →
      isAsciiHexdigit (Char.ofNat n) = true ∧ (Char.ofNat n).toLower = Char.ofNat n := by
    decide
  have hChar := hAll c.toNat (by omega) hRange
  rwa [Char.ofNat_toNat] at hChar

/-- The text of a hash parses as the hash. -/
theorem ContentHash.parse_text (hash : ContentHash) : ContentHash.parse hash.text = .ok hash := by
  have hDigits : ∀ c ∈ hash.text.toList, isAsciiHexdigit c = true ∧ c.toLower = c :=
    fun c hc => isAsciiHexdigit_of_hexDigit (hash.hex.2 c hc)
  have hLower : hash.text.toList.map Char.toLower = hash.text.toList :=
    (List.map_congr_left fun c hc => (hDigits c hc).2).trans (List.map_id _)
  unfold ContentHash.parse
  rw [dif_pos ⟨hash.hex.1, List.all_eq_true.mpr fun c hc => (hDigits c hc).1⟩]
  refine congrArg Except.ok (ContentHash.ext_text ?_)
  show String.ofList (hash.text.toList.map Char.toLower) = hash.text
  rw [hLower, String.ofList_toList]

/-- `b"lab-rebuild-v1|"`. -/
def labRebuildPrefix : List UInt8 := textBytes "lab-rebuild-v1|"

/-- `lab_rebuild_binary_hash`: the fingerprint a lab rebuild of the source has. -/
def labRebuildBinaryHash (sha256 : List UInt8 → Digest) (source : List UInt8) : ContentHash :=
  .fromBytes sha256 (labRebuildPrefix ++ source)

/-! ## The policy -/

/-- `ReleasePolicy`. -/
structure ReleasePolicy where
  councilN : U64
  minRebuilds : U64
  vaultN : U64
  timelockSecs : U64
  labTimelockScale : U64

namespace ReleasePolicy

/-- `effective_timelock_secs`, a `saturating_mul`. -/
def effectiveTimelockSecs (policy : ReleasePolicy) : Nat :=
  min (policy.timelockSecs.1 * policy.labTimelockScale.1) u64Max

def councilQuorum (policy : ReleasePolicy) : Nat := quorumTwoThirds policy.councilN

/-- `⌊n/2⌋ + 1`. -/
def vaultCosignQuorum (policy : ReleasePolicy) : Nat := policy.vaultN.1 / 2 + 1

/-- One council member, one rebuild, one vault and no timelock. -/
def solo : ReleasePolicy :=
  { councilN := toU64 1, minRebuilds := toU64 1, vaultN := toU64 1, timelockSecs := toU64 0,
    labTimelockScale := toU64 1 }

end ReleasePolicy

/-! ## Candidates -/

inductive ReleasePhase where
  | proposed
  | cosigning
  | allowlisted
  | rejected
  deriving DecidableEq

def ReleasePhase.asStr : ReleasePhase → String
  | .proposed => "proposed"
  | .cosigning => "cosigning"
  | .allowlisted => "allowlisted"
  | .rejected => "rejected"

/-- No more evidence is taken. -/
def ReleasePhase.Closed (phase : ReleasePhase) : Prop := phase = .allowlisted ∨ phase = .rejected

instance ReleasePhase.decidableClosed (phase : ReleasePhase) : Decidable phase.Closed :=
  inferInstanceAs (Decidable (_ ∨ _))

/-- `ReleaseCandidate`. -/
structure ReleaseCandidate where
  id : String
  hs : ContentHash
  hb : ContentHash
  constitutionHash : String
  councilSigs : SortedSet String
  rebuilds : SortedMap String ContentHash
  cosigns : SortedSet String
  createdAtSecs : U64
  phase : ReleasePhase
  rejectReason : Option String
  deriving DecidableEq

namespace ReleaseCandidate

/-- A candidate without evidence but for its signatures. -/
def proposed (id : String) (hs hb : ContentHash) (constitutionHash : String)
    (councilSigs : SortedSet String) (createdAtSecs : U64) : ReleaseCandidate :=
  { id, hs, hb, constitutionHash, councilSigs, rebuilds := .empty, cosigns := .empty,
    createdAtSecs, phase := .proposed, rejectReason := none }

/-- `ReleaseCandidate::new`. -/
def new (id : String) (hs hb : ContentHash) (constitutionHash : String)
    (councilSigs : SortedSet String) (createdAtSecs : U64) : Except DomainError ReleaseCandidate :=
  if strTrim id = "" then .error (.invalidRelease "empty release id")
  else if councilSigs.size = 0 then .error (.invalidRelease "no council signatures")
  else .ok (proposed id hs hb constitutionHash councilSigs createdAtSecs)

/-! ### Its evidence -/

/-- With the rebuild of a vault. -/
def withRebuild (c : ReleaseCandidate) (vault : String) (hb : ContentHash) : ReleaseCandidate :=
  { c with rebuilds := c.rebuilds.insert vault hb }

/-- With the cosign of a vault. -/
def withCosign (c : ReleaseCandidate) (vault : String) : ReleaseCandidate :=
  { c with cosigns := c.cosigns.add vault, phase := .cosigning }

def activated (c : ReleaseCandidate) : ReleaseCandidate := { c with phase := .allowlisted }

section Fields

variable (c : ReleaseCandidate) (vault : String) (hb : ContentHash)

@[simp] theorem withRebuild_id : (c.withRebuild vault hb).id = c.id := rfl
@[simp] theorem withRebuild_hs : (c.withRebuild vault hb).hs = c.hs := rfl
@[simp] theorem withRebuild_hb : (c.withRebuild vault hb).hb = c.hb := rfl
@[simp] theorem withRebuild_councilSigs :
    (c.withRebuild vault hb).councilSigs = c.councilSigs := rfl
@[simp] theorem withRebuild_rebuilds :
    (c.withRebuild vault hb).rebuilds = c.rebuilds.insert vault hb := rfl
@[simp] theorem withRebuild_cosigns : (c.withRebuild vault hb).cosigns = c.cosigns := rfl
@[simp] theorem withRebuild_phase : (c.withRebuild vault hb).phase = c.phase := rfl
@[simp] theorem withCosign_id : (c.withCosign vault).id = c.id := rfl
@[simp] theorem withCosign_hs : (c.withCosign vault).hs = c.hs := rfl
@[simp] theorem withCosign_hb : (c.withCosign vault).hb = c.hb := rfl
@[simp] theorem withCosign_councilSigs : (c.withCosign vault).councilSigs = c.councilSigs := rfl
@[simp] theorem withCosign_rebuilds : (c.withCosign vault).rebuilds = c.rebuilds := rfl
@[simp] theorem withCosign_cosigns : (c.withCosign vault).cosigns = c.cosigns.add vault := rfl
@[simp] theorem withCosign_phase : (c.withCosign vault).phase = .cosigning := rfl
@[simp] theorem activated_id : c.activated.id = c.id := rfl
@[simp] theorem activated_hs : c.activated.hs = c.hs := rfl
@[simp] theorem activated_hb : c.activated.hb = c.hb := rfl
@[simp] theorem activated_councilSigs : c.activated.councilSigs = c.councilSigs := rfl
@[simp] theorem activated_rebuilds : c.activated.rebuilds = c.rebuilds := rfl
@[simp] theorem activated_cosigns : c.activated.cosigns = c.cosigns := rfl
@[simp] theorem activated_phase : c.activated.phase = .allowlisted := rfl

end Fields

/-- `record_rebuild`. -/
def recordRebuild (c : ReleaseCandidate) (vaultId : NodeId) (rebuiltHb : ContentHash) :
    Except DomainError ReleaseCandidate :=
  if c.phase.Closed then .error (.releaseClosed c.id)
  else if rebuiltHb ≠ c.hb then .error (.rebuildMismatch c.hb.text rebuiltHb.text)
  else .ok (c.withRebuild vaultId.text rebuiltHb)

/-- `predicates_ok`. -/
def predicatesOk (c : ReleaseCandidate) (policy : ReleasePolicy) (nowSecs : U64)
    (activeConstitutionHash : String) : Outcome :=
  if c.constitutionHash ≠ activeConstitutionHash then
    .error (.releasePredicate "constitution_hash mismatch")
  else if c.councilSigs.size < policy.councilQuorum then
    .error (.quorumNotMet c.councilSigs.size policy.councilQuorum)
  else if c.rebuilds.size < policy.minRebuilds.1 then
    .error (.quorumNotMet c.rebuilds.size policy.minRebuilds)
  else if nowSecs.1 - c.createdAtSecs.1 < policy.effectiveTimelockSecs then
    .error (.timelockNotElapsed (nowSecs.1 - c.createdAtSecs.1) policy.effectiveTimelockSecs)
  else .ok ()

/-- `add_cosign`. -/
def addCosign (c : ReleaseCandidate) (vaultId : NodeId) : Except DomainError ReleaseCandidate :=
  if c.phase.Closed then .error (.releaseClosed c.id)
  else .ok (c.withCosign vaultId.text)

section Evidence

variable {c d : ReleaseCandidate} {vaultId : NodeId} {hb : ContentHash} {policy : ReleasePolicy}
  {now : U64} {constitutionHash : String}

theorem new_ok {id : String} {hs hb : ContentHash} {councilSigs : SortedSet String}
    (h : new id hs hb constitutionHash councilSigs now = .ok c) :
    c = proposed id hs hb constitutionHash councilSigs now ∧ strTrim id ≠ "" ∧
      councilSigs.size ≠ 0 := by
  unfold new at h
  split at h
  · cases h
  · rename_i hId
    split at h
    · cases h
    · rename_i hSigs
      exact ⟨(Except.ok.inj h).symm, hId, hSigs⟩

/-- A rebuild is recorded of an open candidate, under its own binary. -/
theorem recordRebuild_ok (h : c.recordRebuild vaultId hb = .ok d) :
    ¬ c.phase.Closed ∧ hb = c.hb ∧ d = c.withRebuild vaultId.text c.hb := by
  unfold recordRebuild at h
  by_cases hClosed : c.phase.Closed
  · rw [if_pos hClosed] at h
    cases h
  · rw [if_neg hClosed] at h
    by_cases hHb : hb = c.hb
    · subst hHb
      rw [if_neg (not_not.mpr rfl)] at h
      exact ⟨hClosed, rfl, (Except.ok.inj h).symm⟩
    · rw [if_pos hHb] at h
      cases h

theorem addCosign_ok (h : c.addCosign vaultId = .ok d) :
    ¬ c.phase.Closed ∧ d = c.withCosign vaultId.text := by
  unfold addCosign at h
  by_cases hClosed : c.phase.Closed
  · rw [if_pos hClosed] at h
    cases h
  · rw [if_neg hClosed] at h
    exact ⟨hClosed, (Except.ok.inj h).symm⟩

/-- The predicates of a release. -/
theorem predicatesOk_iff : c.predicatesOk policy now constitutionHash = .ok () ↔
    c.constitutionHash = constitutionHash ∧ policy.councilQuorum ≤ c.councilSigs.size ∧
      policy.minRebuilds.1 ≤ c.rebuilds.size ∧
      policy.effectiveTimelockSecs ≤ now.1 - c.createdAtSecs.1 := by
  unfold predicatesOk
  split
  · exact ⟨nofun, fun h => absurd h.1 ‹_›⟩
  split
  · exact ⟨nofun, fun h => absurd h.2.1 (by omega)⟩
  split
  · exact ⟨nofun, fun h => absurd h.2.2.1 (by omega)⟩
  split
  · exact ⟨nofun, fun h => absurd h.2.2.2 (by omega)⟩
  · exact ⟨fun _ => ⟨by simp_all, by omega, by omega, by omega⟩, fun _ => rfl⟩

end Evidence

end ReleaseCandidate

/-- `AllowlistEntry`. -/
structure AllowlistEntry where
  releaseId : String
  hs : ContentHash
  hb : ContentHash
  activatedAtSecs : U64
  constitutionHash : String
  deriving DecidableEq

end KeroseneVault
