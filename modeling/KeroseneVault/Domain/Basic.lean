import KeroseneVault.Lib.LineLog
import Mathlib.Data.List.Dedup
import Mathlib.Data.List.Sort
import Mathlib.Data.String.Basic

/-!
# Errors, saturating sums and the signing quorum

The parts of the domain crate every other module reads: the error type, the
`u64` counters that saturate instead of wrapping, the `⌈2n/3⌉` quorum and the
`str` operations the checks use.
-/

namespace KeroseneVault

/-! ## Errors -/

/-- `DomainError`, variant by variant. -/
inductive DomainError where
  | invalidNodeId
  | peerNotFound (id : String)
  | simAttestationForbidden
  | attestationRejected (reason : String)
  | measurementMismatch
  | invalidConstitution (reason : String)
  | ledgerConflict (reason : String)
  | unauthorizedWriter (id : String)
  | quorumNotMet (have_ need : Nat)
  | unknownProposal (id : String)
  | epochMismatch (expected got : Nat)
  | proposalClosed (id : String)
  | invalidShare (reason : String)
  | thresholdError (reason : String)
  | nonceReuse (reason : String)
  | failStop (online need : Nat)
  | sessionConsumed (id : String)
  | badSigningPhase (sessionId phase : String)
  | invalidRelease (reason : String)
  | unknownBlob (hash : String)
  | unknownRelease (id : String)
  | rebuildMismatch (expected got : String)
  | releasePredicate (reason : String)
  | timelockNotElapsed (ageSecs needSecs : Nat)
  | releaseClosed (id : String)
  | notAllowlisted (hash : String)
  | invalidBucket (bucket : String)
  | invalidIntent (reason : String)
  | capExceeded (amount cap : Nat) (scope : String)
  | destinationNotAllowed (destination : String)
  | intentReplay (id : String)
  | reservationMissing (id : String)
  | usersOmnibusProtected
  | labFlagForbidden (flag : String)
  | requestRejected (reason : String)
  | noEligibleMiners
  | insufficientMinerPool (have_ want : Nat)
  | minerSelfPayForbidden
  | authRejected (reason : String)
  | shareStoreForbidden (reason : String)
  | dealerForbidden (reason : String)
  | teeRequired (reason : String)
  | tpmRequired (reason : String)
  | bitcoinNetworkMismatch (reason : String)
  | dayEpochStale (have_ need : String)
  | productionGate (reason : String)
  deriving DecidableEq, Repr

/-- `fmt::Display`. -/
def DomainError.display : DomainError → String
  | .invalidNodeId => "invalid node id"
  | .peerNotFound id => s!"peer not found: {id}"
  | .simAttestationForbidden => "attestation mode sim is forbidden in production builds"
  | .attestationRejected reason => s!"attestation quote rejected: {reason}"
  | .measurementMismatch => "measurement mismatch"
  | .invalidConstitution r => s!"invalid constitution: {r}"
  | .ledgerConflict r => s!"ledger conflict: {r}"
  | .unauthorizedWriter id => s!"unauthorized ledger writer: {id}"
  | .quorumNotMet have_ need => s!"quorum not met: have {have_}, need {need}"
  | .unknownProposal id => s!"unknown proposal: {id}"
  | .epochMismatch expected got => s!"epoch mismatch: expected {expected}, got {got}"
  | .proposalClosed id => s!"proposal already closed: {id}"
  | .invalidShare r => s!"invalid share: {r}"
  | .thresholdError r => s!"threshold error: {r}"
  | .nonceReuse r => s!"nonce reuse: {r}"
  | .failStop online need => s!"fail-stop: online {online} < need {need}"
  | .sessionConsumed id => s!"signing session consumed: {id}"
  | .badSigningPhase sessionId phase => s!"bad signing phase for {sessionId}: {phase}"
  | .invalidRelease r => s!"invalid release: {r}"
  | .unknownBlob h => s!"unknown blob: {h}"
  | .unknownRelease id => s!"unknown release: {id}"
  | .rebuildMismatch expected got => s!"rebuild mismatch: expected {expected}, got {got}"
  | .releasePredicate r => s!"release predicate failed: {r}"
  | .timelockNotElapsed ageSecs needSecs =>
    s!"timelock not elapsed: age {ageSecs} < need {needSecs}"
  | .releaseClosed id => s!"release closed: {id}"
  | .notAllowlisted h => s!"artifact not allowlisted: {h}"
  | .invalidBucket b => s!"invalid bucket: {b}"
  | .invalidIntent r => s!"invalid intent: {r}"
  | .capExceeded amount cap scope => s!"cap exceeded ({scope}): amount {amount} > cap {cap}"
  | .destinationNotAllowed d => s!"destination not allowed: {d}"
  | .intentReplay id => s!"intent replay: {id}"
  | .reservationMissing id => s!"reservation missing or expired: {id}"
  | .usersOmnibusProtected => "USERS omnibus protected: operational bucket cannot debit USERS"
  | .labFlagForbidden flag => s!"lab flag forbidden outside lab: {flag}"
  | .requestRejected r => s!"request rejected: {r}"
  | .noEligibleMiners => "no eligible miners for payout"
  | .insufficientMinerPool have_ want => s!"insufficient miner pool: have {have_}, want {want}"
  | .minerSelfPayForbidden =>
    "miner payout forbidden: destination not an eligible registered operator (no self-pay)"
  | .authRejected r => s!"auth rejected: {r}"
  | .shareStoreForbidden r => s!"share store forbidden: {r}"
  | .dealerForbidden r => s!"dealer DKG forbidden: {r}"
  | .teeRequired r => s!"TEE sealing required: {r}"
  | .tpmRequired r => s!"TPM sealing required: {r}"
  | .bitcoinNetworkMismatch r => s!"bitcoin network mismatch: {r}"
  | .dayEpochStale have_ need => s!"day_epoch stale: have {have_}, need {need}"
  | .productionGate r => s!"production gate: {r}"

/-- `Result<(), DomainError>`. -/
abbrev Outcome := Except DomainError Unit

/-- Did a method return Ok? -/
def returnedOk : Outcome → Bool
  | .ok () => true
  | .error _ => false

/-- `atomic_write_fsync`: what it answers, and, where it fails, whether the
rename came first. -/
structure DiskWrite where
  answer : Outcome
  renamed : Bool

namespace DiskWrite

def lands (w : DiskWrite) : Bool := returnedOk w.answer || w.renamed

def done : DiskWrite := ⟨.ok (), true⟩

end DiskWrite

/-! ## `u64` counters -/

/-- `u64::MAX`. -/
def u64Max : Nat := 2 ^ 64 - 1

/-- A `u64`. -/
abbrev U64 := {n : Nat // n ≤ u64Max}

/-- The `u64` closest to a number. -/
def toU64 (n : Nat) : U64 := ⟨min n u64Max, Nat.min_le_right _ _⟩

/-- `u64::saturating_add`. (`saturating_sub` is subtraction on `Nat`.) -/
def satAdd (a b : Nat) : Nat := min (a + b) u64Max

theorem satAdd_le_add (a b : Nat) : satAdd a b ≤ a + b := Nat.min_le_left ..

/-- The sum saturates exactly past `u64::MAX`. -/
theorem satAdd_eq_add_iff {a b : Nat} : satAdd a b = a + b ↔ a + b ≤ u64Max := by
  unfold satAdd
  omega

/-! ## Quorum -/

/-- `t = ⌈2n/3⌉`. -/
def quorumTwoThirds (n : Nat) : Nat := (2 * n + 2) / 3

/-- Two signing quorums overlap. -/
theorem lt_two_mul_quorumTwoThirds {n : Nat} (hn : 1 ≤ n) : n < 2 * quorumTwoThirds n := by
  unfold quorumTwoThirds
  omega

/-! ## Strings -/

/-- `str::trim`. -/
def strTrim (s : String) : String := String.ofList (LineLog.trim s.toList)

/-- `sort` and `dedup` of a `Vec<String>`. -/
def sortDedup (names : List String) : List String := (names.insertionSort (· ≤ ·)).dedup

theorem sortDedup_nodup (names : List String) : (sortDedup names).Nodup := List.nodup_dedup _

theorem sortDedup_perm {names : List String} (h : names.Nodup) :
    (sortDedup names).Perm names := by
  have hSorted : (names.insertionSort (· ≤ ·)).Perm names := List.perm_insertionSort ..
  rw [sortDedup, List.Nodup.dedup (hSorted.nodup_iff.mpr h)]
  exact hSorted

/-- What `format!` makes of a text. -/
theorem toString_text (s : String) : toString s = s := rfl

/-- `str::len`, the length in bytes. -/
def strLen (s : String) : Nat := (s.toList.map Char.utf8Size).sum

/-- `NodeId`. -/
structure NodeId where
  text : String
  deriving DecidableEq

/-- `NodeId::new`: trimmed, not empty, at most 128 bytes. -/
def NodeId.new (raw : String) : Except DomainError NodeId :=
  let id := strTrim raw
  if id = "" ∨ strLen id > 128 then .error .invalidNodeId else .ok ⟨id⟩

/-- `char::is_control`, the Unicode category `Cc`. -/
def isControl (c : Char) : Bool := c.toNat ≤ 0x1F || (0x7F ≤ c.toNat && c.toNat ≤ 0x9F)

/-- `str::contains` with a string pattern. -/
def strContains (s pat : String) : Bool :=
  s.toList.tails.any fun rest => pat.toList.isPrefixOf rest

/-- `str::to_ascii_uppercase`. -/
def toAsciiUppercase (s : String) : String :=
  String.ofList (s.toList.map fun c =>
    if 'a' ≤ c ∧ c ≤ 'z' then Char.ofNat (c.toNat - 32) else c)

end KeroseneVault
