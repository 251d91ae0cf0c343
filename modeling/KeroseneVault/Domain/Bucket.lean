import Mathlib.Data.Finset.Union
import KeroseneVault.Domain.Basic

/-!
# Buckets, policies and the intent gate

The treasury buckets, the per-bucket policy (caps and destination allowlist),
the settlement intent and `evaluateIntent`, the pure gate every reservation
and authorisation passes. Whether a destination parses as a Bitcoin address
is decided by a crate outside the repository: `isAddress` stands for it.

Main results:

* `evaluateIntent_ok` — what an accepted intent satisfies;
* `evaluateIntent_perDay` — when an intent is refused for the daily cap.
-/

namespace KeroseneVault

/-! ## Buckets -/

/-- `BucketKind`: USERS / PROFIT / MINERS / CHANNELS / INFRA. -/
inductive BucketKind where
  | users
  | profit
  | miners
  | channels
  | infra
  deriving DecidableEq, Repr

namespace BucketKind

def parse (raw : String) : Except DomainError BucketKind :=
  match toAsciiUppercase (strTrim raw) with
  | "USERS" => .ok users
  | "PROFIT" => .ok profit
  | "MINERS" => .ok miners
  | "CHANNELS" => .ok channels
  | "INFRA" => .ok infra
  | _ => .error (.invalidBucket raw)

def asStr : BucketKind → String
  | users => "USERS"
  | profit => "PROFIT"
  | miners => "MINERS"
  | channels => "CHANNELS"
  | infra => "INFRA"

/-- Operational buckets must never debit the USERS omnibus. -/
def mayDebitUsers : BucketKind → Bool
  | users => true
  | _ => false

/-- The shared Taproot key is spent under USERS policy only. -/
def mayUseSharedTaprootKey : BucketKind → Bool
  | users => true
  | _ => false

/-- The dedicated CHANNELS Taproot key. -/
def mayUseChannelsTaprootKey : BucketKind → Bool
  | channels => true
  | _ => false

end BucketKind

def assertSharedTaprootBucket (bucket : BucketKind) : Outcome :=
  if !bucket.mayUseSharedTaprootKey then
    .error (.invalidIntent
      s!"bucket {bucket.asStr} cannot spend shared Taproot key; only USERS (CHANNELS uses its own key)")
  else .ok ()

def assertChannelsTaprootBucket (bucket : BucketKind) : Outcome :=
  if !bucket.mayUseChannelsTaprootKey then
    .error (.invalidIntent s!"bucket {bucket.asStr} cannot spend CHANNELS Taproot key")
  else .ok ()

/-! ## Policies -/

structure BucketPolicy where
  kind : BucketKind
  maxPerTxSats : Nat
  maxPerDaySats : Nat
  destinationAllowlist : Finset String
  deriving DecidableEq

namespace BucketPolicy

def labDefaults (kind : BucketKind) (maxTx maxDay : Nat) : BucketPolicy where
  kind := kind
  maxPerTxSats := maxTx
  maxPerDaySats := maxDay
  destinationAllowlist :=
    match kind with
    | .users => {"tb1q-users-withdraw", "ln-users-withdraw"}
    | .profit => {"internal-profit-split"}
    | .miners => {"tb1q-miner-payout"}
    | .channels => {"ln-channel-rebalance"}
    | .infra => {"tb1q-infra-ops"}

def allowsDestination (policy : BucketPolicy) (dest : String) : Bool :=
  dest ∈ policy.destinationAllowlist

/-- Admit an explicit destination; a blank one is ignored. -/
def admitDestination (policy : BucketPolicy) (dest : String) : BucketPolicy :=
  if strTrim dest ≠ "" then
    { policy with destinationAllowlist := insert dest policy.destinationAllowlist }
  else policy

def extendDestinations (policy : BucketPolicy) (dests : List String) : BucketPolicy :=
  dests.foldl admitDestination policy

theorem admitDestination_maxPerDaySats (policy : BucketPolicy) (dest : String) :
    (policy.admitDestination dest).maxPerDaySats = policy.maxPerDaySats := by
  unfold admitDestination
  split <;> rfl

/-- Admitting destinations moves no cap. -/
theorem extendDestinations_maxPerDaySats (policy : BucketPolicy) (dests : List String) :
    (policy.extendDestinations dests).maxPerDaySats = policy.maxPerDaySats := by
  induction dests generalizing policy with
  | nil => rfl
  | cons d ds ih =>
    show ((policy.admitDestination d).extendDestinations ds).maxPerDaySats = _
    rw [ih, admitDestination_maxPerDaySats]

end BucketPolicy

/-! ## Settlement intents -/

/-- `IntentSignature`: both halves sign the same canonical hash. -/
structure IntentSignature where
  ed25519Signature : List UInt8
  mlDsa65Signature : List UInt8
  ed25519KeyId : String
  mlDsaKeyId : String
  canonicalHash : List UInt8
  deriving DecidableEq

structure SettlementIntent where
  intentId : String
  bucket : BucketKind
  destination : String
  amountSats : Nat
  policyHash : String
  signature : Option IntentSignature
  deriving DecidableEq

namespace SettlementIntent

def maxIdLen : Nat := 128

def maxDestLen : Nat := 256

/-- `SettlementIntent::new`. -/
def new (intentId : String) (bucket : BucketKind) (destination : String) (amountSats : Nat)
    (policyHash : String) : Except DomainError SettlementIntent :=
  if strTrim intentId = "" then .error (.invalidIntent "empty intent_id")
  else if strLen intentId > maxIdLen then .error (.invalidIntent "intent_id too long")
  else if intentId.toList.any (fun c => isControl c || c == '/' || c == '\\') then
    .error (.invalidIntent "intent_id contains illegal characters")
  else if strTrim destination = "" then .error (.invalidIntent "empty destination")
  else if strLen destination > maxDestLen then .error (.invalidIntent "destination too long")
  else if strContains destination ".." || strContains destination "/" ||
      strContains destination "\\" then
    .error (.invalidIntent "destination path traversal rejected")
  else if strLen policyHash > 128 then .error (.invalidIntent "policy_hash too long")
  else .ok ⟨intentId, bucket, destination, amountSats, policyHash, none⟩

/-- An intent carries the fields it was asked for, and no signature. -/
theorem new_ok {intentId destination policyHash : String} {bucket : BucketKind}
    {amountSats : Nat} {intent : SettlementIntent}
    (h : new intentId bucket destination amountSats policyHash = .ok intent) :
    intent = ⟨intentId, bucket, destination, amountSats, policyHash, none⟩ := by
  unfold new at h
  repeat' split at h
  all_goals cases h
  rfl

end SettlementIntent

/-! ## The gate -/

section Gate

variable (isAddress : String → Bool)

/-- `evaluate_intent`: caps, allowlist and bucket isolation. The source's
`unreachable!()` guard (`!may_debit_users() && bucket == Users`) is met by no
bucket and has no branch here. -/
def evaluateIntent (intent : SettlementIntent) (policy : BucketPolicy) (spentTodaySats : Nat)
    (activePolicyHash : String) : Outcome :=
  if policy.kind ≠ intent.bucket then .error (.invalidIntent "bucket/policy mismatch")
  else if intent.policyHash ≠ activePolicyHash then
    .error (.invalidIntent "policy_hash mismatch with active constitution")
  else if !intent.bucket.mayDebitUsers ∧ policy.kind = .users then .error .usersOmnibusProtected
  else if intent.amountSats = 0 then .error (.invalidIntent "amount must be > 0")
  else if intent.amountSats > policy.maxPerTxSats then
    .error (.capExceeded intent.amountSats policy.maxPerTxSats "per_tx")
  else if satAdd spentTodaySats intent.amountSats > policy.maxPerDaySats then
    .error (.capExceeded (satAdd spentTodaySats intent.amountSats) policy.maxPerDaySats "per_day")
  else if !(policy.allowsDestination intent.destination ||
      (policy.kind = .channels && isAddress intent.destination)) then
    .error (.destinationNotAllowed intent.destination)
  else .ok ()

/-- What an accepted intent satisfies. -/
theorem evaluateIntent_ok {intent : SettlementIntent} {policy : BucketPolicy} {spent : Nat}
    {hash : String} (h : evaluateIntent isAddress intent policy spent hash = .ok ()) :
    policy.kind = intent.bucket ∧ intent.policyHash = hash ∧ 0 < intent.amountSats ∧
      intent.amountSats ≤ policy.maxPerTxSats ∧
      satAdd spent intent.amountSats ≤ policy.maxPerDaySats := by
  unfold evaluateIntent at h
  repeat' split at h
  all_goals try cases h
  refine ⟨by simp_all, by simp_all, by omega, by omega, by omega⟩

/-- `refusedPerDay r` — the answer is a refusal for the daily cap. -/
def refusedPerDay {α : Type} : Except DomainError α → Bool
  | .error (.capExceeded _ _ scope) => scope == "per_day"
  | _ => false

/-- An intent is refused for the daily cap only when the counter and its
amount together exceed it. -/
theorem evaluateIntent_perDay {intent : SettlementIntent} {policy : BucketPolicy} {spent : Nat}
    {hash : String} (h : refusedPerDay (evaluateIntent isAddress intent policy spent hash)) :
    policy.maxPerDaySats < satAdd spent intent.amountSats := by
  unfold evaluateIntent at h
  repeat' split at h
  all_goals first
    | omega
    | simp [refusedPerDay] at h

end Gate

end KeroseneVault
