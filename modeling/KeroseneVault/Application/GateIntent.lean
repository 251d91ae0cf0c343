import KeroseneVault.Ledger.InMemory

/-!
# The intent gate

`GateIntent` ties the constitution, the economy and a bucket ledger together:
it builds the check an intent must pass and hands it to the ledger's
`reserveSpend` or `authorizeSpendAndConsume`. The ledger is any state with the
port's methods; what the constitution and the economy answer is an argument.

* `assertBankIssuedMinerPayout` — a miner payout goes to an eligible operator;
* `gateValidate` — the closure the ledger runs under its mutex;
* `GateIntent.run` — the gate itself.

Main results:

* `gateValidate_ok` — what the closure lets through fits the daily cap;
* `GateIntent.run_cases` — the gate refuses before the ledger, or makes one
  port call and answers as that call does.
-/

namespace KeroseneVault

/-! ## The economy -/

/-- `RewardPolicy`, as far as eligibility reads it. -/
structure RewardPolicy where
  minUptimeBps30d : Nat
  minAttestationStreakDays : Nat
  minBondSats : Nat
  deriving DecidableEq

structure MinerOperator where
  payoutDestination : String
  uptimeBps30d : Nat
  attestationStreakDays : Nat
  bondSats : Nat
  waiting : Bool
  deriving DecidableEq

def MinerOperator.isEligible (op : MinerOperator) (policy : RewardPolicy) : Bool :=
  if op.waiting then false
  else
    decide (policy.minUptimeBps30d ≤ op.uptimeBps30d) &&
    decide (policy.minAttestationStreakDays ≤ op.attestationStreakDays) &&
    decide (policy.minBondSats ≤ op.bondSats) && strTrim op.payoutDestination != ""

/-- `EconomyState`, as far as the gate reads it. -/
structure EconomyState where
  policy : RewardPolicy
  operators : List MinerOperator
  deriving DecidableEq

/-- Reject vault self-payment: the payout destination must be a registered operator's. -/
def assertBankIssuedMinerPayout (economy : EconomyState) (intent : SettlementIntent) : Outcome :=
  if intent.bucket ≠ .miners then .ok ()
  else if economy.operators.any fun op =>
      op.isEligible economy.policy && op.payoutDestination == intent.destination then .ok ()
  else .error .minerSelfPayForbidden

/-! ## The gate -/

/-- `ProfitSplits`. -/
structure ProfitSplits where
  minersBps : Nat
  channelsBps : Nat
  infraBps : Nat
  deriving DecidableEq

/-- `Constitution`, as far as the gate reads it. -/
structure Constitution where
  hash : String
  profitSplits : ProfitSplits
  deriving DecidableEq

/-- Admit the destinations of the eligible operators, never the intent's own. -/
def BucketPolicy.admitOperators (policy : BucketPolicy) (economy : Option EconomyState) :
    BucketPolicy :=
  match economy with
  | none => policy
  | some eco =>
    { policy with destinationAllowlist := policy.destinationAllowlist ∪
        ((eco.operators.filter fun op => op.isEligible eco.policy).map
          MinerOperator.payoutDestination).toFinset }

/-- The closure the ledger runs on the policy and the spend so far. -/
def gateValidate (isAddress : String → Bool) (intent : SettlementIntent)
    (economy : Option EconomyState) (policyHash : String) : Validate :=
  fun policy spent =>
    evaluateIntent isAddress intent (policy.admitOperators economy) spent policyHash

structure GateReceipt where
  intentId : String
  bucket : BucketKind
  amountSats : Nat
  status : String
  deriving DecidableEq

namespace GateIntent

inductive Phase where
  | reserve
  | consume
  deriving DecidableEq

/-- The part of `run` before the ledger: the closure, or a refusal. The
economy is asked only when a miner payout is open. -/
def check (isAddress : String → Bool) (constitution : Except DomainError Constitution)
    (economy : Except DomainError EconomyState) (intent : SettlementIntent) :
    Except DomainError Validate :=
  match constitution with
  | .error e => .error e
  | .ok constitution =>
    if 0 < constitution.profitSplits.minersBps ∧ intent.bucket = .miners then
      match economy with
      | .error e => .error e
      | .ok snap =>
        match assertBankIssuedMinerPayout snap intent with
        | .error e => .error e
        | .ok () => .ok (gateValidate isAddress intent (some snap) constitution.hash)
    else .ok (gateValidate isAddress intent none constitution.hash)

/-- The port call of a phase. -/
def portOp (phase : Phase) (intent : SettlementIntent) (validate : Validate) : LedgerOp :=
  match phase with
  | .reserve => .reserveSpend intent.intentId intent.bucket intent.amountSats validate
  | .consume => .authorizeSpendAndConsume intent.intentId intent.bucket intent.amountSats validate

def receipt (phase : Phase) (intent : SettlementIntent) : GateReceipt where
  intentId := intent.intentId
  bucket := intent.bucket
  amountSats := intent.amountSats
  status := match phase with
    | .reserve => "RESERVED"
    | .consume => "ACCEPTED"

/-- `GateIntent::run` on a ledger whose port methods are `perform`. -/
def run {σ : Type} (isAddress : String → Bool) (constitution : Except DomainError Constitution)
    (economy : Except DomainError EconomyState) (perform : σ → LedgerOp → Outcome × σ)
    (phase : Phase) (intent : SettlementIntent) (s : σ) : Except DomainError GateReceipt × σ :=
  match check isAddress constitution economy intent with
  | .error e => (.error e, s)
  | .ok validate =>
    match perform s (portOp phase intent validate) with
    | (.error e, s) => (.error e, s)
    | (.ok (), s) => (.ok (receipt phase intent), s)

end GateIntent

/-! ## What passes the gate -/

section Gate

variable (isAddress : String → Bool)

@[simp] theorem admitOperators_maxPerDaySats (policy : BucketPolicy)
    (economy : Option EconomyState) :
    (policy.admitOperators economy).maxPerDaySats = policy.maxPerDaySats := by
  cases economy <;> rfl

/-- What the closure lets through is not void and fits the daily cap. -/
theorem gateValidate_ok {intent : SettlementIntent} {economy : Option EconomyState}
    {policyHash : String} {policy : BucketPolicy} {spent : Nat}
    (h : gateValidate isAddress intent economy policyHash policy spent = .ok ()) :
    0 < intent.amountSats ∧ satAdd spent intent.amountSats ≤ policy.maxPerDaySats := by
  obtain ⟨-, -, hPos, -, hDay⟩ := evaluateIntent_ok isAddress h
  rw [admitOperators_maxPerDaySats] at hDay
  exact ⟨hPos, hDay⟩

/-- Every closure the gate hands out is a `gateValidate` of the intent. -/
theorem GateIntent.check_ok {constitution : Except DomainError Constitution}
    {economy : Except DomainError EconomyState} {intent : SettlementIntent} {validate : Validate}
    (h : GateIntent.check isAddress constitution economy intent = .ok validate) :
    ∃ eco hash, validate = gateValidate isAddress intent eco hash := by
  unfold GateIntent.check at h
  repeat' split at h
  all_goals cases h
  · exact ⟨_, _, rfl⟩
  · exact ⟨_, _, rfl⟩

/-- The gate refuses and leaves the ledger alone, or it makes one port call
with a closure of its own and answers Ok exactly if that call does. -/
theorem GateIntent.run_cases {σ : Type} (constitution : Except DomainError Constitution)
    (economy : Except DomainError EconomyState) (perform : σ → LedgerOp → Outcome × σ)
    (phase : GateIntent.Phase) (intent : SettlementIntent) (s : σ) :
    let r := GateIntent.run isAddress constitution economy perform phase intent s
    (∃ e, r = (.error e, s)) ∨
    ∃ eco hash, let op := portOp phase intent (gateValidate isAddress intent eco hash)
      r.2 = (perform s op).2 ∧
        r.1 = (perform s op).1.map fun _ => receipt phase intent := by
  intro r
  cases hCheck : GateIntent.check isAddress constitution economy intent with
  | error e => exact Or.inl ⟨e, by simp [r, GateIntent.run, hCheck]⟩
  | ok validate =>
    obtain ⟨eco, hash, rfl⟩ := GateIntent.check_ok isAddress hCheck
    refine Or.inr ⟨eco, hash, ?_⟩
    simp only [r, GateIntent.run, hCheck]
    generalize perform s (portOp phase intent (gateValidate isAddress intent eco hash)) = answer
    obtain ⟨outcome, s'⟩ := answer
    cases outcome with
    | error e => exact ⟨rfl, rfl⟩
    | ok => exact ⟨rfl, rfl⟩

end Gate

end KeroseneVault
