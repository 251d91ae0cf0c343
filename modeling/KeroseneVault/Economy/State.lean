import KeroseneVault.Application.EconomyOps
import KeroseneVault.Lib.Runs
import KeroseneVault.Lib.SortedMap

/-!
# The miner economy

`EconomyState` with its operators in the order of their ids, as the file and the
payouts have them, and the calls that change it.

* `RegisteredOperator`, `MinerEconomy` — the operators and the pools;
* `MinerEconomy.upsertOperator`, `accrueProfitSplits`, `accrueFromProfit`,
  `accrueGovernanceJob`, `debitPool`, `recordMinerPayout` — the calls;
* `EconomyCall.run` — any of them, with its answer;
* `MinerEconomy.Kept` — what every call keeps.

Main results:

* `kept_run` — every call keeps it;
* `kept_of_calls` — an open economy has it after any calls;
* `EconomyCall.run_error` — a call that is refused leaves the state.
-/

namespace KeroseneVault

/-! ## Numbers -/

/-- A `u32`. -/
abbrev U32 := {n : Nat // n < 2 ^ 32}

/-- `as u32`. -/
def castU32 (n : Nat) : U32 := ⟨n % 2 ^ 32, Nat.mod_lt _ (by decide)⟩

theorem castU32_val (n : U32) : castU32 n.1 = n := Subtype.ext (Nat.mod_eq_of_lt n.2)

/-- A sum of `u64` that wraps. -/
def wrapU64 (n : Nat) : U64 := ⟨n % 2 ^ 64, Nat.le_sub_one_of_lt (Nat.mod_lt _ (by decide))⟩

/-! ## Nodes -/

/-- A node's id is made of itself. -/
theorem NodeId.new_text {raw : String} {id : NodeId} (h : NodeId.new raw = .ok id) :
    NodeId.new id.text = .ok id := by
  unfold NodeId.new at h ⊢
  dsimp only at h ⊢
  split at h
  · cases h
  rename_i hAccepted
  cases h
  have hTrim : strTrim (strTrim raw) = strTrim raw := by
    unfold strTrim
    rw [String.toList_ofList, LineLog.trim_trim]
  rw [hTrim, if_neg hAccepted]

/-! ## The state -/

/-- `RewardPolicy`, with all its fields. -/
structure FullRewardPolicy where
  minUptimeBps30d : U32
  minAttestationStreakDays : U32
  minBondSats : U64
  waitingPoolShareBps : U32
  deriving DecidableEq

/-- `RewardPolicy::v1_open`. -/
def FullRewardPolicy.v1Open : FullRewardPolicy :=
  ⟨castU32 9500, castU32 1, toU64 0, castU32 0⟩

/-- What the gate reads of the policy. -/
def FullRewardPolicy.gatePolicy (p : FullRewardPolicy) : RewardPolicy :=
  ⟨p.minUptimeBps30d.1, p.minAttestationStreakDays.1, p.minBondSats.1⟩

/-- `MinerOperator`, with its node, whose id `NodeId::new` made. -/
structure RegisteredOperator where
  nodeId : NodeId
  made : NodeId.new nodeId.text = .ok nodeId
  payoutDestination : String
  uptimeBps30d : U32
  attestationStreakDays : U32
  bondSats : U64
  waiting : Bool
  deriving DecidableEq

theorem NodeId.new_m1 : NodeId.new "m1" = .ok ⟨"m1"⟩ := rfl

/-- What the gate reads of the operator. -/
def RegisteredOperator.gateOperator (op : RegisteredOperator) : MinerOperator :=
  { payoutDestination := op.payoutDestination
    uptimeBps30d := op.uptimeBps30d.1
    attestationStreakDays := op.attestationStreakDays.1
    bondSats := op.bondSats.1
    waiting := op.waiting }

def RegisteredOperator.isEligible (op : RegisteredOperator) (policy : FullRewardPolicy) : Bool :=
  op.gateOperator.isEligible policy.gatePolicy

/-- `EconomyState`, with all its fields. -/
structure MinerEconomy where
  policy : FullRewardPolicy
  operators : SortedMap String RegisteredOperator
  minerPoolSats : U64
  channelsPoolSats : U64
  infraPoolSats : U64
  accruedProfitSats : U64
  pendingGovernanceRewardSats : U64
  governanceCredits : SortedMap String U64
  cryptoSuiteIdPq : String
  lastMinerPayoutAtSecs : Option U64
  lastMinerPayoutEpoch : Option U64
  deriving DecidableEq

/-- `ProfitSplits::open_with_reward`. -/
def ProfitSplits.openWithReward (pRewardBps : Nat) : Except DomainError ProfitSplits :=
  if pRewardBps > 10000 then .error (.invalidConstitution "p_reward_bps > 10000")
  else
    let rest := 10000 - pRewardBps
    let channels := rest / 2
    let splits : ProfitSplits := ⟨pRewardBps, channels, rest - channels⟩
    match splits.validate with
    | .error e => .error e
    | .ok () => .ok splits

namespace MinerEconomy

/-- `new_open`. -/
def newOpen : MinerEconomy :=
  { policy := .v1Open, operators := .empty, minerPoolSats := toU64 0, channelsPoolSats := toU64 0,
    infraPoolSats := toU64 0, accruedProfitSats := toU64 0,
    pendingGovernanceRewardSats := toU64 0, governanceCredits := .empty,
    cryptoSuiteIdPq := "ml-dsa-65-placeholder", lastMinerPayoutAtSecs := none,
    lastMinerPayoutEpoch := none }

/-- A destination that `upsert_operator` refuses. -/
def IllegalDestination (destination : String) : Prop :=
  strContains destination ".." = true ∨ '/' ∈ destination.toList ∨ '\\' ∈ destination.toList

instance decidableIllegalDestination (d : String) : Decidable (IllegalDestination d) :=
  inferInstanceAs (Decidable (_ ∨ _))

/-- `upsert_operator`. -/
def upsertOperator (economy : MinerEconomy) (op : RegisteredOperator) : Outcome × MinerEconomy :=
  if IllegalDestination op.payoutDestination then
    (.error (.invalidIntent "miner payout destination illegal"), economy)
  else (.ok (), { economy with operators := economy.operators.insert op.nodeId.text op })

/-- `eligible_active`, in the order of the ids. -/
def eligibleActive (economy : MinerEconomy) : List RegisteredOperator :=
  (economy.operators.entries.map Prod.snd).filter (·.isEligible economy.policy)

/-- The economy with a profit in it. -/
def withProfit (economy : MinerEconomy) (accrual : ProfitSplitAccrual) : MinerEconomy :=
  { economy with
    minerPoolSats := toU64 (economy.minerPoolSats.1 + accrual.minersSats)
    channelsPoolSats := toU64 (economy.channelsPoolSats.1 + accrual.channelsSats)
    infraPoolSats := toU64 (economy.infraPoolSats.1 + accrual.infraSats)
    accruedProfitSats := toU64 (economy.accruedProfitSats.1 + accrual.profitSats) }

/-- `accrue_profit_splits`. -/
def accrueProfitSplits (economy : MinerEconomy) (profitSats : U64) (splits : ProfitSplits) :
    Except DomainError ProfitSplitAccrual × MinerEconomy :=
  match splits.validate with
  | .error e => (.error e, economy)
  | .ok () =>
    let (minersSats, channelsSats, infraSats) := splits.allocate profitSats.1
    let accrual := { profitSats := profitSats.1, minersSats, channelsSats, infraSats }
    (.ok accrual, economy.withProfit accrual)

/-- `accrue_from_profit`: a reward rate that is no rate accrues nothing. -/
def accrueFromProfit (economy : MinerEconomy) (profitSats : U64) (pRewardBps : U32) :
    Nat × MinerEconomy :=
  match ProfitSplits.openWithReward pRewardBps.1 with
  | .error _ => (0, economy)
  | .ok splits =>
    match economy.accrueProfitSplits profitSats splits with
    | (.error _, economy) => (0, economy)
    | (.ok accrual, economy) => (accrual.minersSats, economy)

/-- `*entry(id).or_insert(0) += share`, on a `u64`. -/
def credit (economy : MinerEconomy) (share : NodeId × Nat) : MinerEconomy :=
  let before := (economy.governanceCredits.lookup share.1.text).getD (toU64 0)
  { economy with governanceCredits :=
      economy.governanceCredits.insert share.1.text (wrapU64 (before.1 + share.2)) }

/-- The participants that are registered and eligible. -/
def eligibleAmong (economy : MinerEconomy) (participants : List NodeId) : List NodeId :=
  participants.filter fun id =>
    ((economy.operators.lookup id.text).map (·.isEligible economy.policy)).getD false

/-- `accrue_governance_job`. -/
def accrueGovernanceJob (economy : MinerEconomy) (job : GovernanceJobKind)
    (participants : List NodeId) (config : GovernanceRewardConfig) :
    GovernanceAccrual × MinerEconomy :=
  let participants := participants.eraseDups
  let bounty := config.bountySats economy.minerPoolSats.1
  if bounty = 0 then
    ({ job, bountySats := 0, accruedToPoolSats := 0, credited := [], participants,
       eligibleCredited := 0 }, economy)
  else
    let eligible := economy.eligibleAmong participants
    let credited := if eligible = [] then [] else
      creditShares (bounty / eligible.length) (bounty % eligible.length) eligible
    ({ job, bountySats := bounty, accruedToPoolSats := bounty, credited, participants,
       eligibleCredited := credited.length },
      { credited.foldl credit economy with
        minerPoolSats := toU64 (economy.minerPoolSats.1 + bounty)
        pendingGovernanceRewardSats := toU64 (economy.pendingGovernanceRewardSats.1 + bounty) })

/-- `debit_pool`. -/
def debitPool (economy : MinerEconomy) (amount : U64) : Outcome × MinerEconomy :=
  if amount.1 > economy.minerPoolSats.1 then
    (.error (.insufficientMinerPool economy.minerPoolSats.1 amount.1), economy)
  else
    let fromGov := min amount.1 economy.pendingGovernanceRewardSats.1
    (.ok (), { economy with
      minerPoolSats := toU64 (economy.minerPoolSats.1 - amount.1)
      pendingGovernanceRewardSats :=
        toU64 (economy.pendingGovernanceRewardSats.1 - fromGov) })

/-- `record_miner_payout`. -/
def recordMinerPayout (economy : MinerEconomy) (atSecs : U64) (epoch : Option U64) :
    MinerEconomy :=
  { economy with
    lastMinerPayoutAtSecs := some atSecs
    lastMinerPayoutEpoch := epoch.or economy.lastMinerPayoutEpoch }

end MinerEconomy

/-! ## Calls -/

/-- A call of the port that changes the economy. -/
inductive EconomyCall where
  | upsertOperator (op : RegisteredOperator)
  | accrueFromProfit (profitSats : U64) (pRewardBps : U32)
  | accrueProfitSplits (profitSats : U64) (splits : ProfitSplits)
  | accrueGovernanceJob (job : GovernanceJobKind) (participants : List NodeId)
      (config : GovernanceRewardConfig)
  | debitPool (amount : U64)
  | recordMinerPayout (atSecs : U64) (epoch : Option U64)

/-- The call on the state, with its answer but for the value in it. -/
def EconomyCall.run (economy : MinerEconomy) : EconomyCall → Outcome × MinerEconomy
  | .upsertOperator op => economy.upsertOperator op
  | .accrueFromProfit profitSats pRewardBps =>
    (.ok (), (economy.accrueFromProfit profitSats pRewardBps).2)
  | .accrueProfitSplits profitSats splits =>
    let r := economy.accrueProfitSplits profitSats splits
    (r.1.map fun _ => (), r.2)
  | .accrueGovernanceJob job participants config =>
    (.ok (), (economy.accrueGovernanceJob job participants config).2)
  | .debitPool amount => economy.debitPool amount
  | .recordMinerPayout atSecs epoch => (.ok (), economy.recordMinerPayout atSecs epoch)

/-- The state after the call. -/
def EconomyCall.step (economy : MinerEconomy) (call : EconomyCall) : MinerEconomy :=
  (call.run economy).2

namespace MinerEconomy

/-- Operators stand under their ids with destinations that are legal, and only
operators have credits. -/
structure Kept (economy : MinerEconomy) : Prop where
  keyed : ∀ e ∈ economy.operators.entries, e.2.nodeId.text = e.1
  legal : ∀ e ∈ economy.operators.entries, ¬ IllegalDestination e.2.payoutDestination
  credited : ∀ k ∈ economy.governanceCredits.keys, k ∈ economy.operators.keys
  suite : economy.cryptoSuiteIdPq = "ml-dsa-65-placeholder"

theorem kept_newOpen : newOpen.Kept where
  keyed := nofun
  legal := nofun
  credited := nofun
  suite := rfl

variable {economy : MinerEconomy}

/-- Numbers alone change nothing of it. -/
theorem Kept.of_eq {economy' : MinerEconomy} (h : economy.Kept)
    (hOperators : economy'.operators = economy.operators)
    (hCredits : economy'.governanceCredits = economy.governanceCredits)
    (hSuite : economy'.cryptoSuiteIdPq = economy.cryptoSuiteIdPq) : economy'.Kept := by
  obtain ⟨hKeyed, hLegal, hCredited, hOld⟩ := h
  refine ⟨?_, ?_, ?_, hSuite.trans hOld⟩
  · rwa [hOperators]
  · rwa [hOperators]
  · rwa [hCredits, hOperators]

theorem Kept.upsertOperator (h : economy.Kept) (op : RegisteredOperator) :
    (economy.upsertOperator op).2.Kept := by
  unfold MinerEconomy.upsertOperator
  split
  · exact h
  rename_i hLegal
  have hEntry {e : String × RegisteredOperator}
      (he : e ∈ (economy.operators.insert op.nodeId.text op).entries) :
      e = (op.nodeId.text, op) ∨ e ∈ economy.operators.entries :=
    SortedMap.mem_of_mem_insertEntry he
  refine ⟨fun e he => ?_, fun e he => ?_, fun k hk => ?_, h.suite⟩
  · rcases hEntry he with rfl | hOld
    · rfl
    · exact h.keyed e hOld
  · rcases hEntry he with rfl | hOld
    · exact hLegal
    · exact h.legal e hOld
  · exact SortedMap.mem_keys_insert.mpr (.inr (h.credited k hk))

theorem Kept.accrueProfitSplits (h : economy.Kept) (profitSats : U64) (splits : ProfitSplits) :
    (economy.accrueProfitSplits profitSats splits).2.Kept := by
  unfold MinerEconomy.accrueProfitSplits
  split
  · exact h
  · exact h.of_eq rfl rfl rfl

theorem Kept.accrueFromProfit (h : economy.Kept) (profitSats : U64) (pRewardBps : U32) :
    (economy.accrueFromProfit profitSats pRewardBps).2.Kept := by
  unfold MinerEconomy.accrueFromProfit
  split
  · exact h
  · rename_i splits _
    have hAccrued := h.accrueProfitSplits profitSats splits
    split
    · rename_i hEq
      rwa [hEq] at hAccrued
    · rename_i hEq
      rwa [hEq] at hAccrued

/-- The nodes of the shares are those that they are divided among. -/
theorem mem_creditShares {each rem : Nat} {ids : List NodeId} {share : NodeId × Nat}
    (h : share ∈ creditShares each rem ids) : share.1 ∈ ids := by
  induction ids generalizing rem with
  | nil =>
    unfold creditShares at h
    cases h
  | cons id rest ih =>
    cases rem with
    | zero =>
      rcases List.mem_cons.mp h with rfl | hRest
      · exact List.mem_cons_self ..
      · exact List.mem_cons_of_mem _ (ih hRest)
    | succ rem =>
      rcases List.mem_cons.mp h with rfl | hRest
      · exact List.mem_cons_self ..
      · exact List.mem_cons_of_mem _ (ih hRest)

/-- Credits of operators, one after the other. -/
theorem Kept.foldl_credit {shares : List (NodeId × Nat)} (h : economy.Kept)
    (hShares : ∀ share ∈ shares, share.1.text ∈ economy.operators.keys) :
    (shares.foldl credit economy).Kept := by
  induction shares generalizing economy with
  | nil => exact h
  | cons share rest ih =>
    obtain ⟨hShare, hRest⟩ := List.forall_mem_cons.mp hShares
    refine ih ⟨h.keyed, h.legal, fun k hk => ?_, h.suite⟩ hRest
    rcases SortedMap.mem_keys_insert.mp hk with rfl | hOld
    · exact hShare
    · exact h.credited k hOld

theorem mem_keys_of_eligibleAmong {participants : List NodeId} {id : NodeId}
    (h : id ∈ economy.eligibleAmong participants) : id.text ∈ economy.operators.keys := by
  have hFound := (List.mem_filter.mp h).2
  by_contra hNone
  rw [SortedMap.lookup_eq_none_iff.mpr hNone] at hFound
  cases hFound

theorem Kept.accrueGovernanceJob (h : economy.Kept) (job : GovernanceJobKind)
    (participants : List NodeId) (config : GovernanceRewardConfig) :
    (economy.accrueGovernanceJob job participants config).2.Kept := by
  unfold MinerEconomy.accrueGovernanceJob
  dsimp only
  split
  · exact h
  · refine (h.foldl_credit fun share hShare => ?_).of_eq rfl rfl rfl
    split at hShare
    · cases hShare
    · exact mem_keys_of_eligibleAmong (mem_creditShares hShare)

theorem Kept.debitPool (h : economy.Kept) (amount : U64) : (economy.debitPool amount).2.Kept := by
  unfold MinerEconomy.debitPool
  split
  · exact h
  · exact h.of_eq rfl rfl rfl

/-- Every call keeps it, whatever it answers. -/
theorem kept_run (call : EconomyCall) (h : economy.Kept) : (call.run economy).2.Kept := by
  cases call with
  | upsertOperator op => exact h.upsertOperator op
  | accrueFromProfit profitSats pRewardBps => exact h.accrueFromProfit profitSats pRewardBps
  | accrueProfitSplits profitSats splits => exact h.accrueProfitSplits profitSats splits
  | accrueGovernanceJob job participants config => exact h.accrueGovernanceJob job participants config
  | debitPool amount => exact h.debitPool amount
  | recordMinerPayout atSecs epoch => exact h.of_eq rfl rfl rfl

/-- An open economy has it after any calls. -/
theorem kept_of_calls (calls : List EconomyCall) : (Runs.run EconomyCall.step newOpen calls).Kept :=
  Runs.run_preserves (fun _ call h => kept_run call h) kept_newOpen calls

end MinerEconomy

/-! ## Refusals -/

section Refusals

variable {economy : MinerEconomy} {e : DomainError}

theorem MinerEconomy.upsertOperator_error {op : RegisteredOperator}
    (h : (economy.upsertOperator op).1 = .error e) : (economy.upsertOperator op).2 = economy := by
  unfold upsertOperator at h ⊢
  split at h
  · rename_i hIllegal
    rw [if_pos hIllegal]
  · cases h

theorem MinerEconomy.accrueProfitSplits_error {profitSats : U64} {splits : ProfitSplits}
    (h : (economy.accrueProfitSplits profitSats splits).1 = .error e) :
    (economy.accrueProfitSplits profitSats splits).2 = economy := by
  unfold accrueProfitSplits at h ⊢
  cases hSplits : splits.validate with
  | error e => rfl
  | ok u =>
    rw [hSplits] at h
    cases h

theorem MinerEconomy.debitPool_error {amount : U64} (h : (economy.debitPool amount).1 = .error e) :
    (economy.debitPool amount).2 = economy := by
  unfold debitPool at h ⊢
  split at h
  · rename_i hLow
    rw [if_pos hLow]
  · cases h

/-- A call that is refused leaves the state. -/
theorem EconomyCall.run_error {call : EconomyCall} (h : (call.run economy).1 = .error e) :
    (call.run economy).2 = economy := by
  cases call with
  | upsertOperator op => exact MinerEconomy.upsertOperator_error h
  | accrueFromProfit profitSats pRewardBps => cases h
  | accrueProfitSplits profitSats splits =>
    show (economy.accrueProfitSplits profitSats splits).2 = economy
    have hMap : (economy.accrueProfitSplits profitSats splits).1.map (fun _ => ()) = .error e := h
    cases hAnswer : (economy.accrueProfitSplits profitSats splits).1 with
    | error e' => exact MinerEconomy.accrueProfitSplits_error hAnswer
    | ok accrual =>
      rw [hAnswer] at hMap
      cases hMap
  | accrueGovernanceJob job participants config => cases h
  | debitPool amount => exact MinerEconomy.debitPool_error h
  | recordMinerPayout atSecs epoch => cases h

end Refusals

end KeroseneVault
