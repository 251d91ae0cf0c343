import KeroseneVault.Domain.Constitution
import KeroseneVault.Economy.State
import KeroseneVault.Lib.Shares

/-!
# Miner payouts

`ProposeMinerPayouts` splits an amount among the eligible miners, makes an intent
of each share under an id of a prefix, a place and a node, and takes the amount
from the pool. The bank submits the intents, and the gate refuses an id that it has
seen.

* `ProposeMinerPayouts.proposal`, `execute` — the proposal, and its debit;
* `payoutRequest` — the amount and the prefix of a request;
* `PayoutRound`, `PayoutRound.Clash` — what the ids of a proposal are made of, and
  when two proposals come to one id;
* `Payable` — no intent of a run is refused as a replay, and together they come to
  what was debited.

Main results:

* `execute_made` — what a proposal that is made takes from the pool;
* `clash_iff` — ids are one where prefixes, places and nodes are, or where a
  prefix goes on into what follows the other;
* `payable_iff` — payouts are payable where no rounds clash and no debit is lost.
-/

namespace KeroseneVault

/-! ## Shares -/

structure MinerPayoutShare where
  nodeId : NodeId
  destination : String
  amountSats : Nat

/-- Equal shares, and one more each for the first `rem`. -/
def payoutShares (each : Nat) : Nat → List RegisteredOperator → List MinerPayoutShare
  | _, [] => []
  | 0, op :: rest => ⟨op.nodeId, op.payoutDestination, each⟩ :: payoutShares each 0 rest
  | rem + 1, op :: rest =>
    ⟨op.nodeId, op.payoutDestination, each + 1⟩ :: payoutShares each rem rest

/-- `to_intent`. -/
def MinerPayoutShare.toIntent (share : MinerPayoutShare) (intentId policyHash : String) :
    Except DomainError SettlementIntent :=
  SettlementIntent.new intentId .miners share.destination share.amountSats policyHash

namespace MinerEconomy

/-- What the gate reads of the economy. -/
def gateState (economy : MinerEconomy) : EconomyState :=
  { policy := economy.policy.gatePolicy
    operators := economy.operators.entries.map fun e => e.2.gateOperator }

/-- `propose_equal_payouts`. -/
def proposeEqualPayouts (economy : MinerEconomy) (amount : U64) :
    Except DomainError (List MinerPayoutShare) :=
  let eligible := economy.eligibleActive
  if eligible = [] then .error .noEligibleMiners
  else if amount.1 = 0 ∨ amount.1 > economy.minerPoolSats.1 then
    .error (.insufficientMinerPool economy.minerPoolSats.1 amount.1)
  else
    let n := eligible.length
    let each := amount.1 / n
    .ok (payoutShares each (amount.1 - each * n) eligible)

/-- `assert_payout_cadence_ok`. -/
def assertPayoutCadenceOk (economy : MinerEconomy) (cadence : MinerPayoutCadence) (now : U64)
    (currentEpoch : Option U64) : Outcome :=
  match cadence with
  | .manual => .ok ()
  | .daily =>
    match economy.lastMinerPayoutAtSecs with
    | some last =>
      if now.1 - last.1 < 86400 then
        .error (.requestRejected "miner payout cadence daily: wait 86400s since last payout")
      else .ok ()
    | none => .ok ()
  | .weekly =>
    match economy.lastMinerPayoutAtSecs with
    | some last =>
      if now.1 - last.1 < 7 * 86400 then
        .error (.requestRejected "miner payout cadence weekly: wait 604800s since last payout")
      else .ok ()
    | none => .ok ()
  | .epoch =>
    match currentEpoch with
    | none => .error (.requestRejected "miner payout cadence epoch: current epoch required")
    | some cur =>
      match economy.lastMinerPayoutEpoch with
      | some last =>
        if cur.1 ≤ last.1 then
          .error (.requestRejected "miner payout cadence epoch: wait for next epoch")
        else .ok ()
      | none => .ok ()

end MinerEconomy

/-! ## The use case -/

structure PayoutProposal where
  totalSats : Nat
  shares : List MinerPayoutShare
  intents : List SettlementIntent

/-- A call of `execute`, with the clock it reads and the answers of the two writes of
`economy.json` that it comes to. -/
structure ProposeMinerPayouts where
  amount : U64
  intentPrefix : String
  now : U64
  debitWrite : Outcome
  recordWrite : Outcome

namespace ProposeMinerPayouts

/-- The id of the share at a place. -/
def intentId (intentPrefix : String) (i : Nat) (node : NodeId) : String :=
  let id := node.text
  s!"{intentPrefix}-{i}-{id}"

/-- The intents of the shares from a place on. -/
def intents (economy : EconomyState) (policyHash intentPrefix : String) :
    Nat → List MinerPayoutShare → Except DomainError (List SettlementIntent)
  | _, [] => .ok []
  | i, share :: rest =>
    match share.toIntent (intentId intentPrefix i share.nodeId) policyHash with
    | .error e => .error e
    | .ok intent =>
      match assertBankIssuedMinerPayout economy intent with
      | .error e => .error e
      | .ok () =>
        match intents economy policyHash intentPrefix (i + 1) rest with
        | .error e => .error e
        | .ok more => .ok (intent :: more)

/-- `execute`, up to the debit. -/
def proposal (constitution : Constitution) (cadence : MinerPayoutCadence)
    (economy : MinerEconomy) (call : ProposeMinerPayouts) : Except DomainError PayoutProposal :=
  match economy.assertPayoutCadenceOk cadence call.now none with
  | .error e => .error e
  | .ok () =>
    match economy.proposeEqualPayouts call.amount with
    | .error e => .error e
    | .ok shares =>
      match intents economy.gateState constitution.hash call.intentPrefix 0 shares with
      | .error e => .error e
      | .ok intents => .ok { totalSats := call.amount.1, shares, intents }

/-- `execute`. -/
def execute (constitution : Constitution) (cadence : MinerPayoutCadence) (economy : MinerEconomy)
    (call : ProposeMinerPayouts) : Except DomainError PayoutProposal × MinerEconomy :=
  match proposal constitution cadence economy call with
  | .error e => (.error e, economy)
  | .ok p =>
    match economy.debitPool call.amount with
    | (.error e, economy) => (.error e, economy)
    | (.ok (), economy) =>
      match EconomyBooks.persist call.debitWrite with
      | .error e => (.error e, economy)
      | .ok () =>
        let economy := economy.recordMinerPayout call.now none
        match EconomyBooks.persist call.recordWrite with
        | .error e => (.error e, economy)
        | .ok () => (.ok p, economy)

end ProposeMinerPayouts

/-- The amount and the prefix of `POST /economy/payout/propose/{amount}/{prefix}`. -/
def payoutRequest (path : String) : Option (U64 × String) :=
  let rest := trimStartMatches "/economy/payout/propose/".toList path.length path.toList
  let segs := splitN '/' 2 rest
  let intentPrefix := (segs[1]?.map String.ofList).getD "miner-pay"
  (parseU64 (segs.getD 0 [])).map fun amount => (amount, intentPrefix)

/-! ### What a proposal comes to -/

/-- The miners with their shares, in the order of their ids. -/
theorem payoutShares_eq (each rem : Nat) (ops : List RegisteredOperator) :
    payoutShares each rem ops = (ops.zip (Shares.shares each rem ops.length)).map
      fun e => ⟨e.1.nodeId, e.1.payoutDestination, e.2⟩ := by
  induction ops generalizing rem with
  | nil =>
    unfold payoutShares
    rfl
  | cons op ops ih =>
    cases rem with
    | zero => exact congrArg (_ :: ·) (ih 0)
    | succ rem => exact congrArg (_ :: ·) (ih rem)

theorem amounts_payoutShares (each rem : Nat) (ops : List RegisteredOperator) :
    (payoutShares each rem ops).map (·.amountSats) = Shares.shares each rem ops.length := by
  rw [payoutShares_eq, List.map_map]
  exact List.map_snd_zip Shares.length_shares.le

/-- What is read of the node and the destination of a share is its miner's. -/
theorem map_payoutShares {α : Type} (read : NodeId → String → α) (each rem : Nat)
    (ops : List RegisteredOperator) :
    (payoutShares each rem ops).map (fun share => read share.nodeId share.destination) =
      ops.map fun op => read op.nodeId op.payoutDestination := by
  have hMiners : (ops.zip (Shares.shares each rem ops.length)).map Prod.fst = ops :=
    List.map_fst_zip Shares.length_shares.ge
  rw [payoutShares_eq, List.map_map]
  conv_rhs => rw [← hMiners, List.map_map]
  rfl

/-- The remainder goes to miners that there are. -/
theorem sum_payoutShares {each rem : Nat} {ops : List RegisteredOperator}
    (h : rem ≤ ops.length) :
    ((payoutShares each rem ops).map (·.amountSats)).sum = each * ops.length + rem := by
  rw [amounts_payoutShares, Shares.sum_shares h]

theorem MinerEconomy.proposeEqualPayouts_ok {economy : MinerEconomy} {amount : U64}
    {shares : List MinerPayoutShare} (h : economy.proposeEqualPayouts amount = .ok shares) :
    shares.map (·.nodeId) = economy.eligibleActive.map (·.nodeId) ∧
      (shares.map (·.amountSats)).sum = amount.1 ∧ 0 < amount.1 ∧
      amount.1 ≤ economy.minerPoolSats.1 := by
  unfold proposeEqualPayouts at h
  dsimp only at h
  split at h
  · cases h
  rename_i hSome
  split at h
  · cases h
  rename_i hFits
  obtain rfl := Except.ok.inj h
  have hLength : 0 < economy.eligibleActive.length := List.length_pos_iff.mpr hSome
  have hMod : amount.1 - amount.1 / economy.eligibleActive.length * economy.eligibleActive.length =
      amount.1 % economy.eligibleActive.length := by
    rw [Nat.mul_comm, Nat.mod_eq_sub_mul_div]
  rw [not_or, not_lt] at hFits
  refine ⟨map_payoutShares (fun node _ => node) _ _ _, ?_, Nat.pos_of_ne_zero hFits.1, hFits.2⟩
  rw [hMod, sum_payoutShares (Nat.mod_lt _ hLength).le, Nat.div_add_mod']

namespace ProposeMinerPayouts

/-- The intents have the shares' amounts, each under the id of its place and node. -/
theorem intents_ok {economy : EconomyState} {policyHash intentPrefix : String} {i : Nat}
    {shares : List MinerPayoutShare} {made : List SettlementIntent}
    (h : intents economy policyHash intentPrefix i shares = .ok made) :
    made.map (·.intentId) =
      (shares.map (·.nodeId)).mapIdx (fun k node => intentId intentPrefix (i + k) node) ∧
    made.map (·.amountSats) = shares.map (·.amountSats) := by
  -- the places are counted along
  induction shares generalizing i made with
  | nil =>
    obtain rfl := Except.ok.inj h
    exact ⟨rfl, rfl⟩
  | cons share rest ih =>
    unfold intents at h
    split at h
    · cases h
    rename_i intent hIntent
    split at h
    · cases h
    split at h
    · cases h
    rename_i more hMore
    obtain rfl := Except.ok.inj h
    obtain rfl := SettlementIntent.new_ok hIntent
    obtain ⟨hIds, hAmounts⟩ := ih hMore
    refine ⟨?_, congrArg (share.amountSats :: ·) hAmounts⟩
    rw [List.map_cons, List.map_cons, List.mapIdx_cons, hIds]
    simp only [Nat.add_zero, Nat.add_right_comm, Nat.add_assoc]

variable {constitution : Constitution} {cadence : MinerPayoutCadence} {economy : MinerEconomy}
  {call : ProposeMinerPayouts} {p : PayoutProposal}

theorem proposal_ok (h : proposal constitution cadence economy call = .ok p) :
    p.intents.map (·.intentId) = (economy.eligibleActive.map (·.nodeId)).mapIdx
        (intentId call.intentPrefix) ∧
      (p.intents.map (·.amountSats)).sum = call.amount.1 ∧ p.totalSats = call.amount.1 ∧
      0 < call.amount.1 ∧ call.amount.1 ≤ economy.minerPoolSats.1 := by
  unfold proposal at h
  split at h
  · cases h
  split at h
  · cases h
  rename_i shares hShares
  split at h
  · cases h
  rename_i made hMade
  obtain rfl := Except.ok.inj h
  obtain ⟨hNodes, hSum, hPos, hFits⟩ := MinerEconomy.proposeEqualPayouts_ok hShares
  obtain ⟨hIds, hAmounts⟩ := intents_ok hMade
  refine ⟨?_, ?_, rfl, hPos, hFits⟩
  · rw [hIds, hNodes]
    simp only [Nat.zero_add]
  · rw [hAmounts, hSum]

/-- Both writes of the file succeed. -/
def Written (call : ProposeMinerPayouts) : Prop :=
  call.debitWrite = .ok () ∧ call.recordWrite = .ok ()

instance decidableWritten (call : ProposeMinerPayouts) : Decidable call.Written :=
  inferInstanceAs (Decidable (_ ∧ _))

/-- A debit that there is an amount for. -/
theorem debitPool_ok {amount : U64} (h : amount.1 ≤ economy.minerPoolSats.1) :
    ∃ debited, economy.debitPool amount = (.ok (), debited) ∧
      debited.minerPoolSats.1 + amount.1 = economy.minerPoolSats.1 := by
  unfold MinerEconomy.debitPool
  rw [if_neg (not_lt.mpr h)]
  refine ⟨_, rfl, ?_⟩
  show min (economy.minerPoolSats.1 - amount.1) u64Max + amount.1 = _
  rw [Nat.min_eq_left ((Nat.sub_le _ _).trans economy.minerPoolSats.2), Nat.sub_add_cancel h]

/-- A proposal that is made debits the pool, and is returned where its writes succeed. -/
theorem execute_made (h : proposal constitution cadence economy call = .ok p) :
    (execute constitution cadence economy call).2.minerPoolSats.1 + call.amount.1 =
        economy.minerPoolSats.1 ∧
      (call.Written → (execute constitution cadence economy call).1 = .ok p) ∧
      (¬ call.Written → ∃ e, (execute constitution cadence economy call).1 = .error e) := by
  obtain ⟨-, -, -, -, hFits⟩ := proposal_ok h
  obtain ⟨debited, hDebit, hPool⟩ := debitPool_ok hFits
  unfold execute
  rw [h, hDebit]
  dsimp only
  unfold Written EconomyBooks.persist
  cases call.debitWrite with
  | error e => exact ⟨hPool, nofun, fun _ => ⟨_, rfl⟩⟩
  | ok u =>
    cases call.recordWrite with
    | error e => exact ⟨hPool, nofun, fun _ => ⟨_, rfl⟩⟩
    | ok u => exact ⟨hPool, fun _ => rfl, fun hNot => absurd ⟨rfl, rfl⟩ hNot⟩

/-- A proposal that is not made leaves the economy. -/
theorem execute_refused {e : DomainError}
    (h : proposal constitution cadence economy call = .error e) :
    execute constitution cadence economy call = (.error e, economy) := by
  unfold execute
  rw [h]

end ProposeMinerPayouts

/-! ## Rounds -/

/-- What the ids of a proposal are made of: the prefix, and the eligible miners in
their order. -/
structure PayoutRound where
  intentPrefix : String
  miners : List NodeId

namespace PayoutRound

def ids (r : PayoutRound) : List String :=
  r.miners.mapIdx (ProposeMinerPayouts.intentId r.intentPrefix)

/-- What follows the prefix in an id. -/
def ending (i : Nat) (node : NodeId) : List Char :=
  '-' :: (Nat.toDigits 10 i ++ '-' :: node.text.toList)

/-- A miner of one round and a miner of the other come to one id: under one prefix
at one place, or where one prefix goes on into what follows the other. -/
def Clash (r r' : PayoutRound) : Prop :=
  ∃ i node j node', r.miners[i]? = some node ∧ r'.miners[j]? = some node' ∧
    (r.intentPrefix = r'.intentPrefix ∧ i = j ∧ node = node' ∨
      Framing.Overruns r.intentPrefix.toList (ending i node) r'.intentPrefix.toList
        (ending j node') ∨
      Framing.Overruns r'.intentPrefix.toList (ending j node') r.intentPrefix.toList
        (ending i node))

theorem toList_intentId (intentPrefix : String) (i : Nat) (node : NodeId) :
    (ProposeMinerPayouts.intentId intentPrefix i node).toList =
      intentPrefix.toList ++ ending i node := by
  have hNumber : (toString i).toList = Nat.toDigits 10 i := by
    simp
  unfold ProposeMinerPayouts.intentId ending
  simp only [String.toList_append, toString_text, hNumber]
  simp

theorem ending_inj {i j : Nat} {node node' : NodeId} :
    ending i node = ending j node' ↔ i = j ∧ node = node' := by
  have hDash (n : Nat) : '-' ∉ Nat.toDigits 10 n := Framing.notMem_toDigits rfl n
  unfold ending
  rw [List.cons.injEq, Framing.append_sep_inj (hDash i) (hDash j), Framing.toDigits_inj,
    String.toList_inj]
  constructor
  · rintro ⟨-, rfl, hText⟩
    exact ⟨rfl, congrArg NodeId.mk hText⟩
  · rintro ⟨rfl, rfl⟩
    exact ⟨rfl, rfl, rfl⟩

/-- Ids are one where their prefixes, places and nodes are, or where a prefix
overruns the other. -/
theorem intentId_eq_iff {a b : String} {i j : Nat} {node node' : NodeId} :
    ProposeMinerPayouts.intentId a i node = ProposeMinerPayouts.intentId b j node' ↔
      a = b ∧ i = j ∧ node = node' ∨
        Framing.Overruns a.toList (ending i node) b.toList (ending j node') ∨
        Framing.Overruns b.toList (ending j node') a.toList (ending i node) := by
  rw [← String.toList_inj, toList_intentId, toList_intentId,
    Framing.append_eq_append_iff_overruns, String.toList_inj, ending_inj]

theorem mem_ids {r : PayoutRound} {id : String} :
    id ∈ r.ids ↔ ∃ i node, r.miners[i]? = some node ∧
      ProposeMinerPayouts.intentId r.intentPrefix i node = id := by
  unfold ids
  rw [List.mem_mapIdx]
  constructor
  · rintro ⟨i, hi, hEq⟩
    exact ⟨i, r.miners[i], List.getElem?_eq_getElem hi, hEq⟩
  · rintro ⟨i, node, hNode, hEq⟩
    obtain ⟨hi, rfl⟩ := List.getElem?_eq_some_iff.mp hNode
    exact ⟨i, hi, hEq⟩

/-- Rounds have an id in common where they clash. -/
theorem clash_iff {r r' : PayoutRound} : r.Clash r' ↔ ¬ r.ids.Disjoint r'.ids := by
  rw [List.disjoint_left]
  push Not
  constructor
  · rintro ⟨i, node, j, node', hNode, hNode', hEq⟩
    refine ⟨_, mem_ids.mpr ⟨i, node, hNode, rfl⟩, mem_ids.mpr ⟨j, node', hNode', ?_⟩⟩
    exact (intentId_eq_iff.mpr hEq).symm
  · rintro ⟨id, hId, hId'⟩
    obtain ⟨i, node, hNode, hEq⟩ := mem_ids.mp hId
    obtain ⟨j, node', hNode', hEq'⟩ := mem_ids.mp hId'
    exact ⟨i, node, j, node', hNode, hNode', intentId_eq_iff.mp (hEq.trans hEq'.symm)⟩

/-- A round's own ids are apart: they have one prefix, and their places differ. -/
theorem nodup_ids (r : PayoutRound) : r.ids.Nodup := by
  rw [List.nodup_iff_getElem?_ne_getElem?]
  intro i j hij hj hSame
  unfold ids at hj hSame
  rw [List.length_mapIdx] at hj
  rw [List.getElem?_mapIdx, List.getElem?_mapIdx, List.getElem?_eq_getElem hj,
    List.getElem?_eq_getElem (hij.trans hj)] at hSame
  rcases intentId_eq_iff.mp (Option.some.inj hSame) with ⟨-, rfl, -⟩ | hOver | hOver
  · exact lt_irrefl _ hij
  · exact Framing.not_overruns_of_length rfl hOver
  · exact Framing.not_overruns_of_length rfl hOver

/-- The ids of all rounds are apart where no two clash. -/
theorem nodup_flatMap_ids_iff {rounds : List PayoutRound} :
    (rounds.flatMap ids).Nodup ↔ rounds.Pairwise fun r r' => ¬ r.Clash r' := by
  rw [List.nodup_flatMap]
  constructor
  · rintro ⟨-, hApart⟩
    exact hApart.imp fun hDisjoint hClash => clash_iff.mp hClash hDisjoint
  · intro hApart
    exact ⟨fun r _ => r.nodup_ids,
      hApart.imp fun hNot => not_not.mp fun h => hNot (clash_iff.mpr h)⟩

end PayoutRound

/-! ## Submissions -/

/-- An intent as the bank submits it, with the clock and the economy that the gate reads. -/
structure PayoutSubmission where
  intent : SettlementIntent
  phase : GateIntent.Phase
  now : Nat
  economy : EconomyState

namespace PayoutSubmission

variable (isAddress : String → Bool) (constitution : Constitution)

def submit (g : BucketState) (sub : PayoutSubmission) :
    Except DomainError GateReceipt × BucketState :=
  GateIntent.run isAddress (.ok constitution) (.ok sub.economy) (BucketState.perform sub.now)
    sub.phase sub.intent g

def step (g : BucketState) (sub : PayoutSubmission) : BucketState :=
  (submit isAddress constitution g sub).2

/-- What the gate answers to submissions, one after the other. -/
def answers : BucketState → List PayoutSubmission → List (Except DomainError GateReceipt) :=
  Runs.emits (step isAddress constitution) fun g sub => some (submit isAddress constitution g sub).1

end PayoutSubmission

/-- What an answer of the gate lets the bank pay. -/
def paidSats : Except DomainError GateReceipt → Nat
  | .ok receipt => receipt.amountSats
  | .error _ => 0

def IsReplay (answer : Except DomainError GateReceipt) : Prop :=
  ∃ id, answer = .error (.intentReplay id)

/-- The ledger has not seen the id. -/
def BucketState.Unseen (g : BucketState) (id : String) : Prop :=
  id ∉ g.consumed ∧ g.reserved.lookup id = none

/-! ## Runs -/

/-- A call of the use case, or another one that changes the economy. -/
inductive PayoutCall where
  | propose (call : ProposeMinerPayouts)
  | other (call : EconomyCall)

namespace PayoutCall

variable (constitution : Constitution) (cadence : MinerPayoutCadence)

def step (economy : MinerEconomy) : PayoutCall → MinerEconomy
  | .propose call => (call.execute constitution cadence economy).2
  | .other call => call.step economy

/-- The proposal that the call returns. -/
def returned (economy : MinerEconomy) : PayoutCall → Option PayoutProposal
  | .propose call => (call.execute constitution cadence economy).1.toOption
  | .other _ => none

/-- What a proposal takes from the pool. -/
def debited (economy : MinerEconomy) : PayoutCall → Option Nat
  | .propose call =>
    some (economy.minerPoolSats.1 - (call.execute constitution cadence economy).2.minerPoolSats.1)
  | .other _ => none

/-- The round of a proposal that is made and written. -/
def round (economy : MinerEconomy) : PayoutCall → Option PayoutRound
  | .propose call =>
    if (call.proposal constitution cadence economy).isOk = true ∧ call.Written then
      some ⟨call.intentPrefix, economy.eligibleActive.map (·.nodeId)⟩
    else none
  | .other _ => none

/-- A proposal that is made is written. -/
def WrittenIfMade (economy : MinerEconomy) : PayoutCall → Prop
  | .propose call => (call.proposal constitution cadence economy).isOk = true → call.Written
  | .other _ => True

/-- The intents that a run of calls returns. -/
def intents (economy : MinerEconomy) (calls : List PayoutCall) : List SettlementIntent :=
  (Runs.emits (step constitution cadence) (returned constitution cadence) economy calls).flatMap
    (·.intents)

/-- What the proposals of a run take from the pool. -/
def totalDebited (economy : MinerEconomy) (calls : List PayoutCall) : Nat :=
  (Runs.emits (step constitution cadence) (debited constitution cadence) economy calls).sum

/-- The rounds of a run. -/
def rounds : MinerEconomy → List PayoutCall → List PayoutRound :=
  Runs.emits (step constitution cadence) (round constitution cadence)

end PayoutCall

/-- The intents that a run returns can be submitted once each, in any order, to a gate
that has not seen their ids: none is refused as a replay, and where nothing else is
refused, what is paid is what was debited. -/
structure Payable (constitution : Constitution) (cadence : MinerPayoutCadence)
    (economy : MinerEconomy) (calls : List PayoutCall) : Prop where
  distinct : ((PayoutCall.intents constitution cadence economy calls).map (·.intentId)).Nodup
  total : ((PayoutCall.intents constitution cadence economy calls).map (·.amountSats)).sum =
    PayoutCall.totalDebited constitution cadence economy calls
  unrefused : ∀ (isAddress : String → Bool) (subs : List PayoutSubmission) (g : BucketState),
    (subs.map (·.intent)).Perm (PayoutCall.intents constitution cadence economy calls) →
    (∀ sub ∈ subs, g.Unseen sub.intent.intentId) →
    ∀ answer ∈ PayoutSubmission.answers isAddress constitution g subs, ¬ IsReplay answer
  paid : ∀ (isAddress : String → Bool) (subs : List PayoutSubmission) (g : BucketState),
    (subs.map (·.intent)).Perm (PayoutCall.intents constitution cadence economy calls) →
    (∀ sub ∈ subs, g.Unseen sub.intent.intentId) →
    (∀ answer ∈ PayoutSubmission.answers isAddress constitution g subs,
      IsReplay answer ∨ ∃ receipt, answer = .ok receipt) →
    ((PayoutSubmission.answers isAddress constitution g subs).map paidSats).sum =
      PayoutCall.totalDebited constitution cadence economy calls

/-! ### Ids and totals -/

section Calls

variable {constitution : Constitution} {cadence : MinerPayoutCadence} {economy : MinerEconomy}

/-- The ids that a call returns are those of its round. -/
theorem PayoutCall.ids_returned (economy : MinerEconomy) (call : PayoutCall) :
    (call.returned constitution cadence economy).toList.flatMap
        (fun p => p.intents.map (·.intentId)) =
      (call.round constitution cadence economy).toList.flatMap PayoutRound.ids := by
  cases call with
  | other call => rfl
  | propose call =>
    unfold returned round
    dsimp only
    cases hMade : call.proposal constitution cadence economy with
    | error e =>
      rw [call.execute_refused hMade]
      rfl
    | ok p =>
      obtain ⟨-, hReturned, hLost⟩ := ProposeMinerPayouts.execute_made hMade
      by_cases hWritten : call.Written
      · rw [hReturned hWritten, if_pos ⟨rfl, hWritten⟩]
        have hIds := (ProposeMinerPayouts.proposal_ok hMade).1
        simpa [Except.toOption, PayoutRound.ids] using hIds
      · obtain ⟨e, hError⟩ := hLost hWritten
        rw [hError, if_neg fun h => hWritten h.2]
        rfl

theorem PayoutCall.ids_intents (economy : MinerEconomy) (calls : List PayoutCall) :
    (intents constitution cadence economy calls).map (·.intentId) =
      (rounds constitution cadence economy calls).flatMap PayoutRound.ids := by
  unfold intents rounds
  induction calls generalizing economy with
  | nil => rfl
  | cons call calls ih =>
    rw [Runs.emits, Runs.emits, List.flatMap_append, List.flatMap_append, List.map_append, ih,
      List.map_flatMap, PayoutCall.ids_returned]

/-- The intents that a call returns come to no more than its debit, and to as much
where the proposal is written. -/
theorem PayoutCall.sats_returned (economy : MinerEconomy) (call : PayoutCall) :
    let sats := (((call.returned constitution cadence economy).toList.flatMap (·.intents)).map
      (·.amountSats)).sum
    let debit := (call.debited constitution cadence economy).toList.sum
    sats ≤ debit ∧ (sats = debit ↔ call.WrittenIfMade constitution cadence economy) := by
  -- a proposal is not made, made and written, or made and lost with its file
  cases call with
  | other call => exact ⟨le_rfl, fun _ => trivial, fun _ => rfl⟩
  | propose call =>
    unfold returned debited WrittenIfMade
    dsimp only
    cases hMade : call.proposal constitution cadence economy with
    | error e =>
      rw [call.execute_refused hMade]
      simp [Except.toOption, Except.isOk, Except.toBool]
    | ok p =>
      obtain ⟨-, hSum, -, hPos, -⟩ := ProposeMinerPayouts.proposal_ok hMade
      obtain ⟨hPool, hReturned, hLost⟩ := ProposeMinerPayouts.execute_made hMade
      have hDebit : economy.minerPoolSats.1 -
          (call.execute constitution cadence economy).2.minerPoolSats.1 = call.amount.1 := by
        omega
      rw [hDebit]
      by_cases hWritten : call.Written
      · rw [hReturned hWritten]
        simp [Except.toOption, hSum, hWritten]
      · obtain ⟨e, hError⟩ := hLost hWritten
        rw [hError]
        simp [Except.toOption, Except.isOk, Except.toBool, hWritten, hPos.ne]

/-- The intents of a run come to what was debited where no debit is lost. -/
theorem PayoutCall.total_iff (economy : MinerEconomy) (calls : List PayoutCall) :
    ((intents constitution cadence economy calls).map (·.amountSats)).sum ≤
        totalDebited constitution cadence economy calls ∧
      (((intents constitution cadence economy calls).map (·.amountSats)).sum =
          totalDebited constitution cadence economy calls ↔
        Runs.EveryStep (step constitution cadence) (WrittenIfMade constitution cadence) economy
          calls) := by
  unfold intents totalDebited
  -- on the calls: no intent is above its debit, so the sums agree only where each does
  induction calls generalizing economy with
  | nil => exact ⟨le_rfl, fun _ => trivial, fun _ => rfl⟩
  | cons call calls ih =>
    obtain ⟨hLe, hIff⟩ := ih (call.step constitution cadence economy)
    obtain ⟨hFirst, hFirstIff⟩ := @PayoutCall.sats_returned constitution cadence economy call
    rw [Runs.everyStep_cons, ← hIff, ← hFirstIff, Runs.emits, Runs.emits, List.flatMap_append,
      List.map_append, List.sum_append, List.sum_append]
    omega

end Calls

/-! ### The gate -/

section Gate

variable {isAddress : String → Bool} {constitution : Constitution} {g : BucketState}
  {sub : PayoutSubmission}

/-- No check of an intent answers as a replay. -/
theorem evaluateIntent_ne_replay {intent : SettlementIntent} {policy : BucketPolicy} {spent : Nat}
    {policyHash id : String} :
    evaluateIntent isAddress intent policy spent policyHash ≠ .error (.intentReplay id) := by
  intro h
  unfold evaluateIntent at h
  repeat' split at h
  all_goals cases h

theorem BucketState.Unseen.sweep {id : String} (h : g.Unseen id) (now : Nat) :
    (g.sweepExpired now).Unseen id := by
  refine ⟨?_, ?_⟩
  · rw [BucketState.sweepExpired_consumed]
    exact h.1
  · rw [BucketState.lookup_sweepExpired, h.2]
    rfl

theorem validated_ne_replay {kind : BucketKind} {intent : SettlementIntent}
    {economy : Option EconomyState} {hash id : String} :
    g.validated kind (gateValidate isAddress intent economy hash) ≠ .error (.intentReplay id) := by
  unfold BucketState.validated
  split
  · nofun
  · exact evaluateIntent_ne_replay

/-- The checks before the ledger do not answer as a replay either. -/
theorem check_ne_replay {economy : EconomyState} {intent : SettlementIntent} {id : String} :
    GateIntent.check isAddress (.ok constitution) (.ok economy) intent ≠
      .error (.intentReplay id) := by
  unfold GateIntent.check assertBankIssuedMinerPayout
  dsimp only
  split
  · split
    · rename_i e hRefused
      split at hRefused
      · cases hRefused
      split at hRefused
      · cases hRefused
      · cases hRefused
        nofun
    · nofun
  · nofun

/-- The method does not refuse the id as a replay, and leaves other ids unseen. -/
def TakesUnseen (g : BucketState) (id : String) (r : Outcome × BucketState) : Prop :=
  (∀ j, r.1 ≠ .error (.intentReplay j)) ∧ ∀ j, j ≠ id → g.Unseen j → r.2.Unseen j

theorem reserveSpend_takesUnseen {intent : SettlementIntent} {now : Nat}
    {economy : Option EconomyState} {hash : String} (h : g.Unseen intent.intentId) :
    TakesUnseen g intent.intentId (g.reserveSpend now intent.intentId intent.bucket
      intent.amountSats (gateValidate isAddress intent economy hash)) := by
  have hSwept := h.sweep now
  have hOthers (j : String) (hj : g.Unseen j) : (g.sweepExpired now).Unseen j := hj.sweep now
  unfold BucketState.reserveSpend
  dsimp only
  rw [if_neg hSwept.1, hSwept.2]
  -- past the replay check, what refuses is the validation
  cases hValid : (g.sweepExpired now).validated intent.bucket
      (gateValidate isAddress intent economy hash) with
  | error e =>
    refine ⟨fun j hj => ?_, fun j _ hj => hOthers j hj⟩
    exact validated_ne_replay (hValid.trans hj)
  | ok u =>
    refine ⟨nofun, fun j hne hj => ⟨(hOthers j hj).1, ?_⟩⟩
    rw [BucketState.hold_reserved]
    simpa [hne] using (hOthers j hj).2

theorem authorizeSpendAndConsume_takesUnseen {intent : SettlementIntent} {now : Nat}
    {economy : Option EconomyState} {hash : String} (h : g.Unseen intent.intentId) :
    TakesUnseen g intent.intentId (g.authorizeSpendAndConsume now intent.intentId intent.bucket
      intent.amountSats (gateValidate isAddress intent economy hash)) := by
  have hSwept := h.sweep now
  have hOthers (j : String) (hj : g.Unseen j) : (g.sweepExpired now).Unseen j := hj.sweep now
  have hNew : ¬ (intent.intentId ∈ (g.sweepExpired now).consumed ∨
      ((g.sweepExpired now).reserved.lookup intent.intentId).isSome = true) := by
    rw [hSwept.2]
    exact fun hSeen => hSeen.elim hSwept.1 nofun
  unfold BucketState.authorizeSpendAndConsume
  dsimp only
  rw [if_neg hNew]
  -- past the replay check, what refuses is the validation
  cases hValid : (g.sweepExpired now).validated intent.bucket
      (gateValidate isAddress intent economy hash) with
  | error e =>
    refine ⟨fun j hj => ?_, fun j _ hj => hOthers j hj⟩
    exact validated_ne_replay (hValid.trans hj)
  | ok u =>
    refine ⟨nofun, fun j hne hj => ⟨fun hMem => ?_, (hOthers j hj).2⟩⟩
    exact (Finset.mem_insert.mp hMem).elim hne (hOthers j hj).1

/-- A submission of an id that the ledger has not seen is not refused as a replay,
leaves other ids unseen, and pays the amount of its intent where it is accepted. -/
theorem submit_unseen (h : g.Unseen sub.intent.intentId) :
    ¬ IsReplay (PayoutSubmission.submit isAddress constitution g sub).1 ∧
      (∀ j, j ≠ sub.intent.intentId → g.Unseen j →
        (PayoutSubmission.step isAddress constitution g sub).Unseen j) ∧
      ∀ receipt, (PayoutSubmission.submit isAddress constitution g sub).1 = .ok receipt →
        receipt.amountSats = sub.intent.amountSats := by
  unfold PayoutSubmission.step PayoutSubmission.submit GateIntent.run
  cases hCheck : GateIntent.check isAddress (.ok constitution) (.ok sub.economy) sub.intent with
  | error e =>
    refine ⟨?_, fun j _ hj => hj, nofun⟩
    rintro ⟨id, hId⟩
    obtain rfl := Except.error.inj hId
    exact check_ne_replay hCheck
  | ok validate =>
    obtain ⟨economy, hash, rfl⟩ := GateIntent.check_ok isAddress hCheck
    have hTakes : TakesUnseen g sub.intent.intentId (g.perform sub.now
        (GateIntent.portOp sub.phase sub.intent
          (gateValidate isAddress sub.intent economy hash))) := by
      cases sub.phase with
      | reserve => exact reserveSpend_takesUnseen h
      | consume => exact authorizeSpendAndConsume_takesUnseen h
    obtain ⟨hNot, hOthers⟩ := hTakes
    dsimp only
    -- the answer of the ledger is passed on
    revert hNot hOthers
    rcases g.perform sub.now (GateIntent.portOp sub.phase sub.intent
      (gateValidate isAddress sub.intent economy hash)) with ⟨e | u, after⟩
    · intro hNot hOthers
      refine ⟨?_, hOthers, nofun⟩
      rintro ⟨id, hId⟩
      exact hNot id (congrArg Except.error (Except.error.inj hId))
    · intro _ hOthers
      refine ⟨nofun, hOthers, fun receipt hReceipt => ?_⟩
      obtain rfl := Except.ok.inj hReceipt
      rfl

/-- Submissions of ids that the ledger has not seen, each once. -/
theorem answers_unseen {subs : List PayoutSubmission}
    (hApart : (subs.map (·.intent.intentId)).Nodup)
    (h : ∀ sub ∈ subs, g.Unseen sub.intent.intentId) :
    (∀ answer ∈ PayoutSubmission.answers isAddress constitution g subs, ¬ IsReplay answer) ∧
      ((∀ answer ∈ PayoutSubmission.answers isAddress constitution g subs,
          ∃ receipt, answer = .ok receipt) →
        ((PayoutSubmission.answers isAddress constitution g subs).map paidSats).sum =
          (subs.map (·.intent.amountSats)).sum) := by
  unfold PayoutSubmission.answers
  induction subs generalizing g with
  | nil => exact ⟨nofun, fun _ => rfl⟩
  | cons sub subs ih =>
    obtain ⟨hSub, hRest⟩ := List.forall_mem_cons.mp h
    rw [List.map_cons, List.nodup_cons] at hApart
    obtain ⟨hNot, hOthers, hPaid⟩ := @submit_unseen isAddress constitution g sub hSub
    -- the later ids are other ones, and stay unseen
    obtain ⟨ihNot, ihPaid⟩ := ih hApart.2 fun other hOther => by
      refine hOthers _ (fun hSame => hApart.1 ?_) (hRest other hOther)
      exact List.mem_map.mpr ⟨other, hOther, hSame⟩
    rw [Runs.emits]
    refine ⟨List.forall_mem_append.mpr ⟨List.forall_mem_singleton.mpr hNot, ihNot⟩, fun hOk => ?_⟩
    obtain ⟨hFirst, hOkRest⟩ := List.forall_mem_append.mp hOk
    obtain ⟨receipt, hReceipt⟩ := List.forall_mem_singleton.mp hFirst
    rw [List.map_append, List.sum_append, ihPaid hOkRest, List.map_cons, List.sum_cons]
    show paidSats (PayoutSubmission.submit isAddress constitution g sub).1 + 0 + _ = _
    rw [hReceipt, Nat.add_zero]
    exact congrArg (· + _) (hPaid receipt hReceipt)

end Gate

/--
**Debited payouts are payable.** The intents of a run can each be submitted once, in
any order, with none refused as a replay, and come to what was debited, exactly when no
two rounds of it clash and no proposal that was made fails to be written.
-/
theorem payable_iff (constitution : Constitution) (cadence : MinerPayoutCadence)
    (economy : MinerEconomy) (calls : List PayoutCall) :
    Payable constitution cadence economy calls ↔
      (PayoutCall.rounds constitution cadence economy calls).Pairwise (fun r r' => ¬ r.Clash r') ∧
        Runs.EveryStep (PayoutCall.step constitution cadence)
          (PayoutCall.WrittenIfMade constitution cadence) economy calls := by
  have hTotal := (@PayoutCall.total_iff constitution cadence economy calls).2
  constructor
  · intro h
    refine ⟨PayoutRound.nodup_flatMap_ids_iff.mp ?_, hTotal.mp h.total⟩
    rw [← PayoutCall.ids_intents]
    exact h.distinct
  · rintro ⟨hApart, hWritten⟩
    -- a submission in any order has the same ids
    have hIds : ((PayoutCall.intents constitution cadence economy calls).map
        (·.intentId)).Nodup := by
      rw [PayoutCall.ids_intents]
      exact PayoutRound.nodup_flatMap_ids_iff.mpr hApart
    have hSum := hTotal.mpr hWritten
    have hSubs {subs : List PayoutSubmission} (hPerm : (subs.map (·.intent)).Perm
        (PayoutCall.intents constitution cadence economy calls)) :
        (subs.map (·.intent.intentId)).Nodup := by
      have hMap := hPerm.map (·.intentId)
      rw [List.map_map] at hMap
      exact hMap.nodup_iff.mpr hIds
    refine ⟨hIds, hSum, fun isAddress subs g hPerm hUnseen => ?_,
      fun isAddress subs g hPerm hUnseen hAnswers => ?_⟩
    · exact (answers_unseen (hSubs hPerm) hUnseen).1
    · -- none is a replay, so each is Ok and pays its intent
      obtain ⟨hNot, hPaid⟩ := @answers_unseen isAddress constitution g subs (hSubs hPerm) hUnseen
      rw [hPaid fun answer hAnswer => (hAnswers answer hAnswer).resolve_left (hNot answer hAnswer),
        ← hSum]
      have hAmounts := (hPerm.map (·.amountSats)).sum_eq
      rwa [List.map_map] at hAmounts

/-! ### Two requests without a prefix -/

/-- A node with one miner, and a pool. -/
def minedEconomy : MinerEconomy :=
  { MinerEconomy.newOpen with
    minerPoolSats := toU64 1000
    operators := SortedMap.empty.insert "m1"
      { nodeId := ⟨"m1"⟩, made := NodeId.new_m1, payoutDestination := "tb1q-miner-payout",
        uptimeBps30d := castU32 9900, attestationStreakDays := castU32 10, bondSats := toU64 0,
        waiting := false } }

def openConstitution : Constitution := ⟨"law", ⟨4000, 3000, 3000⟩⟩

/-- `POST /economy/payout/propose/100`. -/
def proposeHundred : PayoutCall :=
  let request := (payoutRequest "/economy/payout/propose/100").getD (toU64 0, "")
  .propose ⟨request.1, request.2, toU64 1000, .ok (), .ok ()⟩

theorem payable_fails :
    ¬ Payable openConstitution .manual minedEconomy [proposeHundred, proposeHundred] := by
  intro h
  -- both requests make the same id
  have hMap (made : List SettlementIntent) :
      ((made.map fun intent => (⟨intent, .consume, 0, minedEconomy.gateState⟩ :
        PayoutSubmission)).map (·.intent)).Perm made := by
    rw [List.map_map]
    exact .of_eq (List.map_id made)
  have hAnswers := h.unrefused (fun _ => true) _
    (BucketState.fromConstitutionCaps 10000 10000) (hMap _)
    fun sub _ => ⟨Finset.notMem_empty _, rfl⟩
  refine hAnswers (.error (.intentReplay "miner-pay-0-m1")) ?_ ⟨_, rfl⟩
  decide +kernel

end KeroseneVault
