import KeroseneVault.Economy.Payouts

/-!
# What a payout proposal comes to

`ProposeMinerPayouts::execute` makes an intent of each eligible miner's share, under
the destination that the miner registered, and then debits the pool. The shares are
equal but for the remainder; of an amount below the number of miners some are zero,
which the gate refuses.

* `CompletePayout` — a proposal that pays every eligible miner something;
* `Acceptable` — an execution that returns a complete proposal, or leaves the economy;
* `Proposable` — the checks and the writes of an execution pass.

Main results:

* `returned_iff` — a proposal is returned exactly where all of them pass;
* `payouts_acceptable_iff` — executions are acceptable exactly where the amount has a
  sat for each eligible miner, or nothing is returned.
-/

namespace KeroseneVault

/-! ## Intents -/

/-- `SettlementIntent::new` takes the id, the destination and the hash, at any amount. -/
def IntentAllowed (intentId destination policyHash : String) : Prop :=
  ∃ intent, SettlementIntent.new intentId .miners destination 0 policyHash = .ok intent

theorem SettlementIntent.new_eq_ok_iff {intentId destination policyHash : String} {amountSats : Nat}
    {intent : SettlementIntent} :
    SettlementIntent.new intentId .miners destination amountSats policyHash = .ok intent ↔
      IntentAllowed intentId destination policyHash ∧
        intent = ⟨intentId, .miners, destination, amountSats, policyHash, none⟩ := by
  constructor
  · intro h
    refine ⟨?_, SettlementIntent.new_ok h⟩
    -- no check reads the amount
    unfold IntentAllowed
    unfold SettlementIntent.new at h ⊢
    split_ifs at h ⊢
    exact ⟨_, rfl⟩
  · rintro ⟨⟨zero, hZero⟩, rfl⟩
    unfold SettlementIntent.new at hZero ⊢
    split_ifs at hZero ⊢
    rfl

/-- The destination of an operator that is eligible. -/
def EconomyState.Issues (economy : EconomyState) (destination : String) : Prop :=
  ∃ op ∈ economy.operators, op.isEligible economy.policy = true ∧
    op.payoutDestination = destination

theorem assertBankIssuedMinerPayout_eq_ok_iff {economy : EconomyState} {intent : SettlementIntent}
    (h : intent.bucket = .miners) :
    assertBankIssuedMinerPayout economy intent = .ok () ↔ economy.Issues intent.destination := by
  unfold assertBankIssuedMinerPayout EconomyState.Issues
  rw [if_neg (not_not.mpr h)]
  simp only [List.any_eq_true, Bool.and_eq_true, beq_iff_eq]
  split_ifs with hAny
  · exact iff_of_true rfl hAny
  · exact iff_of_false nofun hAny

namespace ProposeMinerPayouts

/-- The intent of a share at a place. -/
def intentOf (policyHash intentPrefix : String) (i : Nat) (share : MinerPayoutShare) :
    SettlementIntent :=
  ⟨intentId intentPrefix i share.nodeId, .miners, share.destination, share.amountSats, policyHash,
    none⟩

/-- The intents are made exactly where each is allowed and goes to an eligible operator. -/
theorem intents_eq_ok_iff {economy : EconomyState} {policyHash intentPrefix : String} {i : Nat}
    {shares : List MinerPayoutShare} {made : List SettlementIntent} :
    intents economy policyHash intentPrefix i shares = .ok made ↔
      (∀ k share, shares[k]? = some share →
        IntentAllowed (intentId intentPrefix (i + k) share.nodeId) share.destination policyHash ∧
          economy.Issues share.destination) ∧
      made = shares.mapIdx fun k share => intentOf policyHash intentPrefix (i + k) share := by
  induction shares generalizing i made with
  | nil =>
    unfold intents
    simp [eq_comm]
  | cons share rest ih =>
    unfold intents MinerPayoutShare.toIntent
    constructor
    · -- the share's own checks pass, and the rest is made
      intro h
      split at h
      · cases h
      rename_i intent hNew
      split at h
      · cases h
      rename_i hIssued
      split at h
      · cases h
      rename_i more hMore
      obtain rfl := Except.ok.inj h
      obtain ⟨hAllowed, rfl⟩ := SettlementIntent.new_eq_ok_iff.mp hNew
      have hIssues := (assertBankIssuedMinerPayout_eq_ok_iff rfl).mp hIssued
      obtain ⟨hRest, rfl⟩ := ih.mp hMore
      refine ⟨fun k other hOther => ?_, ?_⟩
      · -- the places of the rest are one further on
        cases k with
        | zero =>
          obtain rfl := Option.some.inj hOther
          exact ⟨hAllowed, hIssues⟩
        | succ k =>
          rw [← Nat.add_assoc, Nat.add_right_comm]
          exact hRest k other hOther
      · rw [List.mapIdx_cons]
        simp only [Nat.add_assoc, Nat.add_comm 1]
        rfl
    · rintro ⟨hEach, rfl⟩
      obtain ⟨hAllowed, hIssues⟩ := hEach 0 share rfl
      rw [Nat.add_zero] at hAllowed
      rw [SettlementIntent.new_eq_ok_iff.mpr ⟨hAllowed, rfl⟩]
      dsimp only
      rw [(assertBankIssuedMinerPayout_eq_ok_iff rfl).mpr hIssues]
      dsimp only
      rw [ih.mpr ⟨fun k other hOther => ?_, rfl⟩]
      · rw [List.mapIdx_cons]
        simp only [Nat.add_assoc, Nat.add_comm 1]
        rfl
      · rw [Nat.add_assoc, Nat.add_comm 1]
        exact hEach (k + 1) other hOther

end ProposeMinerPayouts

/-- The shares of an amount that the pool has, among the eligible miners. -/
theorem MinerEconomy.proposeEqualPayouts_eq_ok_iff {economy : MinerEconomy} {amount : U64}
    {shares : List MinerPayoutShare} :
    economy.proposeEqualPayouts amount = .ok shares ↔
      (economy.eligibleActive ≠ [] ∧ 0 < amount.1 ∧ amount.1 ≤ economy.minerPoolSats.1) ∧
        payoutShares (amount.1 / economy.eligibleActive.length)
          (amount.1 % economy.eligibleActive.length) economy.eligibleActive = shares := by
  have hMod : amount.1 - amount.1 / economy.eligibleActive.length * economy.eligibleActive.length =
      amount.1 % economy.eligibleActive.length := by
    rw [Nat.mul_comm, Nat.mod_eq_sub_mul_div]
  unfold proposeEqualPayouts
  dsimp only
  split_ifs with hNone hAmount
  · exact iff_of_false nofun fun h => h.1.1 hNone
  · exact iff_of_false nofun fun h => by omega
  · rw [hMod, Except.ok.injEq, and_iff_right ⟨hNone, by omega, by omega⟩]

/-- An operator that is eligible is issued to. -/
theorem MinerEconomy.issues_of_eligible {economy : MinerEconomy} {op : RegisteredOperator}
    (h : op ∈ economy.eligibleActive) : economy.gateState.Issues op.payoutDestination := by
  obtain ⟨hMem, hEligible⟩ := List.mem_filter.mp h
  obtain ⟨e, he, rfl⟩ := List.mem_map.mp hMem
  exact ⟨e.2.gateOperator, List.mem_map_of_mem he, hEligible, rfl⟩

/-! ## Executions -/

/-- The proposal pays every eligible miner, at the destination that it registered, in
intents of equal amounts but for one sat, none of which the gate refuses as zero. -/
structure CompletePayout (constitution : Constitution) (economy after : MinerEconomy)
    (call : ProposeMinerPayouts) (p : PayoutProposal) : Prop where
  recipients : p.intents.map (fun intent => (intent.intentId, intent.destination)) =
    economy.eligibleActive.mapIdx fun k op =>
      (ProposeMinerPayouts.intentId call.intentPrefix k op.nodeId, op.payoutDestination)
  miners : ∀ intent ∈ p.intents, intent.bucket = .miners ∧ intent.policyHash = constitution.hash
  total : (p.intents.map (·.amountSats)).sum = call.amount.1
  debited : after.minerPoolSats.1 + call.amount.1 = economy.minerPoolSats.1
  even : ∀ a ∈ p.intents, ∀ b ∈ p.intents, a.amountSats ≤ b.amountSats + 1
  positive : ∀ intent ∈ p.intents, 1 ≤ intent.amountSats
  notZero : ∀ (isAddress : String → Bool), ∀ intent ∈ p.intents, ∀ policy spentTodaySats hash,
    evaluateIntent isAddress intent policy spentTodaySats hash ≠
      .error (.invalidIntent "amount must be > 0")

namespace ProposeMinerPayouts

variable (constitution : Constitution) (cadence : MinerPayoutCadence) (economy : MinerEconomy)
  (call : ProposeMinerPayouts)

/-- What is returned is complete, and an error with the writes succeeding leaves the economy. -/
structure Acceptable : Prop where
  complete : ∀ p, (execute constitution cadence economy call).1 = .ok p →
    CompletePayout constitution economy (execute constitution cadence economy call).2 call p
  unchanged : ∀ e, (execute constitution cadence economy call).1 = .error e → call.Written →
    (execute constitution cadence economy call).2 = economy

/-- The cadence allows a payout, there are eligible miners and the pool has the amount,
each intent is allowed, and the file is written. -/
structure Proposable : Prop where
  cadence : economy.assertPayoutCadenceOk cadence call.now none = .ok ()
  miners : economy.eligibleActive ≠ []
  amount : 0 < call.amount.1 ∧ call.amount.1 ≤ economy.minerPoolSats.1
  allowed : ∀ k op, economy.eligibleActive[k]? = some op →
    IntentAllowed (intentId call.intentPrefix k op.nodeId) op.payoutDestination constitution.hash
  written : call.Written

variable {constitution cadence economy call} {p : PayoutProposal}

/-- The eligible miners with their shares. -/
def sharesOf (economy : MinerEconomy) (call : ProposeMinerPayouts) : List MinerPayoutShare :=
  payoutShares (call.amount.1 / economy.eligibleActive.length)
    (call.amount.1 % economy.eligibleActive.length) economy.eligibleActive

theorem getElem?_sharesOf (economy : MinerEconomy) (call : ProposeMinerPayouts) (k : Nat) :
    (sharesOf economy call)[k]?.map (fun share => (share.nodeId, share.destination)) =
      economy.eligibleActive[k]?.map fun op => (op.nodeId, op.payoutDestination) := by
  rw [← List.getElem?_map, ← List.getElem?_map]
  exact congrArg (·[k]?) (map_payoutShares Prod.mk _ _ _)

theorem amounts_sharesOf (economy : MinerEconomy) (call : ProposeMinerPayouts) :
    (sharesOf economy call).map (·.amountSats) =
      Shares.shares (call.amount.1 / economy.eligibleActive.length)
        (call.amount.1 % economy.eligibleActive.length) economy.eligibleActive.length :=
  amounts_payoutShares _ _ _

/-- The intents of the shares are allowed exactly where those of the miners are, and are
issued to them. -/
theorem allowed_sharesOf {hash : String} (economy : MinerEconomy) (call : ProposeMinerPayouts) :
    (∀ k share, (sharesOf economy call)[k]? = some share →
      IntentAllowed (intentId call.intentPrefix (0 + k) share.nodeId) share.destination hash ∧
        economy.gateState.Issues share.destination) ↔
    ∀ k op, economy.eligibleActive[k]? = some op →
      IntentAllowed (intentId call.intentPrefix k op.nodeId) op.payoutDestination hash := by
  simp only [Nat.zero_add]
  constructor
  · intro h k op hOp
    have hShare := getElem?_sharesOf economy call k
    rw [hOp, Option.map_some, Option.map_eq_some_iff] at hShare
    obtain ⟨share, hShare, hEq⟩ := hShare
    obtain ⟨hNode, hDestination⟩ := Prod.mk.inj hEq
    rw [← hNode, ← hDestination]
    exact (h k share hShare).1
  · intro h k share hShare
    have hOp := (getElem?_sharesOf economy call k).symm
    rw [hShare, Option.map_some, Option.map_eq_some_iff] at hOp
    obtain ⟨op, hOp, hEq⟩ := hOp
    obtain ⟨hNode, hDestination⟩ := Prod.mk.inj hEq
    rw [← hNode, ← hDestination]
    -- the gate issues to every destination of an eligible miner
    exact ⟨h k op hOp, MinerEconomy.issues_of_eligible (List.mem_of_getElem? hOp)⟩

/-- A proposal is made exactly where its checks pass, of the shares of the miners. -/
theorem proposal_eq_ok_iff : proposal constitution cadence economy call = .ok p ↔
    (economy.assertPayoutCadenceOk cadence call.now none = .ok () ∧ economy.eligibleActive ≠ [] ∧
      (0 < call.amount.1 ∧ call.amount.1 ≤ economy.minerPoolSats.1) ∧
      ∀ k op, economy.eligibleActive[k]? = some op →
        IntentAllowed (intentId call.intentPrefix k op.nodeId) op.payoutDestination
          constitution.hash) ∧
    p = ⟨call.amount.1, sharesOf economy call,
      (sharesOf economy call).mapIdx (intentOf constitution.hash call.intentPrefix)⟩ := by
  unfold proposal
  -- each check passes, and from there the intents are determined
  constructor
  · intro h
    split at h
    · cases h
    rename_i hCadence
    split at h
    · cases h
    rename_i shares hShares
    split at h
    · cases h
    rename_i made hMade
    obtain rfl := Except.ok.inj h
    obtain ⟨⟨hMiners, hAmount⟩, rfl⟩ := MinerEconomy.proposeEqualPayouts_eq_ok_iff.mp hShares
    obtain ⟨hAllowed, rfl⟩ := intents_eq_ok_iff.mp hMade
    refine ⟨⟨hCadence, hMiners, hAmount, (allowed_sharesOf economy call).mp hAllowed⟩, ?_⟩
    simp only [Nat.zero_add]
    rfl
  · rintro ⟨⟨hCadence, hMiners, hAmount, hAllowed⟩, rfl⟩
    have hShares : economy.proposeEqualPayouts call.amount = .ok (sharesOf economy call) :=
      MinerEconomy.proposeEqualPayouts_eq_ok_iff.mpr ⟨⟨hMiners, hAmount⟩, rfl⟩
    have hMade := intents_eq_ok_iff.mpr ⟨(allowed_sharesOf economy call).mpr hAllowed, rfl⟩
    rw [hCadence]
    dsimp only
    rw [hShares]
    dsimp only
    rw [hMade]
    simp only [Nat.zero_add]

/-- A proposal is returned exactly where the checks of the execution pass and its
writes succeed. -/
theorem returned_iff : (execute constitution cadence economy call).1 = .ok p ↔
    Proposable constitution cadence economy call ∧
      p = ⟨call.amount.1, sharesOf economy call,
        (sharesOf economy call).mapIdx (intentOf constitution.hash call.intentPrefix)⟩ := by
  constructor
  · intro h
    cases hMade : proposal constitution cadence economy call with
    | error e =>
      rw [execute_refused hMade] at h
      cases h
    | ok made =>
      obtain ⟨-, hReturned, hLost⟩ := execute_made hMade
      -- what was made is lost if a write fails
      by_cases hWritten : call.Written
      · obtain rfl := Except.ok.inj ((hReturned hWritten).symm.trans h)
        obtain ⟨⟨hCadence, hMiners, hAmount, hAllowed⟩, hEq⟩ := proposal_eq_ok_iff.mp hMade
        exact ⟨⟨hCadence, hMiners, hAmount, hAllowed, hWritten⟩, hEq⟩
      · obtain ⟨e, hError⟩ := hLost hWritten
        rw [hError] at h
        cases h
  · rintro ⟨⟨hCadence, hMiners, hAmount, hAllowed, hWritten⟩, hEq⟩
    exact (execute_made (proposal_eq_ok_iff.mpr
      ⟨⟨hCadence, hMiners, hAmount, hAllowed⟩, hEq⟩)).2.1 hWritten

/-- An error whose writes succeed is of a check before the debit. -/
theorem unchanged_of_error {e : DomainError}
    (h : (execute constitution cadence economy call).1 = .error e) (hWritten : call.Written) :
    (execute constitution cadence economy call).2 = economy := by
  cases hMade : proposal constitution cadence economy call with
  | error e => rw [execute_refused hMade]
  | ok made =>
    rw [(execute_made hMade).2.1 hWritten] at h
    cases h

/-! ## Amounts -/

theorem amounts_intents (hash intentPrefix : String) (shares : List MinerPayoutShare) :
    (shares.mapIdx (intentOf hash intentPrefix)).map (·.amountSats) =
      shares.map (·.amountSats) := by
  apply List.ext_getElem?
  intro k
  rw [List.getElem?_map, List.getElem?_mapIdx, List.getElem?_map, Option.map_map]
  rfl

/-- The intents go to the eligible miners, one each. -/
theorem recipients_intents (hash : String) (economy : MinerEconomy) (call : ProposeMinerPayouts) :
    ((sharesOf economy call).mapIdx (intentOf hash call.intentPrefix)).map
        (fun intent => (intent.intentId, intent.destination)) =
      economy.eligibleActive.mapIdx fun k op =>
        (intentId call.intentPrefix k op.nodeId, op.payoutDestination) := by
  apply List.ext_getElem?
  intro k
  -- a place has the share of the miner there
  have hShare := congrArg (Option.map fun e : NodeId × String =>
    (intentId call.intentPrefix k e.1, e.2)) (getElem?_sharesOf economy call k)
  rw [Option.map_map, Option.map_map] at hShare
  rw [List.getElem?_map, List.getElem?_mapIdx, List.getElem?_mapIdx, Option.map_map]
  exact hShare

/-- An amount is not refused as zero where it is not. -/
theorem evaluateIntent_ne_zero {isAddress : String → Bool} {intent : SettlementIntent}
    {policy : BucketPolicy} {spentTodaySats : Nat} {hash : String} (h : 1 ≤ intent.amountSats) :
    evaluateIntent isAddress intent policy spentTodaySats hash ≠
      .error (.invalidIntent "amount must be > 0") := by
  unfold evaluateIntent
  split_ifs <;> first | omega | simp

/--
**Payout proposals.** Executions return complete proposals or leave the economy
exactly where every eligible miner can have a sat of the amount, or nothing is returned.
-/
theorem payouts_acceptable_iff (constitution : Constitution) (cadence : MinerPayoutCadence)
    (economy : MinerEconomy) (call : ProposeMinerPayouts) :
    Acceptable constitution cadence economy call ↔
      (Proposable constitution cadence economy call →
        economy.eligibleActive.length ≤ call.amount.1) := by
  have hAmounts : ((sharesOf economy call).mapIdx
      (intentOf constitution.hash call.intentPrefix)).map (·.amountSats) =
        Shares.shares (call.amount.1 / economy.eligibleActive.length)
          (call.amount.1 % economy.eligibleActive.length) economy.eligibleActive.length := by
    rw [amounts_intents, amounts_sharesOf]
  constructor
  · intro h hProposable
    -- every amount of what is returned is a share, so that none of them is zero
    have hReturned := (returned_iff (p := ⟨_, _, _⟩)).mpr ⟨hProposable, rfl⟩
    have hPositive := (h.complete _ hReturned).positive
    refine (Shares.one_le_shares_iff (List.length_pos_iff.mpr hProposable.miners)).mp ?_
    rw [← hAmounts, List.forall_mem_map]
    exact hPositive
  · intro hEnough
    refine ⟨fun p hReturned => ?_, fun e hError hWritten => unchanged_of_error hError hWritten⟩
    obtain ⟨hProposable, rfl⟩ := returned_iff.mp hReturned
    have hMiners := List.length_pos_iff.mpr hProposable.miners
    -- the amount of an intent is one of the shares
    have hMem {intent : SettlementIntent} (hIntent : intent ∈ (sharesOf economy call).mapIdx
        (intentOf constitution.hash call.intentPrefix)) :
        intent.amountSats ∈ Shares.shares (call.amount.1 / economy.eligibleActive.length)
          (call.amount.1 % economy.eligibleActive.length) economy.eligibleActive.length :=
      hAmounts ▸ List.mem_map_of_mem hIntent
    have hPositive : ∀ intent ∈ (sharesOf economy call).mapIdx
        (intentOf constitution.hash call.intentPrefix), 1 ≤ intent.amountSats :=
      fun intent hIntent =>
        (Shares.one_le_shares_iff hMiners).mpr (hEnough hProposable) _ (hMem hIntent)
    refine ⟨recipients_intents _ _ _, fun intent hIntent => ?_, ?_, ?_, fun a ha b hb => ?_,
      hPositive, fun isAddress intent hIntent policy spentTodaySats hash =>
        evaluateIntent_ne_zero (hPositive intent hIntent)⟩
    · obtain ⟨k, hk, rfl⟩ := List.mem_mapIdx.mp hIntent
      exact ⟨rfl, rfl⟩
    · rw [hAmounts, Shares.sum_shares_div hMiners]
    · have hMade := proposal_eq_ok_iff.mpr ⟨⟨hProposable.cadence, hProposable.miners,
        hProposable.amount, hProposable.allowed⟩, rfl⟩
      exact (execute_made hMade).1
    · exact Shares.shares_even (hMem ha) (hMem hb)

/-- Two miners, and a pool of one sat. -/
def twoMiners : MinerEconomy :=
  { minedEconomy with
    minerPoolSats := toU64 1
    operators := minedEconomy.operators.insert "m2"
      { nodeId := ⟨"m2"⟩, made := rfl, payoutDestination := "tb1q-other-payout",
        uptimeBps30d := castU32 9900, attestationStreakDays := castU32 10, bondSats := toU64 0,
        waiting := false } }

/-- One sat for two miners: the second one's intent is of zero. -/
theorem payouts_acceptable_fails :
    ¬ ∀ constitution cadence economy call, Acceptable constitution cadence economy call := by
  intro h
  let call : ProposeMinerPayouts := ⟨toU64 1, "pay", toU64 1000, .ok (), .ok ()⟩
  have hAmounts : ((execute openConstitution .manual twoMiners call).1.map fun p =>
      p.intents.map (·.amountSats)) = .ok [1, 0] := by decide +kernel
  cases hReturned : (execute openConstitution .manual twoMiners call).1 with
  | error e =>
    rw [hReturned] at hAmounts
    cases hAmounts
  | ok p =>
    rw [hReturned] at hAmounts
    have hSats : p.intents.map (·.amountSats) = [1, 0] := Except.ok.inj hAmounts
    have hZero : 0 ∈ p.intents.map (·.amountSats) :=
      hSats ▸ List.mem_cons_of_mem 1 List.mem_cons_self
    obtain ⟨intent, hIntent, hEq⟩ := List.mem_map.mp hZero
    have hPositive := ((h openConstitution .manual twoMiners call).complete p hReturned).positive
      intent hIntent
    omega

end ProposeMinerPayouts

end KeroseneVault
