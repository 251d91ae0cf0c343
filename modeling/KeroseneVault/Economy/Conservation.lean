import KeroseneVault.Economy.State
import KeroseneVault.Lib.Shares

/-!
# What the economy keeps of its sats

A profit is split into three legs, a bounty goes to the miner pool and is credited to
those who worked for it, and a debit takes from the miner pool. The products behind
the legs saturate at `u64::MAX` before they are divided.

* `ProfitSplits.Exact` — the legs of a profit, over unbounded integers;
* `EconomyCall.profit`, `bounty`, `debit` — what a call moves;
* `EconomyCall.Fits` — no sum of a call saturates or wraps;
* `EvenlyCredited` — a bounty, divided among those who are eligible.

Main results:

* `allocate_exact_iff` — a profit is split exactly where neither product saturates past the
  next multiple of ten thousand;
* `Balanced.step` — a call that fits keeps the balance;
* `conserved` — what was accrued and paid in bounties is in the pools or was debited,
  after any calls that fit.
-/

namespace KeroseneVault

/-! ## The legs of a profit -/

/-- The first product whose ten-thousandth is more than that of `u64::MAX`. -/
def firstInexact : Nat := (u64Max / 10000 + 1) * 10000

namespace ProfitSplits

/-- The legs come to the profit, and two of them are their shares of it, rounded down. -/
structure Exact (splits : ProfitSplits) (profitSats : U64) : Prop where
  total : (splits.allocate profitSats.1).1 + (splits.allocate profitSats.1).2.1 +
    (splits.allocate profitSats.1).2.2 = profitSats.1
  miners : (splits.allocate profitSats.1).1 = profitSats.1 * splits.minersBps / 10000
  channels : (splits.allocate profitSats.1).2.1 = profitSats.1 * splits.channelsBps / 10000

/-- Splits that are accepted are the whole. -/
theorem sum_of_validate {splits : ProfitSplits} (h : splits.validate = .ok ()) :
    splits.minersBps + splits.channelsBps + splits.infraBps = 10000 := by
  unfold validate satAdd32 at h
  dsimp only at h
  split at h
  · cases h
  · omega

/-- The legs come to the profit, whether or not a product saturates. -/
theorem total_allocate {splits : ProfitSplits} (h : splits.validate = .ok ()) (profitSats : Nat) :
    (splits.allocate profitSats).1 + (splits.allocate profitSats).2.1 +
      (splits.allocate profitSats).2.2 = profitSats := by
  have hSum := sum_of_validate h
  -- the two products together are no more than ten thousand profits
  have hProducts : profitSats * splits.minersBps + profitSats * splits.channelsBps ≤
      profitSats * 10000 := by
    rw [← Nat.mul_add]
    exact Nat.mul_le_mul_left _ (by omega)
  unfold allocate
  dsimp only
  omega

/-- A product that saturates is divided as if it had not, up to the next multiple. -/
theorem floor_saturated_iff (product : Nat) :
    min product u64Max / 10000 = product / 10000 ↔ product < firstInexact := by
  unfold firstInexact u64Max
  omega

/--
**Profit splits.** A profit is split exactly where neither product reaches the first
one whose ten-thousandth is out of range.
-/
theorem allocate_exact_iff (splits : ProfitSplits) (profitSats : U64)
    (h : splits.validate = .ok ()) :
    splits.Exact profitSats ↔
      profitSats.1 * splits.minersBps < firstInexact ∧
        profitSats.1 * splits.channelsBps < firstInexact := by
  rw [← floor_saturated_iff, ← floor_saturated_iff]
  exact ⟨fun hExact => ⟨hExact.miners, hExact.channels⟩,
    fun ⟨hMiners, hChannels⟩ => ⟨total_allocate h profitSats.1, hMiners, hChannels⟩⟩

/-- A million, by four, three and three tenths. -/
theorem allocate_exact_million :
    (ProfitSplits.mk 4000 3000 3000).Exact (toU64 1000000) ↔
      (toU64 1000000).1 * 4000 < firstInexact ∧ (toU64 1000000).1 * 3000 < firstInexact :=
  allocate_exact_iff ⟨4000, 3000, 3000⟩ (toU64 1000000) (by decide)

/-- All of `u64::MAX` to the miners: they get a ten-thousandth, and the
infrastructure the rest. -/
theorem allocate_exact_fails :
    ¬ ∀ (splits : ProfitSplits) (profitSats : U64), splits.validate = .ok () →
      splits.Exact profitSats := by
  intro h
  have hMiners := (h ⟨10000, 0, 0⟩ (toU64 u64Max) (by decide)).miners
  exact absurd hMiners (by decide)

end ProfitSplits

/-! ## What a call moves -/

/-- The three pools together. -/
def MinerEconomy.poolSats (economy : MinerEconomy) : Nat :=
  economy.minerPoolSats.1 + economy.channelsPoolSats.1 + economy.infraPoolSats.1

namespace EconomyCall

variable (economy : MinerEconomy)

/-- The profit of a call that is accepted. -/
def profit : EconomyCall → Nat
  | .accrueProfitSplits profitSats splits => if splits.validate = .ok () then profitSats.1 else 0
  | .accrueFromProfit profitSats pRewardBps => if pRewardBps.1 ≤ 10000 then profitSats.1 else 0
  | _ => 0

/-- The bounty that a call puts in the miner pool, by the rates of its configuration on
the pool as it is before the call. -/
def bounty : EconomyCall → Nat
  | .accrueGovernanceJob _ _ config => config.bountySats economy.minerPoolSats.1
  | _ => 0

/-- What a call takes from the miner pool. -/
def debit : EconomyCall → Nat
  | .debitPool amount => if amount.1 ≤ economy.minerPoolSats.1 then amount.1 else 0
  | _ => 0

/-- What the calls of a run move together. -/
def total (moved : MinerEconomy → EconomyCall → Nat) (economy : MinerEconomy)
    (calls : List EconomyCall) : Nat :=
  (Runs.emits step (fun economy call => some (moved economy call)) economy calls).sum

theorem total_cons (moved : MinerEconomy → EconomyCall → Nat) (call : EconomyCall)
    (calls : List EconomyCall) :
    total moved economy (call :: calls) =
      moved economy call + total moved (call.step economy) calls := by
  unfold total
  rw [Runs.emits, List.sum_append, Option.toList_some, List.sum_singleton]

end EconomyCall

/-- The pools and the profit so far have room for the legs of a profit. -/
structure MinerEconomy.HasRoom (economy : MinerEconomy) (splits : ProfitSplits)
    (profitSats : U64) : Prop where
  miners : economy.minerPoolSats.1 + (splits.allocate profitSats.1).1 ≤ u64Max
  channels : economy.channelsPoolSats.1 + (splits.allocate profitSats.1).2.1 ≤ u64Max
  infra : economy.infraPoolSats.1 + (splits.allocate profitSats.1).2.2 ≤ u64Max
  profit : economy.accruedProfitSats.1 + profitSats.1 ≤ u64Max

/-- The pool, what is pending and the credits have room for a bounty. -/
structure MinerEconomy.HasBounty (economy : MinerEconomy) (accrual : GovernanceAccrual) :
    Prop where
  pool : economy.minerPoolSats.1 + accrual.accruedToPoolSats ≤ u64Max
  pending : economy.pendingGovernanceRewardSats.1 + accrual.accruedToPoolSats ≤ u64Max
  credits : ∀ share ∈ accrual.credited,
    ((economy.governanceCredits.lookup share.1.text).getD (toU64 0)).1 + share.2 ≤ u64Max

instance decidableHasRoom (economy : MinerEconomy) (splits : ProfitSplits) (profitSats : U64) :
    Decidable (economy.HasRoom splits profitSats) :=
  decidable_of_iff (_ ∧ _ ∧ _ ∧ _)
    ⟨fun ⟨a, b, c, d⟩ => ⟨a, b, c, d⟩, fun ⟨a, b, c, d⟩ => ⟨a, b, c, d⟩⟩

instance decidableHasBounty (economy : MinerEconomy) (accrual : GovernanceAccrual) :
    Decidable (economy.HasBounty accrual) :=
  decidable_of_iff (_ ∧ _ ∧ _) ⟨fun ⟨a, b, c⟩ => ⟨a, b, c⟩, fun ⟨a, b, c⟩ => ⟨a, b, c⟩⟩

/-- No sum of the call saturates or wraps. -/
def EconomyCall.Fits (economy : MinerEconomy) : EconomyCall → Prop
  | .accrueProfitSplits profitSats splits =>
    splits.validate = .ok () → economy.HasRoom splits profitSats
  | .accrueFromProfit profitSats pRewardBps =>
    match ProfitSplits.openWithReward pRewardBps.1 with
    | .ok splits => economy.HasRoom splits profitSats
    | .error _ => True
  | .accrueGovernanceJob job participants config =>
    economy.HasBounty (economy.accrueGovernanceJob job participants config).1
  | _ => True

instance decidableFits (economy : MinerEconomy) (call : EconomyCall) :
    Decidable (call.Fits economy) := by
  unfold EconomyCall.Fits
  repeat' split
  all_goals infer_instance

/-! ## One call -/

namespace MinerEconomy

variable {economy : MinerEconomy}

/-- What the calls keep: what is pending is in the miner pool. -/
def PendingInPool (economy : MinerEconomy) : Prop :=
  economy.pendingGovernanceRewardSats.1 ≤ economy.minerPoolSats.1

theorem toU64_val {n : Nat} (h : n ≤ u64Max) : (toU64 n).1 = n := Nat.min_eq_left h

/-- The economy before and after a call, and what the call moved. -/
structure Balanced (before after : MinerEconomy) (profit bounty debit : Nat) : Prop where
  pools : after.poolSats + debit = before.poolSats + profit + bounty
  accrued : after.accruedProfitSats.1 = before.accruedProfitSats.1 + profit
  pending : before.PendingInPool → after.PendingInPool

theorem Balanced.refl : Balanced economy economy 0 0 0 := ⟨rfl, rfl, id⟩

/-- What a profit is entered as. -/
def splitAccrual (splits : ProfitSplits) (profitSats : U64) : ProfitSplitAccrual :=
  { profitSats := profitSats.1
    minersSats := (splits.allocate profitSats.1).1
    channelsSats := (splits.allocate profitSats.1).2.1
    infraSats := (splits.allocate profitSats.1).2.2 }

theorem accrueProfitSplits_ok {splits : ProfitSplits} (profitSats : U64)
    (h : splits.validate = .ok ()) :
    economy.accrueProfitSplits profitSats splits =
      (.ok (splitAccrual splits profitSats),
        economy.withProfit (splitAccrual splits profitSats)) := by
  unfold accrueProfitSplits
  rw [h]
  rfl

/-- A rate of at most the whole makes splits that are accepted. -/
theorem openWithReward_ok {pRewardBps : Nat} (h : pRewardBps ≤ 10000) :
    ∃ splits, ProfitSplits.openWithReward pRewardBps = .ok splits ∧ splits.validate = .ok () := by
  let splits : ProfitSplits :=
    ⟨pRewardBps, (10000 - pRewardBps) / 2, 10000 - pRewardBps - (10000 - pRewardBps) / 2⟩
  have hValid : splits.validate = .ok () := by
    unfold ProfitSplits.validate satAdd32
    dsimp only [splits]
    -- the two halves of what the miners leave add up to it
    rw [if_neg (by omega)]
  refine ⟨splits, ?_, hValid⟩
  unfold ProfitSplits.openWithReward
  rw [if_neg (not_lt.mpr h)]
  dsimp only
  rw [hValid]

/-- A profit at a rate is entered under the splits of the rate, or not at all. -/
theorem accrueFromProfit_cases (profitSats : U64) (pRewardBps : U32) :
    (pRewardBps.1 ≤ 10000 ∧ ∃ splits, ProfitSplits.openWithReward pRewardBps.1 = .ok splits ∧
      splits.validate = .ok () ∧ (economy.accrueFromProfit profitSats pRewardBps).2 =
        economy.withProfit (splitAccrual splits profitSats)) ∨
      10000 < pRewardBps.1 ∧ (economy.accrueFromProfit profitSats pRewardBps).2 = economy := by
  unfold accrueFromProfit
  by_cases hRate : pRewardBps.1 ≤ 10000
  · obtain ⟨splits, hSplits, hValid⟩ := openWithReward_ok hRate
    refine .inl ⟨hRate, splits, hSplits, hValid, ?_⟩
    rw [hSplits]
    dsimp only
    rw [accrueProfitSplits_ok profitSats hValid]
  · have hRefused : ProfitSplits.openWithReward pRewardBps.1 =
        .error (.invalidConstitution "p_reward_bps > 10000") := by
      unfold ProfitSplits.openWithReward
      rw [if_pos (not_le.mp hRate)]
    refine .inr ⟨not_le.mp hRate, ?_⟩
    rw [hRefused]

theorem balanced_withProfit {splits : ProfitSplits} {profitSats : U64}
    (hSplits : splits.validate = .ok ()) (h : economy.HasRoom splits profitSats) :
    Balanced economy (economy.withProfit (splitAccrual splits profitSats)) profitSats.1 0 0 := by
  -- nothing saturates, and the legs are the profit
  have hTotal := ProfitSplits.total_allocate hSplits profitSats.1
  have hMiners := toU64_val h.miners
  have hChannels := toU64_val h.channels
  have hInfra := toU64_val h.infra
  unfold withProfit splitAccrual
  refine ⟨?_, toU64_val h.profit, fun hPending => ?_⟩
  · unfold poolSats
    dsimp only
    omega
  · unfold PendingInPool at hPending ⊢
    dsimp only
    omega

/-- The accrual reports the bounty of its configuration, and puts all of it in the pool. -/
theorem accrueGovernanceJob_reports (job : GovernanceJobKind) (participants : List NodeId)
    (config : GovernanceRewardConfig) :
    let accrual := (economy.accrueGovernanceJob job participants config).1
    accrual.bountySats = config.bountySats economy.minerPoolSats.1 ∧
      accrual.accruedToPoolSats = config.bountySats economy.minerPoolSats.1 := by
  unfold accrueGovernanceJob
  dsimp only
  split
  · rename_i hZero
    exact ⟨hZero.symm, hZero.symm⟩
  · exact ⟨rfl, rfl⟩

/-- A bounty is taken in whole by the pool, and by what is pending. -/
theorem accrueGovernanceJob_pools (job : GovernanceJobKind) (participants : List NodeId)
    (config : GovernanceRewardConfig) :
    let r := economy.accrueGovernanceJob job participants config
    r.2.minerPoolSats = toU64 (economy.minerPoolSats.1 + r.1.accruedToPoolSats) ∧
      r.2.pendingGovernanceRewardSats =
        toU64 (economy.pendingGovernanceRewardSats.1 + r.1.accruedToPoolSats) ∧
      r.2.channelsPoolSats = economy.channelsPoolSats ∧
      r.2.infraPoolSats = economy.infraPoolSats ∧
      r.2.accruedProfitSats = economy.accruedProfitSats := by
  have hSame (n : U64) : n = toU64 (n.1 + 0) := Subtype.ext (toU64_val n.2).symm
  -- crediting a node leaves the pools
  have hFold (shares : List (NodeId × Nat)) :
      (shares.foldl credit economy).channelsPoolSats = economy.channelsPoolSats ∧
        (shares.foldl credit economy).infraPoolSats = economy.infraPoolSats ∧
        (shares.foldl credit economy).accruedProfitSats = economy.accruedProfitSats := by
    induction shares generalizing economy with
    | nil => exact ⟨rfl, rfl, rfl⟩
    | cons share rest ih => exact ih
  unfold accrueGovernanceJob
  dsimp only
  split
  · exact ⟨hSame _, hSame _, rfl, rfl, rfl⟩
  · exact ⟨rfl, rfl, hFold _⟩

theorem balanced_accrueGovernanceJob {job : GovernanceJobKind} {participants : List NodeId}
    {config : GovernanceRewardConfig}
    (h : economy.HasBounty (economy.accrueGovernanceJob job participants config).1) :
    Balanced economy (economy.accrueGovernanceJob job participants config).2 0
      (config.bountySats economy.minerPoolSats.1) 0 := by
  rw [← (economy.accrueGovernanceJob_reports job participants config).2]
  obtain ⟨hPool, hPending, hChannels, hInfra, hProfit⟩ :=
    economy.accrueGovernanceJob_pools job participants config
  have hPoolVal := toU64_val h.pool
  have hPendingVal := toU64_val h.pending
  refine ⟨?_, congrArg Subtype.val hProfit, fun hBefore => ?_⟩
  · unfold poolSats
    rw [hPool, hChannels, hInfra]
    omega
  · unfold PendingInPool at hBefore ⊢
    rw [hPool, hPending]
    omega

theorem balanced_debitPool (amount : U64) :
    Balanced economy (economy.debitPool amount).2 0 0
      (if amount.1 ≤ economy.minerPoolSats.1 then amount.1 else 0) := by
  unfold debitPool
  by_cases hLow : amount.1 > economy.minerPoolSats.1
  · rw [if_pos hLow, if_neg (not_le.mpr hLow)]
    exact Balanced.refl
  rw [if_neg hLow, if_pos (not_lt.mp hLow)]
  -- what is left fits, being less than what there was
  have hPool := toU64_val ((Nat.sub_le economy.minerPoolSats.1 amount.1).trans
    economy.minerPoolSats.2)
  have hPending := toU64_val ((Nat.sub_le economy.pendingGovernanceRewardSats.1
    (min amount.1 economy.pendingGovernanceRewardSats.1)).trans
      economy.pendingGovernanceRewardSats.2)
  refine ⟨?_, rfl, fun hBefore => ?_⟩
  · unfold poolSats
    dsimp only
    omega
  · unfold PendingInPool at hBefore ⊢
    dsimp only
    omega

/-- A call that fits keeps the balance. -/
theorem Balanced.step (call : EconomyCall) (h : call.Fits economy) :
    Balanced economy (call.step economy) call.profit (call.bounty economy)
      (call.debit economy) := by
  -- each call by what it moves: a profit, a bounty, a debit, or nothing
  cases call with
  | upsertOperator op =>
    show Balanced economy (economy.upsertOperator op).2 0 0 0
    unfold upsertOperator
    split
    · exact Balanced.refl
    · exact ⟨rfl, rfl, id⟩
  | accrueFromProfit profitSats pRewardBps =>
    show Balanced economy (economy.accrueFromProfit profitSats pRewardBps).2
      (if pRewardBps.1 ≤ 10000 then profitSats.1 else 0) 0 0
    rcases economy.accrueFromProfit_cases profitSats pRewardBps with
      ⟨hRate, splits, hSplits, hValid, hEq⟩ | ⟨hRate, hEq⟩
    · -- the splits are made of the rate, and are valid where it is one
      simp only [EconomyCall.Fits, hSplits] at h
      rw [hEq, if_pos hRate]
      exact balanced_withProfit hValid h
    · rw [hEq, if_neg (not_le.mpr hRate)]
      exact Balanced.refl
  | accrueProfitSplits profitSats splits =>
    show Balanced economy (economy.accrueProfitSplits profitSats splits).2
      (if splits.validate = .ok () then profitSats.1 else 0) 0 0
    cases hValid : splits.validate with
    | ok u =>
      rw [accrueProfitSplits_ok profitSats hValid, if_pos rfl]
      exact balanced_withProfit hValid (h hValid)
    | error e =>
      rw [if_neg nofun]
      unfold accrueProfitSplits
      rw [hValid]
      exact Balanced.refl
  | accrueGovernanceJob job participants config => exact balanced_accrueGovernanceJob h
  | debitPool amount => exact balanced_debitPool amount
  | recordMinerPayout atSecs epoch => exact ⟨rfl, rfl, id⟩

/-! ## Credits -/

/-- The credits are shares of the bounty, of the participants in their order. -/
theorem creditShares_shares (each rem : Nat) (ids : List NodeId) :
    (creditShares each rem ids).map Prod.fst = ids ∧
      (creditShares each rem ids).map Prod.snd = Shares.shares each rem ids.length := by
  induction ids generalizing rem with
  | nil =>
    unfold creditShares
    exact ⟨rfl, rfl⟩
  | cons id rest ih =>
    -- while there is a remainder, a sat of it goes to the next one
    cases rem with
    | zero => exact ⟨congrArg (id :: ·) (ih 0).1, congrArg (each :: ·) (ih 0).2⟩
    | succ rem => exact ⟨congrArg (id :: ·) (ih rem).1, congrArg ((each + 1) :: ·) (ih rem).2⟩

theorem nodup_eraseDups (ids : List NodeId) : ids.eraseDups.Nodup := by
  match ids with
  | [] => exact List.nodup_nil
  | id :: rest =>
    rw [List.eraseDups_cons, List.nodup_cons]
    refine ⟨fun hMem => ?_, nodup_eraseDups _⟩
    have hKept := (List.mem_filter.mp (List.mem_eraseDups.mp hMem)).2
    simp at hKept
termination_by ids.length
decreasing_by exact Nat.lt_succ_of_le (List.length_filter_le _ _)

/-- What is credited to a node before. -/
def creditOf (economy : MinerEconomy) (id : NodeId) : U64 :=
  (economy.governanceCredits.lookup id.text).getD (toU64 0)

theorem creditOf_credit (economy : MinerEconomy) (share : NodeId × Nat) (id : NodeId) :
    (economy.credit share).creditOf id =
      if id = share.1 then wrapU64 ((economy.creditOf share.1).1 + share.2)
      else economy.creditOf id := by
  unfold creditOf credit
  dsimp only
  by_cases hId : id = share.1
  · rw [if_pos hId, hId, SortedMap.lookup_insert_self]
    rfl
  · have hText : id.text ≠ share.1.text := fun hEq => hId (congrArg NodeId.mk hEq)
    rw [if_neg hId, SortedMap.lookup_insert_ne hText]

/-- Credits to others leave a node's. -/
theorem creditOf_foldl_of_notMem {shares : List (NodeId × Nat)} {id : NodeId}
    (h : id ∉ shares.map Prod.fst) :
    (shares.foldl credit economy).creditOf id = economy.creditOf id := by
  induction shares generalizing economy with
  | nil => rfl
  | cons share rest ih =>
    rw [List.map_cons, List.mem_cons, not_or] at h
    rw [List.foldl_cons, ih h.2, creditOf_credit, if_neg h.1]

/-- Each node of a list without repeats gets its share. -/
theorem creditOf_foldl {shares : List (NodeId × Nat)} (hNodup : (shares.map Prod.fst).Nodup)
    {share : NodeId × Nat} (h : share ∈ shares) :
    (shares.foldl credit economy).creditOf share.1 =
      wrapU64 ((economy.creditOf share.1).1 + share.2) := by
  induction shares generalizing economy with
  | nil => cases h
  | cons first rest ih =>
    rw [List.map_cons, List.nodup_cons] at hNodup
    rw [List.foldl_cons]
    rcases List.mem_cons.mp h with rfl | hRest
    · rw [creditOf_foldl_of_notMem hNodup.1, creditOf_credit, if_pos rfl]
    · -- the first one is another node
      have hNe : share.1 ≠ first.1 := by
        intro hEq
        exact hNodup.1 (hEq ▸ List.mem_map_of_mem hRest)
      rw [ih hNodup.2 hRest, creditOf_credit, if_neg hNe]

/-- The bounty of a job goes to its eligible participants, each of whom is credited a
share, in whole and evenly. -/
structure EvenlyCredited (economy : MinerEconomy) (job : GovernanceJobKind)
    (participants : List NodeId) (config : GovernanceRewardConfig) : Prop where
  whole : ((economy.accrueGovernanceJob job participants config).1.credited.map Prod.snd).sum =
    config.bountySats economy.minerPoolSats.1
  even : ∀ a ∈ (economy.accrueGovernanceJob job participants config).1.credited,
    ∀ b ∈ (economy.accrueGovernanceJob job participants config).1.credited, a.2 ≤ b.2 + 1
  all : config.bountySats economy.minerPoolSats.1 ≠ 0 →
    (economy.accrueGovernanceJob job participants config).1.credited.map Prod.fst =
      economy.eligibleAmong participants.eraseDups
  credited : ∀ share ∈ (economy.accrueGovernanceJob job participants config).1.credited,
    ((economy.accrueGovernanceJob job participants config).2.creditOf share.1).1 =
      (economy.creditOf share.1).1 + share.2

/-- What a bounty does where there are nodes to take it. -/
theorem accrueGovernanceJob_paid (job : GovernanceJobKind) {participants : List NodeId}
    {config : GovernanceRewardConfig}
    (hBounty : config.bountySats economy.minerPoolSats.1 ≠ 0)
    (hSome : economy.eligibleAmong participants.eraseDups ≠ []) :
    let r := economy.accrueGovernanceJob job participants config
    let n := (economy.eligibleAmong participants.eraseDups).length
    r.1.bountySats = config.bountySats economy.minerPoolSats.1 ∧
      r.1.credited.map Prod.fst = economy.eligibleAmong participants.eraseDups ∧
      r.1.credited.map Prod.snd = Shares.shares (r.1.bountySats / n) (r.1.bountySats % n) n ∧
      ∀ id, r.2.creditOf id = (r.1.credited.foldl credit economy).creditOf id := by
  unfold accrueGovernanceJob
  dsimp only
  rw [if_neg hBounty, if_neg hSome]
  obtain ⟨hIds, hAmounts⟩ := creditShares_shares
    (config.bountySats economy.minerPoolSats.1 /
      (economy.eligibleAmong participants.eraseDups).length)
    (config.bountySats economy.minerPoolSats.1 %
      (economy.eligibleAmong participants.eraseDups).length)
    (economy.eligibleAmong participants.eraseDups)
  exact ⟨rfl, hIds, hAmounts, fun _ => rfl⟩

/-- A bounty is divided among those who are eligible, in equal shares but for the remainder. -/
theorem evenlyCredited {job : GovernanceJobKind} {participants : List NodeId}
    {config : GovernanceRewardConfig}
    (hSome : economy.eligibleAmong participants.eraseDups ≠ [])
    (h : economy.HasBounty (economy.accrueGovernanceJob job participants config).1) :
    EvenlyCredited economy job participants config := by
  by_cases hBounty : config.bountySats economy.minerPoolSats.1 = 0
  · have hNothing : economy.accrueGovernanceJob job participants config =
        ({ job, bountySats := 0, accruedToPoolSats := 0, credited := [],
           participants := participants.eraseDups, eligibleCredited := 0 }, economy) := by
      unfold accrueGovernanceJob
      dsimp only
      rw [if_pos hBounty]
    constructor
    all_goals rw [hNothing]
    · exact hBounty.symm
    · exact nofun
    · exact fun hNe => absurd hBounty hNe
    · exact nofun
  -- the bounty is not zero, and is shared among the eligible ones
  obtain ⟨hReports, hIds, hAmounts, hCredits⟩ :=
    economy.accrueGovernanceJob_paid job hBounty hSome
  have hNodup := (nodup_eraseDups participants).filter fun id =>
    ((economy.operators.lookup id.text).map (·.isEligible economy.policy)).getD false
  refine ⟨?_, fun a ha b hb => ?_, fun _ => hIds, fun share hShare => ?_⟩
  · rw [hAmounts, Shares.sum_shares_div (List.length_pos_iff.mpr hSome), hReports]
  · exact Shares.shares_even (hAmounts ▸ List.mem_map_of_mem ha)
      (hAmounts ▸ List.mem_map_of_mem hb)
  · have hRoom := h.credits share hShare
    rw [hCredits, creditOf_foldl (hIds ▸ hNodup) hShare]
    exact Nat.mod_eq_of_lt (Nat.lt_succ_of_le hRoom)

end MinerEconomy

/-! ## Runs -/

/-- Along the calls, what they move adds up. -/
theorem MinerEconomy.balanced_run (economy : MinerEconomy) {calls : List EconomyCall}
    (h : Runs.EveryStep EconomyCall.step EconomyCall.Fits economy calls) :
    Balanced economy (Runs.run EconomyCall.step economy calls)
      (EconomyCall.total (fun _ call => call.profit) economy calls)
      (EconomyCall.total EconomyCall.bounty economy calls)
      (EconomyCall.total EconomyCall.debit economy calls) := by
  induction calls generalizing economy with
  | nil => exact Balanced.refl
  | cons call calls ih =>
    obtain ⟨hFits, hRest⟩ := h
    obtain ⟨hPools, hAccrued, hPending⟩ := Balanced.step call hFits
    -- the first call, and the others after it
    obtain ⟨hPools', hAccrued', hPending'⟩ := ih (call.step economy) hRest
    rw [Runs.run_cons, EconomyCall.total_cons, EconomyCall.total_cons, EconomyCall.total_cons]
    exact ⟨by omega, by omega, fun hBefore => hPending' (hPending hBefore)⟩

/-- The bounty of the call is credited evenly, if there is anyone to take it. -/
def EconomyCall.Credits (economy : MinerEconomy) (call : EconomyCall) : Prop :=
  ∀ job participants config, call = .accrueGovernanceJob job participants config →
    economy.eligibleAmong participants.eraseDups ≠ [] →
      economy.EvenlyCredited job participants config

/--
**Conservation.** After any calls on an open economy of which no sum saturates or
wraps, the pools and all that was debited are the profit and the bounties; what is
pending never exceeded the miner pool; and each bounty was credited in whole and evenly.
-/
theorem economy_conserved (calls : List EconomyCall)
    (h : Runs.EveryStep EconomyCall.step EconomyCall.Fits .newOpen calls) :
    let economy := Runs.run EconomyCall.step .newOpen calls
    economy.poolSats + EconomyCall.total EconomyCall.debit .newOpen calls =
        economy.accruedProfitSats.1 + EconomyCall.total EconomyCall.bounty .newOpen calls ∧
      economy.accruedProfitSats.1 =
        EconomyCall.total (fun _ call => call.profit) .newOpen calls ∧
      Runs.EveryState EconomyCall.step MinerEconomy.PendingInPool .newOpen calls ∧
      Runs.EveryStep EconomyCall.step EconomyCall.Credits .newOpen calls := by
  obtain ⟨hPools, hAccrued, -⟩ := MinerEconomy.balanced_run .newOpen h
  have hStart : MinerEconomy.newOpen.poolSats = 0 ∧
      MinerEconomy.newOpen.accruedProfitSats.1 = 0 := by decide
  refine ⟨by omega, by omega, ?_, h.mono fun economy call hFits => ?_⟩
  · exact .of_everyStep (fun economy call hBefore hFits =>
      (MinerEconomy.Balanced.step call hFits).pending hBefore) (Nat.le_refl 0) h
  · rintro job participants config rfl hSome
    exact MinerEconomy.evenlyCredited hSome hFits

/-- A miner that is eligible. -/
def soundMiner (name : String) (h : NodeId.new name = .ok ⟨name⟩) : EconomyCall :=
  .upsertOperator
    { nodeId := ⟨name⟩, made := h, payoutDestination := "tb1q-miner-payout",
      uptimeBps30d := castU32 9900, attestationStreakDays := castU32 10, bondSats := toU64 0,
      waiting := false }

/-- A profit, a bounty for two miners (one of them named twice), and a debit of more than
the bounty. -/
def soundCalls : List EconomyCall :=
  [soundMiner "m1" rfl, soundMiner "m2" rfl,
    .accrueProfitSplits (toU64 1000) ⟨4000, 3000, 3000⟩,
    .accrueGovernanceJob .dayAdvanced [⟨"m1"⟩, ⟨"m2"⟩, ⟨"m1"⟩] ⟨7, 100⟩,
    .debitPool (toU64 50)]

theorem economy_conserved_sound :
    Runs.EveryStep EconomyCall.step EconomyCall.Fits .newOpen soundCalls ∧
      (Runs.run EconomyCall.step .newOpen soundCalls).poolSats +
          EconomyCall.total EconomyCall.debit .newOpen soundCalls =
        (Runs.run EconomyCall.step .newOpen soundCalls).accruedProfitSats.1 +
          EconomyCall.total EconomyCall.bounty .newOpen soundCalls :=
  have h : Runs.EveryStep EconomyCall.step EconomyCall.Fits .newOpen soundCalls := by
    decide +kernel
  ⟨h, (economy_conserved soundCalls h).1⟩

-- seven, and a hundredth of the four hundred in the miner pool: six and five
example : EconomyCall.total EconomyCall.bounty .newOpen soundCalls = 11 := by decide +kernel

end KeroseneVault
