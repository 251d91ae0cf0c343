import KeroseneVault.Ledger.EpochAdvance

/-!
# Profit

The profit splits of the constitution, the books they are accrued to, and
`AccrueMinerRewards`, which accrues a profit and enters it in the ledger. The
books change before the ledger is asked.

* `ProfitSplits.allocate` — the legs of a profit;
* `EconomyBooks.accrueProfitSplits` — the accrual to the pools;
* `AccrueMinerRewards.execute` — both, and the entry.

Main results:

* `execute_ledger` — an accrual enters one entry, or leaves the ledger.
-/

namespace KeroseneVault

/-! ## Splits -/

/-- `u32::saturating_add`. -/
def satAdd32 (a b : Nat) : Nat := min (a + b) (2 ^ 32 - 1)

namespace ProfitSplits

def validate (splits : ProfitSplits) : Outcome :=
  let sum := satAdd32 (satAdd32 splits.minersBps splits.channelsBps) splits.infraBps
  if sum ≠ 10000 then
    .error (.invalidConstitution s!"profit splits must sum to 10000 bps, got {sum}")
  else .ok ()

/-- The legs of the miners, the channels and the infrastructure, with `saturating_mul`. -/
def allocate (splits : ProfitSplits) (profitSats : Nat) : Nat × Nat × Nat :=
  let miners := min (profitSats * splits.minersBps) u64Max / 10000
  let channels := min (profitSats * splits.channelsBps) u64Max / 10000
  (miners, channels, profitSats - miners - channels)

end ProfitSplits

/-! ## The books -/

/-- `EconomyState`. -/
structure EconomyBooks extends EconomyPools where
  channelsPoolSats : Nat
  infraPoolSats : Nat
  accruedProfitSats : Nat
  lastMinerPayoutAtSecs : Option Nat
  lastMinerPayoutEpoch : Option Nat

/-- Empty books, for runs on given inputs. -/
def soloBooks : EconomyBooks :=
  { policy := ⟨0, 0, 0⟩, operators := ∅, minerPoolSats := 0, pendingGovernanceRewardSats := 0,
    governanceCredits := ∅, channelsPoolSats := 0, infraPoolSats := 0, accruedProfitSats := 0,
    lastMinerPayoutAtSecs := none, lastMinerPayoutEpoch := none }

structure ProfitSplitAccrual where
  profitSats : Nat
  minersSats : Nat
  channelsSats : Nat
  infraSats : Nat
  deriving DecidableEq

namespace EconomyBooks

/-- The books with a profit in them. -/
def withProfit (economy : EconomyBooks) (accrual : ProfitSplitAccrual) : EconomyBooks :=
  { economy with
    minerPoolSats := satAdd economy.minerPoolSats accrual.minersSats
    channelsPoolSats := satAdd economy.channelsPoolSats accrual.channelsSats
    infraPoolSats := satAdd economy.infraPoolSats accrual.infraSats
    accruedProfitSats := satAdd economy.accruedProfitSats accrual.profitSats }

/-- `accrue_profit_splits`. -/
def accrueProfitSplits (economy : EconomyBooks) (profitSats : U64) (splits : ProfitSplits) :
    Except DomainError ProfitSplitAccrual × EconomyBooks :=
  match splits.validate with
  | .error e => (.error e, economy)
  | .ok () =>
    let (minersSats, channelsSats, infraSats) := splits.allocate profitSats.1
    let accrual := { profitSats := profitSats.1, minersSats, channelsSats, infraSats }
    (.ok accrual, economy.withProfit accrual)

/-- The answer of a write to `economy.json`. -/
def persist (write : Outcome) : Outcome :=
  match write with
  | .error e => .error (.thresholdError s!"economy persist: {e.display}")
  | .ok () => .ok ()

/-- `accrue_governance_job`. -/
def accrueJob (economy : EconomyBooks) (job : GovernanceJobKind) (participants : List NodeId)
    (config : GovernanceRewardConfig) : GovernanceAccrual × EconomyBooks :=
  let r := economy.toEconomyPools.accrueGovernanceJob job participants config
  (r.1, { economy with toEconomyPools := r.2 })

end EconomyBooks

/-! ## The use case -/

structure AccrueReceipt where
  profitSats : Nat
  accruedToPoolSats : Nat
  channelsSats : Nat
  infraSats : Nat
  minerPoolSats : Nat
  channelsPoolSats : Nat
  infraPoolSats : Nat
  pRewardBps : Nat
  deriving DecidableEq

/-- `AccrueMinerRewards`, over the economy and the ledger it is given. -/
structure AccrueMinerRewards where
  writer : NodeId

namespace AccrueMinerRewards

/-- The payload of a `ProfitAllocated` entry. -/
def payload (splits : ProfitSplits) (accrual : ProfitSplitAccrual) : String :=
  s!"\x7b\"profit_sats\":{accrual.profitSats},\"miners_sats\":{accrual.minersSats}," ++
  s!"\"channels_sats\":{accrual.channelsSats},\"infra_sats\":{accrual.infraSats}," ++
  s!"\"miners_bps\":{splits.minersBps},\"channels_bps\":{splits.channelsBps}," ++
  s!"\"infra_bps\":{splits.infraBps}\x7d"

def receipt (accrual : ProfitSplitAccrual) (economy : EconomyBooks) (pRewardBps : Nat) :
    AccrueReceipt :=
  { profitSats := accrual.profitSats
    accruedToPoolSats := accrual.minersSats
    channelsSats := accrual.channelsSats
    infraSats := accrual.infraSats
    minerPoolSats := economy.minerPoolSats
    channelsPoolSats := economy.channelsPoolSats
    infraPoolSats := economy.infraPoolSats
    pRewardBps }

/-- `execute`. The economy changes before its file is written, and stays changed
where the write or the append fails. -/
def execute (measure : String → String) (a : AccrueMinerRewards) (economyWrite : Outcome)
    (profitSats : U64) (economy : EconomyBooks) (ledger : InMemoryLedger) :
    Except DomainError AccrueReceipt × EconomyBooks × InMemoryLedger :=
  let splits := ledger.chain.constitution.profitSplits
  match economy.accrueProfitSplits profitSats splits with
  | (.error e, economy) => (.error e, economy, ledger)
  | (.ok accrual, economy) =>
    match EconomyBooks.persist economyWrite with
    | .error e => (.error e, economy, ledger)
    | .ok () =>
      match ledger.append (ledger.chain.nextEntry measure .profitAllocated
        (payload splits accrual) a.writer) with
      | (.error e, ledger) => (.error e, economy, ledger)
      | (.ok (), ledger) => (.ok (receipt accrual economy ledger.pRewardBps), economy, ledger)

/-- An accrual is refused without an entry, or enters the profit. -/
theorem execute_ledger (measure : String → String) (a : AccrueMinerRewards)
    (economyWrite : Outcome) (profitSats : U64) (economy : EconomyBooks) (ledger : InMemoryLedger) :
    (a.execute measure economyWrite profitSats economy ledger).2.2 = ledger ∨
    ledger.chain.Admits a.writer ∧ ∃ payload,
      (a.execute measure economyWrite profitSats economy ledger).2.2 =
        ledger.extend (ledger.chain.nextEntry measure .profitAllocated payload a.writer) := by
  unfold execute
  dsimp only
  split
  · exact .inl rfl
  split
  · exact .inl rfl
  rename_i accrual economy' _ _ _
  rcases ledger.append_cases (ledger.chain.nextEntry measure .profitAllocated
    (payload ledger.chain.constitution.profitSplits accrual) a.writer) with
    ⟨hAccepts, hEq⟩ | ⟨-, e, hEq⟩
  · rw [hEq]
    exact .inr ⟨GovernanceLedger.accepts_entryAt_iff.mp hAccepts, _, rfl⟩
  · rw [hEq]
    exact .inl rfl

end AccrueMinerRewards

end KeroseneVault
