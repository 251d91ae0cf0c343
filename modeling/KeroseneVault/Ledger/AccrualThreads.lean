import KeroseneVault.Ledger.VoteThreads

/-!
# Accruals that overlap

`AccrueMinerRewards` and `AccrueGovernanceWork` change the books in one port call
and enter that in the ledger some calls later, and whoever else writes the ledger
can move its head in between.

* `AccrualThread`, `AccrualThread.turn` — an execution in its port calls;
* `entered` — the profit that a turn enters in the ledger;
* `MoneyAgrees` — the books have the profits that were entered, and what was
  refused changed no books;
* `Undisturbed` — an accrual of an amount is written, has room in the books, and
  its append is not refused.

Main results:

* `alone_rewards`, `alone_work`, `alone_voting`, `uninterrupted` — executions without
  others are `execute`;
* `moneyAgrees_of_undisturbed` — money and ledger agree after undisturbed turns.
-/

namespace KeroseneVault

/-! ## Executions -/

/-- What an accrual enters in the ledger. -/
inductive AccrualEvent where
  | profit (splits : ProfitSplits) (accrual : ProfitSplitAccrual) (receipt : AccrueReceipt)
  | work (accrual : GovernanceAccrual) (context : String)

/-- What an accrual answers. -/
abbrev AccrualAnswer := Except DomainError (AccrueReceipt ⊕ GovernanceAccrual)

namespace AccrualEvent

def kind : AccrualEvent → LedgerEventKind
  | .profit .. => .profitAllocated
  | .work .. => .governanceRewardAccrued

def payload : AccrualEvent → String
  | .profit splits accrual _ => AccrueMinerRewards.payload splits accrual
  | .work accrual context => AccrueGovernanceWork.payload accrual context

def answer : AccrualEvent → AccrueReceipt ⊕ GovernanceAccrual
  | .profit _ _ receipt => .inl receipt
  | .work accrual _ => .inr accrual

/-- The amount that went to the books. -/
def sats : AccrualEvent → Nat
  | .profit _ accrual _ => accrual.profitSats
  | .work accrual _ => accrual.bountySats

/-- The profit that went to the books. -/
def profitSats : AccrualEvent → Nat
  | .profit _ accrual _ => accrual.profitSats
  | .work .. => 0

def entry (measure : String → String) (event : AccrualEvent) (writer : NodeId)
    (number index : Nat) (prevHash : String) : LedgerEntry :=
  .chain measure index number event.kind event.payload writer prevHash

end AccrualEvent

/-- Where an execution stands. -/
inductive AccrualThread where
  | idle
  | rewarding (writer : NodeId) (profitSats : U64)
  | splitting (writer : NodeId) (profitSats : U64) (splits : ProfitSplits) (pRewardBps : Nat)
  | accrued (writer : NodeId) (splits : ProfitSplits) (pRewardBps : Nat)
      (accrual : ProfitSplitAccrual)
  | working (gov : AccrueGovernanceWork) (job : GovernanceJobKind) (participants : List NodeId)
      (context : String)
  | numbering (writer : NodeId) (event : AccrualEvent)
  | recording (writer : NodeId) (event : AccrualEvent) (number : Nat) (a : Appending)
  | returned (answer : AccrualAnswer)
  | voting (vote : VoteThread)

/-- A port call of another writer of the ledger. Only `AccrueMinerRewards` enters
`ProfitAllocated`. -/
inductive OtherWrite where
  | setEpoch (epoch : Epoch)
  | saveProposal (p : EpochAdvanceProposal)
  | append (entry : LedgerEntry) (hKind : entry.kind ≠ .profitAllocated)

def OtherWrite.run (l : InMemoryLedger) : OtherWrite → InMemoryLedger
  | .setEpoch epoch => l.setEpoch epoch
  | .saveProposal p => l.saveProposal p
  | .append entry _ => (l.append entry).2

/-- `next` carries the answer of a write to the file of the books. -/
inductive AccrualTurn where
  | startRewards (writer : NodeId) (profitSats : U64)
  | startWork (gov : AccrueGovernanceWork) (job : GovernanceJobKind) (participants : List NodeId)
      (context : String)
  | startVote (localNode : NodeId) (id : String)
  | next (economyWrite : Outcome)
  | other (write : OtherWrite)

namespace AccrualThread

/-- What is left of an accrual once its books are written. -/
def afterWrite (economyWrite : Outcome) (rest : AccrualThread) : AccrualThread :=
  match EconomyBooks.persist economyWrite with
  | .error e => .returned (.error e)
  | .ok () => rest

/-- The accrual of a profit, in the books and in their file. -/
def splitTurn (economyWrite : Outcome) (writer : NodeId) (profitSats : U64)
    (splits : ProfitSplits) (pRewardBps : Nat) (s : LedgerNode) : AccrualThread × LedgerNode :=
  match s.economy.accrueProfitSplits profitSats splits with
  | (.error e, economy) => (.returned (.error e), { s with economy })
  | (.ok accrual, economy) =>
    (afterWrite economyWrite (.accrued writer splits pRewardBps accrual), { s with economy })

/-- The accrual of a governance job, in the books and in their file. -/
def workTurn (economyWrite : Outcome) (gov : AccrueGovernanceWork) (job : GovernanceJobKind)
    (participants : List NodeId) (context : String) (s : LedgerNode) :
    AccrualThread × LedgerNode :=
  if !gov.config.isEnabled then
    (.returned (.ok (.inr { job, bountySats := 0, accruedToPoolSats := 0, credited := [],
                            participants, eligibleCredited := 0 })), s)
  else
    let (accrual, economy) := s.economy.accrueJob job participants gov.config
    (afterWrite economyWrite
      (if accrual.accruedToPoolSats = 0 ∧ accrual.bountySats = 0 then .returned (.ok (.inr accrual))
        else .numbering gov.writer (.work accrual context)),
      { s with economy })

/-- The append of an event. -/
def recordTurn (measure : String → String) (writer : NodeId) (event : AccrualEvent) (number : Nat)
    (a : Appending) (s : LedgerNode) : AccrualThread × LedgerNode :=
  match a.turn (event.entry measure writer number) s.ledger with
  | (.inl a, ledger) => (.recording writer event number a, { s with ledger })
  | (.inr (.error e), ledger) => (.returned (.error e), { s with ledger })
  | (.inr (.ok ()), ledger) => (.returned (.ok event.answer), { s with ledger })

/-- One port call. -/
def turn (measure : String → String) : AccrualTurn → AccrualThread → LedgerNode →
    AccrualThread × LedgerNode
  | .other write, thread, s => (thread, { s with ledger := write.run s.ledger })
  | .startRewards writer profitSats, .idle, s => (.rewarding writer profitSats, s)
  | .startWork gov job participants context, .idle, s =>
    (.working gov job participants context, s)
  | .startVote localNode id, .idle, s => (.voting (.called localNode id), s)
  | .next _, .rewarding writer profitSats, s =>
    (.splitting writer profitSats s.ledger.chain.constitution.profitSplits s.ledger.pRewardBps, s)
  | .next economyWrite, .splitting writer profitSats splits pRewardBps, s =>
    splitTurn economyWrite writer profitSats splits pRewardBps s
  | .next _, .accrued writer splits pRewardBps accrual, s =>
    (.numbering writer (.profit splits accrual
      (AccrueMinerRewards.receipt accrual s.economy pRewardBps)), s)
  | .next economyWrite, .working gov job participants context, s =>
    workTurn economyWrite gov job participants context s
  | .next _, .numbering writer event, s =>
    (.recording writer event s.ledger.chain.epoch.number .begun, s)
  | .next _, .recording writer event number a, s => recordTurn measure writer event number a s
  | .next _, .voting vote, s =>
    let r := vote.turn measure .next s.ledger
    (.voting r.1, { s with ledger := r.2 })
  | _, thread, s => (thread, s)

/-! ### An execution without others -/

section Alone

variable (measure : String → String) (economyWrite : Outcome)

/-- The entry of an event, under the epoch and the head of the ledger as it is. -/
theorem alone_numbering (writer : NodeId) (event : AccrualEvent) (s : LedgerNode) :
    Threads.alone (turn measure) (.numbering writer event, s)
      (List.replicate 4 (.next economyWrite)) =
      match s.ledger.append (s.ledger.chain.nextEntry measure event.kind event.payload writer) with
      | (.error e, ledger) => (.returned (.error e), { s with ledger })
      | (.ok (), ledger) => (.returned (.ok event.answer), { s with ledger }) := by
  show recordTurn measure writer event s.ledger.chain.epoch.number
    (.made (s.ledger.chain.nextEntry measure event.kind event.payload writer)) s = _
  simp only [recordTurn, Appending.turn]
  rcases s.ledger.append (s.ledger.chain.nextEntry measure event.kind event.payload writer) with
    ⟨_ | _, ledger⟩ <;> rfl

/-- Without others an accrual of a profit is the use case. -/
theorem alone_rewards (accrue : AccrueMinerRewards) (profitSats : U64) (s : LedgerNode) :
    Threads.alone (turn measure) (.rewarding accrue.writer profitSats, s)
      (List.replicate 7 (.next economyWrite)) =
      let r := accrue.execute measure economyWrite profitSats s.economy s.ledger
      (.returned (r.1.map .inl), { ledger := r.2.2, economy := r.2.1 }) := by
  -- two turns to the split, and five from there
  have hTurns : List.replicate 7 (AccrualTurn.next economyWrite) =
      List.replicate 2 (.next economyWrite) ++ List.replicate 5 (.next economyWrite) := rfl
  have hBegin : Threads.alone (turn measure) (.rewarding accrue.writer profitSats, s)
      (List.replicate 2 (.next economyWrite)) =
      splitTurn economyWrite accrue.writer profitSats s.ledger.chain.constitution.profitSplits
        s.ledger.pRewardBps s := rfl
  rw [hTurns, Threads.alone_append, hBegin]
  unfold splitTurn AccrueMinerRewards.execute afterWrite
  dsimp only
  rcases s.economy.accrueProfitSplits profitSats s.ledger.chain.constitution.profitSplits with
    ⟨e | accrual, economy⟩
  · exact Threads.alone_fixed rfl 5
  dsimp only
  cases EconomyBooks.persist economyWrite with
  | error e => exact Threads.alone_fixed rfl 5
  | ok u =>
    show Threads.alone (turn measure) (.numbering accrue.writer (.profit _ accrual
      (AccrueMinerRewards.receipt accrual economy s.ledger.pRewardBps)), { s with economy })
      (List.replicate 4 (.next economyWrite)) = _
    rw [alone_numbering]
    dsimp only [AccrualEvent.kind, AccrualEvent.payload]
    rcases s.ledger.append_cases (s.ledger.chain.nextEntry measure .profitAllocated
      (AccrueMinerRewards.payload s.ledger.chain.constitution.profitSplits accrual)
      accrue.writer) with ⟨-, hEq⟩ | ⟨-, e, hEq⟩
    · rw [hEq]
      rfl
    · rw [hEq]
      rfl

/-- Without others an accrual of a governance job is the use case. -/
theorem alone_work (gov : AccrueGovernanceWork) (job : GovernanceJobKind)
    (participants : List NodeId) (context : String) (s : LedgerNode) :
    Threads.alone (turn measure) (.working gov job participants context, s)
      (List.replicate 5 (.next economyWrite)) =
      (.returned ((gov.execute measure economyWrite job participants context
          s.economy.toEconomyPools s.ledger.chain).1.map .inr),
        s.step measure (.accrueGovernanceWork gov economyWrite job participants context)) := by
  -- one turn to the bounty, and four from there
  have hTurns : List.replicate 5 (AccrualTurn.next economyWrite) =
      [.next economyWrite] ++ List.replicate 4 (.next economyWrite) := rfl
  have hBegin : Threads.alone (turn measure) (.working gov job participants context, s)
      [.next economyWrite] = workTurn economyWrite gov job participants context s := rfl
  rw [hTurns, Threads.alone_append, hBegin]
  unfold workTurn LedgerNode.step AccrueGovernanceWork.execute afterWrite EconomyBooks.persist
    EconomyBooks.accrueJob
  dsimp only
  split
  · exact Threads.alone_fixed rfl 4
  rcases s.economy.toEconomyPools.accrueGovernanceJob job participants gov.config with
    ⟨accrual, pools⟩
  cases economyWrite with
  | error e => exact Threads.alone_fixed rfl 4
  | ok u =>
    dsimp only
    split
    · exact Threads.alone_fixed rfl 4
    · rw [alone_numbering]
      dsimp only [AccrualEvent.kind, AccrualEvent.payload, GovernanceLedger.appendLedgerEvent,
        InMemoryLedger.append]
      rcases s.ledger.chain.append (s.ledger.chain.nextEntry measure .governanceRewardAccrued
        (AccrueGovernanceWork.payload accrual context) gov.writer) with ⟨_ | _, chain⟩
      · rfl
      · rfl

/-- A vote leaves the books. -/
theorem alone_voting (vote : VoteThread) (s : LedgerNode) (n : Nat) :
    Threads.alone (turn measure) (.voting vote, s) (List.replicate n (.next economyWrite)) =
      let r := Threads.alone (VoteThread.turn measure) (vote, s.ledger) (List.replicate n .next)
      (.voting r.1, { s with ledger := r.2 }) := by
  induction n generalizing vote s with
  | zero => rfl
  | succ n ih => exact ih _ _

end Alone

end AccrualThread

/-! ## Money and ledger -/

/-- A profit as it is entered, with the splits it was accrued under. -/
abbrev ProfitRecord := ProfitSplits × ProfitSplitAccrual

/-- What the entry of a profit has of its payload. -/
def ProfitRecord.hash (measure : String → String) (r : ProfitRecord) : String :=
  measure (AccrueMinerRewards.payload r.1 r.2)

/-- What the `ProfitAllocated` entries have of their payloads. -/
def GovernanceLedger.profitHashes (l : GovernanceLedger) : List String :=
  (l.entries.filter fun entry => entry.kind = .profitAllocated).map (·.payloadHash)

/-- Executions on the books and the ledger. -/
abbrev SharedBooks := Threads.State LedgerNode AccrualThread

namespace SharedBooks

variable (measure : String → String)

def step : SharedBooks → Nat × AccrualTurn → SharedBooks :=
  Threads.step (AccrualThread.turn measure)

/-- No execution has begun. -/
def start (s : LedgerNode) : SharedBooks := { store := s, threads := fun _ => .idle }

/-- An accrual of profit that is not interrupted leaves the node as `execute` does. -/
theorem uninterrupted (s : SharedBooks) (n : Nat) {accrue : AccrueMinerRewards}
    {profitSats : U64} (economyWrite : Outcome)
    (h : s.threads n = .rewarding accrue.writer profitSats) :
    let r := accrue.execute measure economyWrite profitSats s.store.economy s.store.ledger
    (Runs.run (step measure) s (List.replicate 7 (n, .next economyWrite))).store =
      { ledger := r.2.2, economy := r.2.1 } := by
  have hRun := Threads.run_alone (AccrualThread.turn measure) s n
    (List.replicate 7 (.next economyWrite))
  rw [h, AccrualThread.alone_rewards measure economyWrite accrue profitSats s.store] at hRun
  exact congrArg Prod.snd hRun

/-- No accrual is under way. -/
def Quiet (s : SharedBooks) : Prop :=
  ∀ n, s.threads n = .idle ∨ (∃ answer, s.threads n = .returned answer) ∨
    ∃ vote, s.threads n = .voting vote

/-- The profit that the next port call of an execution enters. -/
def enteredBy (l : InMemoryLedger) : AccrualTurn → AccrualThread → Option ProfitRecord
  | .next _, .recording _ (.profit splits accrual _) _ (.made entry) =>
    if l.chain.Accepts entry then some (splits, accrual) else none
  | _, _ => none

/-- The profit that a turn enters in the ledger. -/
def entered (s : SharedBooks) (a : Nat × AccrualTurn) : Option ProfitRecord :=
  enteredBy s.store.ledger a.2 (s.threads a.1)

/-- The turn is not of the execution, or leaves the books. -/
def LeavesBooks (n : Nat) (s : SharedBooks) (a : Nat × AccrualTurn) : Prop :=
  a.1 = n → (s.step measure a).store.economy = s.store.economy

/-- What the turns have come to. -/
structure MoneyAgrees (s : LedgerNode) (turns : List (Nat × AccrualTurn)) : Prop where
  /-- The new `ProfitAllocated` entries are those of the profits that were entered. -/
  entries : (Runs.run (step measure) (start s) turns).store.ledger.chain.profitHashes =
    s.ledger.chain.profitHashes ++
      (Runs.emits (step measure) entered (start s) turns).map (ProfitRecord.hash measure)
  /-- The books have grown by as much. -/
  agrees : Quiet (Runs.run (step measure) (start s) turns) →
    (Runs.run (step measure) (start s) turns).store.economy.accruedProfitSats =
      s.economy.accruedProfitSats +
        ((Runs.emits (step measure) entered (start s) turns).map (·.2.profitSats)).sum
  /-- An execution that answers Err has changed no books. -/
  refused : ∀ n e, (Runs.run (step measure) (start s) turns).threads n = .returned (.error e) →
    Runs.EveryStep (step measure) (LeavesBooks measure n) (start s) turns

/-- Where the turn accrues an amount, the file of the books is written, and a
profit has room in them; where it appends the entry of an amount, the ledger's head
has not moved, and its writer may write. -/
def Current (s : LedgerNode) : AccrualTurn → AccrualThread → Prop
  | .next economyWrite, .splitting _ profitSats splits _ =>
    splits.validate = .ok () → profitSats.1 ≠ 0 →
      economyWrite = .ok () ∧ s.economy.accruedProfitSats + profitSats.1 ≤ u64Max
  | .next economyWrite, .working gov .. =>
    gov.config.isEnabled = true → gov.config.bountySats s.economy.minerPoolSats ≠ 0 →
      economyWrite = .ok ()
  | .next _, .recording _ event _ a => event.sats ≠ 0 → ¬ a.Refused s.ledger
  | _, _ => True

instance decidableCurrent (s : LedgerNode) : ∀ t thread, Decidable (Current s t thread)
  | .next economyWrite, .splitting _ profitSats splits _ => inferInstanceAs (Decidable
      (splits.validate = .ok () → profitSats.1 ≠ 0 →
        economyWrite = .ok () ∧ s.economy.accruedProfitSats + profitSats.1 ≤ u64Max))
  | .next economyWrite, .working gov .. => inferInstanceAs (Decidable
      (gov.config.isEnabled = true → gov.config.bountySats s.economy.minerPoolSats ≠ 0 →
        economyWrite = .ok ()))
  | .next _, .recording _ event _ a =>
    inferInstanceAs (Decidable (event.sats ≠ 0 → ¬ a.Refused s.ledger))
  | .next _, .idle => isTrue trivial
  | .next _, .rewarding .. => isTrue trivial
  | .next _, .accrued .. => isTrue trivial
  | .next _, .numbering .. => isTrue trivial
  | .next _, .returned _ => isTrue trivial
  | .next _, .voting _ => isTrue trivial
  | .startRewards .., _ => isTrue trivial
  | .startWork .., _ => isTrue trivial
  | .startVote .., _ => isTrue trivial
  | .other _, _ => isTrue trivial

def Undisturbed (s : SharedBooks) (a : Nat × AccrualTurn) : Prop :=
  Current s.store a.2 (s.threads a.1)

instance decidableUndisturbed (s : SharedBooks) (a : Nat × AccrualTurn) :
    Decidable (s.Undisturbed a) :=
  inferInstanceAs (Decidable (Current ..))

/-! ### The books -/

/-- The numbers are `u64`s. -/
structure Fits (economy : EconomyBooks) : Prop where
  miner : economy.minerPoolSats ≤ u64Max
  channels : economy.channelsPoolSats ≤ u64Max
  infra : economy.infraPoolSats ≤ u64Max
  accrued : economy.accruedProfitSats ≤ u64Max

section Books

variable {economy : EconomyBooks}

theorem Fits.withProfit (accrual : ProfitSplitAccrual) : Fits (economy.withProfit accrual) :=
  ⟨Nat.min_le_right .., Nat.min_le_right .., Nat.min_le_right .., Nat.min_le_right ..⟩

theorem Fits.accrueJob (h : Fits economy) (job : GovernanceJobKind) (participants : List NodeId)
    (config : GovernanceRewardConfig) : Fits (economy.accrueJob job participants config).2 := by
  refine ⟨?_, h.channels, h.infra, h.accrued⟩
  show (economy.toEconomyPools.accrueGovernanceJob job participants config).2.minerPoolSats ≤ u64Max
  unfold EconomyPools.accrueGovernanceJob
  dsimp only
  split
  · exact h.miner
  · exact Nat.min_le_right ..

/-- No profit leaves the books. -/
theorem Fits.withProfit_zero (h : Fits economy) (splits : ProfitSplits) :
    economy.withProfit ⟨0, (splits.allocate 0).1, (splits.allocate 0).2.1,
      (splits.allocate 0).2.2⟩ = economy := by
  have hSame {n : Nat} (hn : n ≤ u64Max) : satAdd n 0 = n := Nat.min_eq_left hn
  have hLegs : splits.allocate 0 = (0, 0, 0) := by simp [ProfitSplits.allocate]
  rw [hLegs]
  unfold EconomyBooks.withProfit
  dsimp only
  rw [hSame h.miner, hSame h.channels, hSame h.infra, hSame h.accrued]

/-- No bounty leaves the books. -/
theorem accrueJob_zero {job : GovernanceJobKind} {participants : List NodeId}
    {config : GovernanceRewardConfig} (h : config.bountySats economy.minerPoolSats = 0) :
    (economy.accrueJob job participants config).2 = economy := by
  unfold EconomyBooks.accrueJob EconomyPools.accrueGovernanceJob
  dsimp only
  rw [if_pos h]

end Books

/-! ### One turn -/

/-- The profit in the books that is not entered yet. -/
def inFlight : AccrualThread → Nat
  | .accrued _ _ _ accrual => accrual.profitSats
  | .numbering _ event => event.profitSats
  | .recording _ event _ _ => event.profitSats
  | _ => 0

/-- The execution has put an amount in the books, or answered Ok. -/
def Booked : AccrualThread → Prop
  | .accrued _ _ _ accrual => accrual.profitSats ≠ 0
  | .numbering _ event => event.sats ≠ 0
  | .recording _ event _ _ => event.sats ≠ 0
  | .returned answer => ∃ r, answer = .ok r
  | _ => False

/-- The entry at hand is of what the execution accrued or voted. -/
def Made : AccrualThread → Prop
  | .recording writer event number a => a.MadeBy (event.entry measure writer number)
  | .voting (.recording localNode _ number p a) =>
    a.MadeBy (VoteThread.voteEvent measure localNode number p)
  | .voting (.entering localNode _ p a) => a.MadeBy (VoteThread.advanceEvent measure localNode p)
  | _ => True

/-- What a turn leaves, and what it enters. -/
structure Turned (s : LedgerNode) (thread : AccrualThread) (record : Option ProfitRecord)
    (r : AccrualThread × LedgerNode) : Prop where
  fits : Fits r.2.economy
  made : Made measure r.1
  hashes : r.2.ledger.chain.profitHashes =
    s.ledger.chain.profitHashes ++ record.toList.map (ProfitRecord.hash measure)
  /-- What comes to the books and to the ledger is in flight in between. -/
  accrued : r.2.economy.accruedProfitSats + inFlight thread =
    s.economy.accruedProfitSats + (record.toList.map (·.2.profitSats)).sum + inFlight r.1
  books : r.2.economy = s.economy ∨ Booked r.1
  booked : Booked thread → Booked r.1

section Turns

variable {measure} {s : LedgerNode} {thread thread' : AccrualThread} {l : InMemoryLedger}
  {entry : LedgerEntry}

theorem profitHashes_extend_of_ne (h : entry.kind ≠ .profitAllocated) :
    (l.extend entry).chain.profitHashes = l.chain.profitHashes := by
  unfold GovernanceLedger.profitHashes
  rw [InMemoryLedger.extend_entries, List.filter_append,
    List.filter_singleton, decide_eq_false h, cond_false, List.append_nil]

theorem profitHashes_extend (h : entry.kind = .profitAllocated) :
    (l.extend entry).chain.profitHashes = l.chain.profitHashes ++ [entry.payloadHash] := by
  unfold GovernanceLedger.profitHashes
  rw [InMemoryLedger.extend_entries, List.filter_append,
    List.filter_singleton, decide_eq_true h, cond_true, List.map_append]
  rfl

/-- A turn that leaves books, profits and what is in flight. -/
theorem Turned.still (hFits : Fits s.economy) {ledger : InMemoryLedger}
    (hHashes : ledger.chain.profitHashes = s.ledger.chain.profitHashes)
    (hMade : Made measure thread') (hFlight : inFlight thread' = inFlight thread)
    (hBooked : Booked thread → Booked thread') :
    Turned measure s thread none (thread', { s with ledger := ledger }) where
  fits := hFits
  made := hMade
  hashes := by rw [hHashes]; exact (List.append_nil _).symm
  accrued := by rw [hFlight]; rfl
  books := .inl rfl
  booked := hBooked

/-- A turn that reads. -/
theorem Turned.read (hFits : Fits s.economy) (hMade : Made measure thread')
    (hFlight : inFlight thread' = inFlight thread) (hBooked : Booked thread → Booked thread') :
    Turned measure s thread none (thread', s) :=
  .still hFits rfl hMade hFlight hBooked

/-- A write of the ledger by others. -/
theorem turned_other (hFits : Fits s.economy) (hMade : Made measure thread) (write : OtherWrite) :
    Turned measure s thread none (thread, { s with ledger := write.run s.ledger }) := by
  refine .still hFits ?_ hMade rfl fun h => h
  match write with
  | .setEpoch epoch => rfl
  | .saveProposal p => rfl
  | .append entry hKind =>
    show (s.ledger.append entry).2.chain.profitHashes = _
    rcases s.ledger.append_cases entry with ⟨-, hEq⟩ | ⟨-, e, hEq⟩
    · rw [hEq]
      exact profitHashes_extend_of_ne hKind
    · rw [hEq]

/-- The books take the profit up. -/
theorem turned_splitting (hFits : Fits s.economy) {writer : NodeId} {profitSats : U64}
    {splits : ProfitSplits} {pRewardBps : Nat} {economyWrite : Outcome}
    (hCurrent : Current s (.next economyWrite) (.splitting writer profitSats splits pRewardBps)) :
    Turned measure s (.splitting writer profitSats splits pRewardBps) none
      (AccrualThread.splitTurn economyWrite writer profitSats splits pRewardBps s) := by
  unfold AccrualThread.splitTurn EconomyBooks.accrueProfitSplits
  cases hSplits : splits.validate with
  | error e => exact .read hFits trivial rfl nofun
  | ok u =>
    dsimp only
    by_cases hZero : profitSats.1 = 0
    · -- the books stay, and nothing is in flight, whether or not their file is written
      rw [hZero, hFits.withProfit_zero]
      cases economyWrite with
      | error e => exact .read hFits trivial rfl nofun
      | ok u => exact .read hFits trivial rfl nofun
    · obtain ⟨rfl, hRoom⟩ := hCurrent hSplits hZero
      refine ⟨.withProfit _, trivial, (List.append_nil _).symm, ?_, .inr hZero, nofun⟩
      exact satAdd_eq_add_iff.mpr hRoom

/-- The books take the bounty up. -/
theorem turned_working (hFits : Fits s.economy) {gov : AccrueGovernanceWork}
    {job : GovernanceJobKind} {participants : List NodeId} {context : String}
    {economyWrite : Outcome}
    (hCurrent : Current s (.next economyWrite) (.working gov job participants context)) :
    Turned measure s (.working gov job participants context) none
      (AccrualThread.workTurn economyWrite gov job participants context s) := by
  obtain ⟨hBounty, hPool⟩ := AccrueGovernanceWork.accrueGovernanceJob_bounty
    s.economy.toEconomyPools job participants gov.config
  unfold AccrualThread.workTurn
  cases hEnabled : gov.config.isEnabled with
  | false => exact .read hFits trivial rfl nofun
  | true =>
    rw [if_neg (by simp)]
    dsimp only
    -- a bounty of nothing leaves the books, and is answered without an entry
    by_cases hZero : gov.config.bountySats s.economy.minerPoolSats = 0
    · rw [accrueJob_zero hZero]
      cases economyWrite with
      | error e => exact .read hFits trivial rfl nofun
      | ok u =>
        have hNothing : (s.economy.accrueJob job participants gov.config).1.accruedToPoolSats = 0 ∧
            (s.economy.accrueJob job participants gov.config).1.bountySats = 0 :=
          ⟨hPool.trans (hBounty.trans hZero), hBounty.trans hZero⟩
        unfold AccrualThread.afterWrite EconomyBooks.persist
        rw [if_pos hNothing]
        exact .read hFits trivial rfl nofun
    · obtain rfl := hCurrent hEnabled hZero
      -- another bounty is entered after its file is written
      have hSome : ¬ ((s.economy.accrueJob job participants gov.config).1.accruedToPoolSats = 0 ∧
          (s.economy.accrueJob job participants gov.config).1.bountySats = 0) :=
        fun h => hZero (hBounty.symm.trans h.2)
      unfold AccrualThread.afterWrite EconomyBooks.persist
      rw [if_neg hSome]
      exact ⟨hFits.accrueJob .., trivial, (List.append_nil _).symm, rfl,
        .inr fun h => hZero (hBounty.symm.trans h), nofun⟩

/-- The profit of an event, as it is entered. -/
def recordOf : AccrualEvent → Option ProfitRecord
  | .profit splits accrual _ => some (splits, accrual)
  | .work .. => none

/-- An entry that is accepted enters its event. -/
theorem profitHashes_event (writer : NodeId) (event : AccrualEvent) (number index : Nat)
    (prevHash : String) :
    (l.extend (event.entry measure writer number index prevHash)).chain.profitHashes =
      l.chain.profitHashes ++ (recordOf event).toList.map (ProfitRecord.hash measure) := by
  cases event with
  | profit splits accrual receipt => exact profitHashes_extend rfl
  | work accrual context =>
    have hKind : (AccrualEvent.entry measure (.work accrual context) writer number index
        prevHash).kind ≠ .profitAllocated := by
      show LedgerEventKind.governanceRewardAccrued ≠ _
      decide
    rw [profitHashes_extend_of_ne hKind]
    exact (List.append_nil _).symm

theorem enteredBy_made (l : InMemoryLedger) (writer : NodeId) (event : AccrualEvent) (number : Nat)
    (entry : LedgerEntry) (economyWrite : Outcome) :
    enteredBy l (.next economyWrite) (.recording writer event number (.made entry)) =
      if l.chain.Accepts entry then recordOf event else none := by
  cases event with
  | profit splits accrual receipt => rfl
  | work accrual context => exact (ite_self _).symm

/-- The entry of the event, where it is not refused. -/
theorem turned_recording (hFits : Fits s.economy) {writer : NodeId} {event : AccrualEvent}
    {number : Nat} {a : Appending} {economyWrite : Outcome}
    (hMade : Made measure (.recording writer event number a))
    (hCurrent : Current s (.next economyWrite) (.recording writer event number a)) :
    Turned measure s (.recording writer event number a)
      (enteredBy s.ledger (.next economyWrite) (.recording writer event number a))
      (AccrualThread.recordTurn measure writer event number a s) := by
  -- the append reads the head, then the entries, and writes at last
  cases a with
  | begun =>
    have hNone : enteredBy s.ledger (.next economyWrite) (.recording writer event number .begun) =
        none := by
      cases event <;> rfl
    rw [hNone]
    show Turned measure s _ none (.recording writer event number (.head s.ledger.chain.headHash), s)
    exact .read hFits trivial rfl fun h => h
  | head prevHash =>
    have hNone : enteredBy s.ledger (.next economyWrite)
        (.recording writer event number (.head prevHash)) = none := by
      cases event <;> rfl
    rw [hNone]
    show Turned measure s _ none (.recording writer event number (.made (event.entry measure writer
      number s.ledger.chain.entries.length prevHash)), s)
    exact .read hFits ⟨_, _, rfl⟩ rfl fun h => h
  | made entry =>
    rw [enteredBy_made]
    have hTurn : AccrualThread.recordTurn measure writer event number (.made entry) s =
        match s.ledger.append entry with
        | (.error e, ledger) => (.returned (.error e), { s with ledger })
        | (.ok (), ledger) => (.returned (.ok event.answer), { s with ledger }) := by
      simp only [AccrualThread.recordTurn, Appending.turn]
      rcases s.ledger.append entry with ⟨_ | _, ledger⟩ <;> rfl
    rw [hTurn]
    rcases s.ledger.append_cases entry with ⟨hAccepts, hEq⟩ | ⟨hNot, e, hEq⟩
    · obtain ⟨index, prevHash, rfl⟩ := hMade
      rw [hEq, if_pos hAccepts]
      refine ⟨hFits, trivial, profitHashes_event writer event number index prevHash, ?_, .inl rfl,
        fun _ => ⟨_, rfl⟩⟩
      cases event with
      | profit splits accrual receipt =>
        show s.economy.accruedProfitSats + accrual.profitSats =
          s.economy.accruedProfitSats + (accrual.profitSats + 0) + 0
        rw [Nat.add_zero, Nat.add_zero]
      | work accrual context => rfl
    · -- refused, so that the event is of no amount
      have hZero : event.sats = 0 := not_not.mp fun hSome => hCurrent hSome hNot
      have hFlight : event.profitSats = 0 := by
        cases event with
        | profit splits accrual receipt => exact hZero
        | work accrual context => rfl
      rw [hEq, if_neg hNot]
      exact .read hFits trivial hFlight.symm fun h => absurd hZero h

/-- The entry at hand of a vote is one of a vote or of an epoch. -/
theorem made_vote {vote : VoteThread} (h : Made measure (.voting vote)) (l : InMemoryLedger) :
    Made measure (.voting (vote.turn measure .next l).1) ∧
      (vote.turn measure .next l).2.chain.profitHashes = l.chain.profitHashes := by
  -- only an append changes the ledger's entries
  match vote with
  | .idle => exact ⟨trivial, rfl⟩
  | .called localNode id =>
    unfold VoteThread.turn
    dsimp only
    split <;> exact ⟨trivial, rfl⟩
  | .entitled localNode id number =>
    unfold VoteThread.turn
    dsimp only
    split <;> exact ⟨trivial, rfl⟩
  | .holding localNode id number p =>
    unfold VoteThread.turn
    dsimp only
    split <;> exact ⟨trivial, rfl⟩
  | .recording localNode id number p a =>
    unfold VoteThread.turn
    dsimp only
    rcases a.turn_cases (VoteThread.voteEvent measure localNode number p) l h with
      ⟨b, hb, hEq⟩ | ⟨entry, ⟨index, prevHash, rfl⟩, -, hEq⟩ | ⟨-, e, hEq⟩
    · rw [hEq]
      exact ⟨hb, rfl⟩
    · have hHashes : (l.extend (VoteThread.voteEvent measure localNode number p index
          prevHash)).chain.profitHashes = l.chain.profitHashes :=
        profitHashes_extend_of_ne (by show LedgerEventKind.voteRecorded ≠ _; decide)
      rw [hEq]
      dsimp only
      split <;> exact ⟨trivial, hHashes⟩
    · rw [hEq]
      exact ⟨trivial, rfl⟩
  | .closing localNode id p => exact ⟨trivial, rfl⟩
  | .closed localNode id p => exact ⟨trivial, rfl⟩
  | .advancing localNode id p epoch => exact ⟨trivial, rfl⟩
  | .entering localNode id p a =>
    unfold VoteThread.turn
    dsimp only
    rcases a.turn_cases (VoteThread.advanceEvent measure localNode p) l h with
      ⟨b, hb, hEq⟩ | ⟨entry, ⟨index, prevHash, rfl⟩, -, hEq⟩ | ⟨-, e, hEq⟩
    · rw [hEq]
      exact ⟨hb, rfl⟩
    · rw [hEq]
      exact ⟨trivial,
        profitHashes_extend_of_ne (by show LedgerEventKind.epochAdvanced ≠ _; decide)⟩
    · rw [hEq]
      exact ⟨trivial, rfl⟩
  | .returned localNode id saved answer => exact ⟨trivial, rfl⟩

/-- What an undisturbed turn leaves, and what it enters. -/
theorem turn_turned (hFits : Fits s.economy) (hMade : Made measure thread) (t : AccrualTurn)
    (hCurrent : Current s t thread) :
    Turned measure s thread (enteredBy s.ledger t thread) (AccrualThread.turn measure t thread s) := by
  match t, thread with
  | .other write, thread => exact turned_other hFits hMade write
  | .startRewards writer profitSats, thread =>
    cases thread <;> exact .read hFits hMade rfl fun h => h
  | .startWork gov job participants context, thread =>
    cases thread <;> exact .read hFits hMade rfl fun h => h
  | .startVote localNode id, thread =>
    cases thread <;> exact .read hFits hMade rfl fun h => h
  | .next _, .idle => exact .read hFits trivial rfl fun h => h
  | .next _, .rewarding writer profitSats => exact .read hFits trivial rfl fun h => h
  | .next _, .splitting .. => exact turned_splitting hFits hCurrent
  | .next _, .accrued writer splits pRewardBps accrual => exact .read hFits trivial rfl fun h => h
  | .next _, .working .. => exact turned_working hFits hCurrent
  | .next _, .numbering writer event => exact .read hFits trivial rfl fun h => h
  | .next _, .recording .. => exact turned_recording hFits hMade hCurrent
  | .next _, .returned answer => exact .read hFits trivial rfl fun h => h
  | .next _, .voting vote =>
    obtain ⟨hNext, hHashes⟩ := made_vote hMade s.ledger
    exact .still hFits hHashes hNext rfl fun h => h

end Turns

/-! ### Runs -/

section Runs

variable {measure} {s : SharedBooks} {turns : List (Nat × AccrualTurn)} {n : Nat}

/-- The books are of `u64`s, and the entries at hand are made as they should be. -/
def Sound (measure : String → String) : SharedBooks → Prop :=
  Threads.Holds (fun store => Fits store.economy) fun _ => Made measure

theorem Sound.turned {a : Nat × AccrualTurn} (h : Sound measure s) (hCurrent : Undisturbed s a) :
    Turned measure s.store (s.threads a.1) (entered s a)
      (AccrualThread.turn measure a.2 (s.threads a.1) s.store) :=
  turn_turned h.store (h.threads a.1) a.2 hCurrent

theorem Sound.step {a : Nat × AccrualTurn} (h : Sound measure s) (hCurrent : Undisturbed s a) :
    Sound measure (s.step measure a) := by
  obtain ⟨hFits, hMade, -⟩ := h.turned hCurrent
  -- an entry at hand relies on nothing of the store
  exact @Threads.Holds.step _ _ _ _ _ (fun _ => Made measure) (fun _ _ => True)
    (fun _ hThread => hThread) _ _ _ h ⟨hFits, hMade, trivial⟩

/-- What comes to the books is entered, or in flight. -/
theorem agrees_run {total : Nat} (h : Sound measure s) (hTotal : Threads.Total inFlight s total)
    (hTurns : Runs.EveryStep (step measure) Undisturbed s turns) :
    (Runs.run (step measure) s turns).store.ledger.chain.profitHashes =
      s.store.ledger.chain.profitHashes ++
        (Runs.emits (step measure) entered s turns).map (ProfitRecord.hash measure) ∧
    ∃ total', Threads.Total inFlight (Runs.run (step measure) s turns) total' ∧
      (Runs.run (step measure) s turns).store.economy.accruedProfitSats + total =
        s.store.economy.accruedProfitSats +
          ((Runs.emits (step measure) entered s turns).map (·.2.profitSats)).sum + total' := by
  induction turns generalizing s total with
  | nil => exact ⟨(List.append_nil _).symm, total, hTotal, rfl⟩
  | cons a turns ih =>
    obtain ⟨hCurrent, hRest⟩ := hTurns
    have hTurned := h.turned hCurrent
    -- what is in flight after the first turn
    obtain ⟨after, hAfter⟩ : ∃ after, after + inFlight (s.threads a.1) = total +
        inFlight (AccrualThread.turn measure a.2 (s.threads a.1) s.store).1 := by
      have hLe := hTotal.le a.1
      refine ⟨total - inFlight (s.threads a.1) +
        inFlight (AccrualThread.turn measure a.2 (s.threads a.1) s.store).1, ?_⟩
      omega
    have hTotal' : Threads.Total inFlight (s.step measure a) after := hTotal.step hAfter
    obtain ⟨hHashes, total', hLast, hAccrued⟩ := ih (h.step hCurrent) hTotal' hRest
    refine ⟨?_, total', hLast, ?_⟩
    · rw [Runs.run_cons, hHashes, Runs.emits, List.map_append, ← List.append_assoc]
      exact congrArg (· ++ _) hTurned.hashes
    · -- what is in flight moves from the first turn's account to the rest's
      have hFirst : (s.step measure a).store.economy.accruedProfitSats +
          inFlight (s.threads a.1) = _ := hTurned.accrued
      rw [Runs.run_cons, Runs.emits, List.map_append, List.sum_append]
      omega

/-- An execution that put an amount in the books does not answer Err. -/
theorem booked_run (h : Sound measure s)
    (hTurns : Runs.EveryStep (step measure) Undisturbed s turns) (hBooked : Booked (s.threads n)) :
    Booked ((Runs.run (step measure) s turns).threads n) := by
  induction turns generalizing s with
  | nil => exact hBooked
  | cons a turns ih =>
    obtain ⟨hCurrent, hRest⟩ := hTurns
    refine ih (h.step hCurrent) hRest ?_
    -- the turn is the execution's own, or it is not touched
    by_cases hn : n = a.1
    · subst hn
      rw [step, Threads.step_threads_self]
      exact (h.turned hCurrent).booked hBooked
    · rw [step, Threads.step_threads_ne _ _ _ _ hn]
      exact hBooked

/-- An execution put an amount in the books, or left them. -/
theorem leavesBooks_run (h : Sound measure s)
    (hTurns : Runs.EveryStep (step measure) Undisturbed s turns) :
    Booked ((Runs.run (step measure) s turns).threads n) ∨
      Runs.EveryStep (step measure) (LeavesBooks measure n) s turns := by
  induction turns generalizing s with
  | nil => exact .inr trivial
  | cons a turns ih =>
    obtain ⟨hCurrent, hRest⟩ := hTurns
    rcases ih (h.step hCurrent) hRest with hBooked | hLeaves
    · exact .inl hBooked
    -- the first turn that books decides
    by_cases hn : a.1 = n
    · rcases (h.turned hCurrent).books with hBooks | hBooked
      · exact .inr ⟨fun _ => hBooks, hLeaves⟩
      · subst hn
        have hAfter : Booked ((s.step measure a).threads a.1) := by
          rw [step, Threads.step_threads_self]
          exact hBooked
        have hLast := booked_run (h.step hCurrent) hRest hAfter
        exact .inl hLast
    · exact .inr ⟨fun hSame => absurd hSame hn, hLeaves⟩

end Runs

/--
**Money and ledger agree.** From any books and any ledger, interleaved accruals,
votes and other writes that are not disturbed leave the books with the profits that
they entered in the ledger, and none that is refused changes the books.
-/
theorem moneyAgrees_of_undisturbed (measure : String → String) (s : LedgerNode)
    (hFits : Fits s.economy) (turns : List (Nat × AccrualTurn))
    (h : Runs.EveryStep (step measure) Undisturbed (start s) turns) :
    MoneyAgrees measure s turns := by
  have hSound : Sound measure (start s) := ⟨hFits, fun _ => trivial⟩
  obtain ⟨hEntries, total, hTotal, hAccrued⟩ :=
    agrees_run hSound (Threads.total_zero fun _ => rfl) h
  -- where nothing is in flight the profits agree, and a refused execution accrued none
  refine ⟨hEntries, fun hQuiet => ?_, fun n e hReturned => ?_⟩
  · -- at rest nothing is in flight
    have hNothing : total = 0 := hTotal.eq_zero fun n => by
      rcases hQuiet n with hIdle | ⟨answer, hAnswer⟩ | ⟨vote, hVote⟩
      · rw [hIdle]
        rfl
      · rw [hAnswer]
        rfl
      · rw [hVote]
        rfl
    rw [hNothing] at hAccrued
    exact hAccrued
  · -- a refused execution never booked
    rcases leavesBooks_run (n := n) hSound h with hBooked | hLeaves
    · rw [hReturned] at hBooked
      obtain ⟨r, hr⟩ := hBooked
      cases hr
    · exact hLeaves

/-! ### Two accruals at once -/

/-- A node that has just begun, with the splits of its constitution. -/
def freshNode : LedgerNode :=
  ⟨.genesis SharedLedger.plainHash ⟨"law", ⟨4000, 3000, 3000⟩⟩ 1 100 [⟨"v1"⟩] ⟨"v1"⟩ "genesis", soloBooks⟩

/-- The accrual of 100 and then a vote that is refused, as many turns of each as are needed. -/
def accrualsInTurn : List (Nat × AccrualTurn) :=
  [(0, .startRewards ⟨"v1"⟩ (toU64 100)), (1, .startVote ⟨"v1"⟩ "p1")] ++
    List.replicate 7 (0, .next (.ok ())) ++ List.replicate 3 (1, .next (.ok ()))

theorem moneyAgrees_inTurn : MoneyAgrees SharedLedger.plainHash freshNode accrualsInTurn :=
  moneyAgrees_of_undisturbed SharedLedger.plainHash freshNode ⟨by decide, by decide, by decide, by decide⟩
    accrualsInTurn (by decide +kernel)

/-- Both accrue, and both read the head before either appends. -/
def overlappingAccruals : List (Nat × AccrualTurn) :=
  [(0, .startRewards ⟨"v1"⟩ (toU64 100)), (1, .startRewards ⟨"v1"⟩ (toU64 100))] ++
    List.replicate 6 (0, .next (.ok ())) ++ List.replicate 7 (1, .next (.ok ())) ++
    [(0, .next (.ok ()))]

theorem moneyAgrees_fails :
    ¬ MoneyAgrees SharedLedger.plainHash freshNode overlappingAccruals := by
  intro h
  have hQuiet : Quiet (Runs.run (step SharedLedger.plainHash) (start freshNode)
      overlappingAccruals) := by
    -- every execution is one of the two
    have hTwo : ∀ a ∈ overlappingAccruals, a.1 < 2 := by decide
    intro n
    match n with
    | 0 => exact .inr (.inl ⟨_, rfl⟩)
    | 1 => exact .inr (.inl ⟨_, rfl⟩)
    | n + 2 =>
      refine .inl (Threads.run_threads_of_ne _ (start freshNode) fun a ha => ?_)
      have := hTwo a ha
      omega
  have hBooks := h.agrees hQuiet
  revert hBooks
  decide +kernel

end SharedBooks

end KeroseneVault
