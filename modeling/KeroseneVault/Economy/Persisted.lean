import KeroseneVault.Economy.Snapshot
import KeroseneVault.Lib.Threads

/-!
# The economy in memory and in its file

A call of `PersistedEconomy` changes the economy under the lock. It then takes the
lock once more to copy it, and writes the text of the copy without the lock. Between
any of these another call can do the same, and a write can fail, before its rename
or after it.

* `PersistCall`, `PersistCall.turn` — a call, as far as it has come;
* `Faithful` — where no call is under way, the file is loaded as what is in memory,
  and a call that failed has changed nothing;
* `PersistInOrder` — a write is of the economy as it is, or leaves that to another call,
  and does not fail a call that has changed the economy.

Main results:

* `EconomyKept.step` — a turn in order keeps the file or leaves it to a call;
* `faithful_of_inOrder` — memory and file agree along every run in order.
-/

namespace KeroseneVault

/-! ## Calls -/

/-- Where a call stands. `changed` says whether it changed the economy, or its file. -/
inductive PersistCall where
  | idle
  | called (call : EconomyCall)
  | copying (changed : Bool)
  | writing (changed : Bool) (json : String)
  | returned (answer : Outcome) (changed : Bool)

inductive PersistInput where
  | start (call : EconomyCall)
  | next (write : DiskWrite)

/-- `PersistedEconomy`, with what is in its file. -/
structure PersistedEconomy where
  economy : MinerEconomy
  file : String

namespace PersistCall

/-- One step: the change, the copy or the write. -/
def turn : PersistInput → PersistCall → PersistedEconomy → PersistCall × PersistedEconomy
  | .start call, .idle, s => (.called call, s)
  | .start call, .returned .., s => (.called call, s)
  | .start _, thread, s => (thread, s)
  | .next _, .called call, s =>
    match call.run s.economy with
    | (.error e, economy) => (.returned (.error e) (economy != s.economy), { s with economy })
    | (.ok (), economy) => (.copying (economy != s.economy), { s with economy })
  | .next _, .copying changed, s => (.writing changed (serializeEconomy s.economy), s)
  | .next write, .writing changed json, s =>
    (.returned (EconomyBooks.persist write.answer) (changed || (write.lands && json != s.file)),
      { s with file := if write.lands then json else s.file })
  | .next _, thread, s => (thread, s)

/-- No call is under way. -/
def AtRest : PersistCall → Prop
  | .idle | .returned .. => True
  | _ => False

/-- The call is still to write what is in memory. -/
def Promises (text : String) : PersistCall → Prop
  | .copying _ => True
  | .writing _ json => json = text
  | _ => False

end PersistCall

abbrev PersistedState := Threads.State PersistedEconomy PersistCall

/-- An economy as `open` has it: it can be loaded from its file. -/
structure OpenedEconomy where
  economy : MinerEconomy
  kept : economy.Kept
  printable : economy.Printable

/-- `open`, which writes the file. -/
def PersistedState.start (e : OpenedEconomy) : PersistedState :=
  { store := { economy := e.economy, file := serializeEconomy e.economy }
    threads := fun _ => .idle }

/-- One interleaving of the calls. -/
abbrev PersistedState.step (s : PersistedState) (a : ℕ × PersistInput) : PersistedState :=
  Threads.step PersistCall.turn s a

/-- Memory and file agree once all calls have returned, and one that failed changed neither. -/
structure Faithful (serde : SerdeJson) (s : PersistedState) : Prop where
  agrees : (∀ n, (s.threads n).AtRest) → loadEconomy serde s.store.file = .ok s.store.economy
  untouched : ∀ n e changed, s.threads n = .returned (.error e) changed → changed = false

/-- The call brings no control character. -/
def EconomyCall.Printable : EconomyCall → Prop
  | .upsertOperator op => Json.Clear op.nodeId.text ∧ Json.Clear op.payoutDestination
  | _ => True

/-- Another call than `n` is still to write what is in memory. -/
def PersistedState.LeftToOthers (s : PersistedState) (n : ℕ) : Prop :=
  ∃ m, m ≠ n ∧ (s.threads m).Promises (serializeEconomy s.store.economy)

/-- What is written is what is in memory, or another call is still to write that. Where the
write fails, its call has changed nothing, the write neither, and the file is as it should be
without it. -/
def PersistInOrder (s : PersistedState) : ℕ × PersistInput → Prop
  | (_, .start call) => call.Printable
  | (n, .next write) => ∀ changed json, s.threads n = .writing changed json →
    if write.answer = .ok () then
      json = serializeEconomy s.store.economy ∨ s.LeftToOthers n
    else
      changed = false ∧ (write.renamed = true → json = s.store.file) ∧
        (s.store.file = serializeEconomy s.store.economy ∨ s.LeftToOthers n)

/-! ## The invariant -/

section Printable

variable {economy : MinerEconomy}

theorem MinerEconomy.Printable.of_operators {economy' : MinerEconomy} (h : economy.Printable)
    (hEq : economy'.operators = economy.operators) : economy'.Printable := by
  unfold MinerEconomy.Printable
  rwa [hEq]

theorem MinerEconomy.operators_accrueProfitSplits (profitSats : U64) (splits : ProfitSplits) :
    (economy.accrueProfitSplits profitSats splits).2.operators = economy.operators := by
  unfold MinerEconomy.accrueProfitSplits
  split
  · rfl
  · rfl

theorem MinerEconomy.operators_accrueFromProfit (profitSats : U64) (pRewardBps : U32) :
    (economy.accrueFromProfit profitSats pRewardBps).2.operators = economy.operators := by
  unfold MinerEconomy.accrueFromProfit
  split
  · rfl
  · rename_i splits _
    have hOperators := economy.operators_accrueProfitSplits profitSats splits
    split
    · rename_i hEq
      rwa [hEq] at hOperators
    · rename_i hEq
      rwa [hEq] at hOperators

theorem MinerEconomy.operators_foldl_credit (shares : List (NodeId × ℕ)) :
    (shares.foldl credit economy).operators = economy.operators := by
  induction shares generalizing economy with
  | nil => rfl
  | cons share rest ih => exact ih

theorem MinerEconomy.operators_accrueGovernanceJob (job : GovernanceJobKind)
    (participants : List NodeId) (config : GovernanceRewardConfig) :
    (economy.accrueGovernanceJob job participants config).2.operators = economy.operators := by
  unfold MinerEconomy.accrueGovernanceJob
  dsimp only
  split
  · rfl
  · exact operators_foldl_credit _

theorem MinerEconomy.operators_debitPool (amount : U64) :
    (economy.debitPool amount).2.operators = economy.operators := by
  unfold MinerEconomy.debitPool
  split
  · rfl
  · rfl

/-- A call that brings no control character leaves none. -/
theorem MinerEconomy.Printable.run (h : economy.Printable) {call : EconomyCall}
    (hCall : call.Printable) : (call.run economy).2.Printable := by
  -- operators come in by one call, whose operator is printable
  cases call with
  | upsertOperator op =>
    show (economy.upsertOperator op).2.Printable
    unfold MinerEconomy.upsertOperator
    split
    · exact h
    · intro e he
      rcases SortedMap.mem_of_mem_insertEntry he with rfl | hOld
      · exact hCall
      · exact h e hOld
  | accrueFromProfit profitSats pRewardBps =>
    exact h.of_operators (economy.operators_accrueFromProfit profitSats pRewardBps)
  | accrueProfitSplits profitSats splits =>
    exact h.of_operators (economy.operators_accrueProfitSplits profitSats splits)
  | accrueGovernanceJob job participants config =>
    exact h.of_operators (economy.operators_accrueGovernanceJob job participants config)
  | debitPool amount => exact h.of_operators (economy.operators_debitPool amount)
  | recordMinerPayout atSecs epoch => exact h.of_operators rfl

end Printable

/-- A write that fails and lands has renamed. -/
theorem DiskWrite.renamed_of_lands (w : DiskWrite) (hFails : w.answer ≠ .ok ())
    (hLands : w.lands = true) : w.renamed = true := by
  unfold lands at hLands
  cases hAnswer : w.answer with
  | ok u => exact absurd hAnswer hFails
  | error e =>
    rw [hAnswer] at hLands
    exact hLands

/-- What a call still brings, or what it answered. -/
def PersistCall.Sound : PersistCall → Prop
  | .called call => call.Printable
  | .returned (.error _) changed => changed = false
  | _ => True

/-- The file is that of the economy, or a call is still to write it. -/
def PersistedState.Promised (s : PersistedState) : Prop :=
  s.store.file = serializeEconomy s.store.economy ∨
    ∃ m, (s.threads m).Promises (serializeEconomy s.store.economy)

structure EconomyKept (s : PersistedState) : Prop where
  kept : s.store.economy.Kept
  printable : s.store.economy.Printable
  promised : s.Promised
  sound : ∀ n, (s.threads n).Sound

namespace EconomyKept

variable {s : PersistedState} {n : ℕ}

theorem start (e : OpenedEconomy) : EconomyKept (.start e) :=
  ⟨e.kept, e.printable, .inl rfl, fun _ => trivial⟩

/-- At rest, the file is that of the economy, and it can be loaded. -/
theorem faithful (h : EconomyKept s) (serde : SerdeJson) : Faithful serde s := by
  refine ⟨fun hRest => ?_, fun n e changed hReturned => ?_⟩
  · rcases h.promised with hFile | ⟨m, hPromises⟩
    · rw [hFile]
      exact loadEconomy_printable serde h.kept h.printable
    · -- a call that is to write is under way
      have hAtRest := hRest m
      cases hCall : s.threads m with
      | copying changed =>
        rw [hCall] at hAtRest
        exact hAtRest.elim
      | writing changed json =>
        rw [hCall] at hAtRest
        exact hAtRest.elim
      | idle | called | returned =>
        rw [hCall] at hPromises
        exact hPromises.elim
  · have hSound := h.sound n
    rw [hReturned] at hSound
    exact hSound

/-- A turn that leaves economy and file, and keeps what its call is to write. -/
theorem turn_same {input : PersistInput} {call' : PersistCall} (h : EconomyKept s)
    (hTurn : PersistCall.turn input (s.threads n) s.store = (call', s.store))
    (hSound : call'.Sound)
    (hPromises : (s.threads n).Promises (serializeEconomy s.store.economy) →
      call'.Promises (serializeEconomy s.store.economy)) :
    EconomyKept (s.step (n, input)) := by
  have hStore : (s.step (n, input)).store = s.store := by
    rw [Threads.step_store, hTurn]
  have hSelf : (s.step (n, input)).threads n = call' := by
    rw [Threads.step_threads_self, hTurn]
  -- what the other calls had promised they promise still
  refine ⟨hStore ▸ h.kept, hStore ▸ h.printable, ?_, fun m => ?_⟩
  · unfold PersistedState.Promised
    rw [hStore]
    refine h.promised.imp_right ?_
    rintro ⟨m, hm⟩
    refine ⟨m, ?_⟩
    by_cases hEq : m = n
    · subst hEq
      rw [hSelf]
      exact hPromises hm
    · rwa [Threads.step_threads_ne _ s n input hEq]
  · refine Threads.forall_step _ s n input ?_ (fun m _ => h.sound m) m
    rw [hTurn]
    exact hSound

/-- The change of a call. -/
theorem changed {call : EconomyCall} {write : DiskWrite} (h : EconomyKept s)
    (hCall : s.threads n = .called call) : EconomyKept (s.step (n, .next write)) := by
  have hPrintable : call.Printable := by
    have hSound := h.sound n
    rwa [hCall] at hSound
  cases hRun : (call.run s.store.economy).1 with
  | error e =>
    -- a refusal leaves the economy
    have hSame := EconomyCall.run_error hRun
    have hTurn : PersistCall.turn (.next write) (s.threads n) s.store =
        (.returned (.error e) false, s.store) := by
      have hPair : call.run s.store.economy = (.error e, s.store.economy) := Prod.ext hRun hSame
      rw [hCall]
      simp only [PersistCall.turn, hPair, bne_self_eq_false]
    refine h.turn_same hTurn rfl fun hPromises => ?_
    rw [hCall] at hPromises
    exact hPromises.elim
  | ok u =>
    have hPair : call.run s.store.economy = (.ok (), (call.run s.store.economy).2) :=
      Prod.ext hRun rfl
    have hTurn : PersistCall.turn (.next write) (s.threads n) s.store =
        (.copying ((call.run s.store.economy).2 != s.store.economy),
          { s.store with economy := (call.run s.store.economy).2 }) := by
      rw [hCall]
      unfold PersistCall.turn
      dsimp only
      rw [hPair]
    have hStore : (s.step (n, .next write)).store =
        { s.store with economy := (call.run s.store.economy).2 } := by
      rw [Threads.step_store, hTurn]
    have hSelf : (s.step (n, .next write)).threads n =
        .copying ((call.run s.store.economy).2 != s.store.economy) := by
      rw [Threads.step_threads_self, hTurn]
    refine ⟨hStore ▸ MinerEconomy.kept_run call h.kept, hStore ▸ h.printable.run hPrintable,
      .inr ⟨n, ?_⟩, fun m => ?_⟩
    · rw [hSelf]
      trivial
    · refine Threads.forall_step _ s n _ ?_ (fun m _ => h.sound m) m
      rw [hTurn]
      trivial

section Write

variable {ch : Bool} {json : String} {write : DiskWrite}

theorem turn_writing (hCall : s.threads n = .writing ch json) :
    PersistCall.turn (.next write) (s.threads n) s.store =
      (.returned (EconomyBooks.persist write.answer) (ch || (write.lands && json != s.store.file)),
        { s.store with file := if write.lands then json else s.store.file }) := by
  rw [hCall]
  rfl

/-- After a write in order the file is that of the economy, or left to another call. -/
theorem promised_wrote (hCall : s.threads n = .writing ch json)
    (hOrder : PersistInOrder s (n, .next write)) : (s.step (n, .next write)).Promised := by
  have hWrite := hOrder ch json hCall
  have hStore : (s.step (n, .next write)).store =
      { s.store with file := if write.lands then json else s.store.file } := by
    rw [Threads.step_store, turn_writing hCall]
  have hOthers : s.LeftToOthers n → (s.step (n, .next write)).Promised := by
    rintro ⟨m, hNe, hPromises⟩
    refine .inr ⟨m, ?_⟩
    rw [Threads.step_threads_ne _ s n _ hNe, hStore]
    exact hPromises
  -- a write that succeeds is of the memory as it is, or left to another call
  by_cases hOk : write.answer = .ok ()
  · have hLands : write.lands = true := by
      unfold DiskWrite.lands
      rw [hOk]
      rfl
    rw [if_pos hOk] at hWrite
    rcases hWrite with hJson | hLeft
    · left
      rw [hStore, hLands]
      exact hJson
    · exact hOthers hLeft
  · rw [if_neg hOk] at hWrite
    obtain ⟨-, hRenamed, hFile⟩ := hWrite
    rcases hFile with hFile | hLeft
    · -- a write that fails after its rename wrote what the file had
      left
      rw [hStore]
      show (if write.lands then json else s.store.file) = serializeEconomy s.store.economy
      split
      · rename_i hLands
        rw [hRenamed (write.renamed_of_lands hOk hLands), hFile]
      · exact hFile
    · exact hOthers hLeft

/-- A write in order that fails has changed nothing. -/
theorem sound_wrote (hCall : s.threads n = .writing ch json)
    (hOrder : PersistInOrder s (n, .next write)) :
    (PersistCall.turn (.next write) (s.threads n) s.store).1.Sound := by
  have hWrite := hOrder ch json hCall
  rw [turn_writing hCall]
  cases hAnswer : write.answer with
  | ok u => trivial
  | error e =>
    have hFails : write.answer ≠ .ok () := by
      rw [hAnswer]
      exact nofun
    rw [if_neg hFails] at hWrite
    obtain ⟨hUnchanged, hRenamed, -⟩ := hWrite
    show (ch || (write.lands && json != s.store.file)) = false
    rw [hUnchanged, Bool.false_or]
    cases hLands : write.lands with
    | false => rfl
    | true => rw [hRenamed (write.renamed_of_lands hFails hLands), bne_self_eq_false, Bool.and_false]

/-- The write of a call, in order. -/
theorem wrote (h : EconomyKept s) (hCall : s.threads n = .writing ch json)
    (hOrder : PersistInOrder s (n, .next write)) : EconomyKept (s.step (n, .next write)) := by
  have hEconomy : (s.step (n, .next write)).store.economy = s.store.economy := by
    rw [Threads.step_store, turn_writing hCall]
  refine ⟨hEconomy ▸ h.kept, hEconomy ▸ h.printable, promised_wrote hCall hOrder, fun m => ?_⟩
  exact Threads.forall_step _ s n _ (sound_wrote hCall hOrder) (fun m _ => h.sound m) m

end Write

/-- A turn in order keeps all of it. -/
theorem step (h : EconomyKept s) (a : ℕ × PersistInput) (hOrder : PersistInOrder s a) :
    EconomyKept (s.step a) := by
  obtain ⟨n, input⟩ := a
  have hUnchanged (hTurn : PersistCall.turn input (s.threads n) s.store =
      (s.threads n, s.store)) : EconomyKept (s.step (n, input)) :=
    h.turn_same hTurn (h.sound n) id
  cases input with
  | start call =>
    -- a call starts where none is under way
    have hStarts (hTurn : PersistCall.turn (.start call) (s.threads n) s.store =
        (.called call, s.store)) (hRest : (s.threads n).AtRest) :
        EconomyKept (s.step (n, .start call)) := by
      refine h.turn_same hTurn hOrder fun hPromises => ?_
      cases hCall : s.threads n with
      | idle | returned =>
        rw [hCall] at hPromises
        exact hPromises.elim
      | called | copying | writing =>
        rw [hCall] at hRest
        exact hRest.elim
    cases hCall : s.threads n with
    | idle => exact hStarts (by rw [hCall]; rfl) (by rw [hCall]; trivial)
    | returned answer changed => exact hStarts (by rw [hCall]; rfl) (by rw [hCall]; trivial)
    | called | copying | writing => exact hUnchanged (by rw [hCall]; rfl)
  | next write =>
    cases hCall : s.threads n with
    | idle => exact hUnchanged (by rw [hCall]; rfl)
    | returned answer changed => exact hUnchanged (by rw [hCall]; rfl)
    | called call => exact h.changed hCall
    | copying ch =>
      have hTurn : PersistCall.turn (.next write) (s.threads n) s.store =
          (.writing ch (serializeEconomy s.store.economy), s.store) := by
        rw [hCall]
        rfl
      exact h.turn_same hTurn trivial fun _ => rfl
    | writing ch json => exact h.wrote hCall hOrder

end EconomyKept

/-! ## Runs of calls -/

/-- Along every run in order, memory and file agree whenever no call is under way, and calls that
failed have changed nothing. -/
theorem faithful_of_inOrder (serde : SerdeJson) (e : OpenedEconomy)
    (actions : List (ℕ × PersistInput))
    (h : Runs.EveryStep PersistedState.step PersistInOrder (.start e) actions) :
    Runs.EveryState PersistedState.step (Faithful serde) (.start e) actions :=
  (Runs.EveryState.of_everyStep (fun _ a hKept hOrder => hKept.step a hOrder)
    (EconomyKept.start e) h).mono fun _ hKept => hKept.faithful serde

/-- An open economy, just opened. -/
def newEconomy : OpenedEconomy := ⟨.newOpen, MinerEconomy.kept_newOpen, nofun⟩

/-- A payout is recorded, by one call after the other. -/
def recorded (n atSecs : ℕ) : ℕ × PersistInput :=
  (n, .start (.recordMinerPayout (toU64 atSecs) none))

/-- Two calls under way at once: the second has not changed the economy yet when the first
one writes, and writes last itself. -/
theorem faithful_of_inOrder_two :
    Runs.EveryState PersistedState.step (Faithful compactJson) (.start newEconomy)
      [recorded 0 1, recorded 1 2, (0, .next .done), (0, .next .done), (0, .next .done),
        (1, .next .done), (1, .next .done), (1, .next .done)] := by
  apply faithful_of_inOrder
  have hDone : DiskWrite.done.answer = .ok () := rfl
  -- of the turns in order, the two that write are the ones to check
  refine ⟨trivial, trivial, nofun, nofun, fun _ _ hCall => ?_, nofun, nofun,
    fun _ _ hCall => ?_, trivial⟩
  · cases hCall
    rw [if_pos hDone]
    exact .inl rfl
  · cases hCall
    rw [if_pos hDone]
    exact .inl rfl

/-- Two calls, of which the one that changed the economy first writes last. -/
def staleRun : List (ℕ × PersistInput) :=
  [recorded 0 1, recorded 1 2, (0, .next .done), (0, .next .done), (1, .next .done),
    (1, .next .done), (1, .next .done), (0, .next .done)]

/-- Both have answered Ok, and the file has the economy before the second. -/
theorem faithful_of_inOrder_fails :
    ¬ Runs.EveryState PersistedState.step (Faithful compactJson) (.start newEconomy) staleRun := by
  intro h
  have hLast := h.last.agrees fun n => match n with
    | 0 => trivial
    | 1 => trivial
    | n + 2 => trivial
  have hStale : MinerEconomy.Kept (MinerEconomy.newOpen.recordMinerPayout (toU64 1) none) :=
    MinerEconomy.kept_newOpen.of_eq rfl rfl rfl
  have hLoads := loadEconomy_printable compactJson hStale nofun
  have hFile : (Runs.run PersistedState.step (.start newEconomy) staleRun).store.file =
      serializeEconomy (MinerEconomy.newOpen.recordMinerPayout (toU64 1) none) := rfl
  rw [hFile, hLoads] at hLast
  have hTime := congrArg MinerEconomy.lastMinerPayoutAtSecs (Except.ok.inj hLast)
  exact absurd hTime (by decide)

end KeroseneVault
