import KeroseneVault.Ledger.DurableLedger
import KeroseneVault.Lib.Runs

/-!
# What the log of consumed intents gives back

One ledger over its life: calls, prepares of peers, and reopenings of the log file. An
append may break off at any byte of its line; the next one goes on right there, so that a
line may be glued together from several ids, and a reopening reads what it finds. Where
an append broke off within a character, the file is no text any more: a reopening fails,
and there is no ledger from then on.

Beside the ledger stand the ids for which a consuming call returned Ok, and the ids that
were burned by one or by a prepare.

In memory an id is a text, and in the file it is a line among others; the way back goes
through trimming, through a filter, and through whatever the lines have become. So the
promise that an id is not consumed twice holds within a life of the process by the table,
and across lives by the file. `ReadsBack` is a condition on the file in front of a
reopening: that each id that was consumed with Ok stands alone on a line of it, and that
nothing that was written reads as an id that was not burned.

* `ConsumedLog.step` — one call, or a reopening;
* `RoundTrip` — what was consumed with Ok is refused ever after, and nothing is
  consumed that was not burned;
* `ReadsBack` — the writes that a reopening may find.

Main results:

* `roundTrip_reopen_iff` — a reopening keeps the round trip exactly when it finds such
  writes;
* `roundTrip_iff` — a life keeps it exactly when each of its reopenings does.
-/

namespace KeroseneVault

open LineLog

/-! ## The life of a ledger -/

/-- A ledger, the ids for which a consuming call returned Ok, and the ids burned by one
or by a prepare. There is no ledger once a reopening has failed: what it read is still
there, and no later one reads it either. -/
structure ConsumedLog where
  ledger : Option (DurableLedger LogFile)
  spent : Finset String
  burned : Finset String

/-- A call of the port, of a peer, or a reopening of the log. -/
inductive LogCall where
  | perform (now : Nat) (disk : TearingDisk) (op : LedgerOp)
  | recordSpend (kind : BucketKind) (amount : Nat)
  | prepareConsume (disk : TearingDisk) (id : String)
  | prepareSoft (now : Nat) (id : String)
  | admitDestinations (kind : BucketKind) (dests : List String)
  | reopen (maxTx maxDay : Nat)

namespace ConsumedLog

open DurableLedger

/-- `append_consumed` on the file. -/
def append (disk : TearingDisk) : String → LogFile → Outcome × LogFile :=
  appendFile "intent-consume" disk

/-- After a call that may burn the id. -/
def record (s : ConsumedLog) (id : String) (spends granted : Bool)
    (l : DurableLedger LogFile) : ConsumedLog where
  ledger := some l
  spent := if spends && granted then insert id s.spent else s.spent
  burned := if granted then insert id s.burned else s.burned

/-- One call on the ledger. -/
def call (s : ConsumedLog) (l : DurableLedger LogFile) : LogCall → ConsumedLog
  | .perform now disk op =>
    let answer := l.perform (append disk) now op
    match op.consumes with
    | some id => s.record id true (decide (answer.1 = .ok ())) answer.2
    | none => { s with ledger := some answer.2 }
  | .recordSpend kind amount =>
    { s with ledger := some { l with inner := l.inner.recordSpend kind amount } }
  | .prepareConsume disk id =>
    let answer := l.prepareConsume (append disk) id
    s.record id false (decide (answer.1 = .ok false)) answer.2
  | .prepareSoft now id => { s with ledger := some (l.prepareSoft now id).2 }
  | .admitDestinations kind dests => { s with ledger := some (l.admitDestinations kind dests).2 }
  | .reopen maxTx maxDay => { s with ledger := (openFile l.log maxTx maxDay).toOption }

def step (s : ConsumedLog) (c : LogCall) : ConsumedLog :=
  match s.ledger with
  | none => s
  | some l => s.call l c

/-- A ledger on a log file that does not exist yet. -/
def start (maxTx maxDay : Nat) : ConsumedLog := ⟨(openFile .empty maxTx maxDay).toOption, ∅, ∅⟩

/-! ## The round trip -/

/-- `SettlementIntent::new` accepts the id. -/
def Accepted (id : String) : Prop :=
  ∃ bucket destination amount policyHash intent,
    SettlementIntent.new id bucket destination amount policyHash = .ok intent

/-- The ledger has the id consumed and refuses it. -/
structure Refuses (l : DurableLedger LogFile) (id : String) : Prop where
  isConsumed : l.isConsumed id = true
  tryConsume : ∀ disk, (l.tryConsume (append disk) id).1 ≠ .ok ()
  reserveSpend : ∀ now kind amount validate,
    (l.onInner (BucketState.reserveSpend now id kind amount validate)).1 ≠ .ok ()
  authorize : ∀ disk kind amount validate,
    (l.authorizeSpendAndConsume (append disk) id kind amount validate).1 ≠ .ok ()

/-- An intent id that was consumed with Ok is refused, and no id is consumed
that was not burned. -/
structure RoundTrip (s : ConsumedLog) : Prop where
  kept : ∀ l, s.ledger = some l → ∀ id ∈ s.spent, Accepted id → Refuses l id
  genuine : ∀ l, s.ledger = some l → l.inner.consumed ⊆ s.burned

/-- No blank at either end, and no `#` in front. -/
def Plain (id : String) : Prop := strTrim id = id ∧ id.toList.head? ≠ some '#'

instance (id : String) : Decidable (Plain id) := inferInstanceAs (Decidable (_ ∧ _))

/-- Every line of the record is blank, a comment, or one of these ids between
blanks. -/
def ReadsOnly (ids : Finset String) (e : List Char) : Prop :=
  ∀ line ∈ lines (e ++ ['\n']), trim line = [] ∨ (trim line).head? = some '#' ∨
    String.ofList (trim line) ∈ ids

/-- At a reopening that does not fail: the intent ids that were consumed with Ok are
plain and stand alone in the log, and what was written reads only as ids that were
burned. -/
def ReadsBack (s : ConsumedLog) : LogCall → Prop
  | .reopen _ _ => ∀ l, s.ledger = some l → l.log.readable = true →
    (∀ id ∈ s.spent, Accepted id → Plain id ∧ l.log.StandsAlone id.toList) ∧
      ∀ e ∈ l.log.entries, ReadsOnly s.burned e
  | _ => True

/-- A consumed id is what the ledger refuses. -/
theorem refuses_iff {l : DurableLedger LogFile} {id : String} :
    Refuses l id ↔ id ∈ l.inner.consumed := by
  constructor
  · intro h
    simpa [DurableLedger.isConsumed] using h.isConsumed
  · intro h
    refine ⟨by simpa [DurableLedger.isConsumed] using h, fun disk => ?_,
      fun now kind amount validate => ?_, fun disk kind amount validate => ?_⟩
    · simp [DurableLedger.tryConsume, h]
    · simp [onInner, BucketState.reserveSpend, h]
    · simp [authorizeSpendAndConsume, h]

theorem strTrim_eq_self_iff {id : String} : strTrim id = id ↔ trim id.toList = id.toList := by
  rw [strTrim, ← String.toList_inj, String.toList_ofList]

/-- An intent id comes back from the log exactly when it is plain. -/
theorem survivesLog_iff {id : String} (h : Accepted id) : PersistedBucketLedger.SurvivesLog id ↔ Plain id := by
  obtain ⟨bucket, destination, amount, policyHash, intent, hNew⟩ := h
  unfold SettlementIntent.new at hNew
  rw [Plain, strTrim_eq_self_iff]
  constructor
  · intro hSurvives
    have hKept := hSurvives.kept
    rw [keepIntentLine, Bool.and_eq_true] at hKept
    exact ⟨hSurvives.trimmed, by simpa using hKept.2⟩
  · rintro ⟨hTrim, hHead⟩
    by_cases hBlank : strTrim id = ""
    · rw [if_pos hBlank] at hNew
      cases hNew
    rw [if_neg hBlank] at hNew
    split at hNew
    · cases hNew
    by_cases hIllegal : id.toList.any (fun c => isControl c || c == '/' || c == '\\') = true
    · rw [if_pos hIllegal] at hNew
      cases hNew
    rw [List.any_eq_true] at hIllegal
    -- a newline is a control character
    have hLine : '\n' ∉ id.toList := fun hMem => hIllegal ⟨'\n', hMem, by decide⟩
    have hNe : id.toList ≠ [] := by
      intro hNil
      rw [strTrim_eq_self_iff.mpr hTrim] at hBlank
      exact hBlank (String.toList_eq_nil_iff.mp hNil)
    exact ⟨hLine, hTrim, by simp [keepIntentLine, hNe, hHead]⟩

/-! ## What a reopening reads -/

/-- A record reads only as these ids exactly when all a restart makes of it are
among them. -/
theorem readsOnly_iff {ids : Finset String} {e : List Char} :
    ReadsOnly ids e ↔ ∀ x : String, x.toList ∈ readBack keepIntentLine e → x ∈ ids := by
  constructor
  · intro h x hx
    obtain ⟨hMem, hKeep⟩ := List.mem_filter.mp hx
    obtain ⟨line, hLine, hEq⟩ := List.mem_map.mp hMem
    rw [keepIntentLine, Bool.and_eq_true] at hKeep
    rw [← hEq] at hKeep
    rcases h line hLine with hBlank | hComment | hIn
    · simp [hBlank] at hKeep
    · simp [hComment] at hKeep
    · rwa [hEq, String.ofList_toList] at hIn
  · intro h line hLine
    by_cases hBlank : trim line = []
    · exact .inl hBlank
    by_cases hComment : (trim line).head? = some '#'
    · exact .inr (.inl hComment)
    refine .inr (.inr (h _ ?_))
    rw [String.toList_ofList]
    refine List.mem_filter.mpr ⟨List.mem_map_of_mem hLine, ?_⟩
    simp [keepIntentLine, hBlank, hComment]

/-- A reopening reads an id back where some record of the log reads as it. -/
theorem mem_loadFile_iff {file : LogFile} {id : String} :
    id ∈ loadFile file ↔ ∃ e ∈ file.entries, id.toList ∈ readBack keepIntentLine e := by
  rw [mem_loadFile, LogFile.mem_load_iff rfl]

/-- An intent id is read back exactly when it is plain and stands alone. -/
theorem mem_loadFile_iff_plain {file : LogFile} {id : String} (h : Accepted id) :
    id ∈ loadFile file ↔ Plain id ∧ file.StandsAlone id.toList := by
  rw [mem_loadFile, LogFile.mem_load_iff_alone rfl]
  exact and_congr_left fun _ => survivesLog_iff h

/-! ## What a call keeps -/

section Record

variable {s : ConsumedLog} {disk : TearingDisk} {id : String} {granted : Bool}
  {l l' : DurableLedger LogFile}

/-- No call that may burn an id forgets one. -/
theorem consumed_subset_of_effect (h : Effect (append disk) id l l' granted) :
    l.inner.consumed ⊆ l'.inner.consumed := by
  rcases h with ⟨hConsumed, -, -⟩ | ⟨hConsumed, -, -⟩ | ⟨hConsumed, -, -⟩
  · rw [hConsumed]
  · rw [hConsumed]
  · rw [hConsumed]
    exact Finset.subset_insert ..

/-- A call that is granted leaves its id consumed: it was, or it has been written. -/
theorem mem_consumed_of_effect (h : Effect (append disk) id l l' granted)
    (hGranted : granted = true) : id ∈ l'.inner.consumed := by
  rcases h with ⟨hConsumed, -, hSeen⟩ | ⟨-, -, hFail⟩ | ⟨hConsumed, -, -⟩
  · rw [hConsumed]
    exact hSeen hGranted
  · rw [hGranted] at hFail
    cases hFail
  · rw [hConsumed]
    exact Finset.mem_insert_self ..

/-- A call that has one of the effects keeps the round trip. -/
theorem RoundTrip.record (h : RoundTrip s) (hLedger : s.ledger = some l)
    (hEffect : Effect (append disk) id l l' granted) (spends : Bool) :
    RoundTrip (s.record id spends granted l') := by
  have hGrows := consumed_subset_of_effect hEffect
  refine ⟨fun m hm x hx hAccepted => refuses_iff.mpr ?_, fun m hm x hx => ?_⟩
  · obtain rfl := Option.some.inj hm
    have hOld : x ∈ s.spent → x ∈ l'.inner.consumed := fun hx =>
      hGrows (refuses_iff.mp (h.kept l hLedger x hx hAccepted))
    unfold ConsumedLog.record at hx
    dsimp only at hx
    split at hx
    · rename_i hSpends
      rw [Bool.and_eq_true] at hSpends
      rcases Finset.mem_insert.mp hx with rfl | hx
      · exact mem_consumed_of_effect hEffect hSpends.2
      · exact hOld hx
    · exact hOld hx
  · obtain rfl := Option.some.inj hm
    -- nothing is in the set that no call has burned
    show x ∈ if granted then insert id s.burned else s.burned
    have hBurned : s.burned ⊆ if granted then insert id s.burned else s.burned := by
      split
      · exact Finset.subset_insert ..
      · exact subset_rfl
    have hOld := h.genuine l hLedger
    rcases hEffect with ⟨hConsumed, -, -⟩ | ⟨hConsumed, -, -⟩ | ⟨hConsumed, -, hOk⟩
    · exact hBurned (hOld (hConsumed ▸ hx))
    · exact hBurned (hOld (hConsumed ▸ hx))
    · rw [hConsumed, Finset.mem_insert] at hx
      rcases hx with rfl | hx
      · rw [if_pos hOk]
        exact Finset.mem_insert_self ..
      · exact hBurned (hOld hx)

/-- A call that leaves the consumed ids. -/
theorem RoundTrip.quiet (h : RoundTrip s) (hLedger : s.ledger = some l)
    (hConsumed : l'.inner.consumed = l.inner.consumed) :
    RoundTrip { s with ledger := some l' } := by
  refine ⟨fun m hm x hx hAccepted => refuses_iff.mpr ?_, fun m hm => ?_⟩
  · obtain rfl := Option.some.inj hm
    rw [hConsumed]
    exact refuses_iff.mp (h.kept l hLedger x hx hAccepted)
  · obtain rfl := Option.some.inj hm
    rw [hConsumed]
    exact h.genuine l hLedger

end Record

/-- Every call but a reopening is quiet or has an effect, and the condition asks
nothing of it. -/
theorem call_cases (s : ConsumedLog) (l : DurableLedger LogFile) (c : LogCall) :
    (∃ maxTx maxDay, c = .reopen maxTx maxDay) ∨
    (∃ l' : DurableLedger LogFile, s.ReadsBack c ∧ s.call l c = { s with ledger := some l' } ∧
      l'.inner.consumed = l.inner.consumed) ∨
    ∃ disk id spends granted l', s.ReadsBack c ∧ s.call l c = s.record id spends granted l' ∧
      Effect (append disk) id l l' granted := by
  cases c with
  | reopen maxTx maxDay => exact .inl ⟨maxTx, maxDay, rfl⟩
  | recordSpend kind amount => exact .inr (.inl ⟨_, trivial, rfl, rfl⟩)
  | prepareConsume disk id =>
    exact .inr (.inr ⟨disk, id, false, _, _, trivial, rfl, prepareConsume_effect (append disk) id l⟩)
  | perform now disk op =>
    -- of the ledger's operations three consume, and the others keep the set and the log
    cases hOp : op.consumes with
    | none =>
      have hQuiet := perform_quiet (append disk) now l hOp
      exact .inr (.inl ⟨_, trivial, by simp only [call, hOp], hQuiet.1⟩)
    | some id =>
      exact .inr (.inr ⟨disk, id, true, _, _, trivial, by simp only [call, hOp],
        perform_effect (append disk) now l hOp⟩)
  | prepareSoft now id => exact .inr (.inl ⟨_, trivial, rfl, (prepareSoft_quiet now id l).1⟩)
  | admitDestinations kind dests =>
    exact .inr (.inl ⟨_, trivial, rfl, (admitDestinations_quiet kind dests l).1⟩)

/-- **A reopening** keeps the round trip exactly when the writes read back. -/
theorem roundTrip_reopen_iff {s : ConsumedLog} {l : DurableLedger LogFile}
    (hLedger : s.ledger = some l) (maxTx maxDay : Nat) :
    RoundTrip (s.call l (.reopen maxTx maxDay)) ↔ s.ReadsBack (.reopen maxTx maxDay) := by
  -- a file that is no text leaves no ledger to ask
  by_cases hText : l.log.readable = true
  swap
  · -- the file is no text, and there is no ledger
    have hNone : (s.call l (.reopen maxTx maxDay)).ledger = none := by
      show (openFile l.log maxTx maxDay).toOption = none
      rw [openFile, if_neg hText]
      rfl
    refine iff_of_true ⟨fun m hm => ?_, fun m hm => ?_⟩ fun m hm hRead => ?_
    · rw [hNone] at hm
      cases hm
    · rw [hNone] at hm
      cases hm
    · obtain rfl := Option.some.inj (hLedger.symm.trans hm)
      exact absurd hRead hText
  obtain ⟨l', hNext, hConsumed⟩ : ∃ l', (s.call l (.reopen maxTx maxDay)).ledger = some l' ∧
      l'.inner.consumed = loadFile l.log := by
    refine ⟨⟨{ BucketState.fromConstitutionCaps maxTx maxDay with
      consumed := loadFile l.log }, l.log⟩, ?_, rfl⟩
    show (openFile l.log maxTx maxDay).toOption = _
    rw [openFile, if_pos hText]
    rfl
  constructor
  · intro h m hm _
    obtain rfl := Option.some.inj (hLedger.symm.trans hm)
    refine ⟨fun id hId hAccepted => ?_, fun e he => readsOnly_iff.mpr fun x hx => ?_⟩
    · have hMem := refuses_iff.mp (h.kept l' hNext id hId hAccepted)
      rw [hConsumed] at hMem
      exact (mem_loadFile_iff_plain hAccepted).mp hMem
    · refine h.genuine l' hNext ?_
      rw [hConsumed]
      exact mem_loadFile_iff.mpr ⟨e, he, hx⟩
  · intro hReads
    obtain ⟨hAlone, hOnly⟩ := hReads l hLedger hText
    refine ⟨fun m hm id hId hAccepted => refuses_iff.mpr ?_, fun m hm x hx => ?_⟩
    · obtain rfl := Option.some.inj (hNext.symm.trans hm)
      rw [hConsumed]
      exact (mem_loadFile_iff_plain hAccepted).mpr (hAlone id hId hAccepted)
    · obtain rfl := Option.some.inj (hNext.symm.trans hm)
      rw [hConsumed] at hx
      obtain ⟨e, he, hRead⟩ := mem_loadFile_iff.mp hx
      exact readsOnly_iff.mp (hOnly e he) x hRead

/-- One step keeps the round trip exactly when it reads back. -/
theorem roundTrip_step_iff {s : ConsumedLog} (h : RoundTrip s) (c : LogCall) :
    RoundTrip (s.step c) ↔ s.ReadsBack c := by
  unfold step
  cases hLedger : s.ledger with
  | none =>
    refine iff_of_true h ?_
    cases c with
    | reopen maxTx maxDay =>
      intro m hm
      rw [hLedger] at hm
      cases hm
    | _ => trivial
  | some l =>
    dsimp only
    rcases s.call_cases l c with ⟨tx, day, rfl⟩ | ⟨l', hReads, hEq, hConsumed⟩ |
      ⟨disk, id, spends, granted, l', hReads, hEq, hEffect⟩
    · exact roundTrip_reopen_iff hLedger tx day
    · rw [hEq]
      exact iff_of_true (h.quiet hLedger hConsumed) hReads
    · rw [hEq]
      exact iff_of_true (h.record hLedger hEffect spends) hReads

theorem roundTrip_start (maxTx maxDay : Nat) : RoundTrip (start maxTx maxDay) :=
  ⟨fun _ _ _ hx => absurd hx (Finset.notMem_empty _), fun l hl x hx => by
    obtain rfl := Option.some.inj (show some _ = some l from hl)
    exact absurd hx (Finset.notMem_empty _)⟩

/--
**The log of consumed intents.** Through any calls, prepares and reopenings, on a disk
that may break any append off, intent ids consumed with Ok stay refused and no other id
becomes consumed, exactly when at every reopening the ids consumed with Ok are plain and
stand alone in the log, and its records read only as ids that were burned.
-/
theorem roundTrip_iff (maxTx maxDay : Nat) (calls : List LogCall) :
    Runs.EveryState step RoundTrip (start maxTx maxDay) calls ↔
      Runs.EveryStep step ReadsBack (start maxTx maxDay) calls := by
  refine Runs.everyState_iff_everyStep (J := fun _ => True) (fun _ _ _ => trivial)
    (fun s c _ h => ?_) trivial (roundTrip_start maxTx maxDay) calls
  exact roundTrip_step_iff h c

/-- An id with a blank in front is consumed with Ok, and free after a restart,
while the id without the blank is consumed. -/
theorem roundTrip_fails : ¬ ∀ maxTx maxDay calls,
    Runs.EveryState step RoundTrip (start maxTx maxDay) calls := by
  intro h
  have hLast := (h 1000 1000 [.perform 0 .ok (.tryConsume " intent-1"), .reopen 1000 1000]).last
  have hAccepted : Accepted " intent-1" :=
    ⟨.users, "addr-1", 1, "", ⟨" intent-1", .users, "addr-1", 1, "", none⟩, by decide +kernel⟩
  have hFree : ((Runs.run step (start 1000 1000)
      [.perform 0 .ok (.tryConsume " intent-1"), .reopen 1000 1000]).ledger.any fun l =>
        decide (" intent-1" ∉ l.inner.consumed)) = true := by
    decide +kernel
  obtain ⟨l, hLedger, hNot⟩ := (Option.any_eq_true ..).mp hFree
  exact of_decide_eq_true hNot
    (refuses_iff.mp (hLast.kept l hLedger " intent-1" (by decide +kernel) hAccepted))

end ConsumedLog

end KeroseneVault
