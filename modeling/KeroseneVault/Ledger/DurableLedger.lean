import KeroseneVault.Ledger.Persisted
import KeroseneVault.Lib.TornLog

/-!
# The durable bucket ledger over any log

The methods of `PersistedBucketLedger` touch the log of consumed intents through
`append_consumed` alone. Here they are written over that append, so that the same
methods run on a log of whole lines and on a file whose writes may break off
(`writeln!` on a file that is not buffered writes the id and its newline one after the
other, and either may stop at any byte).

To take the append as a parameter is what lets one set of methods be used twice. What is
proved of them over any append says how the table and the log go together, namely that a
line is written before an id is consumed, or the id taken back. What a particular disk does
to the line is left to the log. That nothing of the ledger of whole lines was changed by
this is the last group of results.

* `DurableLedger` — the ledger in memory and a log, with the methods;
* `TearingDisk` — what the disk does with one append, down to the bytes that it kept;
* `openFile` — a restart on a file, which fails where the file is no text;
* `Effect` — what a call that may burn an id does.

Main results:

* `perform_effect`, `prepareConsume_effect` — each call that may burn an id has an
  effect, and `perform_quiet` — every other one leaves the consumed ids and the log;
* `perform_persisted` — over a log of whole lines these are the methods of
  `PersistedBucketLedger`;
* `appendFile_whole`, `openFile_whole` — a disk that tears nothing appends to the file as
  to that log, and a restart on the file is one on the log.
-/

namespace KeroseneVault

open LineLog

/-- The id a call consumes when it returns Ok. -/
def LedgerOp.consumes : LedgerOp → Option String
  | .commitConsume id => some id
  | .tryConsume id => some id
  | .authorizeSpendAndConsume id _ _ _ => some id
  | _ => none

/-- The ledger in memory, and what its burns are appended to. -/
structure DurableLedger (L : Type) where
  inner : BucketState
  log : L

namespace DurableLedger

variable {L : Type}

/-! ## The methods -/

section Methods

-- `append_consumed`, on the log as it is
variable (append : String → L → Outcome × L)

/-- `prepare_consume`: durable check-and-insert for a peer; `true` if already present. -/
def prepareConsume (id : String) (l : DurableLedger L) :
    Except DomainError Bool × DurableLedger L :=
  if id ∈ l.inner.consumed then (.ok true, l)
  else
    match append id l.log with
    | (.error e, log) => (.error e, { l with log := log })
    | (.ok (), log) => (.ok false, ⟨l.inner.burn id, log⟩)

def tryConsume (id : String) (l : DurableLedger L) : Outcome × DurableLedger L :=
  if id ∈ l.inner.consumed then (.error (.intentReplay id), l)
  else
    match append id l.log with
    | (.error e, log) => (.error e, { l with log := log })
    | (.ok (), log) => (.ok (), ⟨l.inner.burn id, log⟩)

def commitConsume (now : Nat) (id : String) (l : DurableLedger L) : Outcome × DurableLedger L :=
  let l := { l with inner := l.inner.sweepExpired now }
  if id ∈ l.inner.consumed then (.ok (), l)
  else
    match l.inner.reserved.lookup id with
    | none => (.error (.reservationMissing id), l)
    | some _ => l.tryConsume append id

/-- The charge and the consumed mark come first, the log line second; a
failed append takes both back. -/
def authorizeSpendAndConsume (id : String) (kind : BucketKind) (amount : Nat)
    (validate : Validate) (l : DurableLedger L) : Outcome × DurableLedger L :=
  if id ∈ l.inner.consumed then (.error (.intentReplay id), l)
  else
    match l.inner.validated kind validate with
    | .error e => (.error e, l)
    | .ok () =>
      let g := { l.inner.charge kind amount with consumed := insert id l.inner.consumed }
      match append id l.log with
      | (.ok (), log) => (.ok (), ⟨g, log⟩)
      | (.error e, log) =>
        (.error e, ⟨{ g with consumed := g.consumed.erase id }.refund kind amount, log⟩)

/-- Run a method of the in-memory ledger. -/
def onInner {α : Type} (f : BucketState → α × BucketState) (l : DurableLedger L) :
    α × DurableLedger L :=
  ((f l.inner).1, { l with inner := (f l.inner).2 })

def perform (now : Nat) (l : DurableLedger L) : LedgerOp → Outcome × DurableLedger L
  | .reserveSpend id kind amount validate =>
    l.onInner (BucketState.reserveSpend now id kind amount validate)
  | .commitConsume id => l.commitConsume append now id
  | .tryConsume id => l.tryConsume append id
  | .releaseReservation id kind amount =>
    l.onInner (BucketState.releaseReservation id kind amount)
  | .authorizeSpendAndConsume id kind amount validate =>
    l.authorizeSpendAndConsume append id kind amount validate
  | .sweepExpired => (.ok (), { l with inner := l.inner.sweepExpired now })

end Methods

/-- Soft peer prepare, in memory alone; `true` if the id is consumed or reserved. -/
def prepareSoft (now : Nat) (id : String) (l : DurableLedger L) :
    Except DomainError Bool × DurableLedger L :=
  let g := l.inner.sweepExpired now
  if id ∈ g.consumed ∨ (g.reserved.lookup id).isSome then (.ok true, { l with inner := g })
  else (.ok false, { l with inner := g.hold id ⟨.users, 0, now + defaultReserveTtl⟩ })

def admitDestinations (kind : BucketKind) (dests : List String) (l : DurableLedger L) :
    Outcome × DurableLedger L :=
  match l.inner.policies kind with
  | none => (.error (.invalidBucket kind.asStr), l)
  | some policy =>
    let policies := Function.update l.inner.policies kind (some (policy.extendDestinations dests))
    (.ok (), { l with inner := { l.inner with policies := policies } })

def isConsumed (id : String) (l : DurableLedger L) : Bool := id ∈ l.inner.consumed

/-! ## What a call does to the log -/

/-- What a call that may burn the id does: nothing, and it is Ok only where the id was
consumed; an append that failed, whatever it left; or the burn with its append. -/
inductive Effect (append : String → L → Outcome × L) (id : String) (l l' : DurableLedger L)
    (ok : Bool) : Prop where
  | stays (hConsumed : l'.inner.consumed = l.inner.consumed) (hLog : l'.log = l.log)
      (hOk : ok = true → id ∈ l.inner.consumed)
  | fails (hConsumed : l'.inner.consumed = l.inner.consumed)
      (hAppend : ∃ e, append id l.log = (.error e, l'.log)) (hOk : ok = false)
  | burns (hConsumed : l'.inner.consumed = insert id l.inner.consumed)
      (hAppend : append id l.log = (.ok (), l'.log)) (hOk : ok = true)

section Effects

variable (append : String → L → Outcome × L)

theorem prepareConsume_effect (id : String) (l : DurableLedger L) :
    Effect append id l (l.prepareConsume append id).2
      (decide ((l.prepareConsume append id).1 = .ok false)) := by
  unfold prepareConsume
  by_cases hSeen : id ∈ l.inner.consumed
  · rw [if_pos hSeen]
    exact .stays rfl rfl fun _ => hSeen
  rw [if_neg hSeen]
  rcases hAppend : append id l.log with ⟨e | ⟨⟩, log⟩
  · exact .fails rfl ⟨_, hAppend⟩ (by simp)
  · exact .burns rfl hAppend (by simp)

theorem tryConsume_effect (id : String) (l : DurableLedger L) :
    Effect append id l (l.tryConsume append id).2
      (decide ((l.tryConsume append id).1 = .ok ())) := by
  unfold tryConsume
  by_cases hSeen : id ∈ l.inner.consumed
  · rw [if_pos hSeen]
    exact .stays rfl rfl fun _ => hSeen
  rw [if_neg hSeen]
  rcases hAppend : append id l.log with ⟨e | ⟨⟩, log⟩
  · exact .fails rfl ⟨_, hAppend⟩ (by simp)
  · exact .burns rfl hAppend (by simp)

/-- A commit burns what is reserved, or answers to what is burned. -/
theorem commitConsume_effect (now : Nat) (id : String) (l : DurableLedger L) :
    Effect append id l (l.commitConsume append now id).2
      (decide ((l.commitConsume append now id).1 = .ok ())) := by
  have hSwept : (l.inner.sweepExpired now).consumed = l.inner.consumed :=
    BucketState.sweepExpired_consumed ..
  unfold commitConsume
  dsimp only
  by_cases hSeen : id ∈ (l.inner.sweepExpired now).consumed
  · rw [if_pos hSeen]
    exact .stays hSwept rfl fun _ => hSwept ▸ hSeen
  rw [if_neg hSeen]
  cases (l.inner.sweepExpired now).reserved.lookup id with
  | none => exact .stays hSwept rfl fun hOk => by simp at hOk
  | some r =>
    -- the burn of the swept ledger
    rcases tryConsume_effect append id { l with inner := l.inner.sweepExpired now } with
      ⟨hConsumed, hLog, hOk⟩ | ⟨hConsumed, hAppend, hOk⟩ | ⟨hConsumed, hAppend, hOk⟩
    · exact .stays (hConsumed.trans hSwept) hLog fun h => hSwept ▸ hOk h
    · exact .fails (hConsumed.trans hSwept) hAppend hOk
    · exact .burns (hConsumed.trans (congrArg (insert id) hSwept)) hAppend hOk

theorem authorizeSpendAndConsume_effect (id : String) (kind : BucketKind) (amount : Nat)
    (validate : Validate) (l : DurableLedger L) :
    Effect append id l (l.authorizeSpendAndConsume append id kind amount validate).2
      (decide ((l.authorizeSpendAndConsume append id kind amount validate).1 = .ok ())) := by
  unfold authorizeSpendAndConsume
  by_cases hSeen : id ∈ l.inner.consumed
  · rw [if_pos hSeen]
    exact .stays rfl rfl fun _ => hSeen
  rw [if_neg hSeen]
  cases l.inner.validated kind validate with
  | error e => exact .stays rfl rfl fun hOk => by simp at hOk
  | ok u =>
    -- the mark that is taken back was not there before
    have hErase : (insert id l.inner.consumed).erase id = l.inner.consumed :=
      Finset.erase_insert hSeen
    dsimp only
    rcases hAppend : append id l.log with ⟨e | ⟨⟩, log⟩
    · exact .fails hErase ⟨_, hAppend⟩ (by simp)
    · exact .burns rfl hAppend (by simp)

/-- A call that can consume an id has one of these effects. -/
theorem perform_effect (now : Nat) (l : DurableLedger L) {op : LedgerOp} {id : String}
    (h : op.consumes = some id) :
    Effect append id l (l.perform append now op).2
      (decide ((l.perform append now op).1 = .ok ())) := by
  cases op with
  | commitConsume id' =>
    cases Option.some.inj h
    exact commitConsume_effect append now id l
  | tryConsume id' =>
    cases Option.some.inj h
    exact tryConsume_effect append id l
  | authorizeSpendAndConsume id' kind amount validate =>
    cases Option.some.inj h
    exact authorizeSpendAndConsume_effect append id kind amount validate l
  | reserveSpend _ _ _ _ => cases h
  | releaseReservation _ _ _ => cases h
  | sweepExpired => cases h

/-- Any other call leaves the consumed ids and the log. -/
theorem perform_quiet (now : Nat) (l : DurableLedger L) {op : LedgerOp}
    (h : op.consumes = none) :
    (l.perform append now op).2.inner.consumed = l.inner.consumed ∧
      (l.perform append now op).2.log = l.log := by
  -- the calls that may burn an id are excluded; the others move counters and reservations
  cases op with
  | reserveSpend id kind amount validate =>
    refine ⟨?_, rfl⟩
    show (l.inner.reserveSpend now id kind amount validate).2.consumed = _
    rcases l.inner.reserveSpend_cases now id kind amount validate with ⟨-, hEq⟩ | ⟨-, hEq⟩
    · rw [hEq]
      simp
    · rw [hEq]
      simp
  | releaseReservation id kind amount =>
    refine ⟨?_, rfl⟩
    show (l.inner.releaseReservation id kind amount).2.consumed = _
    unfold BucketState.releaseReservation
    split
    · simp
    · simp
  | sweepExpired => exact ⟨BucketState.sweepExpired_consumed .., rfl⟩
  | commitConsume _ => cases h
  | tryConsume _ => cases h
  | authorizeSpendAndConsume _ _ _ _ => cases h

theorem prepareSoft_quiet (now : Nat) (id : String) (l : DurableLedger L) :
    (l.prepareSoft now id).2.inner.consumed = l.inner.consumed ∧
      (l.prepareSoft now id).2.log = l.log := by
  unfold prepareSoft
  dsimp only
  split
  · exact ⟨BucketState.sweepExpired_consumed .., rfl⟩
  · exact ⟨BucketState.sweepExpired_consumed .., rfl⟩

theorem admitDestinations_quiet (kind : BucketKind) (dests : List String) (l : DurableLedger L) :
    (l.admitDestinations kind dests).2.inner.consumed = l.inner.consumed ∧
      (l.admitDestinations kind dests).2.log = l.log := by
  unfold admitDestinations
  split
  · exact ⟨rfl, rfl⟩
  · exact ⟨rfl, rfl⟩

end Effects

/-! ## The log of whole lines -/

/-- A `PersistedBucketLedger`, as the ledger over its log. -/
def ofPersisted (l : PersistedBucketLedger) : DurableLedger Log := ⟨l.inner, l.log⟩

section Persisted

variable (disk : Disk) (id : String) (l : PersistedBucketLedger)

theorem prepareConsume_persisted :
    (ofPersisted l).prepareConsume (PersistedBucketLedger.appendConsumed disk) id =
      ((l.prepareConsume disk id).1, ofPersisted (l.prepareConsume disk id).2) := by
  unfold prepareConsume PersistedBucketLedger.prepareConsume
  by_cases hSeen : id ∈ l.inner.consumed
  · rw [if_pos hSeen]
    exact if_pos hSeen
  rw [if_neg hSeen]
  refine (if_neg hSeen).trans ?_
  dsimp only [ofPersisted]
  rcases PersistedBucketLedger.appendConsumed disk id l.log with ⟨e | ⟨⟩, log⟩ <;> rfl

theorem tryConsume_persisted :
    (ofPersisted l).tryConsume (PersistedBucketLedger.appendConsumed disk) id =
      ((l.tryConsume disk id).1, ofPersisted (l.tryConsume disk id).2) := by
  unfold tryConsume PersistedBucketLedger.tryConsume
  by_cases hSeen : id ∈ l.inner.consumed
  · rw [if_pos hSeen]
    exact if_pos hSeen
  rw [if_neg hSeen]
  refine (if_neg hSeen).trans ?_
  dsimp only [ofPersisted]
  rcases PersistedBucketLedger.appendConsumed disk id l.log with ⟨e | ⟨⟩, log⟩ <;> rfl

theorem commitConsume_persisted (now : Nat) :
    (ofPersisted l).commitConsume (PersistedBucketLedger.appendConsumed disk) now id =
      ((l.commitConsume now disk id).1, ofPersisted (l.commitConsume now disk id).2) := by
  unfold commitConsume PersistedBucketLedger.commitConsume
  dsimp only [ofPersisted]
  by_cases hSeen : id ∈ (l.inner.sweepExpired now).consumed
  · rw [if_pos hSeen, if_pos hSeen]
  rw [if_neg hSeen, if_neg hSeen]
  cases (l.inner.sweepExpired now).reserved.lookup id with
  | none => rfl
  | some r => exact tryConsume_persisted disk id { l with inner := l.inner.sweepExpired now }

theorem authorizeSpendAndConsume_persisted (kind : BucketKind) (amount : Nat)
    (validate : Validate) :
    (ofPersisted l).authorizeSpendAndConsume (PersistedBucketLedger.appendConsumed disk) id kind
        amount validate =
      ((l.authorizeSpendAndConsume disk id kind amount validate).1,
        ofPersisted (l.authorizeSpendAndConsume disk id kind amount validate).2) := by
  unfold authorizeSpendAndConsume PersistedBucketLedger.authorizeSpendAndConsume
  by_cases hSeen : id ∈ l.inner.consumed
  · rw [if_pos hSeen]
    exact if_pos hSeen
  rw [if_neg hSeen]
  refine (if_neg hSeen).trans ?_
  dsimp only [ofPersisted]
  cases l.inner.validated kind validate with
  | error e => rfl
  | ok u =>
    dsimp only
    rcases PersistedBucketLedger.appendConsumed disk id l.log with ⟨e | ⟨⟩, log⟩ <;> rfl

/-- **Over a log of whole lines** these are the methods of `PersistedBucketLedger`. -/
theorem perform_persisted (now : Nat) (op : LedgerOp) :
    (ofPersisted l).perform (PersistedBucketLedger.appendConsumed disk) now op =
      ((l.perform now disk op).1, ofPersisted (l.perform now disk op).2) := by
  cases op with
  | commitConsume id => exact commitConsume_persisted disk id l now
  | tryConsume id => exact tryConsume_persisted disk id l
  | authorizeSpendAndConsume id kind amount validate =>
    exact authorizeSpendAndConsume_persisted disk id l kind amount validate
  | reserveSpend id kind amount validate => rfl
  | releaseReservation id kind amount => rfl
  | sweepExpired => rfl

end Persisted

/-! ## The file -/

end DurableLedger

/-- What the disk does with one append to a file: the file does not open, the write
breaks off once so many bytes of the line have reached the file (none at all, or the id
without its newline), the line is written but not synced, or the append succeeds. A
process that stops in the middle of an append is one whose write broke off, and which
reopens the file next. -/
inductive TearingDisk where
  | ok
  | openFails (e : String)
  | writeFails (e : String) (bytes : ℕ)
  | syncFails (e : String)
  deriving DecidableEq

/-- A disk that tears nothing. -/
def Disk.whole : Disk → TearingDisk
  | .ok => .ok
  | .openFails e => .openFails e
  | .writeFails e => .writeFails e 0
  | .syncFails e => .syncFails e

/-- `append_consumed` and `append_id`: the line of an id, under the word that the errors
begin with. -/
def appendFile (word : String) (disk : TearingDisk) (id : String) (file : LogFile) :
    Outcome × LogFile :=
  match disk with
  | .openFails e => (.error (.thresholdError s!"{word} append: {e}"), file)
  | .writeFails e bytes =>
    (.error (.thresholdError s!"{word} write: {e}"), file.add (.torn id.toList bytes))
  | .syncFails e =>
    (.error (.thresholdError s!"{word} sync: {e}"), file.add (.whole id.toList))
  | .ok => (.ok (), file.add (.whole id.toList))

/-- **A disk that tears nothing** appends to the file as to a log of whole lines. -/
theorem appendFile_whole (disk : Disk) (id : String) {file : LogFile} {log : Log}
    (h : file.text = log.text) :
    (appendFile "intent-consume" disk.whole id file).1 =
        (PersistedBucketLedger.appendConsumed disk id log).1 ∧
      (appendFile "intent-consume" disk.whole id file).2.text =
        (PersistedBucketLedger.appendConsumed disk id log).2.text := by
  have hWhole : (file.add (.whole id.toList)).text = (log.append id.toList).text := by
    rw [LogFile.text, LogFile.add, List.flatMap_append, List.flatMap_singleton]
    exact congrArg (· ++ (id.toList ++ ['\n'])) h
  cases disk with
  | ok => exact ⟨rfl, hWhole⟩
  | syncFails e => exact ⟨rfl, hWhole⟩
  | openFails e => exact ⟨rfl, h⟩
  | writeFails e =>
    -- no byte of the line has reached the file
    have hNone : LogWrite.text (.torn id.toList 0) = [] := by
      rw [LogWrite.text]
      cases id.toList with
      | nil => rfl
      | cons c cs => exact if_neg (by have := c.utf8Size_pos; omega)
    refine ⟨rfl, ?_⟩
    show (file.add (.torn id.toList 0)).text = log.text
    rw [LogFile.text, LogFile.add, List.flatMap_append, List.flatMap_singleton, hNone,
      List.append_nil]
    exact h

namespace DurableLedger

/-- The ids a restart reads back, `load_consumed_into`. -/
def loadFile (file : LogFile) : Finset String :=
  ((file.load keepIntentLine).map String.ofList).toFinset

theorem mem_loadFile {file : LogFile} {id : String} :
    id ∈ loadFile file ↔ id.toList ∈ file.load keepIntentLine :=
  mem_toFinset_ofList

/-- `PersistedBucketLedger::open`: a file that is no text is not read. -/
def openFile (file : LogFile) (maxTx maxDay : Nat) :
    Except DomainError (DurableLedger LogFile) :=
  if file.readable then
    .ok ⟨{ BucketState.fromConstitutionCaps maxTx maxDay with consumed := loadFile file }, file⟩
  else .error (.thresholdError "intent-consume read: stream did not contain valid UTF-8")

/-- Where no write broke off, a restart on the file is one on the log of its records. -/
theorem openFile_whole {log : Log} {records : List (List Char)} (h : log.Holds records)
    (maxTx maxDay : Nat) :
    (openFile (.ofRecords records) maxTx maxDay).map inner =
      .ok (PersistedBucketLedger.openLedger log maxTx maxDay).inner := by
  have hLoad : loadFile (.ofRecords records) = PersistedBucketLedger.loadConsumed log := by
    rw [loadFile, LogFile.load_whole h]
    rfl
  rw [openFile, if_pos (LogFile.readable_whole records), hLoad]
  rfl

end DurableLedger

end KeroseneVault
