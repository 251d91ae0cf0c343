import KeroseneVault.Ledger.DurableLedger
import KeroseneVault.Session.AntiNonce

/-!
# The anti-nonce store over any log

The methods of `PersistedAntiNonce` touch the log of session ids through `append_id`
alone. Here they are written over that append, as those of the bucket ledger are in
`DurableLedger`, so that they run on a log of whole lines and on a file whose writes may
break off.

* `DurableStore` — the burned ids, the soft prepares and a log, with the methods;
* `openFile` — a restart on a file, which fails where the file is no text;
* `Effect` — what a durable prepare does.

Main results:

* `prepare_effect` — all that a durable prepare, or a claim, can do;
* `prepare_persisted`, `claimSession_persisted` — over a log of whole lines these are the
  methods of `PersistedAntiNonce`;
* `openFile_whole` — and a restart on a file of whole lines is a restart on that log.
-/

namespace KeroseneVault

open LineLog

/-- The burned session ids, the soft prepares, and what burns are appended to. -/
structure DurableStore (L : Type) where
  inner : Finset String
  soft : Table String Nat
  log : L

namespace DurableStore

variable {L : Type}

/-! ## The methods -/

section Methods

-- `append_id`, on the log as it is
variable (append : String → L → Outcome × L)

/-- `prepare`: durable check-and-insert; `true` if the id was already present. -/
def prepare (sessionId : String) (l : DurableStore L) : Except DomainError Bool × DurableStore L :=
  if sessionId ∈ l.inner then (.ok true, l)
  else
    match append sessionId l.log with
    | (.error e, log) => (.error e, { l with log := log })
    | (.ok (), log) => (.ok false, ⟨insert sessionId l.inner, l.soft.erase sessionId, log⟩)

/-- The claim of a node on its own. -/
def claimSession (sessionId : String) (l : DurableStore L) : Outcome × DurableStore L :=
  match l.prepare append sessionId with
  | (.error e, l) => (.error e, l)
  | (.ok true, l) => (.error (.nonceReuse s!"session_id already used: {sessionId}"), l)
  | (.ok false, l) => (.ok (), l)

end Methods

/-- Soft TTL reservation, in memory alone; `true` if blocked. -/
def prepareSoft (now : Nat) (sessionId : String) (l : DurableStore L) :
    Except DomainError Bool × DurableStore L :=
  if sessionId ∈ l.inner then (.ok true, l)
  else
    let soft := PersistedAntiNonce.sweepSoft now l.soft
    if (soft.lookup sessionId).isSome then (.ok true, { l with soft := soft })
    else (.ok false, { l with soft := soft.insert sessionId (now + prepareTtl) })

def isConsumed (now : Nat) (sessionId : String) (l : DurableStore L) : Bool × DurableStore L :=
  if sessionId ∈ l.inner then (true, l)
  else
    let soft := PersistedAntiNonce.sweepSoft now l.soft
    ((soft.lookup sessionId).isSome, { l with soft := soft })

/-! ## What a prepare does -/

section Effects

variable (append : String → L → Outcome × L)

/-- All a durable prepare can do: the id is burned already, the append failed and
memory is untouched, or the id was written and burned. -/
inductive Effect (sessionId : String) (l : DurableStore L) :
    Except DomainError Bool × DurableStore L → Prop where
  | seen (hSeen : sessionId ∈ l.inner) : Effect sessionId l (.ok true, l)
  | fails (hFree : sessionId ∉ l.inner) {e : DomainError} {log : L}
      (hAppend : append sessionId l.log = (.error e, log)) :
      Effect sessionId l (.error e, { l with log := log })
  | burns (hFree : sessionId ∉ l.inner) {log : L}
      (hAppend : append sessionId l.log = (.ok (), log)) :
      Effect sessionId l (.ok false, ⟨insert sessionId l.inner, l.soft.erase sessionId, log⟩)

theorem prepare_effect (sessionId : String) (l : DurableStore L) :
    Effect append sessionId l (l.prepare append sessionId) := by
  unfold prepare
  by_cases hSeen : sessionId ∈ l.inner
  · rw [if_pos hSeen]
    exact .seen hSeen
  rw [if_neg hSeen]
  rcases hAppend : append sessionId l.log with ⟨e | ⟨⟩, log⟩
  · exact .fails hSeen hAppend
  · exact .burns hSeen hAppend

end Effects

theorem prepareSoft_quiet (now : Nat) (sessionId : String) (l : DurableStore L) :
    (l.prepareSoft now sessionId).2.inner = l.inner ∧
      (l.prepareSoft now sessionId).2.log = l.log := by
  unfold prepareSoft
  split
  · exact ⟨rfl, rfl⟩
  · dsimp only
    split
    · exact ⟨rfl, rfl⟩
    · exact ⟨rfl, rfl⟩

theorem isConsumed_quiet (now : Nat) (sessionId : String) (l : DurableStore L) :
    (l.isConsumed now sessionId).2.inner = l.inner ∧
      (l.isConsumed now sessionId).2.log = l.log := by
  unfold isConsumed
  split
  · exact ⟨rfl, rfl⟩
  · exact ⟨rfl, rfl⟩

/-! ## The log of whole lines -/

/-- A `PersistedAntiNonce`, as the store over its log. -/
def ofPersisted (l : PersistedAntiNonce) : DurableStore Log := ⟨l.inner, l.soft, l.log⟩

section Persisted

variable (disk : Disk) (sessionId : String) (l : PersistedAntiNonce)

theorem prepare_persisted :
    (ofPersisted l).prepare (PersistedAntiNonce.appendId disk) sessionId =
      ((l.prepare disk sessionId).1, ofPersisted (l.prepare disk sessionId).2) := by
  unfold prepare PersistedAntiNonce.prepare
  by_cases hSeen : sessionId ∈ l.inner
  · rw [if_pos hSeen]
    exact if_pos hSeen
  rw [if_neg hSeen]
  refine (if_neg hSeen).trans ?_
  dsimp only [ofPersisted]
  rcases PersistedAntiNonce.appendId disk sessionId l.log with ⟨e | ⟨⟩, log⟩ <;> rfl

/-- **Over a log of whole lines** these are the methods of `PersistedAntiNonce`. -/
theorem claimSession_persisted :
    (ofPersisted l).claimSession (PersistedAntiNonce.appendId disk) sessionId =
      ((l.claimSession disk sessionId).1, ofPersisted (l.claimSession disk sessionId).2) := by
  unfold claimSession PersistedAntiNonce.claimSession
  rw [prepare_persisted]
  rcases l.prepare disk sessionId with ⟨e | seen, after⟩
  · rfl
  · cases seen <;> rfl

end Persisted

/-! ## The file -/

/-- The ids a restart reads back, `load_ids_into`. -/
def loadFile (file : LogFile) : Finset String :=
  ((file.load keepSessionLine).map String.ofList).toFinset

theorem mem_loadFile {file : LogFile} {sessionId : String} :
    sessionId ∈ loadFile file ↔ sessionId.toList ∈ file.load keepSessionLine :=
  mem_toFinset_ofList

/-- `PersistedAntiNonce::open`: a file that is no text is not read. -/
def openFile (file : LogFile) : Except DomainError (DurableStore LogFile) :=
  if file.readable then .ok ⟨loadFile file, ∅, file⟩
  else .error (.thresholdError "anti-nonce read: stream did not contain valid UTF-8")

/-- Where no write broke off, a restart on the file is one on the log of its records. -/
theorem openFile_whole {log : Log} {records : List (List Char)} (h : log.Holds records) :
    (openFile (.ofRecords records)).map inner = .ok (PersistedAntiNonce.openStore log).inner := by
  have hLoad : loadFile (.ofRecords records) = PersistedAntiNonce.loadIds log := by
    rw [loadFile, LogFile.load_whole h]
    rfl
  rw [openFile, if_pos (LogFile.readable_whole records), hLoad]
  rfl

end DurableStore

end KeroseneVault
