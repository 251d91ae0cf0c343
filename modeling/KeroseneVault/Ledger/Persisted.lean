import KeroseneVault.Ledger.InMemory

/-!
# The durable bucket ledger

`PersistedBucketLedger`: the in-memory ledger and an append-only log of the
consumed intent ids. Every burn writes its line and syncs it before memory
changes (`authorizeSpendAndConsume` marks memory first and rolls back), and a
restart reads the log back into a fresh in-memory ledger: policies, spend and
reservations start over.

* `Disk` — what the disk does with one append;
* `prepareConsume`, `prepareSoft` — the peer side of a claim;
* `openLedger` — a restart.

Main results:

* `acks_ok_iff` — when a round over the peers passes;
* `prepareConsume_cases` — all a durable prepare can do;
* `mem_openLedger_consumed` — an id that survives the log is consumed again
  after every restart.
-/

namespace KeroseneVault

open LineLog

/-! ## The log -/

/-- What the disk does with one append that goes through or fails as a whole: the file does
not open, the write is refused and leaves the file as it was, the line is written but not
synced, or the append succeeds. A write that breaks off within its line is one of a
`TearingDisk`, on a file that the same methods append to (`DurableLedger`). -/
inductive Disk where
  | ok
  | openFails (e : String)
  | writeFails (e : String)
  | syncFails (e : String)
  deriving DecidableEq

/-- The lines a restart keeps: neither empty nor a comment. -/
def keepIntentLine (line : List Char) : Bool := !line.isEmpty && line.head? != some '#'

/-- `PersistedBucketLedger`. -/
structure PersistedBucketLedger where
  inner : BucketState
  log : Log

/-- The texts among those that a restart read. -/
theorem mem_toFinset_ofList {texts : List (List Char)} {id : String} :
    id ∈ (texts.map String.ofList).toFinset ↔ id.toList ∈ texts := by
  rw [List.mem_toFinset, List.mem_map]
  constructor
  · rintro ⟨x, hx, rfl⟩
    rwa [String.toList_ofList]
  · exact fun hId => ⟨_, hId, String.ofList_toList⟩

/-- The verdict over a round, whatever the acknowledgements carry: it passes
when none of them has seen the id and, with this node, they reach the quorum. -/
theorem acks_ok_iff {α : Type} {t : Nat} {seen : α → Bool} {refused : DomainError}
    {acks : List α} :
    (if acks.any seen then .error refused
      else if 1 + acks.length < t then .error (.quorumNotMet (1 + acks.length) t)
      else .ok () : Outcome) = .ok () ↔
      true ∉ acks.map seen ∧ t ≤ acks.length + 1 := by
  have hAny : acks.any seen = true ↔ true ∈ acks.map seen := by
    simp [List.any_eq_true]
  split
  · rename_i hSeen
    simp [hAny.mp hSeen]
  · rename_i hSeen
    rw [hAny] at hSeen
    split
    · simp only [reduceCtorEq, false_iff, not_and]
      omega
    · simp only [true_iff]
      exact ⟨hSeen, by omega⟩

namespace PersistedBucketLedger

def appendConsumed (disk : Disk) (id : String) (log : Log) : Outcome × Log :=
  match disk with
  | .openFails e => (.error (.thresholdError s!"intent-consume append: {e}"), log)
  | .writeFails e => (.error (.thresholdError s!"intent-consume write: {e}"), log)
  | .syncFails e =>
    (.error (.thresholdError s!"intent-consume sync: {e}"), log.append id.toList)
  | .ok => (.ok (), log.append id.toList)

/-- The ids a restart reads back, `load_consumed_into`. -/
def loadConsumed (log : Log) : Finset String :=
  ((log.load keepIntentLine).map String.ofList).toFinset

theorem mem_loadConsumed {log : Log} {id : String} :
    id ∈ loadConsumed log ↔ id.toList ∈ log.load keepIntentLine :=
  mem_toFinset_ofList

/-- `PersistedBucketLedger::open`. -/
def openLedger (log : Log) (maxTx maxDay : Nat) : PersistedBucketLedger where
  inner := { BucketState.fromConstitutionCaps maxTx maxDay with consumed := loadConsumed log }
  log := log

def admitDestinations (kind : BucketKind) (dests : List String) (l : PersistedBucketLedger) :
    Outcome × PersistedBucketLedger :=
  match l.inner.policies kind with
  | none => (.error (.invalidBucket kind.asStr), l)
  | some policy =>
    let policies := Function.update l.inner.policies kind (some (policy.extendDestinations dests))
    (.ok (), { l with inner := { l.inner with policies := policies } })

/-! ## Prepares -/

/-- Durable check-and-insert for a peer prepare; `true` if already present. -/
def prepareConsume (disk : Disk) (id : String) (l : PersistedBucketLedger) :
    Except DomainError Bool × PersistedBucketLedger :=
  if id ∈ l.inner.consumed then (.ok true, l)
  else
    match appendConsumed disk id l.log with
    | (.error e, log) => (.error e, { l with log := log })
    | (.ok (), log) => (.ok false, ⟨l.inner.burn id, log⟩)

/-- Soft peer prepare: a TTL reservation that charges nothing. -/
def prepareSoft (now : Nat) (id : String) (l : PersistedBucketLedger) :
    Except DomainError Bool × PersistedBucketLedger :=
  let g := l.inner.sweepExpired now
  if id ∈ g.consumed ∨ (g.reserved.lookup id).isSome then (.ok true, { l with inner := g })
  else (.ok false, { l with inner := g.hold id ⟨.users, 0, now + defaultReserveTtl⟩ })

def hasReservation (now : Nat) (id : String) (l : PersistedBucketLedger) :
    Bool × PersistedBucketLedger :=
  let g := l.inner.sweepExpired now
  ((g.reserved.lookup id).isSome, { l with inner := g })

/-! ## The port methods -/

def isConsumed (id : String) (l : PersistedBucketLedger) : Bool := id ∈ l.inner.consumed

/-- Run a method of the in-memory ledger. -/
def onInner (f : BucketState → Outcome × BucketState) (l : PersistedBucketLedger) :
    Outcome × PersistedBucketLedger :=
  ((f l.inner).1, { l with inner := (f l.inner).2 })

def tryConsume (disk : Disk) (id : String) (l : PersistedBucketLedger) :
    Outcome × PersistedBucketLedger :=
  if id ∈ l.inner.consumed then (.error (.intentReplay id), l)
  else
    match appendConsumed disk id l.log with
    | (.error e, log) => (.error e, { l with log := log })
    | (.ok (), log) => (.ok (), ⟨l.inner.burn id, log⟩)

def reserveSpend (now : Nat) (id : String) (kind : BucketKind) (amount : Nat)
    (validate : Validate) (l : PersistedBucketLedger) : Outcome × PersistedBucketLedger :=
  l.onInner (BucketState.reserveSpend now id kind amount validate)

def commitConsume (now : Nat) (disk : Disk) (id : String) (l : PersistedBucketLedger) :
    Outcome × PersistedBucketLedger :=
  let l := { l with inner := l.inner.sweepExpired now }
  if id ∈ l.inner.consumed then (.ok (), l)
  else
    match l.inner.reserved.lookup id with
    | none => (.error (.reservationMissing id), l)
    | some _ => l.tryConsume disk id

def releaseReservation (id : String) (kind : BucketKind) (amount : Nat)
    (l : PersistedBucketLedger) : Outcome × PersistedBucketLedger :=
  l.onInner (BucketState.releaseReservation id kind amount)

/-- The charge and the consumed mark come first, the log line second; a
failed append takes both back. -/
def authorizeSpendAndConsume (disk : Disk) (id : String) (kind : BucketKind) (amount : Nat)
    (validate : Validate) (l : PersistedBucketLedger) : Outcome × PersistedBucketLedger :=
  if id ∈ l.inner.consumed then (.error (.intentReplay id), l)
  else
    match l.inner.validated kind validate with
    | .error e => (.error e, l)
    | .ok () =>
      let g := { l.inner.charge kind amount with consumed := insert id l.inner.consumed }
      match appendConsumed disk id l.log with
      | (.ok (), log) => (.ok (), ⟨g, log⟩)
      | (.error e, log) =>
        (.error e, ⟨{ g with consumed := g.consumed.erase id }.refund kind amount, log⟩)

def perform (now : Nat) (disk : Disk) (l : PersistedBucketLedger) :
    LedgerOp → Outcome × PersistedBucketLedger
  | .reserveSpend id kind amount validate => l.reserveSpend now id kind amount validate
  | .commitConsume id => l.commitConsume now disk id
  | .tryConsume id => l.tryConsume disk id
  | .releaseReservation id kind amount => l.releaseReservation id kind amount
  | .authorizeSpendAndConsume id kind amount validate =>
    l.authorizeSpendAndConsume disk id kind amount validate
  | .sweepExpired => (.ok (), { l with inner := l.inner.sweepExpired now })

/-! ## What the operations do -/

/-- All an append can do: the line is written and synced, or it fails with
the file as it was or the line in it. -/
theorem appendConsumed_cases (disk : Disk) (id : String) (log : Log) :
    (disk = .ok ∧ appendConsumed disk id log = (.ok (), log.append id.toList)) ∨
    (disk ≠ .ok ∧ ∃ e log', (log' = log ∨ log' = log.append id.toList) ∧
      appendConsumed disk id log = (.error e, log')) := by
  cases disk with
  | ok => exact Or.inl ⟨rfl, rfl⟩
  | openFails e => exact Or.inr ⟨by simp, _, _, Or.inl rfl, rfl⟩
  | writeFails e => exact Or.inr ⟨by simp, _, _, Or.inl rfl, rfl⟩
  | syncFails e => exact Or.inr ⟨by simp, _, _, Or.inr rfl, rfl⟩

/-- All a durable prepare can do: the id is there already, the append failed
and memory is untouched, or the id was written and burned. -/
theorem prepareConsume_cases (disk : Disk) (id : String) (l : PersistedBucketLedger) :
    (id ∈ l.inner.consumed ∧ l.prepareConsume disk id = (.ok true, l)) ∨
    (id ∉ l.inner.consumed ∧ disk ≠ .ok ∧ ∃ e log,
      (log = l.log ∨ log = l.log.append id.toList) ∧
      l.prepareConsume disk id = (.error e, { l with log := log })) ∨
    (id ∉ l.inner.consumed ∧ disk = .ok ∧
      l.prepareConsume disk id = (.ok false, ⟨l.inner.burn id, l.log.append id.toList⟩)) := by
  by_cases hSeen : id ∈ l.inner.consumed
  · exact Or.inl ⟨hSeen, by simp [prepareConsume, hSeen]⟩
  · refine Or.inr ?_
    rcases appendConsumed_cases disk id l.log with ⟨hDisk, h⟩ | ⟨hDisk, e, log, hLog, h⟩
    · exact Or.inr ⟨hSeen, hDisk, by simp [prepareConsume, hSeen, h]⟩
    · exact Or.inl ⟨hSeen, hDisk, e, log, hLog, by simp [prepareConsume, hSeen, h]⟩

/-- The durable one-shot claim is the durable prepare, read as an outcome. -/
theorem tryConsume_eq_prepareConsume (disk : Disk) (id : String) (l : PersistedBucketLedger) :
    l.tryConsume disk id =
      ((match (l.prepareConsume disk id).1 with
        | .error e => .error e
        | .ok true => .error (.intentReplay id)
        | .ok false => .ok ()),
      (l.prepareConsume disk id).2) := by
  rcases prepareConsume_cases disk id l with ⟨hSeen, h⟩ | ⟨hSeen, hDisk, e, log, -, h⟩ |
      ⟨hSeen, rfl, h⟩
  · simp [tryConsume, hSeen, h]
  · -- both append the same line and pass its failure on
    cases disk <;> simp_all [tryConsume, prepareConsume, appendConsumed]
  · simp [tryConsume, hSeen, h, appendConsumed]

/-- All a commit can do after the sweep: a retry, a refusal, or the reservation
is promoted unless the append fails. -/
theorem commitConsume_cases (now : Nat) (disk : Disk) (id : String) (l : PersistedBucketLedger) :
    let g := l.inner.sweepExpired now
    (id ∈ l.inner.consumed ∧ l.commitConsume now disk id = (.ok (), { l with inner := g })) ∨
    (id ∉ l.inner.consumed ∧ g.reserved.lookup id = none ∧
      l.commitConsume now disk id = (.error (.reservationMissing id), { l with inner := g })) ∨
    (id ∉ l.inner.consumed ∧ ∃ r, g.reserved.lookup id = some r ∧
      ((disk = .ok ∧
          l.commitConsume now disk id = (.ok (), ⟨g.burn id, l.log.append id.toList⟩)) ∨
        (disk ≠ .ok ∧ ∃ e log, l.commitConsume now disk id = (.error e, ⟨g, log⟩)))) := by
  simp only [commitConsume]
  -- a sweep frees no consumed id, so that the cases are those of before it
  have hSame : (l.inner.sweepExpired now).consumed = l.inner.consumed := by simp
  generalize l.inner.sweepExpired now = g at hSame
  by_cases hConsumed : id ∈ l.inner.consumed
  · exact Or.inl ⟨hConsumed, by rw [if_pos (hSame ▸ hConsumed)]⟩
  · rw [if_neg (hSame ▸ hConsumed)]
    refine Or.inr ?_
    cases hReserved : g.reserved.lookup id with
    | none => exact Or.inl ⟨hConsumed, rfl, rfl⟩
    | some r =>
      refine Or.inr ⟨hConsumed, r, rfl, ?_⟩
      have hFree : id ∉ g.consumed := hSame ▸ hConsumed
      rcases appendConsumed_cases disk id l.log with ⟨hDisk, h⟩ | ⟨hDisk, e, log, -, h⟩
      · exact Or.inl ⟨hDisk, by simp [tryConsume, hFree, h]⟩
      · exact Or.inr ⟨hDisk, e, log, by simp [tryConsume, hFree, h]⟩

/-- All an authorization can do: it is refused, or it charges and consumes at
once, or the append fails and both are taken back. -/
theorem authorizeSpendAndConsume_cases (disk : Disk) (id : String) (kind : BucketKind)
    (amount : Nat) (validate : Validate) (l : PersistedBucketLedger) :
    (¬ (id ∉ l.inner.consumed ∧ l.inner.validated kind validate = .ok ()) ∧
      ∃ e, l.authorizeSpendAndConsume disk id kind amount validate = (.error e, l)) ∨
    ((id ∉ l.inner.consumed ∧ l.inner.validated kind validate = .ok ()) ∧
      ((disk = .ok ∧ l.authorizeSpendAndConsume disk id kind amount validate =
          (.ok (), ⟨{ l.inner.charge kind amount with consumed := insert id l.inner.consumed },
            l.log.append id.toList⟩)) ∨
        (disk ≠ .ok ∧ ∃ e log, l.authorizeSpendAndConsume disk id kind amount validate =
          (.error e, ⟨(l.inner.charge kind amount).refund kind amount, log⟩)))) := by
  unfold authorizeSpendAndConsume
  by_cases hConsumed : id ∈ l.inner.consumed
  · exact Or.inl ⟨fun h => h.1 hConsumed, _, by rw [if_pos hConsumed]⟩
  · cases hValid : l.inner.validated kind validate with
    | error e => exact Or.inl ⟨fun h => by simp at h, e, by simp [hConsumed]⟩
    | ok =>
      refine Or.inr ⟨⟨hConsumed, rfl⟩, ?_⟩
      rcases appendConsumed_cases disk id l.log with ⟨hDisk, h⟩ | ⟨hDisk, e, log, -, h⟩
      · exact Or.inl ⟨hDisk, by simp [hConsumed, h]⟩
      · refine Or.inr ⟨hDisk, e, log, ?_⟩
        -- the consumed mark goes again: the id was not there before
        have hErase : (insert id l.inner.consumed).erase id = l.inner.consumed :=
          Finset.erase_insert hConsumed
        simp [hConsumed, h, BucketState.refund, BucketState.charge, hErase]

/-! ## What an operation never takes back -/

/-- What was consumed stays consumed, what was recorded stays recorded. -/
structure Grows (l l' : PersistedBucketLedger) : Prop where
  consumed : l.inner.consumed ⊆ l'.inner.consumed
  recorded : ∀ x, l.log.Recorded x → l'.log.Recorded x

theorem Grows.refl (l : PersistedBucketLedger) : l.Grows l := ⟨subset_rfl, fun _ => id⟩

theorem Grows.trans {l l' l'' : PersistedBucketLedger} (h : l.Grows l') (h' : l'.Grows l'') :
    l.Grows l'' :=
  ⟨h.consumed.trans h'.consumed, fun x hx => h'.recorded x (h.recorded x hx)⟩

/-- A change of spend and reservations alone takes nothing back. -/
theorem grows_inner {l : PersistedBucketLedger} {g : BucketState}
    (h : g.consumed = l.inner.consumed) : l.Grows { l with inner := g } :=
  ⟨by rw [h], fun _ => id⟩

theorem prepareConsume_grows (disk : Disk) (id : String) (l : PersistedBucketLedger) :
    l.Grows (l.prepareConsume disk id).2 := by
  rcases prepareConsume_cases disk id l with ⟨-, h⟩ | ⟨-, -, e, log, hLog, h⟩ | ⟨-, -, h⟩
  · rw [h]
    exact Grows.refl l
  · rw [h]
    -- a failed append may have left its line
    refine ⟨subset_rfl, fun x hx => ?_⟩
    rcases hLog with rfl | rfl
    · exact hx
    · exact Recorded.append hx _
  · rw [h]
    exact ⟨Finset.subset_insert .., fun x hx => Recorded.append hx _⟩

/-- An acknowledged durable prepare left the id consumed and recorded, and
this node had not consumed it before. -/
theorem prepareConsume_granted {disk : Disk} {id : String} {l l' : PersistedBucketLedger}
    (h : l.prepareConsume disk id = (.ok false, l')) :
    id ∉ l.inner.consumed ∧ id ∈ l'.inner.consumed ∧ l'.log.Recorded id.toList := by
  rcases prepareConsume_cases disk id l with ⟨-, h'⟩ | ⟨-, -, e, log, -, h'⟩ | ⟨hFree, -, h'⟩
  · rw [h'] at h
    cases h
  · rw [h'] at h
    cases h
  · rw [h'] at h
    cases h
    exact ⟨hFree, Finset.mem_insert_self .., recorded_append ..⟩

theorem prepareSoft_grows (now : Nat) (id : String) (l : PersistedBucketLedger) :
    l.Grows (l.prepareSoft now id).2 := by
  unfold prepareSoft
  dsimp only
  split
  · exact grows_inner (BucketState.sweepExpired_consumed ..)
  · exact grows_inner (BucketState.sweepExpired_consumed ..)

theorem releaseReservation_grows (id : String) (kind : BucketKind) (amount : Nat)
    (l : PersistedBucketLedger) : l.Grows (l.releaseReservation id kind amount).2 := by
  refine grows_inner ?_
  unfold BucketState.releaseReservation
  split <;> simp

/-! ## On a disk that does not fail -/

@[simp] theorem appendConsumed_disk_ok (id : String) (log : Log) :
    appendConsumed .ok id log = (.ok (), log.append id.toList) := rfl

theorem perform_policies (now : Nat) (l : PersistedBucketLedger) (op : LedgerOp) :
    (l.perform now .ok op).2.inner.policies = l.inner.policies := by
  cases op with
  | reserveSpend id kind amount validate =>
    exact l.inner.perform_policies now (.reserveSpend id kind amount validate)
  | commitConsume id =>
    simp only [perform, commitConsume, tryConsume, appendConsumed_disk_ok]
    split
    · simp
    · split <;> simp
  | tryConsume id =>
    simp only [perform, tryConsume, appendConsumed_disk_ok]
    split <;> simp
  | releaseReservation id kind amount =>
    exact l.inner.perform_policies now (.releaseReservation id kind amount)
  | authorizeSpendAndConsume id kind amount validate =>
    simp only [perform, authorizeSpendAndConsume, appendConsumed_disk_ok]
    split
    · rfl
    · split <;> simp
  | sweepExpired => simp [perform]

/-- No method gives a consumed id back. -/
theorem perform_consumed (now : Nat) (l : PersistedBucketLedger) (op : LedgerOp) :
    l.inner.consumed ⊆ (l.perform now .ok op).2.inner.consumed := by
  -- the three methods that consume add an id; the others leave the set
  cases op with
  | reserveSpend id kind amount validate =>
    simp only [perform, reserveSpend, onInner, BucketState.reserveSpend]
    split
    · simp
    · split
      · split <;> simp
      · split <;> simp
  | commitConsume id =>
    simp only [perform, commitConsume, tryConsume, appendConsumed_disk_ok]
    split
    · simp
    · split <;> simp
  | tryConsume id =>
    simp only [perform, tryConsume, appendConsumed_disk_ok]
    split <;> simp
  | releaseReservation id kind amount =>
    simp only [perform, releaseReservation, onInner, BucketState.releaseReservation]
    split <;> simp
  | authorizeSpendAndConsume id kind amount validate =>
    simp only [perform, authorizeSpendAndConsume, appendConsumed_disk_ok]
    split
    · simp
    · split <;> simp
  | sweepExpired => simp [perform]

/-- A commit returns Ok for an id that is consumed then. -/
theorem mem_consumed_of_commitConsume_ok {now : Nat} {id : String} {l : PersistedBucketLedger}
    (h : (l.commitConsume now .ok id).1 = .ok ()) :
    id ∈ (l.commitConsume now .ok id).2.inner.consumed := by
  revert h
  simp only [commitConsume, tryConsume, appendConsumed_disk_ok]
  split
  · rename_i hConsumed
    exact fun _ => hConsumed
  · split <;> simp

/-- An id found consumed is a commit retry. -/
theorem commitConsume_of_consumed {now : Nat} {disk : Disk} {id : String}
    {l : PersistedBucketLedger} (h : id ∈ l.inner.consumed) :
    (l.commitConsume now disk id).1 = .ok () := by
  simp [commitConsume, h]

/-- An authorize that returns Ok consumed an id that was not. -/
theorem authorizeSpendAndConsume_ok {id : String} {kind : BucketKind} {amount : Nat}
    {validate : Validate} {l : PersistedBucketLedger}
    (h : (l.authorizeSpendAndConsume .ok id kind amount validate).1 = .ok ()) :
    id ∉ l.inner.consumed ∧
      id ∈ (l.authorizeSpendAndConsume .ok id kind amount validate).2.inner.consumed := by
  revert h
  simp only [authorizeSpendAndConsume, appendConsumed_disk_ok]
  split
  · simp
  · rename_i hFree
    split
    · simp
    · exact fun _ => ⟨hFree, Finset.mem_insert_self ..⟩

/-! ## Restarts -/

/-- `SurvivesLog id` — the id comes back from the log unchanged: one line, no
blank at either end, not empty and not a comment. -/
def SurvivesLog (id : String) : Prop := Survives keepIntentLine id.toList

instance (id : String) : Decidable (SurvivesLog id) :=
  inferInstanceAs (Decidable (Survives keepIntentLine id.toList))

/-- An id that survives the log is consumed again after every restart. -/
theorem mem_openLedger_consumed {log : Log} {id : String} (hId : SurvivesLog id)
    (h : log.Recorded id.toList) (maxTx maxDay : Nat) :
    id ∈ (openLedger log maxTx maxDay).inner.consumed := by
  exact mem_loadConsumed.mpr (Recorded.mem_load h hId)

end PersistedBucketLedger

end KeroseneVault
