import KeroseneVault.Ledger.Entries
import KeroseneVault.Ledger.Quorum
import KeroseneVault.Lib.Runs

/-!
# The accounting law of the three bucket ledgers

Each ledger runs a sequence of calls, with any id, bucket and amount, while a
book beside it notes what the calls settled. The law: each bucket's counter
is what was settled plus what the live reservations hold.

The book is not in the code. It notes an id with its terms whenever a reservation is held or
a spend is authorized, and settles it when a commit or an authorization returns Ok; so it
says what the counter ought to be, and the law compares the two. Each method is proved to be
one entry, from its own list of cases, and what an entry does to the law is known; the
condition of a run is put together from the conditions of the entries that its calls come
to.

* `Book.note` — what the book notes of a call;
* `memStep`, `durStep`, `quorumStep` — a call on each of the ledgers;
* `KeepsBalance` — the condition on a call, one for each ledger.

Every method is one entry (`entry_memory`, `entry_durable`, `entry_quorum`).
Main result: `balanced_iff_keepsBalance` — a run keeps the law in all its
states exactly when each of its calls meets the condition. What breaks it is
a release that finds no reservation and takes the caller's own amount back,
and a commit that finds the id consumed or held by a soft prepare without the
amount being counted.
-/

namespace KeroseneVault

open BucketState

/-! ## Calls -/

/-- A port call, or a prepare that a peer asks for. -/
inductive NodeOp where
  | port (op : LedgerOp)
  | prepareSoft (id : String)
  | prepareConsume (id : String)

/-- The amount a call carries. -/
def LedgerOp.amount : LedgerOp → Nat
  | .reserveSpend _ _ amount _ => amount
  | .releaseReservation _ _ amount => amount
  | .authorizeSpendAndConsume _ _ amount _ => amount
  | _ => 0

def NodeOp.amount : NodeOp → Nat
  | .port op => op.amount
  | _ => 0

/-- One call with all its surroundings: the clock, the disk, and what the
peers answer in the soft and in the durable round. Amounts are `u64`. -/
structure NodeCall where
  now : Nat
  disk : Disk
  soft : Round
  durable : Round
  op : NodeOp
  isU64 : op.amount ≤ u64Max

/-- One call on the in-memory ledger, which has neither disk nor peers. -/
structure MemCall where
  now : Nat
  op : LedgerOp
  isU64 : op.amount ≤ u64Max

/-! ## What the book notes -/

namespace BucketState

/-- Is the id reserved on these terms? -/
def heldOn (g : BucketState) (id : String) (kind : BucketKind) (amount : Nat) : Bool :=
  (g.reserved.lookup id).any fun r => decide (r.kind = kind ∧ r.amount = amount)

/-- Is the id reserved with an amount? A soft prepare reserves none. -/
def holdsSpend (g : BucketState) (id : String) : Bool :=
  (g.reserved.lookup id).any fun r => decide (0 < r.amount)

/-- The bucket's counter takes the amount without saturating. -/
def Fits (g : BucketState) (kind : BucketKind) (amount : Nat) : Prop :=
  g.spentToday kind + amount ≤ u64Max

/-- A release finds the id reserved, or has nothing to take back. -/
def ReleaseBacked (g : BucketState) (id : String) (kind : BucketKind) (amount : Nat) : Prop :=
  g.reserved.lookup id = none → amount = 0 ∨ g.spentToday kind = 0

end BucketState

/-- What the book notes of a call that took the ledger from `found` to `left`
and returned Ok or not. An intent's terms are those of its last reservation or
authorization; it is settled by a commit or an authorization that returned Ok,
or when its id is consumed while an amount is reserved under it. -/
def Book.note (b : Book) (found left : BucketState) (ok : Bool) : NodeOp → Book
  | .port (.reserveSpend id kind amount _) =>
    if left.heldOn id kind amount then b.setTerms id (kind, amount) else b
  | .port (.commitConsume id) =>
    if ok ∨ (id ∉ found.consumed ∧ id ∈ left.consumed ∧ found.holdsSpend id) then b.settle id
    else b
  | .port (.tryConsume id) | .prepareConsume id =>
    if id ∉ found.consumed ∧ id ∈ left.consumed ∧ found.holdsSpend id then b.settle id else b
  | .port (.authorizeSpendAndConsume id kind amount _) =>
    if ok then (b.setTerms id (kind, amount)).settle id
    -- a failed authorization leaves a reservation, or a burned id without one
    else if left.heldOn id kind amount ∨ (id ∉ found.consumed ∧ id ∈ left.consumed) then
      b.setTerms id (kind, amount)
    else b
  | .port (.releaseReservation ..) | .port .sweepExpired | .prepareSoft _ => b

/-! ## The three ledgers -/

/-- A ledger and the book beside it. -/
structure Accounts (σ : Type) where
  ledger : σ
  book : Book

/-- A call on a ledger that peers can ask for prepares. -/
def nodePerform (port : PersistedBucketLedger → LedgerOp → Outcome × PersistedBucketLedger)
    (c : NodeCall) (l : PersistedBucketLedger) : Bool × PersistedBucketLedger :=
  match c.op with
  | .port op => (returnedOk (port l op).1, (port l op).2)
  | .prepareSoft id => (true, (l.prepareSoft c.now id).2)
  | .prepareConsume id => (true, (l.prepareConsume c.disk id).2)

/-- A call on the in-memory ledger. Its methods sweep before they look. -/
def memStep (s : Accounts BucketState) (c : MemCall) : Accounts BucketState :=
  let r := s.ledger.perform c.now c.op
  ⟨r.2, s.book.note (s.ledger.sweepExpired c.now) r.2 (returnedOk r.1) (.port c.op)⟩

def nodeStep (port : NodeCall → PersistedBucketLedger → LedgerOp → Outcome × PersistedBucketLedger)
    (s : Accounts PersistedBucketLedger) (c : NodeCall) : Accounts PersistedBucketLedger :=
  let r := nodePerform (port c) c s.ledger
  ⟨r.2, s.book.note s.ledger.inner r.2.inner r.1 c.op⟩

/-- A call on the durable ledger, which asks no peers. -/
def durStep : Accounts PersistedBucketLedger → NodeCall → Accounts PersistedBucketLedger :=
  nodeStep fun c l op => l.perform c.now c.disk op

/-- A call on the quorum ledger. -/
def quorumStep (t : Nat) :
    Accounts PersistedBucketLedger → NodeCall → Accounts PersistedBucketLedger :=
  nodeStep fun c l op => QuorumBucketLedger.perform t c.now c.disk c.soft c.durable l op

/-! ## The condition on a call -/

/-- A commit retry is of an id whose amount is settled, or that has none. -/
def RetryCovered (g : BucketState) (b : Book) (id : String) : Prop :=
  id ∈ g.consumed → id ∈ b.settled ∨ (b.termsOf id).2 = 0

/-- The round is answered and its answers pass. -/
def Round.Passes (t : Nat) (id : String) (r : Round) : Prop :=
  ∃ acks, r = .ok acks ∧ checkAcks t id acks = .ok ()

/-- The round is answered and its answers do not pass. -/
def Round.Refused (t : Nat) (id : String) (r : Round) : Prop :=
  ∃ acks, r = .ok acks ∧ checkAcks t id acks ≠ .ok ()

/-- The round ends in a transport error. -/
def Round.Fails (r : Round) : Prop := ∃ e, r = .error e

def memKeepsBalance (s : Accounts BucketState) (c : MemCall) : Prop :=
  let g := s.ledger.sweepExpired c.now
  match c.op with
  | .reserveSpend id kind amount validate => g.Accepts id kind validate → g.Fits kind amount
  | .authorizeSpendAndConsume id kind amount validate =>
    g.Accepts id kind validate → g.Fits kind amount
  | .commitConsume id =>
    RetryCovered g s.book id ∧
      (id ∉ g.consumed → g.reserved.lookup id ≠ none → HeldOnTerms g s.book id)
  | .releaseReservation id kind amount => s.ledger.ReleaseBacked id kind amount
  | .tryConsume _ | .sweepExpired => True

def durKeepsBalance (s : Accounts PersistedBucketLedger) (c : NodeCall) : Prop :=
  let found := s.ledger.inner
  let g := found.sweepExpired c.now
  match c.op with
  | .port (.reserveSpend id kind amount validate) =>
    g.Accepts id kind validate → g.Fits kind amount
  | .port (.authorizeSpendAndConsume id kind amount validate) =>
    -- this method neither sweeps nor looks at the reservations
    id ∉ found.consumed → found.validated kind validate = .ok () → found.Fits kind amount
  | .port (.commitConsume id) =>
    RetryCovered g s.book id ∧
      (id ∉ g.consumed → g.reserved.lookup id ≠ none → c.disk = .ok → HeldOnTerms g s.book id)
  | .port (.releaseReservation id kind amount) => found.ReleaseBacked id kind amount
  | .port (.tryConsume _) | .port .sweepExpired | .prepareSoft _ | .prepareConsume _ => True

def quorumKeepsBalance (t : Nat) (s : Accounts PersistedBucketLedger) (c : NodeCall) : Prop :=
  let found := s.ledger.inner
  let g := found.sweepExpired c.now
  match c.op with
  | .port (.reserveSpend id kind amount validate) =>
    g.Accepts id kind validate → g.Fits kind amount
  | .port (.authorizeSpendAndConsume id kind amount validate) =>
    g.Accepts id kind validate → g.Fits kind amount
  | .port (.commitConsume id) =>
    -- a claim asks for no reservation
    RetryCovered found s.book id ∧
      (id ∉ found.consumed → c.disk = .ok → c.durable.Passes t id → HeldOnTerms found s.book id)
  | .port (.releaseReservation id kind amount) => found.ReleaseBacked id kind amount
  | .port (.tryConsume _) | .port .sweepExpired | .prepareSoft _ | .prepareConsume _ => True

/-! ## The book's part of an entry -/

section Note

variable {g : BucketState} {b : Book} {id : String}

theorem heldOn_of_lookup_none {kind : BucketKind} {amount : Nat}
    (h : g.reserved.lookup id = none) : g.heldOn id kind amount = false := by
  simp [heldOn, h]

theorem lookup_of_heldOn {kind : BucketKind} {amount : Nat} (h : g.heldOn id kind amount = true) :
    ∀ r, g.reserved.lookup id = some r → r.kind = kind ∧ r.amount = amount := by
  intro r hr
  simpa [heldOn, hr] using h

theorem heldOn_hold (kind : BucketKind) (amount expires : Nat) :
    (g.hold id ⟨kind, amount, expires⟩).heldOn id kind amount = true := by
  simp [heldOn]

theorem holdsSpend_iff :
    g.holdsSpend id = true ↔ ∃ r, g.reserved.lookup id = some r ∧ 0 < r.amount := by
  simp [holdsSpend, Option.any_eq_true]

/-- A reservation left as it was is noted again on its terms. -/
theorem Entry.noteHeld (g : BucketState) (b : Book) (id : String) (kind : BucketKind)
    (amount : Nat) :
    Entry g b g (if g.heldOn id kind amount then b.setTerms id (kind, amount) else b) True := by
  split
  · rename_i hHeld
    exact Entry.resume (lookup_of_heldOn hHeld)
  · exact Entry.nothing g b

/-- An id burned by anything but a commit that returned Ok. -/
theorem Entry.noteBurn (b : Book) (hFree : id ∉ g.consumed) :
    Entry g b (g.burn id)
      (if id ∉ g.consumed ∧ id ∈ (g.burn id).consumed ∧ g.holdsSpend id then b.settle id else b)
      True := by
  have hBurned : id ∈ (g.burn id).consumed := by simp
  refine Entry.burn hFree ?_ ?_
  · intro r hr hPos
    rw [if_pos ⟨hFree, hBurned, holdsSpend_iff.mpr ⟨r, hr, hPos⟩⟩]
  · intro hVoid
    rw [if_neg]
    rintro ⟨-, -, hSpend⟩
    obtain ⟨r, hr, hPos⟩ := holdsSpend_iff.mp hSpend
    have hZero := hVoid r hr
    omega

end Note

/-! ## The in-memory methods -/

section Memory

variable (g : BucketState) (b : Book) (now : Nat) (id : String) (kind : BucketKind) (amount : Nat)
  (validate : Validate)

theorem entry_reserveSpend (found : BucketState) (ok : Bool) :
    Entry g b (g.reserveSpend now id kind amount validate).2
      (b.note found (g.reserveSpend now id kind amount validate).2 ok
        (.port (.reserveSpend id kind amount validate)))
      ((g.sweepExpired now).Accepts id kind validate →
        (g.sweepExpired now).Fits kind amount) := by
  refine Entry.sweep_first now ?_
  rcases g.reserveSpend_cases now id kind amount validate with ⟨hAccepts, h⟩ | ⟨hRefused, h⟩
  · rw [h]
    simp only [Book.note, heldOn_hold, if_true]
    exact (Entry.hold hAccepts.2.1 kind amount _).congr (by simp [hAccepts, Fits])
  · rw [h]
    exact (Entry.noteHeld _ b id kind amount).congr (by simp [hRefused])

theorem entry_authorize_memory :
    Entry g b (g.authorizeSpendAndConsume now id kind amount validate).2
      (b.note (g.sweepExpired now) (g.authorizeSpendAndConsume now id kind amount validate).2
        (returnedOk (g.authorizeSpendAndConsume now id kind amount validate).1)
        (.port (.authorizeSpendAndConsume id kind amount validate)))
      ((g.sweepExpired now).Accepts id kind validate →
        (g.sweepExpired now).Fits kind amount) := by
  refine Entry.sweep_first now ?_
  rcases g.authorizeSpendAndConsume_cases now id kind amount validate with
    ⟨hAccepts, h⟩ | ⟨hRefused, e, h⟩
  · rw [h]
    simp only [Book.note, returnedOk, if_true]
    refine (Entry.spend hAccepts.1 kind amount ?_ ?_ ?_).congr (by simp [hAccepts, Fits])
    · rfl
    · rfl
    · rfl
  · rw [h]
    generalize g.sweepExpired now = g₁ at hRefused
    have hSame : ¬ (id ∉ g₁.consumed ∧ id ∈ g₁.consumed) := fun hId => hId.1 hId.2
    simp only [Book.note, returnedOk, hSame, or_false, Bool.false_eq_true, if_false]
    exact (Entry.noteHeld _ b id kind amount).congr (by simp [hRefused])

theorem entry_commit_memory :
    Entry g b (g.commitConsume now id).2
      (b.note (g.sweepExpired now) (g.commitConsume now id).2
        (returnedOk (g.commitConsume now id).1) (.port (.commitConsume id)))
      (RetryCovered (g.sweepExpired now) b id ∧
        (id ∉ (g.sweepExpired now).consumed →
          (g.sweepExpired now).reserved.lookup id ≠ none →
            HeldOnTerms (g.sweepExpired now) b id)) := by
  refine Entry.sweep_first now ?_
  unfold BucketState.commitConsume
  generalize g.sweepExpired now = g₁
  by_cases hConsumed : id ∈ g₁.consumed
  · -- Ok again, so the book settles the id now if it did not before
    simpa [Book.note, returnedOk, RetryCovered, hConsumed] using Entry.retry (b := b) hConsumed
  · cases hReserved : g₁.reserved.lookup id with
    | none =>
      simpa [Book.note, returnedOk, RetryCovered, hConsumed, hReserved] using Entry.nothing g₁ b
    | some held =>
      simpa [Book.note, returnedOk, RetryCovered, hConsumed, hReserved] using
        Entry.commit (b := b) hConsumed

theorem entry_try_memory :
    Entry g b (g.tryConsume now id).2
      (b.note (g.sweepExpired now) (g.tryConsume now id).2 (returnedOk (g.tryConsume now id).1)
        (.port (.tryConsume id))) True := by
  refine Entry.sweep_first now ?_
  unfold BucketState.tryConsume
  generalize g.sweepExpired now = g₁
  by_cases hConsumed : id ∈ g₁.consumed
  · simpa [Book.note, hConsumed] using Entry.nothing g₁ b
  · simp only [hConsumed, if_false]
    exact Entry.noteBurn b hConsumed

theorem entry_release (found : BucketState) (ok : Bool) :
    Entry g b (g.releaseReservation id kind amount).2
      (b.note found (g.releaseReservation id kind amount).2 ok
        (.port (.releaseReservation id kind amount)))
      (g.ReleaseBacked id kind amount) := by
  unfold BucketState.releaseReservation
  cases hReserved : g.reserved.lookup id with
  | none =>
    -- the caller's own amount is taken back
    exact (Entry.refund g b kind amount).congr (by simp [ReleaseBacked, hReserved])
  | some r => exact (Entry.drop g b id).congr (by simp [ReleaseBacked, hReserved])

end Memory

/-- A call on the in-memory ledger is one entry. -/
theorem entry_memory (s : Accounts BucketState) (c : MemCall) :
    Entry s.ledger s.book (memStep s c).ledger (memStep s c).book (memKeepsBalance s c) := by
  obtain ⟨now, op, hU64⟩ := c
  cases op with
  | reserveSpend id kind amount validate =>
    exact entry_reserveSpend s.ledger s.book now id kind amount validate s.ledger true
  | commitConsume id => exact entry_commit_memory ..
  | tryConsume id => exact entry_try_memory ..
  | releaseReservation id kind amount =>
    exact entry_release s.ledger s.book id kind amount s.ledger true
  | authorizeSpendAndConsume id kind amount validate => exact entry_authorize_memory ..
  | sweepExpired => exact Entry.sweep ..

/-! ## The durable methods -/

section Durable

variable (l : PersistedBucketLedger) (b : Book) (now : Nat) (disk : Disk) (id : String)

theorem entry_prepareSoft : Entry l.inner b (l.prepareSoft now id).2.inner b True := by
  refine Entry.sweep_first now ?_
  unfold PersistedBucketLedger.prepareSoft
  generalize l.inner.sweepExpired now = g₁
  by_cases hSeen : id ∈ g₁.consumed ∨ (g₁.reserved.lookup id).isSome
  · simp only [hSeen, if_true]
    exact Entry.nothing g₁ b
  · simp only [hSeen, if_false]
    rw [not_or, Option.not_isSome_iff_eq_none] at hSeen
    exact Entry.holdVoid hSeen.2 rfl

/-- A claim of an id, by whichever method: the ledger is as it was, or the id
is burned. -/
theorem entry_claim {left : BucketState}
    (hLeft : left = l.inner ∨ (id ∉ l.inner.consumed ∧ left = l.inner.burn id)) :
    Entry l.inner b left
      (if id ∉ l.inner.consumed ∧ id ∈ left.consumed ∧ l.inner.holdsSpend id then b.settle id
        else b) True := by
  rcases hLeft with rfl | ⟨hFree, rfl⟩
  · have hSame : ¬ (id ∉ l.inner.consumed ∧ id ∈ l.inner.consumed ∧ l.inner.holdsSpend id) :=
      fun h => h.1 h.2.1
    rw [if_neg hSame]
    exact Entry.nothing _ b
  · exact Entry.noteBurn b hFree

/-- A durable prepare leaves the id burned or memory untouched. -/
theorem prepareConsume_inner :
    (l.prepareConsume disk id).2.inner = l.inner ∨
      (id ∉ l.inner.consumed ∧ (l.prepareConsume disk id).2.inner = l.inner.burn id) := by
  rcases l.prepareConsume_cases disk id with ⟨-, h⟩ | ⟨-, -, e, log, -, h⟩ | ⟨hFree, -, h⟩
  · exact Or.inl (by rw [h])
  · exact Or.inl (by rw [h])
  · exact Or.inr ⟨hFree, by rw [h]⟩

theorem entry_prepareConsume (ok : Bool) :
    Entry l.inner b (l.prepareConsume disk id).2.inner
      (b.note l.inner (l.prepareConsume disk id).2.inner ok (.prepareConsume id)) True :=
  entry_claim l b id (prepareConsume_inner ..)

theorem entry_try_durable (ok : Bool) :
    Entry l.inner b (l.tryConsume disk id).2.inner
      (b.note l.inner (l.tryConsume disk id).2.inner ok (.port (.tryConsume id))) True := by
  rw [l.tryConsume_eq_prepareConsume]
  exact entry_claim l b id (prepareConsume_inner ..)

/-- A durable commit settles once its line is written. -/
theorem entry_commit_durable :
    Entry l.inner b (l.commitConsume now disk id).2.inner
      (b.note l.inner (l.commitConsume now disk id).2.inner
        (returnedOk (l.commitConsume now disk id).1) (.port (.commitConsume id)))
      (RetryCovered (l.inner.sweepExpired now) b id ∧
        (id ∉ (l.inner.sweepExpired now).consumed →
          (l.inner.sweepExpired now).reserved.lookup id ≠ none → disk = .ok →
            HeldOnTerms (l.inner.sweepExpired now) b id)) := by
  refine Entry.sweep_first now ?_
  have hSame : (l.inner.sweepExpired now).consumed = l.inner.consumed := by simp
  have hCases := l.commitConsume_cases now disk id
  generalize l.commitConsume now disk id = result at hCases
  generalize l.inner.sweepExpired now = g₁ at hCases hSame
  rcases hCases with ⟨hConsumed, rfl⟩ | ⟨hFree, hNone, rfl⟩ |
    ⟨hFree, r, hr, ⟨rfl, rfl⟩ | ⟨hDisk, e, log, rfl⟩⟩
  · have hConsumed₁ : id ∈ g₁.consumed := hSame ▸ hConsumed
    simpa [Book.note, returnedOk, RetryCovered, hConsumed₁] using Entry.retry (b := b) hConsumed₁
  · have hFree₁ : id ∉ g₁.consumed := hSame ▸ hFree
    simpa [Book.note, returnedOk, RetryCovered, hFree₁, hNone] using Entry.nothing g₁ b
  · have hFree₁ : id ∉ g₁.consumed := hSame ▸ hFree
    simpa [Book.note, returnedOk, RetryCovered, hFree₁, hr] using Entry.commit (b := b) hFree₁
  · -- the append failed: the reservation stays
    have hFree₁ : id ∉ g₁.consumed := hSame ▸ hFree
    simpa [Book.note, returnedOk, RetryCovered, hFree₁, hDisk] using Entry.nothing g₁ b

/-- A durable authorization is a spend that is taken back where its line is not written. -/
theorem entry_authorize_durable (kind : BucketKind) {amount : Nat} (hU64 : amount ≤ u64Max)
    (validate : Validate) :
    Entry l.inner b (l.authorizeSpendAndConsume disk id kind amount validate).2.inner
      (b.note l.inner (l.authorizeSpendAndConsume disk id kind amount validate).2.inner
        (returnedOk (l.authorizeSpendAndConsume disk id kind amount validate).1)
        (.port (.authorizeSpendAndConsume id kind amount validate)))
      (id ∉ l.inner.consumed → l.inner.validated kind validate = .ok () →
        l.inner.Fits kind amount) := by
  rcases l.authorizeSpendAndConsume_cases disk id kind amount validate with
    ⟨hRefused, e, h⟩ | ⟨⟨hFree, hValid⟩, ⟨rfl, h⟩ | ⟨hDisk, e, log, h⟩⟩
  · have hSame : ¬ (id ∉ l.inner.consumed ∧ id ∈ l.inner.consumed) := fun hId => hId.1 hId.2
    simp only [h, Book.note, returnedOk, hSame, or_false, Bool.false_eq_true, if_false]
    exact (Entry.noteHeld l.inner b id kind amount).congr (by simp_all)
  · simp only [h, Book.note, returnedOk, if_true]
    refine (Entry.spend hFree kind amount ?_ ?_ ?_).congr (by simp [hFree, hValid, Fits])
    · rfl
    · rfl
    · rfl
  · -- charge and consumed mark are taken back
    simp only [h, Book.note, returnedOk, Bool.false_eq_true, if_false]
    refine (Entry.takeBack id kind hU64 rfl rfl subset_rfl ?_).congr (by simp [hFree, hValid, Fits])
    simp only [refund_consumed, charge_consumed, hFree, and_false, or_false]
    split
    · rename_i hHeld
      exact Or.inr ⟨rfl, lookup_of_heldOn hHeld⟩
    · exact Or.inl rfl

end Durable

/-- A call on the durable ledger is one entry. -/
theorem entry_durable (s : Accounts PersistedBucketLedger) (c : NodeCall) :
    Entry s.ledger.inner s.book (durStep s c).ledger.inner (durStep s c).book
      (durKeepsBalance s c) := by
  obtain ⟨now, disk, soft, durable, op, hU64⟩ := c
  cases op with
  | prepareSoft id => exact entry_prepareSoft ..
  | prepareConsume id => exact entry_prepareConsume s.ledger s.book disk id true
  | port op =>
    cases op with
    | reserveSpend id kind amount validate =>
      exact entry_reserveSpend s.ledger.inner s.book now id kind amount validate s.ledger.inner true
    | commitConsume id => exact entry_commit_durable ..
    | tryConsume id => exact entry_try_durable s.ledger s.book disk id true
    | releaseReservation id kind amount =>
      exact entry_release s.ledger.inner s.book id kind amount s.ledger.inner true
    | authorizeSpendAndConsume id kind amount validate =>
      exact entry_authorize_durable s.ledger s.book disk id kind hU64 validate
    | sweepExpired => exact Entry.sweep ..

/-! ## The quorum methods -/

section Quorum

open QuorumBucketLedger

variable (l : PersistedBucketLedger) (b : Book) (t now : Nat) (disk : Disk) (soft durable : Round)
  (id : String) (kind : BucketKind) (amount : Nat) (validate : Validate)

/-- What a claim leaves of the ledger is what its durable prepare leaves. -/
theorem claimConsume_ledger :
    (claimConsume t disk durable id l).2 = (l.prepareConsume disk id).2 := by
  unfold claimConsume
  split
  · simp [*]
  · simp [*]
  · split <;> simp [*]

/-- All a claim of a free id can do: the append fails and memory is untouched,
or the id is burned and the durable round decides. -/
theorem claimConsume_cases (hFree : id ∉ l.inner.consumed) :
    (disk ≠ .ok ∧ ∃ e l', l'.inner = l.inner ∧
      claimConsume t disk durable id l = (.error e, l')) ∨
    (disk = .ok ∧ ∃ l', l'.inner = l.inner.burn id ∧
      ((durable.Passes t id ∧ claimConsume t disk durable id l = (.ok (), l')) ∨
        (¬ durable.Passes t id ∧ ∃ e, claimConsume t disk durable id l = (.error e, l')))) := by
  rcases l.prepareConsume_cases disk id with
    ⟨hConsumed, -⟩ | ⟨-, hDisk, e, log, -, h⟩ | ⟨-, hDisk, h⟩
  · exact absurd hConsumed hFree
  · exact Or.inl ⟨hDisk, e, ⟨l.inner, log⟩, rfl, by simp [claimConsume, h]⟩
  · refine Or.inr ⟨hDisk, ⟨l.inner.burn id, l.log.append id.toList⟩, rfl, ?_⟩
    cases durable with
    | error e => exact Or.inr ⟨by simp [Round.Passes], e, by simp [claimConsume, h]⟩
    | ok acks =>
      cases hAcks : checkAcks t id acks with
      | error e =>
        exact Or.inr ⟨by simp [Round.Passes, hAcks], e, by simp [claimConsume, h, hAcks]⟩
      | ok => exact Or.inl ⟨⟨acks, rfl, hAcks⟩, by simp [claimConsume, h, hAcks]⟩

theorem entry_try_quorum (ok : Bool) :
    Entry l.inner b (QuorumBucketLedger.tryConsume t disk durable id l).2.inner
      (b.note l.inner (QuorumBucketLedger.tryConsume t disk durable id l).2.inner ok
        (.port (.tryConsume id))) True := by
  unfold QuorumBucketLedger.tryConsume
  rw [claimConsume_ledger]
  exact entry_claim l b id (prepareConsume_inner ..)

theorem entry_commit_quorum :
    Entry l.inner b (QuorumBucketLedger.commitConsume t disk durable id l).2.inner
      (b.note l.inner (QuorumBucketLedger.commitConsume t disk durable id l).2.inner
        (returnedOk (QuorumBucketLedger.commitConsume t disk durable id l).1)
        (.port (.commitConsume id)))
      (RetryCovered l.inner b id ∧ (id ∉ l.inner.consumed → disk = .ok → durable.Passes t id →
        HeldOnTerms l.inner b id)) := by
  unfold QuorumBucketLedger.commitConsume PersistedBucketLedger.isConsumed
  by_cases hConsumed : id ∈ l.inner.consumed
  · simpa [Book.note, returnedOk, RetryCovered, hConsumed] using Entry.retry (b := b) hConsumed
  · rcases claimConsume_cases l t disk durable id hConsumed with
      ⟨hDisk, e, l', hInner, h⟩ | ⟨rfl, l', hInner, ⟨hPasses, h⟩ | ⟨hFails, e, h⟩⟩
    · simpa [Book.note, returnedOk, RetryCovered, hConsumed, h, hInner, hDisk] using
        Entry.nothing l.inner b
    · simpa [Book.note, returnedOk, RetryCovered, hConsumed, h, hInner, hPasses] using
        Entry.commit (b := b) hConsumed
    · -- burned here, not confirmed by the peers
      have hBurn := Entry.noteBurn b hConsumed
      simpa [Book.note, returnedOk, RetryCovered, hConsumed, h, hInner, hFails] using hBurn

/-- All the part of a reservation under the mutex can do after the sweep. -/
theorem reserveLocal_cases :
    let g₁ := l.inner.sweepExpired now
    (g₁.Accepts id kind validate ∧ reserveLocal now id kind amount validate l =
      (.ok (), { l with inner :=
        (g₁.charge kind amount).hold id ⟨kind, amount, now + defaultReserveTtl⟩ })) ∨
    (¬ g₁.Accepts id kind validate ∧
      ∃ e, reserveLocal now id kind amount validate l = (.error e, { l with inner := g₁ })) := by
  simp only [reserveLocal]
  generalize l.inner.sweepExpired now = g₁
  by_cases hSeen : id ∈ g₁.consumed ∨ (g₁.reserved.lookup id).isSome
  · refine Or.inr ⟨?_, _, by rw [if_pos hSeen]⟩
    rintro ⟨hFree, hNone, -⟩
    simp [hFree, hNone] at hSeen
  · rw [if_neg hSeen]
    rw [not_or, Option.not_isSome_iff_eq_none] at hSeen
    cases hValid : g₁.validated kind validate with
    | error e => exact Or.inr ⟨fun h => by simp [Accepts, hValid] at h, e, rfl⟩
    | ok => exact Or.inl ⟨⟨hSeen.1, hSeen.2, hValid⟩, rfl⟩

/-- The ledger right after the mutex part of a reservation let the id through. -/
def held (now : Nat) (id : String) (kind : BucketKind) (amount : Nat) (g : BucketState) :
    BucketState :=
  (g.charge kind amount).hold id ⟨kind, amount, now + defaultReserveTtl⟩

/-- All a quorum reservation can do after the sweep: nothing, or it is let
through and then kept (the soft round passed, or was not answered) or dropped. -/
theorem quorum_reserveSpend_cases :
    let g₁ := l.inner.sweepExpired now
    let r := QuorumBucketLedger.reserveSpend t now soft id kind amount validate l
    (¬ g₁.Accepts id kind validate ∧ ∃ e, r = (.error e, { l with inner := g₁ })) ∨
    (g₁.Accepts id kind validate ∧
      ((soft.Passes t id ∧ r = (.ok (), { l with inner := held now id kind amount g₁ })) ∨
        (soft.Fails ∧ ∃ e, r = (.error e, { l with inner := held now id kind amount g₁ })) ∨
        (soft.Refused t id ∧ ∃ e, r =
          (.error e, { l with inner := (held now id kind amount g₁).dropReservation id })))) := by
  intro g₁ r
  -- the local half refuses, or holds and asks the peers
  rcases reserveLocal_cases l now id kind amount validate with ⟨hAccepts, h⟩ | ⟨hRefused, e, h⟩
  · refine Or.inr ⟨hAccepts, ?_⟩
    simp only [r, QuorumBucketLedger.reserveSpend, h, finishReserve]
    cases soft with
    | error e => exact Or.inr (Or.inl ⟨⟨e, rfl⟩, e, rfl⟩)
    | ok acks =>
      dsimp only
      cases hAcks : checkAcks t id acks with
      | ok => exact Or.inl ⟨⟨acks, rfl, hAcks⟩, rfl⟩
      | error e =>
        refine Or.inr (Or.inr ⟨⟨acks, rfl, by simp [hAcks]⟩, e, ?_⟩)
        simp [QuorumBucketLedger.releaseReservation, PersistedBucketLedger.releaseReservation,
          PersistedBucketLedger.onInner, BucketState.releaseReservation, held, g₁]
  · exact Or.inl ⟨hRefused, e, by simp [r, QuorumBucketLedger.reserveSpend, h, g₁]⟩

/-- All a quorum authorization can do after the sweep: nothing; the reservation
is kept (the soft round was not answered) or dropped (it was refused, or the
claim was not written); the id is burned, with the charge or, when the durable
round did not pass, without. -/
theorem quorum_authorize_cases :
    let g₁ := l.inner.sweepExpired now
    let r := QuorumBucketLedger.authorizeSpendAndConsume t now disk soft durable id kind amount
      validate l
    (¬ g₁.Accepts id kind validate ∧ (∃ e, r.1 = .error e) ∧ r.2.inner = g₁) ∨
    (g₁.Accepts id kind validate ∧
      ((soft.Fails ∧ (∃ e, r.1 = .error e) ∧ r.2.inner = held now id kind amount g₁) ∨
        ((soft.Refused t id ∨ (soft.Passes t id ∧ disk ≠ .ok)) ∧ (∃ e, r.1 = .error e) ∧
          r.2.inner = (held now id kind amount g₁).dropReservation id) ∨
        (soft.Passes t id ∧ disk = .ok ∧ durable.Passes t id ∧ r.1 = .ok () ∧
          r.2.inner = (held now id kind amount g₁).burn id) ∨
        (soft.Passes t id ∧ disk = .ok ∧ ¬ durable.Passes t id ∧ (∃ e, r.1 = .error e) ∧
          r.2.inner = ((held now id kind amount g₁).burn id).refund kind amount))) := by
  dsimp only
  have hCases := quorum_reserveSpend_cases l t now soft id kind amount validate
  unfold QuorumBucketLedger.authorizeSpendAndConsume
  generalize QuorumBucketLedger.reserveSpend t now soft id kind amount validate l = r at hCases
  generalize l.inner.sweepExpired now = g₁ at hCases
  rcases hCases with ⟨hRefused, e, rfl⟩ |
    ⟨hAccepts, ⟨hPasses, rfl⟩ | ⟨hFails, e, rfl⟩ | ⟨hRefused, e, rfl⟩⟩
  · exact Or.inl ⟨hRefused, ⟨e, rfl⟩, rfl⟩
  · -- reserved here and accepted by the peers: the claim decides
    refine Or.inr ⟨hAccepts, Or.inr ?_⟩
    have hFree : id ∉ (held now id kind amount g₁).consumed := hAccepts.1
    simp only [QuorumBucketLedger.commitConsume, PersistedBucketLedger.isConsumed, hFree,
      decide_false, Bool.false_eq_true, if_false]
    rcases claimConsume_cases { l with inner := held now id kind amount g₁ } t disk durable id hFree
      with ⟨hDisk, e, l', hInner, h⟩ | ⟨hDisk, l', hInner, ⟨hDurable, h⟩ | ⟨hDurable, e, h⟩⟩
    · -- not written: the reservation is released
      have hReleased : (QuorumBucketLedger.releaseReservation id kind amount l').2.inner =
          (held now id kind amount g₁).dropReservation id := by
        simp [QuorumBucketLedger.releaseReservation, PersistedBucketLedger.releaseReservation,
          PersistedBucketLedger.onInner, BucketState.releaseReservation, hInner, held]
      exact Or.inl ⟨Or.inr ⟨hPasses, hDisk⟩, ⟨e, by simp [h]⟩, by simp only [h, hReleased]⟩
    · exact Or.inr (Or.inl ⟨hPasses, hDisk, hDurable, by simp [h], by simp [h, hInner]⟩)
    · -- burned and not confirmed: no reservation is left to release
      refine Or.inr (Or.inr ⟨hPasses, hDisk, hDurable, ⟨e, by simp [h]⟩, ?_⟩)
      simp [h, QuorumBucketLedger.releaseReservation, PersistedBucketLedger.releaseReservation,
        PersistedBucketLedger.onInner, BucketState.releaseReservation, hInner]
  · exact Or.inr ⟨hAccepts, Or.inl ⟨hFails, ⟨e, rfl⟩, rfl⟩⟩
  · exact Or.inr ⟨hAccepts, Or.inr (Or.inl ⟨Or.inl hRefused, ⟨e, rfl⟩, rfl⟩)⟩

theorem erase_held_reserved {g : BucketState} (hNone : g.reserved.lookup id = none) :
    (held now id kind amount g).reserved.erase id = g.reserved :=
  Table.erase_insert hNone _

/-- A reservation held and dropped again takes its charge back. -/
theorem entry_dropped {g : BucketState} {amount : Nat} (hU64 : amount ≤ u64Max)
    (hAccepts : g.Accepts id kind validate) :
    Entry g b ((held now id kind amount g).dropReservation id) b
      (g.Accepts id kind validate → g.Fits kind amount) := by
  refine (Entry.takeBack id kind hU64 ?_ ?_ (by simp [held]) (Or.inl rfl)).congr
    (by simp [hAccepts, Fits])
  · simp [held, BucketState.dropReservation, refund]
  · rw [dropReservation_reserved]
    exact erase_held_reserved now id kind amount hAccepts.2.1

/-- Nothing is reserved under a dropped id. -/
theorem heldOn_dropped (g : BucketState) :
    ((held now id kind amount g).dropReservation id).heldOn id kind amount = false :=
  heldOn_of_lookup_none (by simp)

/-- A reservation by a quorum is a hold, kept or dropped as its round ends. -/
theorem entry_reserve_quorum {amount : Nat} (hU64 : amount ≤ u64Max) (found : BucketState)
    (ok : Bool) :
    Entry l.inner b (QuorumBucketLedger.reserveSpend t now soft id kind amount validate l).2.inner
      (b.note found (QuorumBucketLedger.reserveSpend t now soft id kind amount validate l).2.inner
        ok (.port (.reserveSpend id kind amount validate)))
      ((l.inner.sweepExpired now).Accepts id kind validate →
        (l.inner.sweepExpired now).Fits kind amount) := by
  refine Entry.sweep_first now ?_
  have hCases := quorum_reserveSpend_cases l t now soft id kind amount validate
  generalize QuorumBucketLedger.reserveSpend t now soft id kind amount validate l = r at hCases
  generalize l.inner.sweepExpired now = g₁ at hCases
  have hNoted : b.note found (held now id kind amount g₁) ok
      (.port (.reserveSpend id kind amount validate)) = b.setTerms id (kind, amount) := by
    simp [Book.note, held, heldOn_hold]
  rcases hCases with ⟨hRefused, e, rfl⟩ |
    ⟨hAccepts, ⟨-, rfl⟩ | ⟨-, e, rfl⟩ | ⟨-, e, rfl⟩⟩
  · exact (Entry.noteHeld g₁ b id kind amount).congr (by simp [hRefused])
  · rw [hNoted]
    exact (Entry.hold hAccepts.2.1 kind amount _).congr (by simp [hAccepts, Fits])
  · rw [hNoted]
    exact (Entry.hold hAccepts.2.1 kind amount _).congr (by simp [hAccepts, Fits])
  · have hNoted : b.note found ((held now id kind amount g₁).dropReservation id) ok
        (.port (.reserveSpend id kind amount validate)) = b := by
      simp [Book.note, heldOn_dropped]
    rw [hNoted]
    exact entry_dropped b now id kind validate hU64 hAccepts

/-- An authorization by a quorum is a hold, and then its commit. -/
theorem entry_authorize_quorum {amount : Nat} (hU64 : amount ≤ u64Max) :
    Entry l.inner b
      (QuorumBucketLedger.authorizeSpendAndConsume t now disk soft durable id kind amount validate
        l).2.inner
      (b.note l.inner
        (QuorumBucketLedger.authorizeSpendAndConsume t now disk soft durable id kind amount
          validate l).2.inner
        (returnedOk (QuorumBucketLedger.authorizeSpendAndConsume t now disk soft durable id kind
          amount validate l).1)
        (.port (.authorizeSpendAndConsume id kind amount validate)))
      ((l.inner.sweepExpired now).Accepts id kind validate →
        (l.inner.sweepExpired now).Fits kind amount) := by
  refine Entry.sweep_first now ?_
  have hConsumed : (l.inner.sweepExpired now).consumed = l.inner.consumed := by simp
  have hCases := quorum_authorize_cases l t now disk soft durable id kind amount validate
  generalize QuorumBucketLedger.authorizeSpendAndConsume t now disk soft durable id kind amount
    validate l = r at hCases
  obtain ⟨result, l'⟩ := r
  generalize l.inner.sweepExpired now = g₁ at hCases hConsumed
  -- refused, held with a failed round, dropped again, committed, or burned without an Ok
  rcases hCases with ⟨hRefused, ⟨e, rfl⟩, rfl⟩ | ⟨hAccepts, ⟨-, ⟨e, rfl⟩, hInner⟩ |
    ⟨-, ⟨e, rfl⟩, hInner⟩ | ⟨-, -, -, rfl, hInner⟩ | ⟨-, -, -, ⟨e, rfl⟩, hInner⟩⟩
  · have hSame : ¬ (id ∉ l.inner.consumed ∧ id ∈ l'.inner.consumed) := by
      intro hId
      exact hId.1 (hConsumed ▸ hId.2)
    simp only [Book.note, returnedOk, hSame, or_false, Bool.false_eq_true, if_false]
    exact (Entry.noteHeld l'.inner b id kind amount).congr (by simp [hRefused])
  · dsimp only at hInner
    simp only [hInner, Book.note, returnedOk, Bool.false_eq_true, if_false, held, heldOn_hold,
      true_or, if_true]
    exact (Entry.hold hAccepts.2.1 kind amount _).congr (by simp [hAccepts, Fits])
  · dsimp only at hInner
    have hSame : ¬ (id ∉ l.inner.consumed ∧
        id ∈ ((held now id kind amount g₁).dropReservation id).consumed) := by
      simp [held, hConsumed]
    simp only [hInner, Book.note, returnedOk, heldOn_dropped, hSame, or_false, Bool.false_eq_true,
      if_false]
    exact entry_dropped b now id kind validate hU64 hAccepts
  · dsimp only at hInner
    have hErased := erase_held_reserved now id kind amount hAccepts.2.1
    simp only [hInner, Book.note, returnedOk, if_true]
    refine (Entry.spend hAccepts.1 kind amount ?_ hErased ?_).congr (by simp [hAccepts, Fits])
    · rfl
    · rfl
  · -- the charge is taken back, the id stays consumed
    dsimp only at hInner
    have hErased := erase_held_reserved now id kind amount hAccepts.2.1
    have hBurned : id ∉ l.inner.consumed ∧
        id ∈ (((held now id kind amount g₁).burn id).refund kind amount).consumed :=
      ⟨hConsumed ▸ hAccepts.1, by simp⟩
    simp only [hInner, Book.note, returnedOk, hBurned, not_false_eq_true, and_self, or_true,
      Bool.false_eq_true, if_false, if_true]
    refine (Entry.takeBack id kind hU64 ?_ hErased ?_ (Or.inr ⟨rfl, ?_⟩)).congr
      (by simp [hAccepts, Fits])
    · rfl
    · simp [held]
    · intro r hr
      rw [hAccepts.2.1] at hr
      cases hr

end Quorum

/-- A call on the quorum ledger is one entry. -/
theorem entry_quorum (t : Nat) (s : Accounts PersistedBucketLedger) (c : NodeCall) :
    Entry s.ledger.inner s.book (quorumStep t s c).ledger.inner (quorumStep t s c).book
      (quorumKeepsBalance t s c) := by
  obtain ⟨now, disk, soft, durable, op, hU64⟩ := c
  cases op with
  | prepareSoft id => exact entry_prepareSoft ..
  | prepareConsume id => exact entry_prepareConsume s.ledger s.book disk id true
  | port op =>
    cases op with
    | reserveSpend id kind amount validate =>
      exact entry_reserve_quorum s.ledger s.book t now soft id kind validate hU64 s.ledger.inner
        true
    | commitConsume id => exact entry_commit_quorum ..
    | tryConsume id => exact entry_try_quorum s.ledger s.book t disk durable id true
    | releaseReservation id kind amount =>
      exact entry_release s.ledger.inner s.book id kind amount s.ledger.inner true
    | authorizeSpendAndConsume id kind amount validate =>
      exact entry_authorize_quorum s.ledger s.book t now disk soft durable id kind validate hU64
    | sweepExpired => exact Entry.sweep ..

/-! ## Runs -/

/-- A fresh ledger: nothing charged, nothing reserved, nothing in the book. -/
theorem balanced_fresh {g : BucketState} (hSpent : ∀ k, g.spentToday k = 0)
    (hReserved : g.reserved = ∅) : Balanced g Book.empty := by
  intro k
  simp [hSpent, Book.committed, Book.empty, live, hReserved]

theorem bookOk_fresh {g : BucketState} (hReserved : g.reserved = ∅) : BookOk g Book.empty := by
  constructor
  · intro id hId
    exact absurd hId (AList.notMem_empty id)
  · intro id r hr
    simp [hReserved] at hr

/-- Where every call is one entry, a run keeps the law exactly when its calls
meet the condition. -/
theorem balanced_iff_of_entry {σ α : Type} (state : σ → BucketState)
    {step : Accounts σ → α → Accounts σ} {C : Accounts σ → α → Prop}
    (hEntry : ∀ s a,
      Entry (state s.ledger) s.book (state (step s a).ledger) (step s a).book (C s a))
    (s : Accounts σ) (hBook : BookOk (state s.ledger) s.book)
    (hBalanced : Balanced (state s.ledger) s.book) (as : List α) :
    Runs.EveryState step (fun s => Balanced (state s.ledger) s.book) s as ↔
      Runs.EveryStep step C s as :=
  Runs.everyState_iff_everyStep (J := fun s => BookOk (state s.ledger) s.book)
    (fun s a => (hEntry s a).book) (fun s a => (hEntry s a).balanced) hBook hBalanced as

/--
**The accounting law.** From a fresh start, a run of calls on the in-memory,
the durable or the quorum ledger keeps each bucket's counter equal to what was
settled plus what the live reservations hold, in all its states, exactly when
each of its calls keeps the balance.
-/
theorem balanced_iff_keepsBalance (t maxTx maxDay : Nat) (log : LineLog.Log) :
    (∀ calls,
      Runs.EveryState memStep (fun s => Balanced s.ledger s.book)
        ⟨.fromConstitutionCaps maxTx maxDay, .empty⟩ calls ↔
      Runs.EveryStep memStep memKeepsBalance
        ⟨.fromConstitutionCaps maxTx maxDay, .empty⟩ calls) ∧
    (∀ calls,
      Runs.EveryState durStep (fun s => Balanced s.ledger.inner s.book)
        ⟨.openLedger log maxTx maxDay, .empty⟩ calls ↔
      Runs.EveryStep durStep durKeepsBalance ⟨.openLedger log maxTx maxDay, .empty⟩ calls) ∧
    (∀ calls,
      Runs.EveryState (quorumStep t) (fun s => Balanced s.ledger.inner s.book)
        ⟨.openLedger log maxTx maxDay, .empty⟩ calls ↔
      Runs.EveryStep (quorumStep t) (quorumKeepsBalance t)
        ⟨.openLedger log maxTx maxDay, .empty⟩ calls) := by
  have hSpent : ∀ k, (fromConstitutionCaps maxTx maxDay).spentToday k = 0 := fun _ => rfl
  refine ⟨fun calls => ?_, fun calls => ?_, fun calls => ?_⟩
  · refine balanced_iff_of_entry id entry_memory _ ?_ ?_ calls
    · exact bookOk_fresh rfl
    · exact balanced_fresh hSpent rfl
  · refine balanced_iff_of_entry PersistedBucketLedger.inner entry_durable _ ?_ ?_ calls
    · exact bookOk_fresh rfl
    · exact balanced_fresh hSpent rfl
  · refine balanced_iff_of_entry PersistedBucketLedger.inner (entry_quorum t) _ ?_ ?_ calls
    · exact bookOk_fresh rfl
    · exact balanced_fresh hSpent rfl

/-- Reserve, commit, and release after the commit: the release finds no
reservation and takes the committed amount off the counter. -/
theorem releaseAfterCommit_not_balanced :
    ¬ Runs.EveryState memStep (fun s => Balanced s.ledger s.book)
      ⟨.fromConstitutionCaps 100 100, .empty⟩
      [⟨0, .reserveSpend "intent-1" .users 5 fun _ _ => .ok (), by decide⟩,
        ⟨0, .commitConsume "intent-1", by decide⟩,
        ⟨0, .releaseReservation "intent-1" .users 5, by decide⟩] := by
  intro h
  have hUsers := h.last .users
  revert hUsers
  decide

end KeroseneVault
