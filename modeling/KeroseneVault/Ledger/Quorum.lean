import KeroseneVault.Ledger.Persisted

/-!
# The quorum bucket ledger

`QuorumBucketLedger`: a durable ledger that reports success only after peers
acknowledged. What the peers answer is the transport's business and an
argument here: the soft round of a reservation and the durable round of a
claim each yield a list of acknowledgements or a transport error.

* `checkAcks` — the verdict over one round of acknowledgements;
* `claimConsume` — local burn, then the durable round;
* `reserveLocal`, `finishReserve` — the two halves of `reserveSpend`.
-/

namespace KeroseneVault

/-- `IntentPrepareAck`. -/
structure IntentPrepareAck where
  alreadySeen : Bool
  deriving DecidableEq

/-- What one round over the peers yields. -/
abbrev Round := Except DomainError (List IntentPrepareAck)

/-- A peer that has seen the id refuses the claim; otherwise self and the
acknowledging peers must reach `t`. -/
def checkAcks (t : Nat) (id : String) (acks : List IntentPrepareAck) : Outcome :=
  if acks.any IntentPrepareAck.alreadySeen then
    .error (.intentReplay s!"intent seen on ≥1 peer: {id}")
  else if 1 + acks.length < t then .error (.quorumNotMet (1 + acks.length) t)
  else .ok ()

/-- A round passes when no peer refuses and the quorum is reached. -/
theorem checkAcks_ok {t : Nat} {id : String} {acks : List IntentPrepareAck} :
    checkAcks t id acks = .ok () ↔
      true ∉ acks.map IntentPrepareAck.alreadySeen ∧ t ≤ acks.length + 1 :=
  acks_ok_iff

namespace QuorumBucketLedger

open PersistedBucketLedger

/-! ## Claims -/

/-- Local durable burn, then the durable round over the peers. -/
def claimConsume (t : Nat) (disk : Disk) (durable : Round) (id : String)
    (l : PersistedBucketLedger) : Outcome × PersistedBucketLedger :=
  match l.prepareConsume disk id with
  | (.error e, l) => (.error e, l)
  | (.ok true, l) => (.error (.intentReplay id), l)
  | (.ok false, l) =>
    match durable with
    | .error e => (.error e, l)
    | .ok acks => (checkAcks t id acks, l)

def tryConsume (t : Nat) (disk : Disk) (durable : Round) (id : String)
    (l : PersistedBucketLedger) : Outcome × PersistedBucketLedger :=
  claimConsume t disk durable id l

/-- An id this node holds consumed is taken for a commit retry. -/
def commitConsume (t : Nat) (disk : Disk) (durable : Round) (id : String)
    (l : PersistedBucketLedger) : Outcome × PersistedBucketLedger :=
  if l.isConsumed id then (.ok (), l) else claimConsume t disk durable id l

/-! ## Reservations -/

/-- The part of `reserveSpend` under the ledger's mutex. -/
def reserveLocal (now : Nat) (id : String) (kind : BucketKind) (amount : Nat)
    (validate : Validate) (l : PersistedBucketLedger) : Outcome × PersistedBucketLedger :=
  let g := l.inner.sweepExpired now
  if id ∈ g.consumed ∨ (g.reserved.lookup id).isSome then
    (.error (.intentReplay id), { l with inner := g })
  else
    match g.validated kind validate with
    | .error e => (.error e, { l with inner := g })
    | .ok () =>
      (.ok (), { l with inner :=
        (g.charge kind amount).hold id ⟨kind, amount, now + defaultReserveTtl⟩ })

def releaseReservation (id : String) (kind : BucketKind) (amount : Nat)
    (l : PersistedBucketLedger) : Outcome × PersistedBucketLedger :=
  PersistedBucketLedger.releaseReservation id kind amount l

/-- The part of `reserveSpend` after the soft round: a refusal releases the
reservation, a transport error leaves it in place. -/
def finishReserve (t : Nat) (soft : Round) (id : String) (kind : BucketKind) (amount : Nat)
    (l : PersistedBucketLedger) : Outcome × PersistedBucketLedger :=
  match soft with
  | .error e => (.error e, l)
  | .ok acks =>
    match checkAcks t id acks with
    | .error e => (.error e, (releaseReservation id kind amount l).2)
    | .ok () => (.ok (), l)

def reserveSpend (t now : Nat) (soft : Round) (id : String) (kind : BucketKind) (amount : Nat)
    (validate : Validate) (l : PersistedBucketLedger) : Outcome × PersistedBucketLedger :=
  match reserveLocal now id kind amount validate l with
  | (.error e, l) => (.error e, l)
  | (.ok (), l) => finishReserve t soft id kind amount l

def authorizeSpendAndConsume (t now : Nat) (disk : Disk) (soft durable : Round) (id : String)
    (kind : BucketKind) (amount : Nat) (validate : Validate) (l : PersistedBucketLedger) :
    Outcome × PersistedBucketLedger :=
  match reserveSpend t now soft id kind amount validate l with
  | (.error e, l) => (.error e, l)
  | (.ok (), l) =>
    match commitConsume t disk durable id l with
    | (.error e, l) => (.error e, (releaseReservation id kind amount l).2)
    | (.ok (), l) => (.ok (), l)

/-- A port call, whatever its kind. -/
def perform (t now : Nat) (disk : Disk) (soft durable : Round) (l : PersistedBucketLedger) :
    LedgerOp → Outcome × PersistedBucketLedger
  | .reserveSpend id kind amount validate => reserveSpend t now soft id kind amount validate l
  | .commitConsume id => commitConsume t disk durable id l
  | .tryConsume id => tryConsume t disk durable id l
  | .releaseReservation id kind amount => releaseReservation id kind amount l
  | .authorizeSpendAndConsume id kind amount validate =>
    authorizeSpendAndConsume t now disk soft durable id kind amount validate l
  | .sweepExpired => (.ok (), { l with inner := l.inner.sweepExpired now })

/-! ## What an operation never takes back -/

theorem reserveLocal_grows (now : Nat) (id : String) (kind : BucketKind) (amount : Nat)
    (validate : Validate) (l : PersistedBucketLedger) :
    l.Grows (reserveLocal now id kind amount validate l).2 := by
  unfold reserveLocal
  dsimp only
  split
  · exact grows_inner (BucketState.sweepExpired_consumed ..)
  · split
    · exact grows_inner (BucketState.sweepExpired_consumed ..)
    · exact grows_inner (BucketState.sweepExpired_consumed ..)

theorem finishReserve_grows (t : Nat) (soft : Round) (id : String) (kind : BucketKind)
    (amount : Nat) (l : PersistedBucketLedger) :
    l.Grows (finishReserve t soft id kind amount l).2 := by
  unfold finishReserve
  split
  · exact Grows.refl l
  · split
    · exact releaseReservation_grows ..
    · exact Grows.refl l

end QuorumBucketLedger

end KeroseneVault
