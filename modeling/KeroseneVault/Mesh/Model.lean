import KeroseneVault.Ledger.Quorum
import KeroseneVault.Lib.Runs
import KeroseneVault.Mesh.Membership

/-!
# A mesh of quorum ledgers

Several nodes, each with its durable ledger, and the calls of the
`QuorumBucketLedger` methods in flight among them. A call takes one action
for each stretch it holds a ledger's mutex (and for each peer it contacts), so
calls of any nodes interleave in any order; a peer's prepare handler is one
action. The environment decides which call moves, what each peer's transport
does, what the clocks show and where a node crashes.

The grain of the actions is that of the locks in the source. A method that takes its
ledger's mutex, gives it back and takes it again is two actions, with those of any other
call between them; the requests that a round sends are one action for each peer, as they go
out one after the other. Whatever the code decides by comparing is computed here too; a
time-out, an unreachable peer, a failed write or a crash is in the argument of the action.

* `MeshConfig` — who is in the mesh, and the caps of its ledgers;
* `Call`, `Phase` — a method call in flight and where it stands;
* `Event` — a method returned; the history lists returns, the latest first;
* `step` — what one action does.

A prepare that reaches a peer and whose answer is lost is the peer's own
`prepareSoft` or `prepareConsume` action; the caller's next attempt is a
further action of its call.
-/

namespace KeroseneVault

/-- The membership and the caps a restart opens a ledger with. -/
structure MeshConfig (Node : Type) extends Membership Node where
  maxTx : Nat
  maxDay : Nat

namespace Mesh

/-! ## Calls -/

/-- The methods a call runs. -/
inductive Op where
  | reserveSpend (kind : BucketKind) (amount : Nat)
  | commitConsume
  | tryConsume
  | authorizeSpendAndConsume (kind : BucketKind) (amount : Nat)
  deriving DecidableEq

/-- Bucket and amount of a reservation; a claim has none. -/
def Op.terms : Op → BucketKind × Nat
  | .reserveSpend kind amount => (kind, amount)
  | .authorizeSpendAndConsume kind amount => (kind, amount)
  | _ => (.users, 0)

/-- Where a call stands. A round keeps the peers still to contact and the
acknowledgements so far. -/
inductive Phase (Node : Type) where
  | softRound (todo : List Node) (acks : List IntentPrepareAck)
  | check
  | claim
  | durableRound (todo : List Node) (acks : List IntentPrepareAck)
  deriving DecidableEq

structure Call (Node : Type) where
  node : Node
  op : Op
  id : String
  phase : Phase Node
  deriving DecidableEq

/-- Method `op` of call `call` returned `outcome`. -/
structure Event (Node : Type) where
  call : Nat
  node : Node
  op : Op
  id : String
  outcome : Outcome
  deriving DecidableEq

end Mesh

open Mesh in
structure Mesh (Node : Type) where
  ledger : Node → PersistedBucketLedger
  calls : Nat → Option (Call Node)
  next : Nat
  history : List (Event Node)

namespace Mesh

variable {Node : Type}

/-- The mesh as its nodes start: no call in flight, nothing returned. -/
def init (ledger : Node → PersistedBucketLedger) : Mesh Node := ⟨ledger, fun _ => none, 0, []⟩

/-! ## Actions -/

/-- What the transport does with one peer of a round: the peer's handler runs
and its answer counts, no acknowledgement comes back, or the round breaks off
(an answer without `already_seen`). -/
inductive Delivery where
  | answered (now : Nat) (disk : Disk)
  | noAck
  | broken (e : DomainError)

/-- The next stretch of a call. -/
inductive CallAction where
  | check
  | burn (disk : Disk)
  | deliver (d : Delivery)
  | finish

inductive Action (Node : Type) where
  | reserveSpend (a : Node) (now : Nat) (id : String) (kind : BucketKind) (amount : Nat)
      (validate : Validate)
  | commitConsume (a : Node) (id : String)
  | tryConsume (a : Node) (id : String)
  | authorizeSpendAndConsume (a : Node) (now : Nat) (id : String) (kind : BucketKind)
      (amount : Nat) (validate : Validate)
  | call (c : Nat) (act : CallAction)
  | releaseReservation (a : Node) (id : String) (kind : BucketKind) (amount : Nat)
  | prepareSoft (a : Node) (now : Nat) (id : String)
  | prepareConsume (a : Node) (disk : Disk) (id : String)
  | sweepExpired (a : Node) (now : Nat)
  | crash (a : Node)

/-! ## The step function -/

def setPhase (s : Mesh Node) (c : Nat) (call : Call Node) (phase : Phase Node) : Mesh Node :=
  { s with calls := Function.update s.calls c (some { call with phase := phase }) }

/-- A new call takes the next number. -/
def spawn (s : Mesh Node) (call : Call Node) : Mesh Node :=
  { s with calls := Function.update s.calls s.next (some call), next := s.next + 1 }

/-- What a call that ends with its method `inner` returns: `inner`, and the
method around it when there is one. -/
def Call.returned (call : Call Node) (c : Nat) (inner : Op) (o : Outcome) : List (Event Node) :=
  if call.op = inner then [⟨c, call.node, inner, call.id, o⟩]
  else [⟨c, call.node, call.op, call.id, o⟩, ⟨c, call.node, inner, call.id, o⟩]

def finishCall (s : Mesh Node) (c : Nat) (call : Call Node) (inner : Op) (o : Outcome) :
    Mesh Node :=
  { s with
    calls := Function.update s.calls c none
    history := call.returned c inner o ++ s.history }

/-- The method whose claim a call runs: `authorizeSpendAndConsume` claims by
`commitConsume`. -/
def Op.claiming : Op → Op
  | .tryConsume => .tryConsume
  | _ => .commitConsume

variable [DecidableEq Node]

def setLedger (s : Mesh Node) (a : Node) (l : PersistedBucketLedger) : Mesh Node :=
  { s with ledger := Function.update s.ledger a l }

/-- The claim of a call returned; `authorizeSpendAndConsume` releases its
reservation on an error. -/
def returnClaim (s : Mesh Node) (c : Nat) (call : Call Node) (o : Outcome) : Mesh Node :=
  match o, call.op with
  | .error e, .authorizeSpendAndConsume kind amount =>
    (s.setLedger call.node
      (QuorumBucketLedger.releaseReservation call.id kind amount (s.ledger call.node)).2).finishCall
      c call .commitConsume (.error e)
  | o, op => s.finishCall c call op.claiming o

/-- A new call: `reserveLocal`, and the soft round when it accepts. -/
def startReserve (M : MeshConfig Node) (s : Mesh Node) (a : Node) (now : Nat) (id : String)
    (op : Op) (validate : Validate) : Mesh Node :=
  let call : Call Node := ⟨a, op, id, .softRound (M.peers a) []⟩
  match QuorumBucketLedger.reserveLocal now id op.terms.1 op.terms.2 validate (s.ledger a) with
  | (.error e, l) =>
    ((s.setLedger a l).spawn call).finishCall s.next call
      (.reserveSpend op.terms.1 op.terms.2) (.error e)
  | (.ok (), l) => (s.setLedger a l).spawn call

/-- The soft round of a call is over: `finishReserve`, and on to the commit
when the reservation is part of an `authorizeSpendAndConsume`. -/
def returnReserve (M : MeshConfig Node) (s : Mesh Node) (c : Nat) (call : Call Node)
    (soft : Round) : Mesh Node :=
  let reserve := Op.reserveSpend call.op.terms.1 call.op.terms.2
  match QuorumBucketLedger.finishReserve (M.quorum call.node) soft call.id call.op.terms.1
      call.op.terms.2 (s.ledger call.node) with
  | (.error e, l) => (s.setLedger call.node l).finishCall c call reserve (.error e)
  | (.ok (), l) =>
    if call.op = reserve then (s.setLedger call.node l).finishCall c call reserve (.ok ())
    else
      { (s.setLedger call.node l).setPhase c call .check with
        history := ⟨c, call.node, reserve, call.id, .ok ()⟩ :: s.history }

/-- One stretch of call `c`. -/
def stepCall (M : MeshConfig Node) (s : Mesh Node) (c : Nat) (call : Call Node)
    (act : CallAction) : Mesh Node :=
  match call.phase, act with
  -- `reserveSpend`: a peer that answers an error gives no acknowledgement
  | .softRound (p :: todo) acks, .deliver (.answered now _) =>
    match (s.ledger p).prepareSoft now call.id with
    | (.error _, l) => (s.setLedger p l).setPhase c call (.softRound todo acks)
    | (.ok seen, l) => (s.setLedger p l).setPhase c call (.softRound todo (acks ++ [⟨seen⟩]))
  | .softRound (_ :: todo) acks, .deliver .noAck => s.setPhase c call (.softRound todo acks)
  | .softRound (_ :: _) _, .deliver (.broken e) => s.returnReserve M c call (.error e)
  | .softRound [] acks, .finish => s.returnReserve M c call (.ok acks)
  -- `commitConsume`: an id its node holds consumed takes no round
  | .check, .check =>
    if (s.ledger call.node).isConsumed call.id then s.returnClaim c call (.ok ())
    else s.setPhase c call .claim
  -- `claimConsume`: the local burn, then the durable round
  | .claim, .burn disk =>
    match (s.ledger call.node).prepareConsume disk call.id with
    | (.error e, l) => (s.setLedger call.node l).returnClaim c call (.error e)
    | (.ok true, l) => (s.setLedger call.node l).returnClaim c call (.error (.intentReplay call.id))
    | (.ok false, l) =>
      (s.setLedger call.node l).setPhase c call (.durableRound (M.peers call.node) [])
  | .durableRound (p :: todo) acks, .deliver (.answered _ disk) =>
    match (s.ledger p).prepareConsume disk call.id with
    | (.error _, l) => (s.setLedger p l).setPhase c call (.durableRound todo acks)
    | (.ok seen, l) => (s.setLedger p l).setPhase c call (.durableRound todo (acks ++ [⟨seen⟩]))
  | .durableRound (_ :: todo) acks, .deliver .noAck =>
    s.setPhase c call (.durableRound todo acks)
  | .durableRound (_ :: _) _, .deliver (.broken e) => s.returnClaim c call (.error e)
  | .durableRound [] acks, .finish =>
    s.returnClaim c call (checkAcks (M.quorum call.node) call.id acks)
  -- no such stretch in this phase
  | _, _ => s

def step (M : MeshConfig Node) (s : Mesh Node) : Action Node → Mesh Node
  | .reserveSpend a now id kind amount validate =>
    s.startReserve M a now id (.reserveSpend kind amount) validate
  | .authorizeSpendAndConsume a now id kind amount validate =>
    s.startReserve M a now id (.authorizeSpendAndConsume kind amount) validate
  | .commitConsume a id => s.spawn ⟨a, .commitConsume, id, .check⟩
  | .tryConsume a id => s.spawn ⟨a, .tryConsume, id, .claim⟩
  | .call c act =>
    match s.calls c with
    | none => s
    | some call => s.stepCall M c call act
  | .releaseReservation a id kind amount =>
    s.setLedger a (QuorumBucketLedger.releaseReservation id kind amount (s.ledger a)).2
  | .prepareSoft a now id => s.setLedger a ((s.ledger a).prepareSoft now id).2
  | .prepareConsume a disk id => s.setLedger a ((s.ledger a).prepareConsume disk id).2
  | .sweepExpired a now =>
    s.setLedger a { s.ledger a with inner := (s.ledger a).inner.sweepExpired now }
  | .crash a =>
    -- the process dies with its calls and comes back from its log
    { s with
      ledger := Function.update s.ledger a
        (PersistedBucketLedger.openLedger (s.ledger a).log M.maxTx M.maxDay)
      calls := fun c => (s.calls c).filter fun call => decide (call.node ≠ a) }

/-! ## A mesh of three -/

def trioConfig : MeshConfig Trio := { trio with maxTx := 1000, maxDay := 10000 }

/-- Three nodes that start with empty logs. -/
def trioStart : Mesh Trio := init fun _ => .openLedger .empty 1000 10000

end Mesh

end KeroseneVault
