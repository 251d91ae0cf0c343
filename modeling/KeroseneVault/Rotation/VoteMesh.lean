import KeroseneVault.Lib.Runs
import KeroseneVault.Rotation.Daily
import Mathlib.Logic.Function.Basic

/-!
# Day votes over a mesh

An advance asks its peers one after the other with `POST /v1/day/vote`; each
peer records the caller's vote and answers, and what it answers is recorded as
its own vote. Beside the nodes stand the clock readings they have seen, the
votes they recorded for themselves, and the votes that were heard of a voter
that had decided by then.

The handler answers with the day it was asked for, whatever its own clock shows, and the
caller takes an answer without a readable day for that day too. So an answer says nothing
of the peer, and whether the votes a node counts are genuine rests on the peers it asks:
each must have come to the day by itself before the request reached it.

* `resolveMeshCallerIdentityWithPrincipal`, `v1DayVote` — the handler;
* `parsePeerSelfDay` — what the caller reads of the answer;
* `DayMesh.step` — a clock, a vote, or one stage of an advance;
* `Decided` — a node's own clock reached the day, or it voted for it;
* `Backed` — every vote a node holds is of a voter that had decided;
* `Genuine` — so is every answer an advance under way has collected;
* `AsksDecided` — a peer that handles the request of an advance, and whose answer gets
  back, has decided the day that is read there.

Main results:

* `attemptOn_genuine_iff` — one attempt on a peer keeps the votes genuine exactly when
  that peer has decided;
* `genuine_iff` — over a whole run the votes stay genuine exactly when every attempt
  does so.
-/

namespace KeroseneVault

/-! ## The handler -/

inductive MeshRole where
  | kfe
  | vault
  deriving DecidableEq

/-- `MeshPrincipal`, with the fields that the resolution of a caller reads. -/
structure MeshPrincipal where
  role : MeshRole
  nodeId : String
  labOmnipotent : Bool

/-- `mesh_allowed_node_ids`. -/
def meshAllowedNodeIds (localNodeId : String) (seedPeerIds : List String) : List String :=
  localNodeId :: (seedPeerIds.map strTrim).filter fun id => id ≠ ""

/-- `map(str::trim).filter(|s| !s.is_empty())`. -/
def nonBlank (raw : Option String) : Option String := (raw.map strTrim).filter fun s => s ≠ ""

/-- `resolve_mesh_caller_identity_with_principal`. -/
def resolveMeshCallerIdentityWithPrincipal (localNodeId : String) (allowed : List String)
    (headerNodeId claimed mtlsPeerNodeId : Option String) (principal : Option MeshPrincipal) :
    Except DomainError String :=
  let known := fun id => allowed.contains id || id == localNodeId
  let identity : Except DomainError String :=
    match principal.filter fun p => !p.labOmnipotent with
    | some p =>
      if p.role ≠ .vault then
        .error (.authRejected "day/vote requires vault peer principal (not kfe)")
      else if !known p.nodeId then
        .error (.authRejected s!"mTLS principal {p.nodeId} is not a known mesh node")
      else .ok p.nodeId
    | none =>
      match nonBlank mtlsPeerNodeId with
      | some peer =>
        if !known peer then
          .error (.authRejected s!"mTLS peer identity {peer} is not a known mesh node")
        else .ok peer
      | none =>
        match nonBlank headerNodeId with
        | some hdr =>
          if !known hdr then
            .error (.authRejected s!"X-Vault-Node-Id {hdr} is not a known mesh node")
          else .ok hdr
        | none => .ok localNodeId
  match identity with
  | .error e => .error e
  | .ok identity =>
    match nonBlank claimed with
    | some raw =>
      if raw ≠ identity then
        .error (.authRejected
          s!"voter {raw} does not match authenticated vault identity {identity}")
      else .ok identity
    | none => .ok identity

/-- A caller that names itself is resolved to that name or refused. -/
theorem resolve_of_claimed {localNodeId raw id : String} {allowed : List String}
    {header claimed mtls : Option String} {principal : Option MeshPrincipal}
    (hClaimed : nonBlank claimed = some raw)
    (h : resolveMeshCallerIdentityWithPrincipal localNodeId allowed header claimed mtls
      principal = .ok id) : id = raw := by
  unfold resolveMeshCallerIdentityWithPrincipal at h
  dsimp only at h
  split at h
  · exact absurd h (by simp)
  · rw [hClaimed] at h
    dsimp only at h
    split at h
    · exact absurd h (by simp)
    · rename_i hSame
      rw [← Except.ok.inj h]
      exact (not_not.mp hSame).symm

/-- A request to `v1_day_vote`: its body, its headers and its principal. -/
structure DayVoteRequest where
  voter : Option String
  dayEpoch : String
  headerNode : Option String
  mtlsPeer : Option String
  principal : MeshPrincipal

/-- `VoteResp`, the fields of an answer that the caller reads. -/
structure VoteResp where
  selfDayEpoch : Option String
  dayEpoch : Option String

/-- The voter and the day of a request, on the node of this name. -/
def DayVoteRequest.vote (nodeId : String) (seedPeers : List String) (req : DayVoteRequest) :
    Except DomainError (String × DayEpoch) :=
  match DayEpoch.parse req.dayEpoch with
  | .error e => .error e
  | .ok target =>
    match resolveMeshCallerIdentityWithPrincipal nodeId (meshAllowedNodeIds nodeId seedPeers)
        req.headerNode req.voter req.mtlsPeer (some req.principal) with
    | .error e => .error e
    | .ok voter => .ok (voter, target)

/-- `v1_day_vote`. The answer is the day it was asked for. -/
def v1DayVote (nodeId : String) (seedPeers : List String) (req : DayVoteRequest)
    (persisted : Outcome) (r : QuorumDailyRotation) :
    Except DomainError VoteResp × QuorumDailyRotation :=
  match req.vote nodeId seedPeers with
  | .error e => (.error e, r)
  | .ok (voter, target) =>
    match r.recordVote voter target persisted with
    | (.error e, r) => (.error e, r)
    | (.ok (), r) => (.ok ⟨some (String.ofList target.text), none⟩, r)

theorem v1DayVote_error {nodeId : String} {seedPeers : List String} {req : DayVoteRequest}
    {e : DomainError} (h : req.vote nodeId seedPeers = .error e) (persisted : Outcome)
    (r : QuorumDailyRotation) : v1DayVote nodeId seedPeers req persisted r = (.error e, r) := by
  simp only [v1DayVote, h]

/-- The handler records the vote and answers with the target. -/
theorem v1DayVote_ok {nodeId : String} {seedPeers : List String} {req : DayVoteRequest}
    {voter : String} {target : DayEpoch} (h : req.vote nodeId seedPeers = .ok (voter, target))
    (persisted : Outcome) (r : QuorumDailyRotation) :
    v1DayVote nodeId seedPeers req persisted r =
      (persisted.map fun _ => ⟨some (String.ofList target.text), none⟩,
        { r with votes := r.votes.insert voter target }) := by
  simp only [v1DayVote, h, QuorumDailyRotation.recordVote]
  cases persisted with
  | error e => rfl
  | ok => rfl

/-- `parse_peer_self_day`, of the body where it is JSON. -/
def parsePeerSelfDay (body : Option VoteResp) : Option DayEpoch :=
  body.bind fun resp => (resp.selfDayEpoch <|> resp.dayEpoch).bind fun raw =>
    (DayEpoch.parse raw).toOption

/-! ## The end of an advance -/

namespace QuorumDailyRotation

/-- `advance` once its peers have answered: their votes and the tally. -/
def finishAdvance (live : DayEpoch) (persist : Nat → Outcome)
    (reshare : DayEpoch → DayEpoch → List NodeId → Outcome) (peerVotes : List PeerDayVote)
    (r : QuorumDailyRotation) : Except DomainError DayEpoch × QuorumDailyRotation :=
  match recordVotes persist 1 peerVotes r with
  | (.error e, r) => (.error e, r)
  | (.ok (), r) =>
    let written := persist (peerVotes.length + 1)
    if (r.votersFor live).length < r.quorumT then
      (.error (.quorumNotMet (r.votersFor live).length r.quorumT), r)
    else if live = r.current then (written.map fun _ => live, r)
    else if live < r.current then
      (.error (.dayEpochStale (String.ofList live.text) (String.ofList r.current.text)), r)
    else
      let source := r.current
      let r := { r with current := live }
      match written with
      | .error e => (.error e, r)
      | .ok () => ((reshare source live (r.participants live)).map fun _ => live, r)

/-- The votes that are taken before a write fails, that one included. -/
def votesReached (persist : Nat → Outcome) : Nat → List PeerDayVote → List PeerDayVote
  | _, [] => []
  | n, v :: vs =>
    match persist n with
    | .error _ => [v]
    | .ok () => v :: votesReached persist (n + 1) vs

theorem recordVotes_reached (persist : Nat → Outcome) (n : Nat) (vs : List PeerDayVote)
    (r : QuorumDailyRotation) :
    (recordVotes persist n vs r).2 =
      { r with votes := r.votes.insertAll (voteEntries (votesReached persist n vs)) } := by
  induction vs generalizing n r with
  | nil => rfl
  | cons v vs ih =>
    simp only [recordVotes, recordVote, votesReached]
    cases persist n with
    | error e => rfl
    | ok => exact ih (n + 1) _

theorem votesReached_prefix (persist : Nat → Outcome) (n : Nat) (vs : List PeerDayVote) :
    votesReached persist n vs <+: vs := by
  induction vs generalizing n with
  | nil => exact List.prefix_rfl
  | cons v vs ih =>
    simp only [votesReached]
    cases persist n with
    | error e => exact List.prefix_cons_inj v |>.mpr List.nil_prefix
    | ok => exact List.prefix_cons_inj v |>.mpr (ih (n + 1))

/-- The tally leaves the votes. -/
theorem finishAdvance_keeps (live : DayEpoch) (persist : Nat → Outcome)
    (reshare : DayEpoch → DayEpoch → List NodeId → Outcome) (peerVotes : List PeerDayVote)
    (r : QuorumDailyRotation) :
    (r.finishAdvance live persist reshare peerVotes).2.votes =
        r.votes.insertAll (voteEntries (votesReached persist 1 peerVotes)) ∧
      (r.finishAdvance live persist reshare peerVotes).2.localVoter = r.localVoter := by
  have hReached := recordVotes_reached persist 1 peerVotes r
  unfold finishAdvance
  generalize recordVotes persist 1 peerVotes r = result at hReached
  obtain ⟨outcome, voted⟩ := result
  obtain rfl : voted = _ := hReached
  cases outcome with
  | error e => exact ⟨rfl, rfl⟩
  | ok =>
    dsimp only
    split
    · exact ⟨rfl, rfl⟩
    split
    · exact ⟨rfl, rfl⟩
    split
    · exact ⟨rfl, rfl⟩
    · cases persist (peerVotes.length + 1) with
      | error e => exact ⟨rfl, rfl⟩
      | ok => exact ⟨rfl, rfl⟩

end QuorumDailyRotation

/-! ## The mesh -/

/-- The nodes and their peers, under names as `NodeId::new` leaves them. -/
structure DayMeshConfig (Node : Type) where
  peers : Node → List Node
  nodup : ∀ a, (peers a).Nodup
  notSelf : ∀ a, a ∉ peers a
  name : Node → String
  injective : Function.Injective name
  trimmed : ∀ a, strTrim (name a) = name a
  named : ∀ a, name a ≠ ""

/-- What a peer answered: the day that is taken for its vote, and whether the
peer had decided that day. -/
structure DayAnswer (Node : Type) where
  peer : Node
  day : DayEpoch
  decided : Bool

/-- An advance that asks its peers. -/
structure Exchange (Node : Type) where
  asker : Node
  live : DayEpoch
  todo : List Node
  got : List (DayAnswer Node)

structure DayMesh (Node : Type) where
  clock : Node → Nat
  rotation : Node → QuorumDailyRotation
  exchanges : Nat → Option (Exchange Node)
  nextExchange : Nat
  /-- the readings of each clock, before the present one -/
  shown : List (Node × Nat)
  /-- the votes each node recorded for itself -/
  own : List (Node × DayEpoch)
  /-- holder, voter and day of the votes of voters that had decided by then -/
  heard : List (Node × Node × DayEpoch)

/-- The body of an answer: as `v1_day_vote` writes it, or whatever else is read
in its place (a body that cannot be read is empty, and no JSON). -/
inductive AnswerBody where
  | asSent
  | other (resp : Option VoteResp)

/-- What becomes of one attempt on a peer. Only an answer is read; after a
failure the next attempt is on the same peer, or on the next one. -/
inductive Attempt where
  | lost
  | givenUp
  | handledOnly (lab : Bool) (persisted : Outcome)
  | answered (lab : Bool) (persisted : Outcome) (body : AnswerBody)

inductive DayAction (Node : Type) where
  | tick (p : Node) (now : Nat)
  | selfVote (p : Node) (day : String) (persisted : Outcome)
  | begin (a : Node) (persisted : Outcome)
  | ask (c : Nat) (attempt : Attempt)
  | finish (c : Nat) (persist : Nat → Outcome)
    (reshare : DayEpoch → DayEpoch → List NodeId → Outcome)

namespace DayMesh

variable {Node : Type} [DecidableEq Node] (M : DayMeshConfig Node)

/-- The node's own clock has reached the day, or it voted for it. -/
def Decided (s : DayMesh Node) (p : Node) (day : DayEpoch) : Prop :=
  (∃ reading ∈ (p, s.clock p) :: s.shown,
    reading.1 = p ∧ ¬ DayEpoch.fromUnixSecs reading.2 < day) ∨ (p, day) ∈ s.own

instance decidableDecided (s : DayMesh Node) (p : Node) (day : DayEpoch) :
    Decidable (s.Decided p day) := by
  unfold Decided
  infer_instance

/-- The request of an exchange, under the token of a lab or over mTLS. -/
def request (a : Node) (live : DayEpoch) (lab : Bool) (p : Node) : DayVoteRequest where
  voter := some (M.name a)
  dayEpoch := String.ofList live.text
  headerNode := some (M.name a)
  mtlsPeer := none
  principal := if lab then ⟨.vault, M.name p, true⟩ else ⟨.vault, M.name a, false⟩

/-- A vote that a caller asks of the node for the node itself. -/
def selfRequest (p : Node) (day : String) : DayVoteRequest :=
  ⟨none, day, none, none, ⟨.vault, M.name p, true⟩⟩

def setRotation (s : DayMesh Node) (p : Node) (r : QuorumDailyRotation) : DayMesh Node :=
  { s with rotation := Function.update s.rotation p r }

def setExchange (s : DayMesh Node) (c : Nat) (x : Option (Exchange Node)) : DayMesh Node :=
  { s with exchanges := Function.update s.exchanges c x }

/-- The vote of `a` on `p`, which counts as heard where `a` had decided. -/
def hear (s : DayMesh Node) (p a : Node) (day : DayEpoch) : DayMesh Node :=
  if s.Decided a day then { s with heard := (p, a, day) :: s.heard } else s

/-- The vote that a request asks of `p`. -/
def voteAt (p : Node) (req : DayVoteRequest) : Except DomainError (String × DayEpoch) :=
  req.vote (M.name p) ((M.peers p).map M.name)

/-- `v1_day_vote` on `p`. -/
def handle (s : DayMesh Node) (p : Node) (req : DayVoteRequest) (persisted : Outcome) :
    Except DomainError VoteResp × DayMesh Node :=
  let answer := v1DayVote (M.name p) ((M.peers p).map M.name) req persisted (s.rotation p)
  (answer.1, s.setRotation p answer.2)

/-- The peer `p` handles the request of an exchange. -/
def visit (s : DayMesh Node) (x : Exchange Node) (p : Node) (lab : Bool) (persisted : Outcome) :
    Except DomainError VoteResp × DayMesh Node :=
  let req := request M x.asker x.live lab p
  let answer := s.handle M p req persisted
  match voteAt M p req with
  | .error _ => answer
  | .ok _ => (answer.1, answer.2.hear p x.asker x.live)

/-- The body that the caller reads. -/
def AnswerBody.read (sent : VoteResp) : AnswerBody → Option VoteResp
  | .asSent => some sent
  | .other resp => resp

/-- The day that is taken for a peer's vote: what it says of itself, or the day it was
asked for. -/
def Exchange.dayRead (x : Exchange Node) (sent : VoteResp) (body : AnswerBody) : DayEpoch :=
  (parsePeerSelfDay (AnswerBody.read sent body)).getD x.live

/-- One attempt of an exchange on the peer `p`, the `rest` still to come. -/
def attemptOn (s : DayMesh Node) (c : Nat) (x : Exchange Node) (p : Node) (rest : List Node) :
    Attempt → DayMesh Node
  | .lost => s
  | .givenUp => s.setExchange c (some { x with todo := rest })
  | .handledOnly lab persisted => (s.visit M x p lab persisted).2
  | .answered lab persisted body =>
    let answer := s.visit M x p lab persisted
    match answer.1 with
    | .error _ => answer.2.setExchange c (some { x with todo := rest })
    | .ok sent =>
      let day := Exchange.dayRead x sent body
      answer.2.setExchange c (some { x with
        todo := rest
        got := x.got ++ [⟨p, day, decide (s.Decided p day)⟩] })

/-- The votes an exchange hands over. -/
def Exchange.votes (x : Exchange Node) : List PeerDayVote :=
  x.got.map fun g => ⟨M.name g.peer, g.day⟩

/-- The answers whose votes are recorded. -/
def Exchange.taken (x : Exchange Node) (persist : Nat → Outcome) : List (DayAnswer Node) :=
  x.got.take (QuorumDailyRotation.votesReached persist 1 (Exchange.votes M x)).length

def step (s : DayMesh Node) : DayAction Node → DayMesh Node
  | .tick p now =>
    { s with clock := Function.update s.clock p now, shown := (p, s.clock p) :: s.shown }
  | .selfVote p day persisted =>
    let req := selfRequest M p day
    let answer := s.handle M p req persisted
    match voteAt M p req with
    | .error _ => answer.2
    | .ok (_, target) => ({ answer.2 with own := (p, target) :: s.own }).hear p p target
  | .begin a persisted =>
    let live := DayEpoch.fromUnixSecs (s.clock a)
    let recorded := (s.rotation a).recordVote (s.rotation a).localVoter live persisted
    let voted := ({ s.setRotation a recorded.2 with own := (a, live) :: s.own }).hear a a live
    match recorded.1 with
    | .error _ => voted
    | .ok () =>
      { voted.setExchange s.nextExchange (some ⟨a, live, M.peers a, []⟩) with
        nextExchange := s.nextExchange + 1 }
  | .ask c attempt =>
    match s.exchanges c with
    | none => s
    | some x =>
      match x.todo with
      | [] => s
      | p :: rest => s.attemptOn M c x p rest attempt
  | .finish c persist reshare =>
    match s.exchanges c with
    | none => s
    | some x =>
      match x.todo with
      | _ :: _ => s
      | [] =>
        let finished := (s.rotation x.asker).finishAdvance x.live persist reshare
          (Exchange.votes M x)
        let heard := (Exchange.taken M x persist).filterMap fun g =>
          if g.decided then some (x.asker, g.peer, g.day) else none
        { (s.setRotation x.asker finished.2).setExchange c none with heard := heard ++ s.heard }

/-- Each node under its name, without votes. -/
def init (clock : Node → Nat) (quorumT : Node → Nat) : DayMesh Node where
  clock := clock
  rotation a := ⟨quorumT a, M.name a, ∅, DayEpoch.fromUnixSecs (clock a)⟩
  exchanges _ := none
  nextExchange := 0
  shown := []
  own := []
  heard := []

/-- Every vote a node holds of a node was heard of one that had decided. -/
def Backed (s : DayMesh Node) : Prop :=
  ∀ a p day, (s.rotation a).votes.lookup (M.name p) = some day → (a, p, day) ∈ s.heard

/-- The votes are genuine: those that nodes hold, and those that advances under way have
collected from their peers. -/
structure Genuine (s : DayMesh Node) : Prop where
  /-- Every vote a node holds is of a voter that had decided. -/
  backed : Backed M s
  /-- So is every answer an advance will record when it ends. -/
  collected : ∀ c x, s.exchanges c = some x → ∀ g ∈ x.got, g.decided = true

/-- What a handler that takes the request of `x` sends back. -/
def Exchange.echo (x : Exchange Node) : VoteResp := ⟨some (String.ofList x.live.text), none⟩

/-- A peer takes the request of an advance and its answer gets back only where that peer
has decided the day that is read there, by its own clock or by a vote of its own. -/
def AsksDecided (s : DayMesh Node) : DayAction Node → Prop
  | .ask c (.answered lab (.ok ()) body) =>
    ∀ x p rest, s.exchanges c = some x → x.todo = p :: rest →
      (∃ vote, voteAt M p (request M x.asker x.live lab p) = .ok vote) →
      s.Decided p (Exchange.dayRead x (Exchange.echo x) body)
  | _ => True

/-! ## The requests -/

variable {M}

omit [DecidableEq Node] in
theorem nonBlank_name (a : Node) : nonBlank (some (M.name a)) = some (M.name a) := by
  simp [nonBlank, M.trimmed a, M.named a]

omit [DecidableEq Node] in
/-- The request of an exchange votes for its asker, for its day. -/
theorem voteAt_request {a p : Node} {live : DayEpoch} {lab : Bool} {vote : String × DayEpoch}
    (h : voteAt M p (request M a live lab p) = .ok vote) : vote = (M.name a, live) := by
  unfold voteAt DayVoteRequest.vote at h
  dsimp only [request] at h
  cases hParse : DayEpoch.parse (String.ofList live.text) with
  | error e =>
    rw [hParse] at h
    exact absurd h (by simp)
  | ok target =>
    rw [hParse] at h
    have hTarget : target = live := by
      have hText := DayEpoch.text_of_parse hParse
      rw [String.toList_ofList] at hText
      exact congrArg DayEpoch.mk hText
    dsimp only at h
    split at h
    · exact absurd h (by simp)
    · rename_i voter hVoter
      rw [← Except.ok.inj h, resolve_of_claimed (nonBlank_name a) hVoter, hTarget]

omit [DecidableEq Node] in
/-- A vote that is asked of a node for itself is under its own name. -/
theorem voteAt_selfRequest {p : Node} {day : String} {vote : String × DayEpoch}
    (h : voteAt M p (selfRequest M p day) = .ok vote) : vote.1 = M.name p := by
  unfold voteAt DayVoteRequest.vote at h
  dsimp only [selfRequest] at h
  split at h
  · exact absurd h (by simp)
  · have hName : resolveMeshCallerIdentityWithPrincipal (M.name p)
        (meshAllowedNodeIds (M.name p) ((M.peers p).map M.name)) none none none
        (some ⟨.vault, M.name p, true⟩) = .ok (M.name p) := rfl
    rw [hName] at h
    rw [← Except.ok.inj h]

/-! ## What a step keeps -/

/-- An exchange is of an asker that voted for its day, with each peer once. -/
structure Asked (s : DayMesh Node) (x : Exchange Node) : Prop where
  own : (x.asker, x.live) ∈ s.own
  nodup : (x.got.map DayAnswer.peer ++ x.todo).Nodup

/-- Every exchange under way, and every node under its name. -/
structure Asking (M : DayMeshConfig Node) (s : DayMesh Node) : Prop where
  asked : ∀ c x, s.exchanges c = some x → Asked s x
  named : ∀ a, (s.rotation a).localVoter = M.name a

variable (M) in
/-- `s'` is `s` after a vote of `q` for `day` is heard on `p`, or as it is. -/
inductive Voted (s s' : DayMesh Node) : Prop where
  | same (hRotation : s'.rotation = s.rotation) (hHeard : s'.heard = s.heard)
  | vote (p q : Node) (day : DayEpoch)
      (hRotation : s'.rotation = Function.update s.rotation p
        { s.rotation p with votes := (s.rotation p).votes.insert (M.name q) day })
      (hHeard : s'.heard = (p, q, day) :: s.heard)

theorem Backed.voted {s s' : DayMesh Node} (h : Backed M s) (hVoted : Voted M s s') :
    Backed M s' := by
  rcases hVoted with ⟨hRotation, hHeard⟩ | ⟨p, q, day, hRotation, hHeard⟩
  · unfold Backed
    rw [hRotation, hHeard]
    exact h
  · intro a r d hHeld
    rw [hHeard]
    rw [hRotation] at hHeld
    by_cases hNode : a = p
    · subst hNode
      rw [Function.update_self] at hHeld
      have hDay : ((s.rotation a).votes.insert (M.name q) day).lookup (M.name r) = some d := hHeld
      rcases Table.lookup_insert_eq_some.mp hDay with ⟨hVoter, rfl⟩ | ⟨-, hOld⟩
      · -- the vote that is heard now
        obtain rfl : r = q := M.injective hVoter
        exact List.mem_cons_self ..
      · exact List.mem_cons_of_mem _ (h a r d hOld)
    · rw [Function.update_of_ne hNode] at hHeld
      exact List.mem_cons_of_mem _ (h a r d hHeld)

theorem Voted.named {s s' : DayMesh Node} (hVoted : Voted M s s')
    (h : ∀ a, (s.rotation a).localVoter = M.name a) (a : Node) :
    (s'.rotation a).localVoter = M.name a := by
  rcases hVoted with ⟨hRotation, -⟩ | ⟨p, q, day, hRotation, -⟩
  · rw [hRotation]
    exact h a
  · rw [hRotation]
    by_cases hNode : a = p
    · subst hNode
      rw [Function.update_self]
      exact h a
    · rw [Function.update_of_ne hNode]
      exact h a

theorem hear_voted {s s' : DayMesh Node} {p q : Node} {day : DayEpoch}
    (hRotation : s'.rotation = Function.update s.rotation p
      { s.rotation p with votes := (s.rotation p).votes.insert (M.name q) day })
    (hHeard : s'.heard = s.heard) (hDecided : s'.Decided q day) :
    Voted M s (s'.hear p q day) := by
  unfold hear
  rw [if_pos hDecided]
  exact .vote p q day hRotation (congrArg _ hHeard)

/-- To hear a vote changes nothing else. -/
theorem hear_keeps (s : DayMesh Node) (p q : Node) (day : DayEpoch) :
    (s.hear p q day).exchanges = s.exchanges ∧ (s.hear p q day).own = s.own := by
  unfold hear
  split
  · exact ⟨rfl, rfl⟩
  · exact ⟨rfl, rfl⟩

omit [DecidableEq Node] in
theorem decided_of_own {s : DayMesh Node} {p : Node} {day : DayEpoch} (h : (p, day) ∈ s.own) :
    s.Decided p day := .inr h

/-- A peer that handles the request of an exchange hears its asker's vote. -/
theorem visit_cases {s : DayMesh Node} {x : Exchange Node} (hOwn : (x.asker, x.live) ∈ s.own)
    (p : Node) (lab : Bool) (persisted : Outcome) :
    Voted M s (s.visit M x p lab persisted).2 ∧
      (s.visit M x p lab persisted).2.exchanges = s.exchanges ∧
      s.own ⊆ (s.visit M x p lab persisted).2.own := by
  unfold visit
  dsimp only
  cases hVote : voteAt M p (request M x.asker x.live lab p) with
  | error e =>
    dsimp only [handle, setRotation]
    rw [v1DayVote_error hVote]
    exact ⟨.same (Function.update_eq_self ..) rfl, rfl, List.Subset.refl _⟩
  | ok vote =>
    obtain rfl := voteAt_request hVote
    have hKeeps := hear_keeps (s.handle M p (request M x.asker x.live lab p) persisted).2
      p x.asker x.live
    refine ⟨hear_voted ?_ rfl (decided_of_own hOwn), hKeeps.1, fun vote hVote => ?_⟩
    swap
    · rw [hKeeps.2]
      exact hVote
    dsimp only [handle, setRotation]
    rw [v1DayVote_ok hVote]

omit [DecidableEq Node] in
theorem Asked.mono {s s' : DayMesh Node} {x : Exchange Node} (h : Asked s x)
    (hOwn : s.own ⊆ s'.own) : Asked s' x := ⟨hOwn h.own, h.nodup⟩

/-- A step that hears at most one vote and changes one exchange at most. -/
theorem Asking.exchange {s s' : DayMesh Node} (h : Asking M s) (hVoted : Voted M s s')
    (hOwn : s.own ⊆ s'.own) {c : Nat} {x : Option (Exchange Node)}
    (hExchanges : s'.exchanges = Function.update s.exchanges c x)
    (hAsked : ∀ y, x = some y → Asked s' y) : Asking M s' := by
  refine ⟨fun d y hy => ?_, hVoted.named h.named⟩
  rw [hExchanges] at hy
  by_cases hc : d = c
  · subst hc
    rw [Function.update_self] at hy
    exact hAsked y hy
  · rw [Function.update_of_ne hc] at hy
    exact (h.asked d y hy).mono hOwn

theorem Asking.same {s s' : DayMesh Node} (h : Asking M s) (hVoted : Voted M s s')
    (hOwn : s.own ⊆ s'.own) (hExchanges : s'.exchanges = s.exchanges) : Asking M s' := by
  refine ⟨fun d y hy => ?_, hVoted.named h.named⟩
  rw [hExchanges] at hy
  exact (h.asked d y hy).mono hOwn

theorem Voted.setExchange {s s' : DayMesh Node} (h : Voted M s s') (c : Nat)
    (x : Option (Exchange Node)) : Voted M s (s'.setExchange c x) := by
  rcases h with ⟨hRotation, hHeard⟩ | ⟨p, q, day, hRotation, hHeard⟩
  · exact .same hRotation hHeard
  · exact .vote p q day hRotation hHeard

/-- An exchange goes on after what a peer heard. -/
theorem Asking.goesOn {s s' : DayMesh Node} (h : Asking M s) (hVoted : Voted M s s')
    (hOwn : s.own ⊆ s'.own) (hExchanges : s'.exchanges = s.exchanges) (c : Nat)
    {y : Exchange Node} (hAsked : Asked s y) :
    Voted M s (s'.setExchange c (some y)) ∧ Asking M (s'.setExchange c (some y)) := by
  have hNext := hVoted.setExchange c (some y)
  refine ⟨hNext, h.exchange hNext hOwn (congrArg (Function.update · c _) hExchanges) ?_⟩
  intro x hx
  rw [← Option.some.inj hx]
  exact hAsked.mono hOwn

theorem attemptOn_keeps {s : DayMesh Node} (h : Asking M s) {c : Nat} {x : Exchange Node}
    (hx : s.exchanges c = some x) {p : Node} {rest : List Node} (hTodo : x.todo = p :: rest)
    (attempt : Attempt) :
    Voted M s (s.attemptOn M c x p rest attempt) ∧ Asking M (s.attemptOn M c x p rest attempt) := by
  have hAsked := h.asked c x hx
  have hNodup : (x.got.map DayAnswer.peer ++ p :: rest).Nodup := hTodo ▸ hAsked.nodup
  have hSkip : Asked s { x with todo := rest } :=
    ⟨hAsked.own, hNodup.sublist (List.Sublist.append_left (List.sublist_cons_self p rest) _)⟩
  have hSame : Voted M s s := .same rfl rfl
  match attempt with
  | .lost => exact ⟨hSame, h⟩
  | .givenUp => exact h.goesOn hSame (List.Subset.refl _) rfl c hSkip
  | .handledOnly lab persisted =>
    obtain ⟨hVoted, hExchanges, hOwn⟩ := visit_cases hAsked.own p lab persisted
    exact ⟨hVoted, h.same hVoted hOwn hExchanges⟩
  | .answered lab persisted body =>
    obtain ⟨hVoted, hExchanges, hOwn⟩ := visit_cases hAsked.own p lab persisted
    unfold attemptOn
    dsimp only
    cases (s.visit M x p lab persisted).1 with
    | error e => exact h.goesOn hVoted hOwn hExchanges c hSkip
    | ok sent =>
      refine h.goesOn hVoted hOwn hExchanges c ⟨hAsked.own, ?_⟩
      -- the peer goes from those to ask to those that answered
      rw [List.map_append, List.append_assoc]
      exact hNodup

/-- The answer to the request of an exchange: an error where the peer does not take it or
its disk does not, and else the day that was asked for. -/
theorem visit_answer (s : DayMesh Node) (x : Exchange Node) (p : Node) (lab : Bool)
    (persisted : Outcome) :
    (s.visit M x p lab persisted).1 = match voteAt M p (request M x.asker x.live lab p) with
      | .error e => .error e
      | .ok _ => persisted.map fun _ => Exchange.echo x := by
  unfold visit
  dsimp only
  cases hVote : voteAt M p (request M x.asker x.live lab p) with
  | error e =>
    dsimp only [handle]
    rw [v1DayVote_error hVote]
  | ok vote =>
    obtain rfl := voteAt_request hVote
    dsimp only [handle]
    rw [v1DayVote_ok hVote]
    rfl

omit [DecidableEq Node] in
/-- The answers of the exchanges, after one of them goes on. -/
theorem collected_setExchange_iff {s s' : DayMesh Node} (hExchanges : s'.exchanges = s.exchanges)
    {c : Nat} {x : Exchange Node} (hx : s.exchanges c = some x)
    (hCollected : ∀ c x, s.exchanges c = some x → ∀ g ∈ x.got, g.decided = true)
    {y : Exchange Node} (more : List (DayAnswer Node)) (hGot : y.got = x.got ++ more) :
    (∀ d z, (s'.setExchange c (some y)).exchanges d = some z → ∀ g ∈ z.got, g.decided = true) ↔
      ∀ g ∈ more, g.decided = true := by
  have hHere : (s'.setExchange c (some y)).exchanges c = some y := Function.update_self ..
  have hOther : ∀ d ≠ c, (s'.setExchange c (some y)).exchanges d = s.exchanges d := fun d hd => by
    rw [← hExchanges]
    exact Function.update_of_ne hd ..
  constructor
  · exact fun h g hg => h c y hHere g (by rw [hGot]; exact List.mem_append_right _ hg)
  · intro hMore d z hz g hg
    by_cases hd : d = c
    · subst hd
      obtain rfl := Option.some.inj (hHere.symm.trans hz)
      rw [hGot, List.mem_append] at hg
      exact hg.elim (hCollected d x hx g) (hMore g)
    · exact hCollected d z (hOther d hd ▸ hz) g hg

/-- **One attempt on a peer.** The votes stay genuine exactly when the peer has decided,
if it takes the request and its answer gets back. -/
theorem attemptOn_genuine_iff {s : DayMesh Node} (h : Asking M s) (hGenuine : Genuine M s) {c : Nat}
    {x : Exchange Node} (hx : s.exchanges c = some x) {p : Node} {rest : List Node}
    (hTodo : x.todo = p :: rest) (attempt : Attempt) :
    Genuine M (s.attemptOn M c x p rest attempt) ↔ AsksDecided M s (.ask c attempt) := by
  have hBacked := hGenuine.backed.voted (attemptOn_keeps h hx hTodo attempt).1
  -- only the answers that are collected matter from here on
  have hSplit : Genuine M (s.attemptOn M c x p rest attempt) ↔
      ∀ d z, (s.attemptOn M c x p rest attempt).exchanges d = some z →
        ∀ g ∈ z.got, g.decided = true :=
    ⟨fun hNext => hNext.collected, fun hNext => ⟨hBacked, hNext⟩⟩
  have hSkip : ∀ s' : DayMesh Node, s'.exchanges = s.exchanges → ∀ d z,
      (s'.setExchange c (some { x with todo := rest })).exchanges d = some z →
        ∀ g ∈ z.got, g.decided = true := fun s' hExchanges =>
    (collected_setExchange_iff hExchanges hx hGenuine.collected (y := { x with todo := rest }) []
      (List.append_nil _).symm).mpr fun g hg => absurd hg (by simp)
  rw [hSplit]
  match attempt with
  | .lost => exact iff_of_true hGenuine.collected trivial
  | .givenUp => exact iff_of_true (hSkip s rfl) trivial
  | .handledOnly lab persisted =>
    obtain ⟨-, hExchanges, -⟩ := visit_cases (h.asked c x hx).own p lab persisted
    refine iff_of_true ?_ trivial
    dsimp only [attemptOn]
    rw [hExchanges]
    exact hGenuine.collected
  | .answered lab persisted body =>
    obtain ⟨-, hExchanges, -⟩ := visit_cases (h.asked c x hx).own p lab persisted
    have hAnswer := visit_answer s x p lab persisted (M := M)
    dsimp only [attemptOn]
    rw [hAnswer]
    cases persisted with
    | error e =>
      -- the peer's disk does not take the vote
      refine iff_of_true ?_ trivial
      cases voteAt M p (request M x.asker x.live lab p) with
      | error e => exact hSkip _ hExchanges
      | ok vote => exact hSkip _ hExchanges
    | ok =>
      cases hVote : voteAt M p (request M x.asker x.live lab p) with
      | error e =>
        refine iff_of_true (hSkip _ hExchanges) fun y q others hy hOthers hTaken => ?_
        obtain rfl := Option.some.inj (hx.symm.trans hy)
        obtain ⟨rfl, -⟩ := List.cons.inj (hTodo.symm.trans hOthers)
        obtain ⟨vote, hVote'⟩ := hTaken
        exact absurd (hVote.symm.trans hVote') (by simp)
      | ok vote =>
        dsimp only [Except.map]
        rw [collected_setExchange_iff hExchanges hx hGenuine.collected [_] rfl, List.forall_mem_singleton,
          decide_eq_true_iff]
        constructor
        · intro hDecided y q others hy hOthers hTaken
          obtain rfl := Option.some.inj (hx.symm.trans hy)
          obtain ⟨rfl, -⟩ := List.cons.inj (hTodo.symm.trans hOthers)
          exact hDecided
        · exact fun hAll => hAll x p rest hx hTodo ⟨vote, hVote⟩

/-- A node's own vote over the wire is heard as its own. -/
theorem selfVote_keeps {s : DayMesh Node} (h : Asking M s) (p : Node) (day : String)
    (persisted : Outcome) :
    Voted M s (s.step M (.selfVote p day persisted)) ∧
      Asking M (s.step M (.selfVote p day persisted)) := by
  unfold step
  dsimp only
  cases hVote : voteAt M p (selfRequest M p day) with
  | error e =>
    -- the peer has no such voter, and nothing is recorded
    have hVoted : Voted M s (s.handle M p (selfRequest M p day) persisted).2 := by
      dsimp only [handle, setRotation]
      rw [v1DayVote_error hVote]
      exact .same (Function.update_eq_self ..) rfl
    exact ⟨hVoted, h.same hVoted (List.Subset.refl _) rfl⟩
  | ok vote =>
    obtain ⟨voter, target⟩ := vote
    obtain rfl : voter = M.name p := voteAt_selfRequest hVote
    dsimp only
    have hKeeps := hear_keeps { (s.handle M p (selfRequest M p day) persisted).2 with
      own := (p, target) :: s.own } p p target
    have hVoted : Voted M s (hear { (s.handle M p (selfRequest M p day) persisted).2 with
        own := (p, target) :: s.own } p p target) := by
      refine hear_voted ?_ rfl (decided_of_own (List.mem_cons_self ..))
      dsimp only [handle, setRotation]
      rw [v1DayVote_ok hVote]
    refine ⟨hVoted, h.same hVoted ?_ hKeeps.1⟩
    rw [hKeeps.2]
    exact List.subset_cons_self ..

/-- The start of an advance hears the node's own vote, and opens an exchange. -/
theorem begin_keeps {s : DayMesh Node} (h : Asking M s) (a : Node) (persisted : Outcome) :
    Voted M s (s.step M (.begin a persisted)) ∧ Asking M (s.step M (.begin a persisted)) := by
  unfold step
  dsimp only
  generalize DayEpoch.fromUnixSecs (s.clock a) = live
  have hRecord : (s.rotation a).recordVote (s.rotation a).localVoter live persisted =
      (persisted, { s.rotation a with
        votes := (s.rotation a).votes.insert (M.name a) live }) := by
    rw [← h.named a]
    rfl
  rw [hRecord]
  have hKeeps := hear_keeps { s.setRotation a { s.rotation a with
    votes := (s.rotation a).votes.insert (M.name a) live } with
    own := (a, live) :: s.own } a a live
  have hVoted : Voted M s (hear { s.setRotation a { s.rotation a with
      votes := (s.rotation a).votes.insert (M.name a) live } with
      own := (a, live) :: s.own } a a live) :=
    hear_voted rfl rfl (decided_of_own (List.mem_cons_self ..))
  generalize hear { s.setRotation a { s.rotation a with
    votes := (s.rotation a).votes.insert (M.name a) live } with
    own := (a, live) :: s.own } a a live = voted at hKeeps hVoted
  have hOwn : s.own ⊆ voted.own := by
    rw [hKeeps.2]
    exact List.subset_cons_self ..
  -- the exchange opens once the node's own vote is on disk
  cases persisted with
  | error e => exact ⟨hVoted, h.same hVoted hOwn hKeeps.1⟩
  | ok =>
    have hNext : Voted M s { voted.setExchange s.nextExchange (some ⟨a, live, M.peers a, []⟩) with
        nextExchange := s.nextExchange + 1 } := by
      rcases hVoted with ⟨hRotation, hHeard⟩ | ⟨p, q, day, hRotation, hHeard⟩
      · exact .same hRotation hHeard
      · exact .vote p q day hRotation hHeard
    refine ⟨hNext, h.exchange hNext hOwn (congrArg (Function.update · _ _) hKeeps.1) ?_⟩
    intro y hy
    rw [← Option.some.inj hy]
    refine ⟨?_, M.nodup a⟩
    show (a, live) ∈ voted.own
    rw [hKeeps.2]
    exact List.mem_cons_self ..

/-- Every step but the end of an advance hears one vote at most. -/
theorem step_quiet {s : DayMesh Node} (h : Asking M s) (action : DayAction Node) :
    (∃ c persist reshare, action = .finish c persist reshare) ∨
      (Voted M s (s.step M action) ∧ Asking M (s.step M action)) := by
  have hSame : Voted M s s := .same rfl rfl
  match action with
  | .finish c persist reshare => exact .inl ⟨c, persist, reshare, rfl⟩
  | .tick p now =>
    have hVoted : Voted M s (s.step M (.tick p now)) := .same rfl rfl
    exact .inr ⟨hVoted, h.same hVoted (List.Subset.refl _) rfl⟩
  | .selfVote p day persisted => exact .inr (selfVote_keeps h p day persisted)
  | .begin a persisted => exact .inr (begin_keeps h a persisted)
  | .ask c attempt =>
    right
    unfold step
    dsimp only
    cases hx : s.exchanges c with
    | none => exact ⟨hSame, h⟩
    | some x =>
      dsimp only
      cases hTodo : x.todo with
      | nil => exact ⟨hSame, h⟩
      | cons p rest => exact attemptOn_keeps h hx hTodo attempt

/-- A vote of its own leaves the exchanges. -/
theorem selfVote_exchanges (s : DayMesh Node) (p : Node) (day : String) (persisted : Outcome) :
    (s.step M (.selfVote p day persisted)).exchanges = s.exchanges := by
  unfold step
  dsimp only
  cases voteAt M p (selfRequest M p day) with
  | error e => rfl
  | ok vote => exact (hear_keeps _ p p vote.2).1

/-- The start of an advance opens at most one exchange, without answers. -/
theorem begin_exchanges {s : DayMesh Node} {a : Node} {persisted : Outcome} {c : Nat}
    {x : Exchange Node} (hx : (s.step M (.begin a persisted)).exchanges c = some x) :
    s.exchanges c = some x ∨ x.got = [] := by
  unfold step at hx
  dsimp only at hx
  split at hx
  · rw [(hear_keeps _ _ _ _).1] at hx
    exact .inl hx
  · dsimp only [setExchange] at hx
    rw [(hear_keeps _ _ _ _).1] at hx
    by_cases hc : c = s.nextExchange
    · subst hc
      rw [Function.update_self] at hx
      rw [← Option.some.inj hx]
      exact .inr rfl
    · rw [Function.update_of_ne hc] at hx
      exact .inl hx

/-! ## The end of an exchange -/

omit [DecidableEq Node] in
/-- The entries of the answers that are recorded. -/
theorem voteEntries_reached (x : Exchange Node) (persist : Nat → Outcome) :
    QuorumDailyRotation.voteEntries
        (QuorumDailyRotation.votesReached persist 1 (Exchange.votes M x)) =
      (Exchange.taken M x persist).map fun g => (M.name g.peer, g.day) := by
  have hPrefix := QuorumDailyRotation.votesReached_prefix persist 1 (Exchange.votes M x)
  unfold Exchange.taken
  generalize QuorumDailyRotation.votesReached persist 1 (Exchange.votes M x) = reached at hPrefix
  calc QuorumDailyRotation.voteEntries reached
      = QuorumDailyRotation.voteEntries ((Exchange.votes M x).take reached.length) :=
        congrArg _ (List.prefix_iff_eq_take.mp hPrefix)
    _ = _ := by
        rw [QuorumDailyRotation.voteEntries, Exchange.votes, ← List.map_take, List.map_map]
        rfl

/-- What the end of an exchange leaves. -/
theorem step_finish {s : DayMesh Node} {c : Nat} {x : Exchange Node}
    (hx : s.exchanges c = some x) (hTodo : x.todo = []) (persist : Nat → Outcome)
    (reshare : DayEpoch → DayEpoch → List NodeId → Outcome) :
    let s' := s.step M (.finish c persist reshare)
    (s'.rotation x.asker).votes = (s.rotation x.asker).votes.insertAll
        ((Exchange.taken M x persist).map fun g => (M.name g.peer, g.day)) ∧
      (s'.rotation x.asker).localVoter = (s.rotation x.asker).localVoter ∧
      (∀ a ≠ x.asker, s'.rotation a = s.rotation a) ∧
      s'.exchanges = Function.update s.exchanges c none ∧ s'.own = s.own ∧
      ∀ entry, entry ∈ s'.heard ↔ entry ∈ s.heard ∨
        ∃ g ∈ Exchange.taken M x persist, g.decided = true ∧ entry = (x.asker, g.peer, g.day) := by
  -- what is recorded at the end is what the loop over the answers reached
  have hKeeps := QuorumDailyRotation.finishAdvance_keeps x.live persist reshare
    (Exchange.votes M x) (s.rotation x.asker)
  rw [voteEntries_reached] at hKeeps
  unfold step
  simp only [hx, hTodo, setExchange, setRotation, Function.update_self]
  refine ⟨hKeeps.1, hKeeps.2, fun a ha => Function.update_of_ne ha .., trivial, trivial, fun entry => ?_⟩
  rw [List.mem_append, or_comm, List.mem_filterMap]
  refine or_congr_right (exists_congr fun g => and_congr_right fun _ => ?_)
  split
  · rename_i hDecided
    simp [hDecided, eq_comm]
  · rename_i hDecided
    simp [hDecided]

theorem asking_finish {s : DayMesh Node} (h : Asking M s) {c : Nat} {x : Exchange Node}
    (hx : s.exchanges c = some x) (hTodo : x.todo = []) (persist : Nat → Outcome)
    (reshare : DayEpoch → DayEpoch → List NodeId → Outcome) :
    Asking M (s.step M (.finish c persist reshare)) := by
  obtain ⟨-, hLocal, hOther, hExchanges, hOwn, -⟩ := step_finish (M := M) hx hTodo persist reshare
  refine ⟨fun d y hy => ?_, fun a => ?_⟩
  · rw [hExchanges] at hy
    by_cases hc : d = c
    · subst hc
      rw [Function.update_self] at hy
      exact absurd hy (by simp)
    · rw [Function.update_of_ne hc] at hy
      exact (h.asked d y hy).mono (hOwn ▸ List.Subset.refl _)
  · by_cases ha : a = x.asker
    · rw [ha, hLocal]
      exact h.named _
    · rw [hOther a ha]
      exact h.named a

/-- An advance that ends records votes that are backed, where those it collected are. -/
theorem backed_finish {s : DayMesh Node} (hGenuine : Genuine M s) {c : Nat}
    {x : Exchange Node} (hx : s.exchanges c = some x) (hTodo : x.todo = [])
    (persist : Nat → Outcome) (reshare : DayEpoch → DayEpoch → List NodeId → Outcome) :
    Backed M (s.step M (.finish c persist reshare)) := by
  obtain ⟨hVotes, -, hOther, -, -, hHeard⟩ := step_finish (M := M) hx hTodo persist reshare
  intro a p day hHeld
  rw [hHeard]
  by_cases ha : a = x.asker
  · subst ha
    rw [hVotes] at hHeld
    rcases Table.lookup_insertAll hHeld with hOld | hNew
    · exact .inl (hGenuine.backed x.asker p day hOld)
    · -- a vote of this advance: the peer had decided when it answered
      obtain ⟨g, hg, hEq⟩ := List.mem_map.mp hNew
      obtain ⟨hName, rfl⟩ := Prod.mk.inj hEq
      obtain rfl := M.injective hName
      exact .inr ⟨g, hg, hGenuine.collected c x hx g (List.mem_of_mem_take hg), rfl⟩
  · rw [hOther a ha] at hHeld
    exact .inl (hGenuine.backed a p day hHeld)

/-- The end of an advance keeps the votes genuine. -/
theorem genuine_finish {s : DayMesh Node} (hGenuine : Genuine M s) (c : Nat)
    (persist : Nat → Outcome) (reshare : DayEpoch → DayEpoch → List NodeId → Outcome) :
    Genuine M (s.step M (.finish c persist reshare)) := by
  cases hx : s.exchanges c with
  | none =>
    simp only [step, hx]
    exact hGenuine
  | some x =>
    cases hTodo : x.todo with
    | cons p rest =>
      simp only [step, hx, hTodo]
      exact hGenuine
    | nil =>
      refine ⟨backed_finish hGenuine hx hTodo persist reshare, fun d y hy => ?_⟩
      obtain ⟨-, -, -, hExchanges, -⟩ := step_finish (M := M) hx hTodo persist reshare
      rw [hExchanges] at hy
      by_cases hd : d = c
      · subst hd
        rw [Function.update_self] at hy
        exact absurd hy (by simp)
      · rw [Function.update_of_ne hd] at hy
        exact hGenuine.collected d y hy

theorem asking_step {s : DayMesh Node} (h : Asking M s) (action : DayAction Node) :
    Asking M (s.step M action) := by
  rcases step_quiet h action with ⟨c, persist, reshare, rfl⟩ | ⟨-, hAsking⟩
  · cases hx : s.exchanges c with
    | none =>
      simp only [step, hx]
      exact h
    | some x =>
      cases hTodo : x.todo with
      | nil => exact asking_finish h hx hTodo persist reshare
      | cons p rest =>
        simp only [step, hx, hTodo]
        exact h
  · exact hAsking

/-- **One step.** The votes stay genuine exactly when the step asks nobody who has not
decided. -/
theorem genuine_step_iff {s : DayMesh Node} (h : Asking M s) (hGenuine : Genuine M s)
    (action : DayAction Node) : Genuine M (s.step M action) ↔ AsksDecided M s action := by
  match action with
  | .finish c persist reshare => exact iff_of_true (genuine_finish hGenuine c persist reshare) trivial
  | .tick p now =>
    exact iff_of_true ⟨hGenuine.backed.voted (.same rfl rfl), hGenuine.collected⟩ trivial
  | .selfVote p day persisted =>
    refine iff_of_true ⟨hGenuine.backed.voted (selfVote_keeps h p day persisted).1, ?_⟩ trivial
    rw [selfVote_exchanges]
    exact hGenuine.collected
  | .begin a persisted =>
    refine iff_of_true ⟨hGenuine.backed.voted (begin_keeps h a persisted).1, ?_⟩ trivial
    intro c x hx
    -- the exchange that opens has no answer yet
    rcases begin_exchanges hx with hOld | hNone
    · exact hGenuine.collected c x hOld
    · rw [hNone]
      exact fun g hg => absurd hg (by simp)
  | .ask c attempt =>
    cases hx : s.exchanges c with
    | none =>
      simp only [step, hx]
      refine iff_of_true hGenuine ?_
      unfold AsksDecided
      split
      · rename_i heq
        cases heq
        exact fun x p rest hx' => absurd (hx.symm.trans hx') (by simp)
      · trivial
    | some x =>
      cases hTodo : x.todo with
      | nil =>
        simp only [step, hx, hTodo]
        refine iff_of_true hGenuine ?_
        unfold AsksDecided
        split
        · rename_i heq
          cases heq
          intro y p rest hy hRest
          obtain rfl := Option.some.inj (hx.symm.trans hy)
          exact absurd (hTodo.symm.trans hRest) (by simp)
        · trivial
      | cons p rest =>
        simp only [step, hx, hTodo]
        exact attemptOn_genuine_iff h hGenuine hx hTodo attempt

omit [DecidableEq Node] in
theorem asking_init (clock quorumT : Node → Nat) : Asking M (init M clock quorumT) :=
  ⟨fun _ _ h => absurd h (by simp [init]), fun _ => rfl⟩

omit [DecidableEq Node] in
theorem genuine_init (clock quorumT : Node → Nat) : Genuine M (init M clock quorumT) :=
  ⟨fun _ _ _ h => absurd h (by simp [init]), fun _ _ h => absurd h (by simp [init])⟩

variable (M) in
/-- **Day votes.** Over every mesh and every order of clocks, votes, attempts
and answers, each vote a node holds or an advance has collected is of a node that had
decided the day, by its clock or by a vote of its own, exactly when no peer that had not
takes the request of an advance and gets its answer back to it. -/
theorem genuine_iff (clock quorumT : Node → Nat) (actions : List (DayAction Node)) :
    Runs.EveryState (step M) (Genuine M) (init M clock quorumT) actions ↔
      Runs.EveryStep (step M) (AsksDecided M) (init M clock quorumT) actions :=
  Runs.everyState_iff_everyStep (J := Asking M) (fun _ action h => asking_step h action)
    (fun _ action h hGenuine => genuine_step_iff h hGenuine action)
    (asking_init clock quorumT) (genuine_init clock quorumT) actions

/-- Two nodes that have each other for a peer. -/
def pairMesh : DayMeshConfig Bool where
  peers a := [!a]
  nodup a := List.nodup_singleton _
  notSelf a := by cases a <;> decide
  name a := if a then "vault-2" else "vault-1"
  injective a b h := by cases a <;> cases b <;> simp_all
  trimmed a := by cases a <;> decide +kernel
  named a := by cases a <;> decide +kernel

/-- One clock a day ahead: its node asks the other, which is on the day before,
and counts the answer. -/
def fastClock : List (DayAction Bool) :=
  [.begin false (.ok ()), .ask 0 (.answered false (.ok ()) .asSent),
    .finish 0 (fun _ => .ok ()) fun _ _ _ => .ok ()]

/-- The echo of a peer that has not reached the day is counted as its vote. -/
theorem backed_fails :
    ¬ ∀ clock quorumT actions,
      Runs.EveryState (step pairMesh) (Backed pairMesh) (init pairMesh clock quorumT) actions := by
  intro h
  have hLast := (h (fun a => if a then 1704067200 else 1704067200 + 86400) (fun _ => 2)
    fastClock).last
  have hHeard := hLast false true ⟨"2024-01-02".toList⟩ (by decide +kernel)
  exact absurd hHeard (by decide +kernel)

end DayMesh

end KeroseneVault
