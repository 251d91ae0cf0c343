import KeroseneVault.Lib.Rounds
import KeroseneVault.Lib.Runs
import KeroseneVault.Mesh.Membership
import KeroseneVault.Session.AntiNonce

/-!
# A mesh of anti-nonce nodes

Several `QuorumAntiNonce` nodes with full membership and the `claimSession`
calls in flight among them. A call burns locally in one action, contacts each
peer in one action and looks at the answers in one, so calls interleave in
any order with soft and durable prepares from elsewhere, with soft expiry and
with crashes, also between the local burn and the peers.

Main results:

* `safe_step` — every action is a move of the ballot behind a session id;
* `claimSession_once` — `claimSession` of an id returns Ok at most once in
  the whole mesh.
-/

namespace KeroseneVault

open PersistedAntiNonce Ballot

namespace SessionMesh

/-! ## State and actions -/

/-- Where a `claimSession` call stands. -/
inductive Phase (Node : Type) where
  | claim
  | durableRound (todo : List Node) (acks : List PrepareAck)

structure Call (Node : Type) where
  node : Node
  sessionId : String
  phase : Phase Node

/-- `claimSession` of call `call` returned `outcome`. -/
structure Event (Node : Type) where
  call : Nat
  node : Node
  sessionId : String
  outcome : Outcome
  deriving DecidableEq

end SessionMesh

open SessionMesh in
structure SessionMesh (Node : Type) where
  store : Node → PersistedAntiNonce
  calls : Nat → Option (Call Node)
  next : Nat
  history : List (Event Node)

namespace SessionMesh

variable {Node : Type}

/-- The mesh as its nodes start. -/
def init (store : Node → PersistedAntiNonce) : SessionMesh Node := ⟨store, fun _ => none, 0, []⟩

/-- What the transport does with one peer of the round. -/
inductive Delivery where
  | answered (disk : Disk)
  | noAck
  | broken (e : DomainError)

/-- The next stretch of a call. -/
inductive CallAction where
  | burn (disk : Disk)
  | deliver (d : Delivery)
  | finish

inductive Action (Node : Type) where
  | claimSession (a : Node) (sessionId : String)
  | call (c : Nat) (act : CallAction)
  | prepareSoft (a : Node) (now : Nat) (sessionId : String)
  | prepare (a : Node) (disk : Disk) (sessionId : String)
  | isConsumed (a : Node) (now : Nat) (sessionId : String)
  | crash (a : Node)

def setPhase (s : SessionMesh Node) (c : Nat) (call : Call Node) (phase : Phase Node) :
    SessionMesh Node :=
  { s with calls := Function.update s.calls c (some { call with phase := phase }) }

def spawn (s : SessionMesh Node) (call : Call Node) : SessionMesh Node :=
  { s with calls := Function.update s.calls s.next (some call), next := s.next + 1 }

def finishCall (s : SessionMesh Node) (c : Nat) (call : Call Node) (o : Outcome) :
    SessionMesh Node :=
  { s with
    calls := Function.update s.calls c none
    history := ⟨c, call.node, call.sessionId, o⟩ :: s.history }

/-- The round of a call past its local burn. -/
def Call.round (call : Call Node) : Option (Ballot.Round Node String) :=
  match call.phase with
  | .durableRound todo acks =>
    some ⟨call.node, call.sessionId, todo, acks.map PrepareAck.alreadySeen⟩
  | .claim => none

/-- The durable rounds in flight. -/
def rounds (s : SessionMesh Node) : Rounds Node String := fun c => (s.calls c).bind Call.round

/-- No node's store takes anything back. -/
def Grows (s s' : SessionMesh Node) : Prop := ∀ a, (s.store a).Grows (s'.store a)

section Updates

variable (s : SessionMesh Node) (c : Nat) (call : Call Node) (phase : Phase Node) (o : Outcome)

theorem setPhase_rounds_self :
    (s.setPhase c call phase).rounds c = ({ call with phase := phase } : Call Node).round := by
  simp [setPhase, rounds]

theorem setPhase_rounds_ne {c d : Nat} (h : d ≠ c) :
    (s.setPhase c call phase).rounds d = s.rounds d := by
  simp [setPhase, rounds, h]

theorem finishCall_roundsKept : RoundsKept s.rounds (s.finishCall c call o).rounds := by
  refine RoundsKept.of_imp fun d r hr => ?_
  by_cases hd : d = c
  · subst hd
    simp [finishCall, rounds] at hr
  · simpa [finishCall, rounds, hd] using hr

end Updates

/-! ## The step function -/

variable [DecidableEq Node]

def setStore (s : SessionMesh Node) (a : Node) (l : PersistedAntiNonce) : SessionMesh Node :=
  { s with store := Function.update s.store a l }

/-- One stretch of call `c`. -/
def stepCall (M : Membership Node) (s : SessionMesh Node) (c : Nat) (call : Call Node)
    (act : CallAction) : SessionMesh Node :=
  match call.phase, act with
  | .claim, .burn disk =>
    match (s.store call.node).claimSession disk call.sessionId with
    | (.error e, l) => (s.setStore call.node l).finishCall c call (.error e)
    | (.ok (), l) =>
      (s.setStore call.node l).setPhase c call (.durableRound (M.peers call.node) [])
  | .durableRound (p :: todo) acks, .deliver (.answered disk) =>
    match (s.store p).prepare disk call.sessionId with
    | (.error _, l) => (s.setStore p l).setPhase c call (.durableRound todo acks)
    | (.ok seen, l) => (s.setStore p l).setPhase c call (.durableRound todo (acks ++ [⟨seen⟩]))
  | .durableRound (_ :: todo) acks, .deliver .noAck =>
    s.setPhase c call (.durableRound todo acks)
  | .durableRound (_ :: _) _, .deliver (.broken e) => s.finishCall c call (.error e)
  | .durableRound [] acks, .finish =>
    s.finishCall c call (QuorumAntiNonce.checkAcks (M.quorum call.node) call.sessionId acks)
  | _, _ => s

def step (M : Membership Node) (s : SessionMesh Node) : Action Node → SessionMesh Node
  | .claimSession a sessionId => s.spawn ⟨a, sessionId, .claim⟩
  | .call c act =>
    match s.calls c with
    | none => s
    | some call => s.stepCall M c call act
  | .prepareSoft a now sessionId => s.setStore a ((s.store a).prepareSoft now sessionId).2
  | .prepare a disk sessionId => s.setStore a ((s.store a).prepare disk sessionId).2
  | .isConsumed a now sessionId => s.setStore a ((s.store a).isConsumed now sessionId).2
  | .crash a =>
    -- the process dies with its calls and its soft prepares
    { s with
      store := Function.update s.store a (openStore (s.store a).log)
      calls := fun c => (s.calls c).filter fun call => decide (call.node ≠ a) }

/-! ## The ballot behind one session id -/

theorem grows_setStore {s : SessionMesh Node} {a : Node} {l : PersistedAntiNonce}
    (h : (s.store a).Grows l) : s.Grows (s.setStore a l) := by
  intro b
  by_cases hb : b = a
  · subst hb
    simpa [setStore] using h
  · simpa [setStore, hb] using PersistedAntiNonce.Grows.refl _

/-- The node's log has the id and the node holds it burned: it grants no more. -/
def Taken (id : String) (s : SessionMesh Node) (a : Node) : Prop :=
  id ∈ (s.store a).inner ∧ (s.store a).log.Recorded id.toList

omit [DecidableEq Node] in
theorem Grows.taken {id : String} {s s' : SessionMesh Node} (h : s.Grows s') (a : Node)
    (hTaken : Taken id s a) : Taken id s' a :=
  ⟨(h a).inner hTaken.1, (h a).recorded _ hTaken.2⟩

/-- Every Ok answer for the id is that of a winner of the ballot. -/
def Explained (id : String) (won : Node × Nat → Prop) (s : SessionMesh Node) : Prop :=
  ∀ e ∈ s.history, e.sessionId = id → e.outcome = .ok () → won (e.node, e.call)

/-- The safety invariant of one id: calls return once, and a ballot stands
behind the mesh. -/
structure Safe (t : Nat) (id : String) (s : SessionMesh Node) : Prop where
  numbered : Numbered (fun c => (s.calls c).isSome) s.next (s.history.map Event.call)
  ballot : ∃ won, Refines t (roundsView id (Taken id s) won s.rounds) ∧ Explained id won s

namespace Safe

variable {t : Nat} {id : String} {s : SessionMesh Node}

/-- A store that grows costs no vote. -/
theorem setStore (h : Safe t id s) {a : Node} {l : PersistedAntiNonce}
    (hGrows : (s.store a).Grows l) : Safe t id (s.setStore a l) := by
  obtain ⟨won, hRefines, hExplained⟩ := h.ballot
  exact ⟨h.numbered, won, hRefines.kept (grows_setStore hGrows).taken (RoundsKept.refl _),
    hExplained⟩

theorem spawn (h : Safe t id s) {call : Call Node} (hCall : call.phase = .claim) :
    Safe t id (s.spawn call) := by
  obtain ⟨won, hRefines, hExplained⟩ := h.ballot
  refine ⟨h.numbered.spawn fun c hc => ?_, won,
    hRefines.kept (fun _ ha => ha) (RoundsKept.of_imp fun c r hr => ?_), hExplained⟩
  · by_cases hNext : c = s.next
    · exact Or.inr hNext
    · exact Or.inl (by simpa [SessionMesh.spawn, hNext] using hc)
  · by_cases hNext : c = s.next
    · subst hNext
      simp [SessionMesh.spawn, rounds, Call.round, hCall] at hr
    · simpa [SessionMesh.spawn, rounds, hNext] using hr

/-- A call that moves to another phase is still in flight. -/
theorem numbered_setPhase (h : Safe t id s) {c : Nat} {call : Call Node} {phase : Phase Node}
    (hCall : s.calls c = some call) :
    Numbered (fun d => ((s.setPhase c call phase).calls d).isSome) s.next
      (s.history.map Event.call) := by
  refine h.numbered.mono fun d hd => ?_
  by_cases hdc : d = c
  · subst hdc
    simp [hCall]
  · simpa [setPhase, hdc] using hd

/-- A call returns an error, or Ok as a winner. -/
theorem finishCall (h : Safe t id s) {c : Nat} {call : Call Node} {o : Outcome}
    (hCall : s.calls c = some call)
    (hWon : o = .ok () → call.sessionId = id →
      ∃ r, s.rounds c = some r ∧ r.owner = call.node ∧ r.id = id ∧ true ∉ r.seen ∧
        t ≤ r.seen.length + 1) :
    Safe t id (s.finishCall c call o) := by
  obtain ⟨won, hRefines, hExplained⟩ := h.ballot
  refine ⟨?_, ?_⟩
  · refine h.numbered.finish (n := c) (by simp [hCall]) fun d hd => ?_
    by_cases hdc : d = c
    · subst hdc
      simp [SessionMesh.finishCall] at hd
    · exact ⟨by simpa [SessionMesh.finishCall, hdc] using hd, hdc⟩
  · have hRounds := finishCall_roundsKept s c call o
    -- a claim of this id that returns Ok is the winner
    by_cases hOk : o = .ok () ∧ call.sessionId = id
    · -- the call wins the ballot with its round
      obtain ⟨r, hRound, hOwner, hId, hClean, hQuorum⟩ := hWon hOk.1 hOk.2
      refine ⟨_, hRefines.reached (fun _ ha => ha) hRounds hRound hId hClean hQuorum, ?_⟩
      intro e he heId heOk
      rcases List.mem_cons.mp he with rfl | he
      · exact Or.inr (by rw [hOwner])
      · exact Or.inl (hExplained e he heId heOk)
    · -- nothing to explain, the round just ends
      refine ⟨won, hRefines.kept (fun _ ha => ha) hRounds, ?_⟩
      intro e he heId heOk
      rcases List.mem_cons.mp he with rfl | he
      · exact absurd ⟨heOk, heId⟩ hOk
      · exact hExplained e he heId heOk

/-- The local burn is the call's own vote. -/
theorem burned (h : Safe t id s) {c : Nat} {call : Call Node} {l : PersistedAntiNonce}
    {todo : List Node} (hCall : s.calls c = some call) (hGrows : (s.store call.node).Grows l)
    (hGranted : call.sessionId ∉ (s.store call.node).inner ∧ call.sessionId ∈ l.inner ∧
      l.log.Recorded call.sessionId.toList) :
    Safe t id ((s.setStore call.node l).setPhase c call (.durableRound todo [])) := by
  obtain ⟨won, hRefines, hExplained⟩ := h.ballot
  have hTaken : ∀ a, Taken id s a → Taken id (s.setStore call.node l) a :=
    (grows_setStore hGrows).taken
  have hSelf : ((s.setStore call.node l).setPhase c call (.durableRound todo [])).rounds c =
      some ⟨call.node, call.sessionId, todo, []⟩ := by
    rw [setPhase_rounds_self]
    rfl
  refine ⟨(h.setStore hGrows).numbered_setPhase hCall, won, ?_, hExplained⟩
  refine hRefines.opened hTaken ?_ hSelf ?_
  · rintro rfl
    exact ⟨fun hFree => hGranted.1 hFree.1, by simpa [Taken, setPhase, SessionMesh.setStore]
      using hGranted.2⟩
  · intro d hd
    rw [setPhase_rounds_ne _ _ _ hd]
    rfl

/-- A peer's answer: its vote if it grants, the end of the count if not. -/
theorem acked (h : Safe t id s) {c : Nat} {call : Call Node} {l : PersistedAntiNonce} {p : Node}
    {todo : List Node} {acks : List PrepareAck} {seen : Bool} (hCall : s.calls c = some call)
    (hPhase : call.phase = .durableRound (p :: todo) acks) (hGrows : (s.store p).Grows l)
    (hGranted : seen = false → call.sessionId ∉ (s.store p).inner ∧ call.sessionId ∈ l.inner ∧
      l.log.Recorded call.sessionId.toList) :
    Safe t id ((s.setStore p l).setPhase c call (.durableRound todo (acks ++ [⟨seen⟩]))) := by
  obtain ⟨won, hRefines, hExplained⟩ := h.ballot
  have hTaken : ∀ a, Taken id s a → Taken id (s.setStore p l) a := (grows_setStore hGrows).taken
  have hRound : s.rounds c =
      some ⟨call.node, call.sessionId, p :: todo, acks.map PrepareAck.alreadySeen⟩ := by
    simp [rounds, hCall, Call.round, hPhase]
  have hSelf : ((s.setStore p l).setPhase c call
      (.durableRound todo (acks ++ [⟨seen⟩]))).rounds c =
        some ⟨call.node, call.sessionId, todo, acks.map PrepareAck.alreadySeen ++ [seen]⟩ := by
    rw [setPhase_rounds_self]
    simp [Call.round]
  refine ⟨(h.setStore hGrows).numbered_setPhase hCall, won, ?_, hExplained⟩
  refine hRefines.acked (p := p) hTaken hRound ?_ hSelf ?_
  · rintro rfl hSeen
    obtain ⟨hFree, hBurned⟩ := hGranted hSeen
    exact ⟨fun hFree' => hFree hFree'.1, by simpa [Taken, setPhase, SessionMesh.setStore]
      using hBurned⟩
  · intro d hd
    rw [setPhase_rounds_ne _ _ _ hd]
    rfl

/-- A peer that does not answer leaves the count as it was. -/
theorem skipped (h : Safe t id s) {c : Nat} {call : Call Node} {p : Node} {todo : List Node}
    {acks : List PrepareAck} (hCall : s.calls c = some call)
    (hPhase : call.phase = .durableRound (p :: todo) acks) :
    Safe t id (s.setPhase c call (.durableRound todo acks)) := by
  obtain ⟨won, hRefines, hExplained⟩ := h.ballot
  refine ⟨h.numbered_setPhase hCall, won, ?_, hExplained⟩
  refine hRefines.kept (fun _ ha => ha) fun d r hr => ?_
  by_cases hd : d = c
  · subst hd
    rw [setPhase_rounds_self] at hr
    cases hr
    exact ⟨p :: todo, by simp [rounds, hCall, Call.round, hPhase], Or.inr ⟨p, rfl⟩⟩
  · rw [setPhase_rounds_ne _ _ _ hd] at hr
    exact ⟨r.todo, hr, Or.inl rfl⟩

/-- A crash costs no vote where the id survives the log. -/
theorem crash (h : Safe t id s) (hId : SurvivesLog id) (a : Node) (M : Membership Node) :
    Safe t id (step M s (.crash a)) := by
  obtain ⟨won, hRefines, hExplained⟩ := h.ballot
  refine ⟨h.numbered.mono fun c hc => ?_, won,
    hRefines.kept ?_ (RoundsKept.of_imp fun c r hr => ?_), hExplained⟩
  · obtain ⟨call, hCall⟩ := Option.isSome_iff_exists.mp hc
    simp [(Option.filter_eq_some_iff.mp hCall).1]
  · rintro b ⟨hBurned, hRecorded⟩
    by_cases hb : b = a
    · -- memory is gone, the log brings the id back
      subst hb
      simpa [Taken, step] using ⟨mem_openStore_inner hId hRecorded, hRecorded⟩
    · simpa [Taken, step, hb] using ⟨hBurned, hRecorded⟩
  · obtain ⟨call, hCall, hRound⟩ := Option.bind_eq_some_iff.mp hr
    exact Option.bind_eq_some_iff.mpr ⟨call, (Option.filter_eq_some_iff.mp hCall).1, hRound⟩

end Safe

/-! ## Every action is a move of the ballot -/

/-- An action of a call is a move of the ballot. -/
theorem stepCall_safe {M : Membership Node} {t : Nat} (hT : ∀ a, M.quorum a = t) {id : String}
    {s : SessionMesh Node} (h : Safe t id s) {c : Nat} {call : Call Node}
    (hCall : s.calls c = some call) (act : CallAction) : Safe t id (s.stepCall M c call act) := by
  unfold stepCall
  split
  -- the local burn
  · rename_i disk hPhase
    have hGrows := claimSession_grows disk call.sessionId (s.store call.node)
    split
    · rename_i e l hClaim
      rw [hClaim] at hGrows
      exact (h.setStore hGrows).finishCall hCall (by simp)
    · rename_i l hClaim
      rw [hClaim] at hGrows
      exact h.burned hCall hGrows (prepare_granted (claimSession_ok hClaim))
  -- a peer's handler
  · rename_i p todo acks disk hPhase
    have hGrows := prepare_grows disk call.sessionId (s.store p)
    split
    · rename_i e l hPrepare
      rw [hPrepare] at hGrows
      exact (h.setStore hGrows).skipped hCall hPhase
    · rename_i seen l hPrepare
      rw [hPrepare] at hGrows
      exact h.acked hCall hPhase hGrows fun hSeen => prepare_granted (hSeen ▸ hPrepare)
  · rename_i p todo acks hPhase
    exact h.skipped hCall hPhase
  · exact h.finishCall hCall (by simp)
  -- all peers contacted
  · rename_i acks hPhase
    refine h.finishCall hCall fun hOk hId => ?_
    obtain ⟨hClean, hQuorum⟩ := QuorumAntiNonce.checkAcks_ok.mp hOk
    refine ⟨⟨call.node, call.sessionId, [], acks.map PrepareAck.alreadySeen⟩, ?_, rfl, hId, hClean,
      ?_⟩
    · simp [rounds, hCall, Call.round, hPhase]
    · rw [hT] at hQuorum
      simpa using hQuorum
  · exact h

/-- Every action of the mesh is a move of the ballot behind an id that
survives the log. -/
theorem safe_step {M : Membership Node} {t : Nat} (hT : ∀ a, M.quorum a = t) {id : String}
    (hId : SurvivesLog id) {s : SessionMesh Node} (h : Safe t id s) (action : Action Node) :
    Safe t id (step M s action) := by
  cases action with
  | claimSession a sessionId => exact h.spawn rfl
  | call c act =>
    unfold step
    dsimp only
    split
    · exact h
    · rename_i call hCall
      exact stepCall_safe hT h hCall act
  | prepareSoft a now sessionId => exact h.setStore (prepareSoft_grows ..)
  | prepare a disk sessionId => exact h.setStore (prepare_grows ..)
  | isConsumed a now sessionId => exact h.setStore (isConsumed_grows ..)
  | crash a => exact h.crash hId a M

theorem safe_init (t : Nat) (id : String) (store : Node → PersistedAntiNonce) :
    Safe t id (init store) := by
  refine ⟨Numbered.init (by simp [init]), fun _ => False,
    Refines.of_init (fun c => ?_) fun _ => not_false, fun e he => ?_⟩
  · simp [roundsView, gatheredBy, rounds, init]
  · simp [init] at he

/-- Did this event report a successful claim of the id? -/
def Event.claimedOk (id : String) (e : Event Node) : Bool :=
  e.sessionId = id ∧ e.outcome = .ok ()

/--
**Anti-nonce mutual exclusion.** `claimSession` of an id returns Ok at most
once in the whole mesh, whatever else runs, whichever peers are reached and
wherever nodes crash, if the id survives the log.
-/
theorem claimSession_once [Fintype Node] (M : Membership Node)
    (store : Node → PersistedAntiNonce) {id : String} (hId : SurvivesLog id)
    (actions : List (Action Node)) :
    ((Runs.run (step M) (init store) actions).history.filter (Event.claimedOk id)).length ≤ 1 := by
  have hSafe : ∀ a, Safe (M.quorum a) id (Runs.run (step M) (init store) actions) := by
    intro a
    refine Runs.run_preserves (P := Safe (M.quorum a) id) (fun _ action h => ?_)
      (safe_init _ _ store) actions
    exact safe_step (fun b => M.quorum_eq b a) hId h action
  generalize Runs.run (step M) (init store) actions = s at hSafe
  -- two returns with Ok would be of one call, and a call returns once
  refine length_le_one_of_agree (f := Event.call) ?_ ?_
  · -- no call returns twice
    cases hHistory : s.history with
    | nil => simp
    | cons e _ =>
      refine List.Nodup.sublist (List.Sublist.map _ ?_) (hSafe e.node).numbered.once
      rw [hHistory]
      exact List.filter_sublist
  · -- two that return Ok are one winner
    intro e he f hf
    simp only [List.mem_filter, Event.claimedOk, decide_eq_true_eq] at he hf
    obtain ⟨won, hRefines, hExplained⟩ := (hSafe e.node).ballot
    have hEq := hRefines.winner_unique (M.card_lt_two_mul_quorum e.node)
      (hExplained e he.1 he.2.1 he.2.2) (hExplained f hf.1 hf.2.1 hf.2.2)
    exact (Prod.mk.inj hEq).2

/-- Two nodes race for one session, one of them crashes after its local burn. -/
def racingClaims : List (Action Trio) :=
  [.claimSession .alpha "session-1", .claimSession .beta "session-1",
    .prepareSoft .gamma 0 "session-1",
    .call 0 (.burn .ok), .crash .alpha, .call 1 (.burn .ok), .call 1 (.deliver (.answered .ok)),
    .call 1 (.deliver .noAck), .call 1 .finish, .claimSession .alpha "session-1",
    .call 2 (.burn .ok)]

/-- In the race at most one claim goes through. -/
theorem claimSession_once_racing :
    SurvivesLog "session-1" ∧
      ((Runs.run (step trio) (init fun _ => openStore .empty) racingClaims).history.filter
        (Event.claimedOk "session-1")).length ≤ 1 :=
  ⟨by decide, claimSession_once trio _ (by decide) racingClaims⟩

end SessionMesh

end KeroseneVault
