import KeroseneVault.Lib.Rounds
import KeroseneVault.Mesh.Model

/-!
# What one action of the mesh can do

Every safety argument about the mesh looks at three things only: what the
nodes hold consumed and recorded, the durable rounds in flight, and the claims
that returned Ok. `step_effect` says once what an action does to them; the
invariants are proved from it and never unfold `step`.

An effect says what changed and also what did not: by `RoundsKept` a round that is in flight
afterwards was so before, with the same answers, and by the history no claim returned Ok
that had not done so, except the one the effect is about.

An action is taken by one call or one node, and each phase of a call has its own branches:
an answer that comes, a peer that does not reply, a quorum that is reached, a log that
cannot be written. What they do to the ledgers and to the rounds falls under few heads all
the same. A ledger grows, or is swept; a round is begun, asks a peer, is closed; a node
crashes; a claim returns. That the list is complete is proved once, over every branch of
`step`.

* `rounds` — the calls past their local burn, as rounds of a ballot;
* `Event.claimOk` — a `commitConsume` or `tryConsume` that returned Ok;
* `Effect` — the effects an action can have;
* `step_effect` — every action has one of them.
-/

namespace KeroseneVault.Mesh

open PersistedBucketLedger Ballot

variable {Node : Type}

/-! ## Rounds and claims -/

/-- The round of a call past its local burn. -/
def Call.round (call : Call Node) : Option (Ballot.Round Node String) :=
  match call.phase with
  | .durableRound todo acks =>
    some ⟨call.node, call.id, todo, acks.map IntentPrepareAck.alreadySeen⟩
  | _ => none

/-- The durable rounds in flight. -/
def rounds (s : Mesh Node) : Ballot.Rounds Node String := fun c => (s.calls c).bind Call.round

/-- A `commitConsume` or `tryConsume` that returned Ok. -/
def Event.claimOk (e : Event Node) : Prop :=
  (e.op = .commitConsume ∨ e.op = .tryConsume) ∧ e.outcome = .ok ()

instance (e : Event Node) : Decidable e.claimOk :=
  inferInstanceAs (Decidable ((e.op = .commitConsume ∨ e.op = .tryConsume) ∧ e.outcome = .ok ()))

/-- No node's ledger takes anything back. -/
def Grows (s s' : Mesh Node) : Prop := ∀ a, (s.ledger a).Grows (s'.ledger a)

theorem Grows.refl (s : Mesh Node) : s.Grows s := fun _ => PersistedBucketLedger.Grows.refl _

/-! ## Small lemmas about the updates -/

section Updates

variable (s : Mesh Node) (c : Nat) (call : Call Node) (phase : Phase Node) (inner : Op)
  (o : Outcome)

@[simp] theorem setPhase_ledger : (s.setPhase c call phase).ledger = s.ledger := rfl
@[simp] theorem setPhase_history : (s.setPhase c call phase).history = s.history := rfl
@[simp] theorem spawn_ledger : (s.spawn call).ledger = s.ledger := rfl
@[simp] theorem spawn_history : (s.spawn call).history = s.history := rfl
@[simp] theorem finishCall_ledger : (s.finishCall c call inner o).ledger = s.ledger := rfl
@[simp] theorem finishCall_history :
    (s.finishCall c call inner o).history = call.returned c inner o ++ s.history := rfl

/-- The round of a call is read off the phase it is put in. -/
theorem setPhase_round_self :
    (s.setPhase c call phase).rounds c = ({ call with phase := phase } : Call Node).round := by
  simp [setPhase, rounds]

/-- The other calls keep their rounds. -/
theorem setPhase_round_ne {c d : Nat} (h : d ≠ c) :
    (s.setPhase c call phase).rounds d = s.rounds d := by
  simp [setPhase, rounds, h]

/-- A call that has returned has no round. -/
theorem finishCall_round_self : (s.finishCall c call inner o).rounds c = none := by
  simp [finishCall, rounds]

/-- And the other calls keep theirs. -/
theorem finishCall_round_ne {c d : Nat} (h : d ≠ c) :
    (s.finishCall c call inner o).rounds d = s.rounds d := by
  simp [finishCall, rounds, h]

/-- A call that is new, and is not yet past its burn, adds no round. -/
theorem spawn_round_of_not_durable {s : Mesh Node} {call : Call Node} (h : call.round = none)
    {d : Nat} {r : Ballot.Round Node String} (hr : (s.spawn call).rounds d = some r) :
    s.rounds d = some r := by
  by_cases hd : d = s.next
  · subst hd
    simp [spawn, rounds, h] at hr
  · simpa [spawn, rounds, hd] using hr

/-- To return is to close a round at most. -/
theorem finishCall_roundsKept : RoundsKept s.rounds (s.finishCall c call inner o).rounds := by
  refine RoundsKept.of_imp fun d r hr => ?_
  by_cases hd : d = c
  · subst hd
    rw [finishCall_round_self] at hr
    cases hr
  · rwa [finishCall_round_ne s call inner o hd] at hr

/-- Moving to a phase outside the durable round opens no round. -/
theorem setPhase_roundsKept
    (h : ({ call with phase := phase } : Call Node).round = none) :
    RoundsKept s.rounds (s.setPhase c call phase).rounds := by
  refine RoundsKept.of_imp fun d r hr => ?_
  by_cases hd : d = c
  · subst hd
    rw [setPhase_round_self, h] at hr
    cases hr
  · rwa [setPhase_round_ne s call phase hd] at hr

/-- The events of a return are about the call that returned: its node, its id, its outcome, and
either its own operation or the one it made on the way. -/
theorem mem_returned {e : Event Node} (h : e ∈ call.returned c inner o) :
    e.call = c ∧ e.node = call.node ∧ e.id = call.id ∧ e.outcome = o ∧
      (e.op = call.op ∨ e.op = inner) := by
  unfold Call.returned at h
  split at h
  · simp only [List.mem_singleton] at h
    subst h
    exact ⟨rfl, rfl, rfl, rfl, Or.inr rfl⟩
  · simp only [List.mem_cons, List.not_mem_nil, or_false] at h
    rcases h with rfl | rfl
    · exact ⟨rfl, rfl, rfl, rfl, Or.inl rfl⟩
    · exact ⟨rfl, rfl, rfl, rfl, Or.inr rfl⟩

/-- A call that returns an error returns no claim. -/
theorem not_claimOk_of_returned_error {e : Event Node} {err : DomainError}
    (h : e ∈ call.returned c inner (.error err)) : ¬ e.claimOk := by
  rintro ⟨-, hOk⟩
  rw [(mem_returned c call inner _ h).2.2.2.1] at hOk
  cases hOk

variable [DecidableEq Node] (a : Node) (l : PersistedBucketLedger)

@[simp] theorem setLedger_calls : (s.setLedger a l).calls = s.calls := rfl
@[simp] theorem setLedger_next : (s.setLedger a l).next = s.next := rfl
@[simp] theorem setLedger_history : (s.setLedger a l).history = s.history := rfl
@[simp] theorem setLedger_ledger_self : (s.setLedger a l).ledger a = l := by simp [setLedger]
@[simp] theorem setLedger_rounds : (s.setLedger a l).rounds = s.rounds := rfl

/-- Where one ledger grows, and the others stay, the mesh grows. -/
theorem grows_setLedger {s : Mesh Node} {a : Node} {l : PersistedBucketLedger}
    (h : (s.ledger a).Grows l) : s.Grows (s.setLedger a l) := by
  intro b
  by_cases hb : b = a
  · subst hb
    simpa [setLedger] using h
  · simpa [setLedger, hb] using PersistedBucketLedger.Grows.refl _

/-- A claim that returns adds its own events to the history, and no others. -/
theorem returnClaim_history :
    (s.returnClaim c call o).history = call.returned c call.op.claiming o ++ s.history := by
  unfold returnClaim
  split
  · rename_i h
    simp [h, Op.claiming]
  · rfl

/-- Of the rounds it closes its own. -/
theorem returnClaim_round :
    (s.returnClaim c call o).rounds = (s.finishCall c call call.op.claiming o).rounds := by
  unfold returnClaim
  split <;> rfl

/-- It may release what the claim held, and takes no burnt id back. -/
theorem returnClaim_grows : s.Grows (s.returnClaim c call o) := by
  unfold returnClaim
  split
  · exact grows_setLedger (releaseReservation_grows ..)
  · exact Grows.refl s

/-- No round is begun where a claim returns. -/
theorem returnClaim_roundsKept : RoundsKept s.rounds (s.returnClaim c call o).rounds := by
  intro d r hr
  rw [returnClaim_round] at hr
  exact finishCall_roundsKept s c call _ o d r hr

/-- A claim that returns an error is no claim that returned Ok. -/
theorem returnClaim_error_history {err : DomainError} {e : Event Node}
    (h : e ∈ (s.returnClaim c call (.error err)).history) (hOk : e.claimOk) :
    e ∈ s.history := by
  rw [returnClaim_history, List.mem_append] at h
  exact h.resolve_left fun h => not_claimOk_of_returned_error c call _ h hOk

end Updates

/-! ## Effects -/

/-- What an action can do to ledgers, rounds and claims. -/
inductive Effect [DecidableEq Node] (M : MeshConfig Node) (s : Mesh Node)
    (action : Action Node) (s' : Mesh Node) : Prop where
  /-- Nothing a claim depends on: rounds may end or skip a peer. -/
  | quiet (hGrows : s.Grows s') (hRounds : RoundsKept s.rounds s'.rounds)
      (hHistory : ∀ e ∈ s'.history, e.claimOk → e ∈ s.history)
  /-- A claim burned its id locally and opens its durable round. -/
  | opened (c : Nat) (a : Node) (id : String) (hGrows : s.Grows s')
      (hFree : id ∉ (s.ledger a).inner.consumed)
      (hBurned : id ∈ (s'.ledger a).inner.consumed ∧ (s'.ledger a).log.Recorded id.toList)
      (hSelf : s'.rounds c = some ⟨a, id, M.peers a, []⟩)
      (hOther : ∀ d, d ≠ c → s'.rounds d = s.rounds d)
      (hHistory : s'.history = s.history)
  /-- A peer's durable answer joins the round of claim `c`. -/
  | acked (c : Nat) (p : Node) (r : Ballot.Round Node String) (todo : List Node) (seen : Bool)
      (hGrows : s.Grows s') (hRound : s.rounds c = some r) (hTodo : r.todo = p :: todo)
      (hSeen : seen = false → r.id ∉ (s.ledger p).inner.consumed ∧
        r.id ∈ (s'.ledger p).inner.consumed ∧ (s'.ledger p).log.Recorded r.id.toList)
      (hSelf : s'.rounds c = some { r with todo := todo, seen := r.seen ++ [seen] })
      (hOther : ∀ d, d ≠ c → s'.rounds d = s.rounds d)
      (hHistory : s'.history = s.history)
  /-- Claim `c` returns Ok after a round that reached the quorum. -/
  | won (c : Nat) (r : Ballot.Round Node String) (hGrows : s.Grows s')
      (hRounds : RoundsKept s.rounds s'.rounds) (hRound : s.rounds c = some r)
      (hClean : true ∉ r.seen) (hQuorum : M.quorum r.owner ≤ r.seen.length + 1)
      (hHistory : ∀ e ∈ s'.history, e.claimOk →
        e ∈ s.history ∨ (e.call = c ∧ e.node = r.owner ∧ e.id = r.id))
  /-- `commitConsume` finds its id consumed and returns Ok. -/
  | retried (c : Nat) (call : Call Node) (hAction : action = .call c .check)
      (hGrows : s.Grows s') (hRounds : RoundsKept s.rounds s'.rounds)
      (hCall : s.calls c = some call) (hPhase : call.phase = .check)
      (hConsumed : call.id ∈ (s.ledger call.node).inner.consumed)
      (hHistory : ∀ e ∈ s'.history, e.claimOk →
        e ∈ s.history ∨ (e.op = call.op.claiming ∧ e.node = call.node ∧ e.id = call.id))
  /-- A node dies with its calls and reads its log back. -/
  | crashed (a : Node) (hAction : action = .crash a)
      (hLedger : s'.ledger = Function.update s.ledger a
        (openLedger (s.ledger a).log M.maxTx M.maxDay))
      (hRounds : RoundsKept s.rounds s'.rounds) (hHistory : s'.history = s.history)

/-! ## Every action has one of the effects -/

section Step

variable [DecidableEq Node] {M : MeshConfig Node} {action : Action Node}

/-- A change of one ledger by which it grows is a quiet action. -/
theorem effect_setLedger {s : Mesh Node} {a : Node} {l : PersistedBucketLedger}
    (h : (s.ledger a).Grows l) : Effect M s action (s.setLedger a l) :=
  .quiet (grows_setLedger h) (RoundsKept.refl s.rounds) fun _ he _ => he

/-- So is the start of a call that has burnt nothing yet. -/
theorem effect_spawn {s : Mesh Node} {call : Call Node} (h : call.round = none) :
    Effect M s action (s.spawn call) :=
  .quiet (Grows.refl s) (RoundsKept.of_imp fun _ _ hr => spawn_round_of_not_durable h hr)
    fun _ he _ => he

/-- A call that ends with a refusal or outside a claim is quiet. -/
theorem effect_finishCall {s s₀ : Mesh Node} {c : Nat} {call : Call Node} {inner : Op}
    {o : Outcome} (hGrows : s.Grows s₀)
    (hRounds : RoundsKept s.rounds (s₀.finishCall c call inner o).rounds)
    (hHistory : s₀.history = s.history)
    (hQuiet : ∀ e ∈ call.returned c inner o, ¬ e.claimOk) :
    Effect M s action (s₀.finishCall c call inner o) := by
  refine .quiet hGrows hRounds fun e he hOk => ?_
  rw [finishCall_history, hHistory, List.mem_append] at he
  exact he.resolve_left fun h => hQuiet e h hOk

/-- A reservation begins quietly: either it is refused at once by its own node, or the id is
held softly and the peers are asked. -/
theorem startReserve_effect (s : Mesh Node) (a : Node) (now : Nat) (id : String) (op : Op)
    (validate : Validate) : Effect M s action (s.startReserve M a now id op validate) := by
  unfold startReserve
  have hGrows := QuorumBucketLedger.reserveLocal_grows now id op.terms.1 op.terms.2 validate
    (s.ledger a)
  dsimp only
  split
  · rename_i e l h
    rw [h] at hGrows
    refine effect_finishCall (grows_setLedger hGrows) ?_ rfl
      fun _ he => not_claimOk_of_returned_error _ _ _ he
    -- the refused call came and went with this action
    refine RoundsKept.of_imp fun d r hr => ?_
    by_cases hd : d = s.next
    · subst hd
      rw [finishCall_round_self] at hr
      cases hr
    · rw [finishCall_round_ne _ _ _ _ hd] at hr
      exact spawn_round_of_not_durable (s := s.setLedger a l) rfl hr
  · rename_i l h
    rw [h] at hGrows
    refine .quiet (grows_setLedger hGrows) (RoundsKept.of_imp fun _ _ hr => ?_) fun _ he _ => he
    exact spawn_round_of_not_durable (s := s.setLedger a l) rfl hr

/-- A reservation that returns may release the hold or keep it, and as an authorization it may
go on to the claim; it burns nothing by itself. -/
theorem returnReserve_effect (s : Mesh Node) (c : Nat) (call : Call Node) (soft : Round) :
    Effect M s action (s.returnReserve M c call soft) := by
  unfold returnReserve
  have hGrows := QuorumBucketLedger.finishReserve_grows (M.quorum call.node) soft call.id
    call.op.terms.1 call.op.terms.2 (s.ledger call.node)
  dsimp only
  split
  · rename_i e l h
    rw [h] at hGrows
    exact effect_finishCall (grows_setLedger hGrows)
      (finishCall_roundsKept (s.setLedger call.node l) c call _ _) rfl
      fun _ he => not_claimOk_of_returned_error _ _ _ he
  · rename_i l h
    rw [h] at hGrows
    split
    · rename_i hOp
      refine effect_finishCall (grows_setLedger hGrows)
        (finishCall_roundsKept (s.setLedger call.node l) c call _ _) rfl ?_
      -- a reservation that returns is no claim
      rintro e he ⟨hClaim, -⟩
      obtain ⟨-, -, -, -, h | h⟩ := mem_returned _ _ _ _ he
      · rw [h, hOp] at hClaim
        simp at hClaim
      · rw [h] at hClaim
        simp at hClaim
    · -- `authorizeSpendAndConsume` goes on to its commit
      refine .quiet (grows_setLedger hGrows)
        (setPhase_roundsKept (s.setLedger call.node l) c call .check rfl) ?_
      rintro e he hOk
      rcases List.mem_cons.mp he with rfl | he
      · simp [Event.claimOk] at hOk
      · exact he

/-- A claim that ends with an error is quiet. -/
theorem returnClaim_error_effect {s s₀ : Mesh Node} {c : Nat} {call : Call Node}
    {e : DomainError} (hGrows : s.Grows s₀) (hRounds : s₀.rounds = s.rounds)
    (hHistory : s₀.history = s.history) : Effect M s action (s₀.returnClaim c call (.error e)) := by
  refine .quiet (fun a => (hGrows a).trans (returnClaim_grows s₀ c call _ a)) ?_ ?_
  · intro d r hr
    rw [← hRounds]
    exact returnClaim_roundsKept s₀ c call _ d r hr
  · intro ev hev hOk
    rw [← hHistory]
    exact returnClaim_error_history s₀ c call hev hOk

/-- The effects of one step of a call, phase by phase. The only ones that burn are the local
burn at the beginning of the durable round and the commit after it; the only ones that ask are
the peers' answers within it. -/
theorem stepCall_effect {s : Mesh Node} {c : Nat} {call : Call Node} (hCall : s.calls c = some call)
    (act : CallAction) : Effect M s (.call c act) (s.stepCall M c call act) := by
  obtain ⟨a, op, id, phase⟩ := call
  unfold stepCall
  split
  -- the soft round
  · rename_i p todo acks now disk hPhase
    have hGrows := prepareSoft_grows now id (s.ledger p)
    dsimp only at hPhase ⊢
    split <;> rename_i h <;> rw [h] at hGrows <;>
      exact .quiet (grows_setLedger hGrows) (setPhase_roundsKept (s.setLedger p _) c _ _ rfl)
        fun _ he _ => he
  · exact .quiet (Grows.refl s) (setPhase_roundsKept s c _ _ rfl) fun _ he _ => he
  · exact returnReserve_effect s c _ _
  · exact returnReserve_effect s c _ _
  -- `commitConsume` looks whether the id is consumed
  · rename_i hPhase
    split
    · rename_i hConsumed
      refine .retried c _ rfl (returnClaim_grows s c _ _) (returnClaim_roundsKept s c _ _) hCall
        hPhase (by simpa [isConsumed] using hConsumed) ?_
      intro e he hOk
      rw [returnClaim_history, List.mem_append] at he
      rcases he with he | he
      · obtain ⟨-, hNode, hId, -, hOp | hOp⟩ := mem_returned _ _ _ _ he
        · refine Or.inr ⟨?_, hNode, hId⟩
          -- the method around the claim is a claim itself only when it is the claim
          rcases hOk.1 with h | h <;> rw [h] at hOp ⊢ <;> rw [← hOp] <;> rfl
        · exact Or.inr ⟨hOp, hNode, hId⟩
      · exact Or.inl he
    · exact .quiet (Grows.refl s) (setPhase_roundsKept s c _ _ rfl) fun _ he _ => he
  -- the local burn
  · rename_i disk hPhase
    have hGrows := prepareConsume_grows disk id (s.ledger a)
    dsimp only at hPhase ⊢
    split
    · rename_i e l h
      rw [h] at hGrows
      exact returnClaim_error_effect (grows_setLedger hGrows) rfl rfl
    · rename_i l h
      rw [h] at hGrows
      exact returnClaim_error_effect (grows_setLedger hGrows) rfl rfl
    · rename_i l h
      rw [h] at hGrows
      obtain ⟨hFree, hBurned⟩ := prepareConsume_granted h
      refine .opened c a id (grows_setLedger hGrows) hFree (by simpa using hBurned) ?_ ?_ rfl
      · rw [setPhase_round_self]
        rfl
      · intro d hd
        rw [setPhase_round_ne _ _ _ hd, setLedger_rounds]
  -- the durable round
  · rename_i p todo acks now disk hPhase
    have hGrows := prepareConsume_grows disk id (s.ledger p)
    dsimp only at hPhase ⊢
    subst hPhase
    have hRound : s.rounds c = some ⟨a, id, p :: todo, acks.map IntentPrepareAck.alreadySeen⟩ := by
      rw [rounds, hCall]
      rfl
    split
    · -- the peer's disk failed: it is skipped without an acknowledgement
      rename_i e l h
      rw [h] at hGrows
      refine .quiet (grows_setLedger hGrows) ?_ fun _ he _ => he
      intro d r hr
      by_cases hd : d = c
      · subst hd
        rw [setPhase_round_self] at hr
        cases hr
        exact ⟨p :: todo, hRound, Or.inr ⟨p, rfl⟩⟩
      · rw [setPhase_round_ne _ _ _ hd] at hr
        exact ⟨r.todo, hr, Or.inl rfl⟩
    · rename_i seen l h
      rw [h] at hGrows
      -- what the handler answers tells whether the peer held the id before
      refine .acked c p _ todo seen (grows_setLedger hGrows) hRound rfl ?_ ?_ ?_ rfl
      · rintro rfl
        simpa using prepareConsume_granted h
      · rw [setPhase_round_self]
        simp [Call.round]
      · intro d hd
        rw [setPhase_round_ne _ _ _ hd, setLedger_rounds]
  · rename_i p todo acks hPhase
    dsimp only at hPhase ⊢
    subst hPhase
    refine .quiet (Grows.refl s) ?_ fun _ he _ => he
    intro d r hr
    by_cases hd : d = c
    · subst hd
      rw [setPhase_round_self] at hr
      cases hr
      refine ⟨p :: todo, ?_, Or.inr ⟨p, rfl⟩⟩
      rw [rounds, hCall]
      rfl
    · rw [setPhase_round_ne _ _ _ hd] at hr
      exact ⟨r.todo, hr, Or.inl rfl⟩
  · exact returnClaim_error_effect (Grows.refl s) rfl rfl
  · rename_i acks hPhase
    dsimp only at hPhase ⊢
    subst hPhase
    have hRound : s.rounds c = some ⟨a, id, [], acks.map IntentPrepareAck.alreadySeen⟩ := by
      rw [rounds, hCall]
      rfl
    -- the round is over: its acknowledgements decide
    cases hAcks : checkAcks (M.quorum a) id acks with
    | error e => exact returnClaim_error_effect (Grows.refl s) rfl rfl
    | ok u =>
      obtain ⟨hClean, hQuorum⟩ := checkAcks_ok.mp hAcks
      refine .won c _ (returnClaim_grows s c _ _) (returnClaim_roundsKept s c _ _) hRound hClean
        (by simpa using hQuorum) ?_
      intro e he hOk
      rw [returnClaim_history, List.mem_append] at he
      rcases he with he | he
      · obtain ⟨hC, hNode, hId, -⟩ := mem_returned _ _ _ _ he
        exact Or.inr ⟨hC, hNode, hId⟩
      · exact Or.inl he
  · exact .quiet (Grows.refl s) (RoundsKept.refl s.rounds) fun _ he _ => he

/-- **Every action of the mesh has one of the effects.** -/
theorem step_effect (M : MeshConfig Node) (s : Mesh Node) (action : Action Node) :
    Effect M s action (step M s action) := by
  cases action with
  | reserveSpend a now id kind amount validate => exact startReserve_effect s a now id _ validate
  | authorizeSpendAndConsume a now id kind amount validate =>
    exact startReserve_effect s a now id _ validate
  | commitConsume a id => exact effect_spawn rfl
  | tryConsume a id => exact effect_spawn rfl
  | call c act =>
    unfold step
    dsimp only
    split
    · exact .quiet (Grows.refl s) (RoundsKept.refl s.rounds) fun _ he _ => he
    · rename_i call hCall
      exact stepCall_effect hCall act
  | releaseReservation a id kind amount => exact effect_setLedger (releaseReservation_grows ..)
  | prepareSoft a now id => exact effect_setLedger (prepareSoft_grows ..)
  | prepareConsume a disk id => exact effect_setLedger (prepareConsume_grows ..)
  | sweepExpired a now =>
    exact effect_setLedger (grows_inner (BucketState.sweepExpired_consumed ..))
  | crash a =>
    refine .crashed a rfl rfl (RoundsKept.of_imp fun c r hr => ?_) rfl
    obtain ⟨call, hCall, hRound⟩ := Option.bind_eq_some_iff.mp hr
    obtain ⟨hCall, -⟩ := Option.filter_eq_some_iff.mp hCall
    exact Option.bind_eq_some_iff.mpr ⟨call, hCall, hRound⟩

end Step

end KeroseneVault.Mesh
