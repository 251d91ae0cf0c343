import KeroseneVault.Mesh.Effects

/-!
# Does a commit imply a quorum?

`commitConsume` reports Ok after a durable round that reached `t`, or at once
when its node holds the id consumed (the retry branch). The first way always
has `t` nodes that recorded the id; the second has them only if they recorded
it before, since a claim that failed after its local burn leaves the id
consumed at one node.

* `RecordedBy` — at least `t` nodes recorded the id;
* `CommitRecorded` — every `commitConsume` that returned Ok is recorded by `t` nodes;
* `RetryRecorded` — the retry branch is taken only where `t` nodes recorded the id.

Main results:

* `covered_step` — every live round has as many recorders as it counts;
* `commitRecorded_iff` — a run keeps `CommitRecorded` exactly when its steps
  meet `RetryRecorded`.
-/

namespace KeroseneVault.Mesh

open PersistedBucketLedger Ballot

variable {Node : Type} [DecidableEq Node]

/-! ## Recorders -/

/-- At least `t` nodes durably recorded the id. -/
def RecordedBy (s : Mesh Node) (t : Nat) (id : String) : Prop :=
  ∃ S : Finset Node, t ≤ S.card ∧ ∀ b ∈ S, (s.ledger b).log.Recorded id.toList

/-- No log of `s` loses a line in `s'`. -/
def LogsGrow (s s' : Mesh Node) : Prop :=
  ∀ b x, (s.ledger b).log.Recorded x → (s'.ledger b).log.Recorded x

omit [DecidableEq Node] in
theorem RecordedBy.mono {s s' : Mesh Node} {t : Nat} {id : String} (hLogs : LogsGrow s s')
    (h : RecordedBy s t id) : RecordedBy s' t id := by
  obtain ⟨S, hCard, hS⟩ := h
  exact ⟨S, hCard, fun b hb => hLogs b _ (hS b hb)⟩

omit [DecidableEq Node] in
theorem Grows.logsGrow {s s' : Mesh Node} (h : s.Grows s') : LogsGrow s s' :=
  fun b x hx => (h b).recorded x hx

/-- A crash keeps every log. -/
theorem logsGrow_of_crash {M : MeshConfig Node} {s s' : Mesh Node} {a : Node}
    (h : s'.ledger = Function.update s.ledger a
      (openLedger (s.ledger a).log M.maxTx M.maxDay)) : LogsGrow s s' := by
  intro b x hx
  rw [h]
  by_cases hb : b = a
  · subst hb
    simpa [openLedger] using hx
  · simpa [hb] using hx

/-! ## Rounds are covered -/

/-- A round that no peer refused has one recorder more than it has
acknowledgements, none of them still to contact. -/
structure RoundCovered (s : Mesh Node) (r : Ballot.Round Node String) : Prop where
  nodup : r.todo.Nodup
  recorders : true ∉ r.seen →
    ∃ S : Finset Node, r.seen.length + 1 ≤ S.card ∧
      ∀ b ∈ S, b ∉ r.todo ∧ (s.ledger b).log.Recorded r.id.toList

def Covered (s : Mesh Node) : Prop := ∀ c r, s.rounds c = some r → RoundCovered s r

omit [DecidableEq Node] in
theorem RoundCovered.mono {s s' : Mesh Node} {r : Ballot.Round Node String}
    (hLogs : LogsGrow s s') (h : RoundCovered s r) : RoundCovered s' r where
  nodup := h.nodup
  recorders hClean := by
    obtain ⟨S, hCard, hS⟩ := h.recorders hClean
    exact ⟨S, hCard, fun b hb => ⟨(hS b hb).1, hLogs b _ (hS b hb).2⟩⟩

omit [DecidableEq Node] in
/-- Skipping a peer keeps a round covered. -/
theorem RoundCovered.skip {s : Mesh Node} {r : Ballot.Round Node String} {todo : List Node}
    (h : RoundCovered s { r with todo := todo })
    (hTodo : todo = r.todo ∨ ∃ p, todo = p :: r.todo) : RoundCovered s r := by
  rcases hTodo with rfl | ⟨p, rfl⟩
  · exact h
  · refine ⟨(List.nodup_cons.mp h.nodup).2, fun hClean => ?_⟩
    obtain ⟨S, hCard, hS⟩ := h.recorders hClean
    exact ⟨S, hCard, fun b hb => ⟨fun hb' => (hS b hb).1 (List.mem_cons_of_mem _ hb'), (hS b hb).2⟩⟩

omit [DecidableEq Node] in
theorem Covered.of_roundsKept {s s' : Mesh Node} (h : Covered s) (hLogs : LogsGrow s s')
    (hRounds : RoundsKept s.rounds s'.rounds) : Covered s' := by
  intro c r hr
  obtain ⟨todo, hOld, hTodo⟩ := hRounds c r hr
  exact ((h c _ hOld).mono hLogs).skip hTodo

/-- An answer that grants adds its peer to the recorders. -/
theorem RoundCovered.acked {s s' : Mesh Node} {r : Ballot.Round Node String} {p : Node}
    {todo : List Node} {seen : Bool} (h : RoundCovered s r) (hLogs : LogsGrow s s')
    (hTodo : r.todo = p :: todo)
    (hSeen : seen = false → (s'.ledger p).log.Recorded r.id.toList) :
    RoundCovered s' { r with todo := todo, seen := r.seen ++ [seen] } := by
  have hNodup := h.nodup
  rw [hTodo, List.nodup_cons] at hNodup
  refine ⟨hNodup.2, fun hClean => ?_⟩
  simp only [List.mem_append, List.mem_singleton, not_or] at hClean
  obtain ⟨S, hCard, hS⟩ := h.recorders hClean.1
  have hRecorded := hSeen (by simpa using Ne.symm hClean.2)
  -- the recorders so far are no longer to contact, the peer was
  have hNew : p ∉ S := fun hp => (hS p hp).1 (hTodo ▸ List.mem_cons_self ..)
  refine ⟨insert p S, ?_, fun b hb => ?_⟩
  · rw [Finset.card_insert_of_notMem hNew, List.length_append, List.length_singleton]
    omega
  · rcases Finset.mem_insert.mp hb with rfl | hb
    · exact ⟨hNodup.1, hRecorded⟩
    · obtain ⟨hNot, hOld⟩ := hS b hb
      exact ⟨fun hb' => hNot (hTodo ▸ List.mem_cons_of_mem _ hb'), hLogs b _ hOld⟩

/-- Every live round has as many recorders as it counts. -/
theorem covered_step (M : MeshConfig Node) (s : Mesh Node) (action : Action Node)
    (h : Covered s) : Covered (step M s action) := by
  -- a step opens no round, opens one, counts an answer in one, or ends one
  cases step_effect M s action with
  | quiet hGrows hRounds => exact h.of_roundsKept hGrows.logsGrow hRounds
  | opened c a id hGrows _ hBurned hSelf hOther =>
    intro d r hr
    by_cases hd : d = c
    · -- the owner recorded the id first and contacts the others only
      subst hd
      rw [hSelf] at hr
      cases hr
      refine ⟨M.nodup a, fun _ => ⟨{a}, by simp, fun b hb => ?_⟩⟩
      rw [Finset.mem_singleton] at hb
      subst hb
      exact ⟨fun hSelf' => ((M.mem_peers b b).mp hSelf') rfl, hBurned.2⟩
    · rw [hOther d hd] at hr
      exact (h d r hr).mono hGrows.logsGrow
  | acked c p r todo seen hGrows hRound hTodo hSeen hSelf hOther =>
    intro d r' hr
    by_cases hd : d = c
    · subst hd
      rw [hSelf] at hr
      cases hr
      exact (h d r hRound).acked hGrows.logsGrow hTodo fun hFalse => (hSeen hFalse).2.2
    · rw [hOther d hd] at hr
      exact (h d r' hr).mono hGrows.logsGrow
  | won c r hGrows hRounds => exact h.of_roundsKept hGrows.logsGrow hRounds
  | retried c call _ hGrows hRounds => exact h.of_roundsKept hGrows.logsGrow hRounds
  | crashed a _ hLedger hRounds => exact h.of_roundsKept (logsGrow_of_crash hLedger) hRounds

omit [DecidableEq Node] in
/-- A round that no peer refused and that reached `t` has `t` recorders. -/
theorem RoundCovered.recordedBy {s : Mesh Node} {r : Ballot.Round Node String} {t : Nat}
    (h : RoundCovered s r) (hClean : true ∉ r.seen) (hQuorum : t ≤ r.seen.length + 1) :
    RecordedBy s t r.id := by
  obtain ⟨S, hCard, hS⟩ := h.recorders hClean
  exact ⟨S, hQuorum.trans hCard, fun b hb => (hS b hb).2⟩

/-! ## Commit implies quorum -/

/-- Each `commitConsume` that returned Ok has its id recorded by `t` nodes. -/
def CommitRecorded (M : MeshConfig Node) (s : Mesh Node) : Prop :=
  ∀ e ∈ s.history, e.op = .commitConsume → e.outcome = .ok () →
    RecordedBy s (M.quorum e.node) e.id

/-- When a `commitConsume` is about to find its id consumed, `t` nodes have
recorded it. -/
def RetryRecorded (M : MeshConfig Node) (s : Mesh Node) (action : Action Node) : Prop :=
  ∀ c call, action = .call c .check → s.calls c = some call → call.phase = .check →
    call.op.claiming = .commitConsume → call.id ∈ (s.ledger call.node).inner.consumed →
    RecordedBy s (M.quorum call.node) call.id

/-- The retry branch answers Ok and touches no ledger. -/
theorem step_check_of_consumed {M : MeshConfig Node} {s : Mesh Node} {c : Nat}
    {call : Call Node} (hCall : s.calls c = some call) (hPhase : call.phase = .check)
    (hConsumed : call.id ∈ (s.ledger call.node).inner.consumed) :
    step M s (.call c .check) = s.finishCall c call call.op.claiming (.ok ()) := by
  simp [step, hCall, stepCall, hPhase, isConsumed, hConsumed, returnClaim]

omit [DecidableEq Node] in
theorem mem_returned_inner (c : Nat) (call : Call Node) (inner : Op) (o : Outcome) :
    ⟨c, call.node, inner, call.id, o⟩ ∈ call.returned c inner o := by
  unfold Call.returned
  split <;> simp

/-- One step keeps `CommitRecorded` exactly when it meets `RetryRecorded`. -/
theorem commitRecorded_step_iff (M : MeshConfig Node) (s : Mesh Node) (action : Action Node)
    (hCovered : Covered s) (h : CommitRecorded M s) :
    CommitRecorded M (step M s action) ↔ RetryRecorded M s action := by
  constructor
  · -- the retry branch returns Ok at once, so its id must have its recorders already
    rintro hNext c call rfl hCall hPhase hClaim hConsumed
    rw [step_check_of_consumed hCall hPhase hConsumed] at hNext
    have hMem := mem_returned_inner c call call.op.claiming (.ok ())
    exact hNext _ (List.mem_append_left _ hMem) hClaim rfl
  · intro hRetry e he hOp hOk
    have hClaimOk : e.claimOk := ⟨Or.inl hOp, hOk⟩
    cases step_effect M s action with
    | quiet hGrows _ hHistory =>
      exact (h e (hHistory e he hClaimOk) hOp hOk).mono hGrows.logsGrow
    | opened _ _ _ hGrows _ _ _ _ hHistory =>
      rw [hHistory] at he
      exact (h e he hOp hOk).mono hGrows.logsGrow
    | acked _ _ _ _ _ hGrows _ _ _ _ _ hHistory =>
      rw [hHistory] at he
      exact (h e he hOp hOk).mono hGrows.logsGrow
    | won c r hGrows _ hRound hClean hQuorum hHistory =>
      rcases hHistory e he hClaimOk with hOld | ⟨-, hNode, hId⟩
      · exact (h e hOld hOp hOk).mono hGrows.logsGrow
      · -- a round that reached `t` is covered by its recorders
        rw [hNode, hId]
        exact ((hCovered c r hRound).recordedBy hClean hQuorum).mono hGrows.logsGrow
    | retried c call hAction hGrows _ hCall hPhase hConsumed hHistory =>
      rcases hHistory e he hClaimOk with hOld | ⟨hClaiming, hNode, hId⟩
      · exact (h e hOld hOp hOk).mono hGrows.logsGrow
      · rw [hNode, hId]
        refine (hRetry c call hAction hCall hPhase ?_ hConsumed).mono hGrows.logsGrow
        rw [← hClaiming, hOp]
    | crashed a _ hLedger _ hHistory =>
      rw [hHistory] at he
      exact (h e he hOp hOk).mono (logsGrow_of_crash hLedger)

/--
**When a commit implies a quorum.** In a run of the mesh, every
`commitConsume` that returns Ok has its id recorded by a quorum exactly when
the retry branch is only taken for ids a quorum has recorded.
-/
theorem commitRecorded_iff (M : MeshConfig Node) (ledger : Node → PersistedBucketLedger)
    (actions : List (Action Node)) :
    Runs.EveryState (step M) (CommitRecorded M) (init ledger) actions ↔
      Runs.EveryStep (step M) (RetryRecorded M) (init ledger) actions := by
  refine Runs.everyState_iff_everyStep (J := Covered) (covered_step M)
    (commitRecorded_step_iff M) ?_ ?_ actions
  · intro c r hr
    simp [init, rounds] at hr
  · intro e he
    simp [init] at he

/-- A commit that reaches no peer, and its retry. -/
def retriedCommit : List (Action Trio) :=
  [.commitConsume .alpha "intent-1", .call 0 .check, .call 0 (.burn .ok),
    .call 0 (.deliver .noAck), .call 0 (.deliver .noAck), .call 0 .finish,
    .commitConsume .alpha "intent-1", .call 1 .check]

/-- The retry of a commit that reached no peer returns Ok with one recorder. -/
theorem retriedCommit_not_recorded :
    ¬ Runs.EveryState (step trioConfig) (CommitRecorded trioConfig) trioStart retriedCommit := by
  intro h
  obtain ⟨S, hCard, hS⟩ := h.last ⟨1, .alpha, .commitConsume, "intent-1", .ok ()⟩
    (List.mem_cons_self ..) rfl rfl
  -- only alpha's log has a line, and two are a quorum of three
  have hPeers : ∀ b : Trio, b ≠ .alpha →
      ((Runs.run (step trioConfig) trioStart retriedCommit).ledger b).log.text = [] := by decide
  have hSub : S ⊆ {.alpha} := by
    intro b hb
    rw [Finset.mem_singleton]
    by_contra hb0
    exact LineLog.Recorded.text_ne_nil (hS b hb) (hPeers b hb0)
  have hOne := Finset.card_le_card hSub
  rw [Finset.card_singleton] at hOne
  have hQuorum : 2 ≤ S.card := hCard
  omega

end KeroseneVault.Mesh
