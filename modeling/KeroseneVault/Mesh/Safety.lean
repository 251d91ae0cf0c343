import KeroseneVault.Mesh.Effects

/-!
# One claim per intent

The mesh refines a ballot: for one intent id the nodes are the voters, the
claims are the calls, and a node's durable prepare is its vote. A vote is
given once (the node consumes the id with it) and outlives a crash (the id is
in the log first), and a claim that returns Ok gathered a quorum, so at most
one claim wins.

The difficulty is in the interleaving: between the check of a call and the end of its round
any number of other calls run, at the same node and at others. The ballot takes this out of
the argument. A vote is given in one action, when a node consumes the id, and from then on
it is on disk; a step of the mesh either gives a vote to the claim that asked, or changes
nothing that the ballot sees. What is left is the bookkeeping of calls and the retry branch,
in which a call wins without a vote.

* `CallsOk` — call numbers are used once, and a call returns once;
* `Safe` — a ballot stands behind the claims of an id;
* `RetryOwn` — the retry branch is taken only at a node whose own claim won.

Main results:

* `safe_step` — every action of the mesh is a move of the ballot;
* `tryConsume_once` — at most one `tryConsume` of an id returns Ok;
* `spentOnce_of_commitsOwn` — where a retried commit is the winner's own, at
  most one node reserves and then commits an id.
-/

namespace KeroseneVault.Mesh

open PersistedBucketLedger Ballot

variable {Node : Type} [DecidableEq Node]

/-! ## Calls return once -/

/-- A `tryConsume` call is in its claim or in the durable round. -/
def Call.Claiming (call : Call Node) : Prop :=
  call.op = .tryConsume → call.phase = .claim ∨ ∃ todo acks, call.phase = .durableRound todo acks

/-- The numbers of the `tryConsume` calls that returned. -/
def tryCalls (history : List (Event Node)) : List Nat :=
  (history.filter fun e => e.op = .tryConsume).map Event.call

/-- Call numbers are used once, a `tryConsume` call claims and returns once. -/
structure CallsOk (s : Mesh Node) : Prop where
  numbered : Numbered (fun c => (s.calls c).isSome) s.next (tryCalls s.history)
  claiming : ∀ c call, s.calls c = some call → call.Claiming

namespace CallsOk

variable {s : Mesh Node}

theorem setLedger (h : CallsOk s) (a : Node) (l : PersistedBucketLedger) :
    CallsOk (s.setLedger a l) :=
  ⟨h.numbered, h.claiming⟩

omit [DecidableEq Node] in
theorem spawn (h : CallsOk s) {call : Call Node} (hCall : call.Claiming) :
    CallsOk (s.spawn call) where
  numbered := h.numbered.spawn fun c hc => by
    by_cases hNext : c = s.next
    · exact Or.inr hNext
    · exact Or.inl (by simpa [Mesh.spawn, hNext] using hc)
  claiming c call' hc := by
    by_cases hNext : c = s.next
    · subst hNext
      simp only [Mesh.spawn, Function.update_self, Option.some.injEq] at hc
      exact hc ▸ hCall
    · simp only [Mesh.spawn, Function.update_of_ne hNext] at hc
      exact h.claiming c call' hc

omit [DecidableEq Node] in
theorem setPhase (h : CallsOk s) {c : Nat} {call : Call Node} {phase : Phase Node}
    (hCall : s.calls c = some call)
    (hPhase : ({ call with phase := phase } : Call Node).Claiming) :
    CallsOk (s.setPhase c call phase) where
  numbered := h.numbered.mono fun d hd => by
    by_cases hdc : d = c
    · subst hdc
      simp [hCall]
    · simpa [Mesh.setPhase, hdc] using hd
  claiming d call' hd := by
    by_cases hdc : d = c
    · subst hdc
      simp only [Mesh.setPhase, Function.update_self, Option.some.injEq] at hd
      exact hd ▸ hPhase
    · simp only [Mesh.setPhase, Function.update_of_ne hdc] at hd
      exact h.claiming d call' hd

omit [DecidableEq Node] in
/-- Only a `tryConsume` call returns from `tryConsume`. -/
theorem tryCalls_returned (c : Nat) {call : Call Node} {inner : Op} (o : Outcome)
    (hInner : inner = .tryConsume → call.op = .tryConsume) :
    tryCalls (call.returned c inner o) = if call.op = .tryConsume then [c] else [] := by
  unfold Call.returned
  by_cases hOp : call.op = inner
  · -- the method is the whole call and returns one event
    by_cases h : inner = .tryConsume <;> simp [tryCalls, hOp, h]
  · have hNot : inner ≠ .tryConsume := fun h => hOp ((hInner h).trans h.symm)
    by_cases h : call.op = .tryConsume
    · simp [tryCalls, h, hNot, Ne.symm hNot]
    · simp [tryCalls, hOp, h, hNot]

omit [DecidableEq Node] in
theorem finishCall (h : CallsOk s) {c : Nat} {call : Call Node} {inner : Op} {o : Outcome}
    (hCall : s.calls c = some call) (hInner : inner = .tryConsume → call.op = .tryConsume) :
    CallsOk (s.finishCall c call inner o) where
  numbered := by
    have hTries : tryCalls (s.finishCall c call inner o).history =
        (if call.op = .tryConsume then [c] else []) ++ tryCalls s.history := by
      rw [← tryCalls_returned c o hInner]
      simp [tryCalls]
    have hLive : ∀ d, ((s.finishCall c call inner o).calls d).isSome →
        (s.calls d).isSome ∧ d ≠ c := by
      intro d hd
      by_cases hdc : d = c
      · subst hdc
        simp [Mesh.finishCall] at hd
      · exact ⟨by simpa [Mesh.finishCall, hdc] using hd, hdc⟩
    rw [hTries]
    -- a `tryConsume` call leaves its number behind, any other call just goes
    split
    · exact h.numbered.finish (by simp [hCall]) hLive
    · exact h.numbered.mono fun d hd => (hLive d hd).1
  claiming d call' hd := by
    by_cases hdc : d = c
    · subst hdc
      simp [Mesh.finishCall] at hd
    · simp only [Mesh.finishCall, Function.update_of_ne hdc] at hd
      exact h.claiming d call' hd

theorem returnClaim (h : CallsOk s) {c : Nat} {call : Call Node} (o : Outcome)
    (hCall : s.calls c = some call) : CallsOk (s.returnClaim c call o) := by
  have hClaiming : call.op.claiming = .tryConsume → call.op = .tryConsume := by
    cases call.op <;> simp [Op.claiming]
  unfold Mesh.returnClaim
  split
  · exact (h.setLedger _ _).finishCall hCall (by simp)
  · exact h.finishCall hCall hClaiming

theorem startReserve (M : MeshConfig Node) (h : CallsOk s) (a : Node) (now : Nat) (id : String)
    {op : Op} (hOp : op ≠ .tryConsume) (validate : Validate) :
    CallsOk (s.startReserve M a now id op validate) := by
  have hCall : (⟨a, op, id, .softRound (M.peers a) []⟩ : Call Node).Claiming :=
    fun hTry => absurd hTry hOp
  unfold Mesh.startReserve
  dsimp only
  split
  · rename_i l _
    refine ((h.setLedger a l).spawn hCall).finishCall ?_ (by simp)
    simp [Mesh.spawn]
  · exact (h.setLedger a _).spawn hCall

theorem returnReserve (M : MeshConfig Node) (h : CallsOk s) {c : Nat} {call : Call Node}
    (hCall : s.calls c = some call) (hOp : call.op ≠ .tryConsume) (soft : Round) :
    CallsOk (s.returnReserve M c call soft) := by
  unfold Mesh.returnReserve
  dsimp only
  split
  · exact (h.setLedger _ _).finishCall hCall (by simp)
  · rename_i l _
    split
    · exact (h.setLedger _ _).finishCall hCall (by simp)
    · have hNext : CallsOk ((s.setLedger call.node l).setPhase c call .check) :=
        (h.setLedger call.node l).setPhase hCall fun hTry => absurd hTry hOp
      -- the event added is a reservation's
      exact ⟨by simpa [tryCalls] using hNext.numbered, hNext.claiming⟩

theorem stepCall (M : MeshConfig Node) (h : CallsOk s) {c : Nat} {call : Call Node}
    (hCall : s.calls c = some call) (act : CallAction) : CallsOk (s.stepCall M c call act) := by
  have hClaiming := h.claiming c call hCall
  -- outside its claim a call is no `tryConsume`
  have hSoft : ∀ {todo acks}, call.phase = .softRound todo acks → call.op ≠ .tryConsume := by
    intro todo acks hPhase hTry
    rcases hClaiming hTry with hNot | ⟨_, _, hNot⟩ <;> rw [hPhase] at hNot <;> cases hNot
  have hCheck : call.phase = .check → call.op ≠ .tryConsume := by
    intro hPhase hTry
    rcases hClaiming hTry with hNot | ⟨_, _, hNot⟩ <;> rw [hPhase] at hNot <;> cases hNot
  unfold Mesh.stepCall
  split
  · rename_i hPhase
    split <;> exact (h.setLedger _ _).setPhase hCall fun hTry => absurd hTry (hSoft hPhase)
  · rename_i hPhase
    exact h.setPhase hCall fun hTry => absurd hTry (hSoft hPhase)
  · rename_i hPhase
    exact h.returnReserve M hCall (hSoft hPhase) _
  · rename_i hPhase
    exact h.returnReserve M hCall (hSoft hPhase) _
  · split
    · exact h.returnClaim _ hCall
    · exact h.setPhase hCall fun _ => Or.inl rfl
  · split
    · exact (h.setLedger _ _).returnClaim _ hCall
    · exact (h.setLedger _ _).returnClaim _ hCall
    · exact (h.setLedger _ _).setPhase hCall fun _ => Or.inr ⟨_, _, rfl⟩
  · split <;> exact (h.setLedger _ _).setPhase hCall fun _ => Or.inr ⟨_, _, rfl⟩
  · exact h.setPhase hCall fun _ => Or.inr ⟨_, _, rfl⟩
  · exact h.returnClaim _ hCall
  · exact h.returnClaim _ hCall
  · exact h

theorem step (M : MeshConfig Node) (h : CallsOk s) (action : Action Node) :
    CallsOk (step M s action) := by
  cases action with
  | reserveSpend a now id kind amount validate => exact h.startReserve M a now id (by simp) validate
  | authorizeSpendAndConsume a now id kind amount validate =>
    exact h.startReserve M a now id (by simp) validate
  | commitConsume a id => exact h.spawn fun hTry => by cases hTry
  | tryConsume a id => exact h.spawn fun _ => Or.inl rfl
  | call c act =>
    unfold Mesh.step
    dsimp only
    split
    · exact h
    · rename_i call hCall
      exact h.stepCall M hCall act
  | releaseReservation a id kind amount => exact h.setLedger a _
  | prepareSoft a now id => exact h.setLedger a _
  | prepareConsume a disk id => exact h.setLedger a _
  | sweepExpired a now => exact h.setLedger a _
  | crash a =>
    refine ⟨h.numbered.mono fun c hc => ?_, fun c call hc => ?_⟩
    · obtain ⟨call, hCall⟩ := Option.isSome_iff_exists.mp hc
      simp [(Option.filter_eq_some_iff.mp hCall).1]
    · exact h.claiming c call (Option.filter_eq_some_iff.mp hc).1

end CallsOk

/-! ## The ballot behind one intent id -/

/-- The node's log has the id and the node holds it consumed: it grants no more. -/
def Taken (id : String) (s : Mesh Node) (a : Node) : Prop :=
  id ∈ (s.ledger a).inner.consumed ∧ (s.ledger a).log.Recorded id.toList

/-- Every claim of the id that returned Ok is explained by a winner at its
node; a `tryConsume` by its own call. `commits` says whether `commitConsume`
counts. -/
def Explained (commits : Prop) (id : String) (won : Node × Nat → Prop) (s : Mesh Node) : Prop :=
  ∀ e ∈ s.history, e.claimOk → e.id = id → (e.op = .commitConsume → commits) →
    ∃ c, won (e.node, c) ∧ (e.op = .tryConsume → c = e.call)

/-- The safety invariant of one id: a ballot stands behind the mesh. -/
def Safe (t : Nat) (commits : Prop) (id : String) (s : Mesh Node) : Prop :=
  CallsOk s ∧
    ∃ won, Refines t (roundsView id (Taken id s) won s.rounds) ∧ Explained commits id won s

omit [DecidableEq Node] in
theorem Grows.taken {id : String} {s s' : Mesh Node} (h : s.Grows s') (a : Node)
    (hTaken : Taken id s a) : Taken id s' a :=
  ⟨(h a).consumed hTaken.1, (h a).recorded _ hTaken.2⟩

/-- Where nothing a claim depends on changes the ballot stands still. -/
theorem Safe.of_kept {t : Nat} {commits : Prop} {id : String} {s s' : Mesh Node}
    (h : Safe t commits id s) (hCalls : CallsOk s') (hTaken : ∀ a, Taken id s a → Taken id s' a)
    (hRounds : RoundsKept s.rounds s'.rounds)
    (hHistory : ∀ e ∈ s'.history, e.claimOk → e ∈ s.history) : Safe t commits id s' := by
  obtain ⟨-, won, hRefines, hExplained⟩ := h
  exact ⟨hCalls, won, hRefines.kept hTaken hRounds,
    fun e he hOk => hExplained e (hHistory e he hOk) hOk⟩

/-- A crash costs no vote where the id survives the log. -/
theorem taken_of_crash {M : MeshConfig Node} {id : String} {s s' : Mesh Node} {a : Node}
    (hLedger : s'.ledger = Function.update s.ledger a
      (openLedger (s.ledger a).log M.maxTx M.maxDay))
    (hId : SurvivesLog id) (b : Node) (hTaken : Taken id s b) : Taken id s' b := by
  obtain ⟨hConsumed, hRecorded⟩ := hTaken
  unfold Taken
  rw [hLedger]
  by_cases hb : b = a
  · subst hb
    rw [Function.update_self]
    exact ⟨mem_openLedger_consumed hId hRecorded .., hRecorded⟩
  · rw [Function.update_of_ne hb]
    exact ⟨hConsumed, hRecorded⟩

/-! ## Every action is a move of the ballot -/

/-- The retry branch of a commit of `id` is taken only at a node where a
`commitConsume` or `tryConsume` of `id` has returned Ok. -/
def RetryOwn (id : String) (s : Mesh Node) : Action Node → Prop
  | .call c .check =>
    ∀ call ∈ s.calls c, call.phase = .check → call.id = id →
      id ∈ (s.ledger call.node).inner.consumed →
      ∃ e ∈ s.history, e.claimOk ∧ e.node = call.node ∧ e.id = id
  | _ => True

instance (id : String) (s : Mesh Node) : (action : Action Node) → Decidable (RetryOwn id s action)
  | .call c .check => inferInstanceAs (Decidable (∀ call ∈ s.calls c, call.phase = .check →
      call.id = id → id ∈ (s.ledger call.node).inner.consumed →
      ∃ e ∈ s.history, e.claimOk ∧ e.node = call.node ∧ e.id = id))
  | .call _ (.burn _) | .call _ (.deliver _) | .call _ .finish | .reserveSpend ..
  | .commitConsume .. | .tryConsume .. | .authorizeSpendAndConsume .. | .releaseReservation ..
  | .prepareSoft .. | .prepareConsume .. | .sweepExpired .. | .crash .. => isTrue trivial

/-- A crash is harmless to an id that survives the log. -/
def CrashKeeps (id : String) : Action Node → Prop
  | .crash _ => SurvivesLog id
  | _ => True

instance (id : String) : (action : Action Node) → Decidable (CrashKeeps id action)
  | .crash _ => inferInstanceAs (Decidable (SurvivesLog id))
  | .call .. | .reserveSpend .. | .commitConsume .. | .tryConsume ..
  | .authorizeSpendAndConsume .. | .releaseReservation .. | .prepareSoft .. | .prepareConsume ..
  | .sweepExpired .. => isTrue trivial

theorem safe_step {M : MeshConfig Node} {t : Nat} (hT : ∀ a, M.quorum a = t)
    {commits : Prop} {id : String} {s : Mesh Node} {action : Action Node}
    (h : Safe t commits id s) (hCrash : CrashKeeps id action)
    (hRetry : commits → RetryOwn id s action) : Safe t commits id (step M s action) := by
  have hCalls := h.1.step M action
  cases step_effect M s action with
  | quiet hGrows hRounds hHistory => exact h.of_kept hCalls hGrows.taken hRounds hHistory
  | crashed a hAction hLedger hRounds hHistory =>
    subst hAction
    exact h.of_kept hCalls (taken_of_crash hLedger hCrash) hRounds fun e he _ => hHistory ▸ he
  | opened c a id' hGrows hFree hBurned hSelf hOther hHistory =>
    obtain ⟨-, won, hRefines, hExplained⟩ := h
    refine ⟨hCalls, won, hRefines.opened hGrows.taken ?_ hSelf hOther,
      fun e he => hExplained e (hHistory ▸ he)⟩
    -- the local burn is the owner's vote for its own claim
    rintro rfl
    exact ⟨fun hTaken => hFree hTaken.1, hBurned⟩
  | acked c p r todo seen hGrows hRound hTodo hSeen hSelf hOther hHistory =>
    obtain ⟨-, won, hRefines, hExplained⟩ := h
    refine ⟨hCalls, won, hRefines.acked (p := p) hGrows.taken hRound ?_ hSelf hOther,
      fun e he => hExplained e (hHistory ▸ he)⟩
    -- a peer that answers "not seen" has just burned the id: its vote
    rintro rfl hGrant
    obtain ⟨hFree, hBurned⟩ := hSeen hGrant
    exact ⟨fun hTaken => hFree hTaken.1, hBurned⟩
  | won c r hGrows hRounds hRound hClean hQuorum hHistory =>
    obtain ⟨-, won, hRefines, hExplained⟩ := h
    rw [hT] at hQuorum
    by_cases hId : r.id = id
    · -- the claim of this id wins its ballot and explains the new event
      refine ⟨hCalls, _, hRefines.reached hGrows.taken hRounds hRound hId hClean hQuorum, ?_⟩
      intro e he hOk heId hCounts
      rcases hHistory e he hOk with hOld | ⟨hCall, hNode, -⟩
      · obtain ⟨d, hd, hTry⟩ := hExplained e hOld hOk heId hCounts
        exact ⟨d, Or.inl hd, hTry⟩
      · exact ⟨c, Or.inr (by rw [hNode]), fun _ => hCall.symm⟩
    · -- a win for another id leaves this ballot alone
      refine ⟨hCalls, won, hRefines.kept hGrows.taken hRounds, ?_⟩
      intro e he hOk heId hCounts
      rcases hHistory e he hOk with hOld | ⟨-, -, heId'⟩
      · exact hExplained e hOld hOk heId hCounts
      · exact absurd (heId'.symm.trans heId) hId
  | retried c call hAction hGrows hRounds hCall hPhase hConsumed hHistory =>
    obtain ⟨hCallsOk, won, hRefines, hExplained⟩ := h
    refine ⟨hCalls, won, hRefines.kept hGrows.taken hRounds, ?_⟩
    intro e he hOk heId hCounts
    rcases hHistory e he hOk with hOld | ⟨hOp, hNode, hId⟩
    · exact hExplained e hOld hOk heId hCounts
    · -- the call at its check is no `tryConsume`, so commits count
      have hNoTry : call.op ≠ .tryConsume := by
        intro hTry
        rcases hCallsOk.claiming c call hCall hTry with hNot | ⟨_, _, hNot⟩ <;>
          rw [hPhase] at hNot <;> cases hNot
      have hCommit : e.op = .commitConsume := by
        rw [hOp]
        cases hCallOp : call.op <;> simp_all [Op.claiming]
      have hCallId : call.id = id := hId.symm.trans heId
      -- the winner behind the node's own earlier claim explains the retry too
      subst hAction
      obtain ⟨f, hf, hfOk, hfNode, hfId⟩ :=
        hRetry (hCounts hCommit) call hCall hPhase hCallId (hCallId ▸ hConsumed)
      obtain ⟨d, hd, -⟩ := hExplained f hf hfOk hfId fun _ => hCounts hCommit
      refine ⟨d, ?_, fun hTry => ?_⟩
      · rw [hNode, ← hfNode]
        exact hd
      · rw [hCommit] at hTry
        cases hTry

/-! ## Runs -/

omit [DecidableEq Node] in
theorem callsOk_init (ledger : Node → PersistedBucketLedger) : CallsOk (init ledger) where
  numbered := Numbered.init (by simp [init])
  claiming c call hc := by simp [init] at hc

theorem safe_init (t : Nat) (commits : Prop) (id : String)
    (ledger : Node → PersistedBucketLedger) : Safe t commits id (init ledger) := by
  refine ⟨callsOk_init ledger, fun _ => False,
    Refines.of_init (fun c => ?_) fun _ => not_false, fun e he => ?_⟩
  · simp [roundsView, gatheredBy, rounds, init]
  · simp [init] at he

/-- What a run must keep to for the commits of `id` to count as claims. -/
def CommitsOwn (id : String) (s : Mesh Node) (action : Action Node) : Prop :=
  CrashKeeps id action ∧ RetryOwn id s action

instance (id : String) (s : Mesh Node) (action : Action Node) :
    Decidable (CommitsOwn id s action) :=
  inferInstanceAs (Decidable (_ ∧ _))

variable [Fintype Node]

/-- Two claims of an id that returned Ok and count are the claims of one node,
two `tryConsume` of them one call. -/
theorem Safe.claims_agree {M : MeshConfig Node} {commits : Prop} {id : String} {s : Mesh Node}
    {a : Node} (h : Safe (M.quorum a) commits id s) {e f : Event Node} (he : e ∈ s.history)
    (hf : f ∈ s.history) (heOk : e.claimOk) (hfOk : f.claimOk) (heId : e.id = id)
    (hfId : f.id = id) (heCounts : e.op = .commitConsume → commits)
    (hfCounts : f.op = .commitConsume → commits) :
    e.node = f.node ∧ (e.op = .tryConsume → f.op = .tryConsume → e.call = f.call) := by
  obtain ⟨-, won, hRefines, hExplained⟩ := h
  obtain ⟨c, hc, hcTry⟩ := hExplained e he heOk heId heCounts
  obtain ⟨d, hd, hdTry⟩ := hExplained f hf hfOk hfId hfCounts
  have hEq := hRefines.winner_unique (M.card_lt_two_mul_quorum a) hc hd
  rw [Prod.mk.injEq] at hEq
  exact ⟨hEq.1, fun heTry hfTry => by rw [← hcTry heTry, ← hdTry hfTry, hEq.2]⟩

/-- Did this event report a successful `tryConsume` of the id? -/
def Event.consumedOk (id : String) (e : Event Node) : Bool :=
  e.op = .tryConsume ∧ e.id = id ∧ e.outcome = .ok ()

/--
**One-shot consume is mutually exclusive.** Of all `tryConsume` calls of an id
in the mesh at most one returns Ok, whatever else runs, whichever peers are
reached and wherever nodes crash, if the id survives the log.
-/
theorem tryConsume_once (M : MeshConfig Node) (ledger : Node → PersistedBucketLedger)
    {id : String} (hId : SurvivesLog id) (actions : List (Action Node)) :
    ((Runs.run (step M) (init ledger) actions).history.filter
      (Event.consumedOk id)).length ≤ 1 := by
  -- commits do not count here: the retry branch may answer Ok anywhere
  have hSafe : ∀ a, Safe (M.quorum a) False id (Runs.run (step M) (init ledger) actions) := by
    intro a
    refine Runs.run_preserves (fun s action h => ?_) (safe_init _ _ _ ledger) actions
    refine safe_step (fun b => M.quorum_eq b a) h ?_ False.elim
    cases action <;> first | exact hId | trivial
  generalize Runs.run (step M) (init ledger) actions = s at hSafe
  have hOk : ∀ e ∈ s.history.filter (Event.consumedOk id), e ∈ s.history ∧
      e.op = .tryConsume ∧ e.id = id ∧ e.outcome = .ok () := by
    intro e he
    simpa [Event.consumedOk] using he
  refine length_le_one_of_agree (f := Event.call) ?_ ?_
  · -- no call returns twice
    cases hHistory : s.history with
    | nil => simp
    | cons e _ =>
      refine List.Nodup.sublist (List.Sublist.map _ ?_) (hSafe e.node).1.numbered.once
      rw [hHistory]
      refine List.monotone_filter_right _ fun f hf => ?_
      simp only [Event.consumedOk, decide_eq_true_eq] at hf ⊢
      exact hf.1
  · -- two that return Ok are one winner
    intro e he f hf
    obtain ⟨he, heOp, heId, heOk⟩ := hOk e he
    obtain ⟨hf, hfOp, hfId, hfOk⟩ := hOk f hf
    exact ((hSafe e.node).claims_agree he hf ⟨Or.inr heOp, heOk⟩ ⟨Or.inr hfOp, hfOk⟩ heId
      hfId (by simp [heOp]) (by simp [hfOp])).2 heOp hfOp

/-- Three nodes race for one id, one of them crashes: one claim goes through. -/
def racingConsumes : List (Action Trio) :=
  [.tryConsume .alpha "intent-1", .tryConsume .beta "intent-1", .call 0 (.burn .ok),
    .call 0 (.deliver .noAck), .call 0 (.deliver (.answered 0 .ok)), .crash .gamma,
    .call 1 (.burn .ok), .call 1 (.deliver (.answered 0 .ok)), .call 0 .finish,
    .call 1 (.deliver (.answered 0 .ok)), .call 1 .finish]

/-- In the race of three the claim that returns Ok is the only one. -/
theorem tryConsume_once_racing :
    SurvivesLog "intent-1" ∧
      ((Runs.run (step trioConfig) trioStart racingConsumes).history.filter
        (Event.consumedOk "intent-1")).length ≤ 1 :=
  ⟨by decide, tryConsume_once trioConfig _ (by decide) racingConsumes⟩

/-! ## Two-phase spends -/

/-- Node `a` had `reserveSpend` of the id return Ok and, afterwards,
`commitConsume`. (The history lists the latest return first.) -/
def SpentBy (id : String) (s : Mesh Node) (a : Node) : Prop :=
  ∃ e f, List.Sublist [e, f] s.history ∧
    e.node = a ∧ e.id = id ∧ e.op = .commitConsume ∧ e.outcome = .ok () ∧
    f.node = a ∧ f.id = id ∧ (∃ kind amount, f.op = .reserveSpend kind amount) ∧
    f.outcome = .ok ()

/-- At most one node reserved and then committed the id. -/
def SpentOnce (id : String) (s : Mesh Node) : Prop :=
  ∀ a b, SpentBy id s a → SpentBy id s b → a = b

/--
**No two-phase double spend** in a run whose commits take the retry branch
only at a node whose own claim of the id returned Ok.
-/
theorem spentOnce_of_commitsOwn (M : MeshConfig Node) (ledger : Node → PersistedBucketLedger)
    {id : String} {actions : List (Action Node)}
    (hSteps : Runs.EveryStep (step M) (CommitsOwn id) (init ledger) actions) :
    Runs.EveryState (step M) (SpentOnce id) (init ledger) actions := by
  intro n a b ha hb
  -- every node asks the same quorum, so one ballot explains both commits
  have hSafe : Runs.EveryState (step M) (Safe (M.quorum a) True id) (init ledger) actions := by
    refine Runs.EveryState.of_everyStep (fun s action h hOwn => ?_) (safe_init _ _ _ ledger) hSteps
    exact safe_step (fun c => M.quorum_eq c a) h hOwn.1 fun _ => hOwn.2
  obtain ⟨e, f, heMem, heNode, heId, heOp, heOk, -⟩ := ha
  obtain ⟨e', f', heMem', heNode', heId', heOp', heOk', -⟩ := hb
  have hAgree := ((hSafe n).claims_agree (heMem.subset (by simp)) (heMem'.subset (by simp))
    ⟨Or.inl heOp, heOk⟩ ⟨Or.inl heOp', heOk'⟩ heId heId' (fun _ => trivial) fun _ => trivial).1
  rw [← heNode, ← heNode', hAgree]

/-- A reservation, its commit and the commit's retry at one node. -/
def retriedOwnCommit : List (Action Trio) :=
  [.reserveSpend .alpha 0 "intent-1" .users 5 (fun _ _ => .ok ()),
    .call 0 (.deliver (.answered 0 .ok)), .call 0 (.deliver (.answered 0 .ok)), .call 0 .finish,
    .commitConsume .alpha "intent-1", .call 1 .check, .call 1 (.burn .ok),
    .call 1 (.deliver (.answered 1 .ok)), .call 1 (.deliver (.answered 1 .ok)), .call 1 .finish,
    .commitConsume .alpha "intent-1", .call 2 .check]

/-- A node that retries its own commit keeps the id spent once. -/
theorem spentOnce_retriedOwnCommit :
    Runs.EveryStep (step trioConfig) (CommitsOwn "intent-1") trioStart retriedOwnCommit ∧
      Runs.EveryState (step trioConfig) (SpentOnce "intent-1") trioStart retriedOwnCommit :=
  ⟨by decide, spentOnce_of_commitsOwn trioConfig _ (by decide)⟩

/-- A reservation at alpha expires everywhere, beta reserves the id anew, then
both commit. -/
def commitsAfterExpiry : List (Action Trio) :=
  [.reserveSpend .alpha 0 "intent-1" .users 5 (fun _ _ => .ok ()),
    .call 0 (.deliver (.answered 0 .ok)), .call 0 (.deliver (.answered 0 .ok)), .call 0 .finish,
    .reserveSpend .beta 300 "intent-1" .users 5 (fun _ _ => .ok ()),
    .call 1 (.deliver (.answered 300 .ok)), .call 1 (.deliver (.answered 300 .ok)),
    .call 1 .finish,
    .commitConsume .alpha "intent-1", .call 2 .check, .call 2 (.burn .ok),
    .call 2 (.deliver (.answered 301 .ok)), .call 2 (.deliver (.answered 301 .ok)),
    .call 2 .finish,
    .commitConsume .beta "intent-1", .call 3 .check]

/-- Both nodes are told that their reserved intent is committed. -/
theorem commitsAfterExpiry_not_spentOnce :
    ¬ Runs.EveryState (step trioConfig) (SpentOnce "intent-1") trioStart commitsAfterExpiry := by
  intro h
  have hHistory : (Runs.run (step trioConfig) trioStart commitsAfterExpiry).history =
      [⟨3, .beta, .commitConsume, "intent-1", .ok ()⟩,
        ⟨2, .alpha, .commitConsume, "intent-1", .ok ()⟩,
        ⟨1, .beta, .reserveSpend .users 5, "intent-1", .ok ()⟩,
        ⟨0, .alpha, .reserveSpend .users 5, "intent-1", .ok ()⟩] := by
    decide
  have hEq := h.last .alpha .beta
    ⟨⟨2, .alpha, .commitConsume, "intent-1", .ok ()⟩,
      ⟨0, .alpha, .reserveSpend .users 5, "intent-1", .ok ()⟩,
      by rw [hHistory]; decide, rfl, rfl, rfl, rfl, rfl, rfl, ⟨_, _, rfl⟩, rfl⟩
    ⟨⟨3, .beta, .commitConsume, "intent-1", .ok ()⟩,
      ⟨1, .beta, .reserveSpend .users 5, "intent-1", .ok ()⟩,
      by rw [hHistory]; decide, rfl, rfl, rfl, rfl, rfl, rfl, ⟨_, _, rfl⟩, rfl⟩
  exact absurd hEq (by decide)

end KeroseneVault.Mesh
