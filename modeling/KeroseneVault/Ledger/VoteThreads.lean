import KeroseneVault.Ledger.Appending
import KeroseneVault.Ledger.Integrity
import KeroseneVault.Lib.Threads

/-!
# Interleaved votes

`VoteEpochAdvance` reads the proposal, adds its vote to the copy and saves it
whole, each in a port call of its own; the vote that reaches the threshold then
saves the copy as closed, sets the epoch and appends the entry of it. Between any
of these another execution can do the same.

A turn is one port call. The constitution is not written, so that reading it is
part of the turn that uses it.

* `VoteThread`, `VoteThread.turn` — the executions;
* `VotesKept` — what the claims of the executions come to;
* `NeverReopens` — a closed proposal stays closed;
* `Undisturbed` — what an execution saves over is what it read, the epoch it
  advances is that of its proposal, and its entries are not refused.

Main results:

* `alone_vote`, `uninterrupted` — without others, an execution is that of the use case;
* `votesKept_of_undisturbed` — undisturbed executions lose no vote, and advance the
  epoch once for each proposal that reached the threshold.
-/

namespace KeroseneVault

/-! ## Executions -/

/-- Where an execution stands. The proposals are its own copies. -/
inductive VoteThread where
  | idle
  | called (localNode : NodeId) (id : String)
  | entitled (localNode : NodeId) (id : String) (number : Nat)
  | holding (localNode : NodeId) (id : String) (number : Nat) (p : EpochAdvanceProposal)
  | recording (localNode : NodeId) (id : String) (number : Nat) (p : EpochAdvanceProposal)
      (a : Appending)
  | closing (localNode : NodeId) (id : String) (p : EpochAdvanceProposal)
  | closed (localNode : NodeId) (id : String) (p : EpochAdvanceProposal)
  | advancing (localNode : NodeId) (id : String) (p : EpochAdvanceProposal) (epoch : Epoch)
  | entering (localNode : NodeId) (id : String) (p : EpochAdvanceProposal) (a : Appending)
  | returned (localNode : NodeId) (id : String) (saved : Option EpochAdvanceProposal)
      (answer : Outcome)

inductive VoteTurn where
  | start (localNode : NodeId) (id : String)
  | next

namespace VoteThread

/-- The vote event of an execution. -/
def voteEvent (measure : String → String) (localNode : NodeId) (number : Nat)
    (p : EpochAdvanceProposal) (index : Nat) (prevHash : String) : LedgerEntry :=
  .chain measure index number .voteRecorded p.toJson localNode prevHash

/-- The entry of an advance. -/
def advanceEvent (measure : String → String) (localNode : NodeId) (p : EpochAdvanceProposal)
    (index : Nat) (prevHash : String) : LedgerEntry :=
  .chain measure index p.toEpoch .epochAdvanced (VoteEpochAdvance.advancePayload p) localNode
    prevHash

/-- One port call. -/
def turn (measure : String → String) : VoteTurn → VoteThread → InMemoryLedger →
    VoteThread × InMemoryLedger
  | .start localNode id, .idle, l => (.called localNode id, l)
  | .start .., thread, l => (thread, l)
  | .next, .idle, l => (.idle, l)
  | .next, .called localNode id, l =>
    if l.chain.epoch.activeSet.contains localNode then
      (.entitled localNode id l.chain.epoch.number, l)
    else (.returned localNode id none (.error (.unauthorizedWriter localNode.text)), l)
  | .next, .entitled localNode id number, l =>
    match l.getProposal id with
    | .error e => (.returned localNode id none (.error e), l)
    | .ok p => (.holding localNode id number p, l)
  | .next, .holding localNode id number p, l =>
    match VoteEpochAdvance.cast number l.chain.constitution localNode p with
    | .error e => (.returned localNode id none (.error e), l)
    | .ok p => (.recording localNode id number p .begun, l.saveProposal p)
  | .next, .recording localNode id number p a, l =>
    match a.turn (voteEvent measure localNode number p) l with
    | (.inl a, l) => (.recording localNode id number p a, l)
    | (.inr (.error e), l) => (.returned localNode id (some p) (.error e), l)
    | (.inr (.ok ()), l) =>
      if l.governanceT ≤ p.votes.length then (.closing localNode id p, l)
      else (.returned localNode id (some p) (.ok ()), l)
  | .next, .closing localNode id p, l => (.closed localNode id p.close, l.saveProposal p.close)
  | .next, .closed localNode id p, l => (.advancing localNode id p l.chain.epoch, l)
  | .next, .advancing localNode id p epoch, l =>
    (.entering localNode id p .begun, l.setEpoch { epoch with number := p.toEpoch })
  | .next, .entering localNode id p a, l =>
    match a.turn (advanceEvent measure localNode p) l with
    | (.inl a, l) => (.entering localNode id p a, l)
    | (.inr answer, l) => (.returned localNode id (some p) answer, l)
  | .next, .returned localNode id saved answer, l => (.returned localNode id saved answer, l)

/-! ### An execution without others -/

section Alone

variable (measure : String → String)

/-- The vote event, and what follows from it. -/
theorem alone_recording (localNode : NodeId) (id : String) (number : Nat)
    (p : EpochAdvanceProposal) (l : InMemoryLedger) :
    Threads.alone (turn measure) (.recording localNode id number p .begun, l)
      (List.replicate 3 .next) =
      match appendVoteEvent measure number localNode p l with
      | (.error e, l) => (.returned localNode id (some p) (.error e), l)
      | (.ok (), l) =>
        if l.governanceT ≤ p.votes.length then (.closing localNode id p, l)
        else (.returned localNode id (some p) (.ok ()), l) := by
  show turn measure .next (.recording localNode id number p
    (.made (voteEntry measure number localNode p l))) l = _
  unfold appendVoteEvent
  simp only [turn, Appending.turn]
  rcases l.append (voteEntry measure number localNode p l) with ⟨_ | _, l'⟩ <;> rfl

/-- The advance of a closed proposal. -/
theorem alone_closing (localNode : NodeId) (id : String) (p : EpochAdvanceProposal)
    (l : InMemoryLedger) :
    Threads.alone (turn measure) (.closing localNode id p, l) (List.replicate 6 .next) =
      (.returned localNode id (some p.close)
        (VoteEpochAdvance.advanceEpoch measure localNode p.close (l.saveProposal p.close)).1,
        (VoteEpochAdvance.advanceEpoch measure localNode p.close (l.saveProposal p.close)).2) :=
  rfl

/-- Without others a vote is the use case. -/
theorem alone_vote (localNode : NodeId) (id : String) (l : InMemoryLedger) :
    ∃ saved, Threads.alone (turn measure) (.called localNode id, l) (List.replicate 12 .next) =
      (.returned localNode id saved
        ((VoteEpochAdvance.execute measure localNode id l).1.map fun _ => ()),
        (VoteEpochAdvance.execute measure localNode id l).2) ∧
      ∀ p, (VoteEpochAdvance.execute measure localNode id l).1 = .ok p → saved = some p := by
  -- three turns up to the save of the vote, three for its event, six for the closing
  have hTurns : List.replicate 12 VoteTurn.next =
      List.replicate 3 .next ++ (List.replicate 3 .next ++ List.replicate 6 .next) := rfl
  have hBegin : Threads.alone (turn measure) (.called localNode id, l) (List.replicate 3 .next) =
      if l.chain.epoch.activeSet.contains localNode then
        match l.getProposal id with
        | .error e => (.returned localNode id none (.error e), l)
        | .ok p =>
          match VoteEpochAdvance.cast l.chain.epoch.number l.chain.constitution localNode p with
          | .error e => (.returned localNode id none (.error e), l)
          | .ok q => (.recording localNode id l.chain.epoch.number q .begun, l.saveProposal q)
      else (.returned localNode id none (.error (.unauthorizedWriter localNode.text)), l) := by
    simp only [List.replicate, Threads.alone, turn]
    cases l.chain.epoch.activeSet.contains localNode with
    | false => rfl
    | true =>
      simp only [if_true]
      cases l.getProposal id with
      | error e => rfl
      | ok p => rfl
  rw [hTurns, Threads.alone_append, Threads.alone_append, hBegin]
  unfold VoteEpochAdvance.execute
  split
  · cases l.getProposal id with
    | error e => exact ⟨none, rfl, nofun⟩
    | ok p =>
      dsimp only
      cases VoteEpochAdvance.cast l.chain.epoch.number l.chain.constitution localNode p with
      | error e => exact ⟨none, rfl, nofun⟩
      | ok q =>
        dsimp only
        rw [alone_recording]
        -- the vote is saved also where its event is refused
        rcases appendVoteEvent measure l.chain.epoch.number localNode q (l.saveProposal q) with
          ⟨e | u, l'⟩
        · exact ⟨some q, rfl, nofun⟩
        · dsimp only
          split
          · rw [alone_closing]
            rcases VoteEpochAdvance.advanceEpoch measure localNode q.close
              (l'.saveProposal q.close) with ⟨e | u, l''⟩
            · exact ⟨some q.close, rfl, nofun⟩
            · exact ⟨some q.close, rfl, fun p hp => congrArg some (Except.ok.inj hp)⟩
          · exact ⟨some q, rfl, fun p hp => congrArg some (Except.ok.inj hp)⟩
  · exact ⟨none, rfl, nofun⟩

end Alone

end VoteThread

/-! ## What an interleaving keeps -/

/-- Executions on a ledger. -/
abbrev SharedLedger := Threads.State InMemoryLedger VoteThread

namespace SharedLedger

variable (measure : String → String)

def step : SharedLedger → Nat × VoteTurn → SharedLedger := Threads.step (VoteThread.turn measure)

/-- No execution has begun. -/
def start (l : InMemoryLedger) : SharedLedger := { store := l, threads := fun _ => .idle }

/-- An execution that is not interrupted leaves the ledger as the use case does. -/
theorem uninterrupted (s : SharedLedger) (n : Nat) {localNode : NodeId} {id : String}
    (h : s.threads n = .called localNode id) :
    (Runs.run (step measure) s (List.replicate 12 (n, .next))).store =
      (VoteEpochAdvance.execute measure localNode id s.store).2 := by
  have hRun := Threads.run_alone (VoteThread.turn measure) s n (List.replicate 12 .next)
  obtain ⟨saved, hAlone, -⟩ := VoteThread.alone_vote measure localNode id s.store
  rw [h, hAlone] at hRun
  exact congrArg Prod.snd hRun

/-- No execution is under way. -/
def Quiet (s : SharedLedger) : Prop :=
  ∀ n, s.threads n = .idle ∨
    ∃ localNode id saved answer, s.threads n = .returned localNode id saved answer

/-- What the executions have come to. -/
structure Consistent (s : SharedLedger) : Prop where
  /-- A vote that answered Ok is in the proposal. -/
  kept : ∀ n localNode id saved, s.threads n = .returned localNode id saved (.ok ()) →
    ∃ p, s.store.proposals.lookup id = some p ∧ localNode ∈ p.votes
  /-- The epoch has advanced once for each entry of it. -/
  inStep : Quiet s → s.store.chain.epoch.number = s.store.chain.advances.length
  /-- A proposal that an execution brought to the threshold has its entry, once. -/
  once : ∀ n localNode id p answer, s.threads n = .returned localNode id (some p) answer →
    s.store.governanceT ≤ p.votes.length → s.store.chain.advances.count p.toEpoch = 1

/-- A closed proposal stays closed. -/
def NeverReopens (s : SharedLedger) (a : Nat × VoteTurn) : Prop :=
  ∀ id p, s.store.proposals.lookup id = some p → p.closed = true →
    ∃ q, (s.step measure a).store.proposals.lookup id = some q ∧ q.closed = true

/-- Over a run of turns. -/
def VotesKept (l : InMemoryLedger) (turns : List (Nat × VoteTurn)) : Prop :=
  Runs.EveryState (step measure) Consistent (start l) turns ∧
    Runs.EveryStep (step measure) (NeverReopens measure) (start l) turns

/-- Where the turn saves a proposal, the stored one is what the execution read or
saved before; where it sets the epoch, that is still the proposal's; and neither the
vote that reaches the threshold nor the advance is refused. -/
def Current (l : InMemoryLedger) : VoteTurn → VoteThread → Prop
  | .next, .holding localNode id number p =>
    (VoteEpochAdvance.cast number l.chain.constitution localNode p).toOption.isSome = true →
      l.proposals.lookup id = some p
  | .next, .recording _ _ _ p a => l.governanceT ≤ p.votes.length → ¬ a.Refused l
  | .next, .closing _ id p => l.proposals.lookup id = some p
  | .next, .advancing _ _ p _ => l.chain.epoch.number = p.fromEpoch
  | .next, .entering _ _ _ a => ¬ a.Refused l
  | _, _ => True

instance decidableCurrent (l : InMemoryLedger) : ∀ t thread, Decidable (Current l t thread)
  | .next, .holding localNode id number p => inferInstanceAs (Decidable
      ((VoteEpochAdvance.cast number l.chain.constitution localNode p).toOption.isSome = true →
        l.proposals.lookup id = some p))
  | .next, .recording _ _ _ p a =>
    inferInstanceAs (Decidable (l.governanceT ≤ p.votes.length → ¬ a.Refused l))
  | .next, .closing _ id p => inferInstanceAs (Decidable (l.proposals.lookup id = some p))
  | .next, .advancing _ _ p _ => inferInstanceAs (Decidable (l.chain.epoch.number = p.fromEpoch))
  | .next, .entering _ _ _ a => inferInstanceAs (Decidable (¬ a.Refused l))
  | .next, .idle => isTrue trivial
  | .next, .called .. => isTrue trivial
  | .next, .entitled .. => isTrue trivial
  | .next, .closed .. => isTrue trivial
  | .next, .returned .. => isTrue trivial
  | .start .., _ => isTrue trivial

def Undisturbed (s : SharedLedger) (a : Nat × VoteTurn) : Prop :=
  Current s.store a.2 (s.threads a.1)

instance decidableUndisturbed (s : SharedLedger) (a : Nat × VoteTurn) :
    Decidable (s.Undisturbed a) :=
  inferInstanceAs (Decidable (Current ..))

/-! ### One turn -/

/-- Votes and closings stay, and so do the advances. -/
structure Later (l l' : InMemoryLedger) : Prop where
  proposals : ∀ id p, l.proposals.lookup id = some p → ∃ q, l'.proposals.lookup id = some q ∧
    (∀ v ∈ p.votes, v ∈ q.votes) ∧ (p.closed = true → q.closed = true)
  advances : ∀ k ∈ l.chain.advances, k ∈ l'.chain.advances
  governanceT : l'.governanceT = l.governanceT

/-- Proposals stand under their own ids. -/
def Keyed (l : InMemoryLedger) : Prop :=
  ∀ id p, l.proposals.lookup id = some p → p.id = id ∧ p.toEpoch = p.fromEpoch + 1

/-- The copy of an execution that has saved its vote. -/
structure Saved (l : InMemoryLedger) (localNode : NodeId) (id : String)
    (p : EpochAdvanceProposal) : Prop where
  id_eq : p.id = id
  toEpoch : p.toEpoch = p.fromEpoch + 1
  own : localNode ∈ p.votes
  stored : ∃ q, l.proposals.lookup id = some q ∧ localNode ∈ q.votes

/-- What the copies of an execution are, and what is in the ledger once it returned. -/
def Stands (l : InMemoryLedger) : VoteThread → Prop
  | .holding _ id _ p => p.id = id ∧ p.toEpoch = p.fromEpoch + 1
  | .recording localNode id number p a =>
    Saved l localNode id p ∧ a.MadeBy (VoteThread.voteEvent measure localNode number p)
  | .closing localNode id p => Saved l localNode id p
  | .closed localNode id p => Saved l localNode id p
  | .advancing localNode id p _ => Saved l localNode id p
  | .entering localNode id p a =>
    Saved l localNode id p ∧ a.MadeBy (VoteThread.advanceEvent measure localNode p)
  | .returned localNode id saved answer =>
    (answer = .ok () → ∃ p, l.proposals.lookup id = some p ∧ localNode ∈ p.votes) ∧
      ∀ p, saved = some p → l.governanceT ≤ p.votes.length → p.toEpoch ∈ l.chain.advances
  | _ => True

/-- The epoch that is set and not entered yet. -/
def pending : VoteThread → Option Nat
  | .entering _ _ p _ => some p.toEpoch
  | _ => none

/-- What a turn does to the epoch and to the entries of it. -/
inductive Effect (l : InMemoryLedger) (thread : VoteThread) (l' : InMemoryLedger)
    (thread' : VoteThread) : Prop
  | still (hNumber : l'.chain.epoch.number = l.chain.epoch.number)
      (hAdvances : l'.chain.advances = l.chain.advances) (hPending : pending thread' = pending thread)
  | set (hNumber : l'.chain.epoch.number = l.chain.epoch.number + 1)
      (hAdvances : l'.chain.advances = l.chain.advances) (hBefore : pending thread = none)
      (hAfter : pending thread' = some (l.chain.epoch.number + 1))
  | entered (k : Nat) (hNumber : l'.chain.epoch.number = l.chain.epoch.number)
      (hAdvances : l'.chain.advances = l.chain.advances ++ [k]) (hBefore : pending thread = some k)
      (hAfter : pending thread' = none)

variable {measure} {l l' : InMemoryLedger} {localNode : NodeId} {id : String}
  {p q : EpochAdvanceProposal}

theorem Later.refl (l : InMemoryLedger) : Later l l :=
  ⟨fun _ p h => ⟨p, h, fun _ hv => hv, fun hp => hp⟩, fun _ hk => hk, rfl⟩

/-- A proposal is saved over one that it continues. -/
theorem Later.save (hLookup : l.proposals.lookup id = some p) (hId : q.id = id)
    (hVotes : ∀ v ∈ p.votes, v ∈ q.votes) (hClosed : p.closed = true → q.closed = true) :
    Later l (l.saveProposal q) := by
  refine ⟨fun j r hr => ?_, fun _ hk => hk, rfl⟩
  rw [InMemoryLedger.lookup_saveProposal, hId]
  by_cases hj : j = id
  · subst hj
    obtain rfl := Option.some.inj (hLookup.symm.trans hr)
    exact ⟨q, if_pos rfl, hVotes, hClosed⟩
  · exact ⟨r, (if_neg hj).trans hr, fun _ hv => hv, fun h => h⟩

theorem Keyed.save (h : Keyed l) (hTo : q.toEpoch = q.fromEpoch + 1) :
    Keyed (l.saveProposal q) := by
  intro j r hr
  rw [InMemoryLedger.lookup_saveProposal] at hr
  split at hr
  · rename_i hj
    obtain rfl := Option.some.inj hr
    exact ⟨hj.symm, hTo⟩
  · exact h j r hr

theorem Saved.later (h : Saved l localNode id p) (hLater : Later l l') :
    Saved l' localNode id p := by
  obtain ⟨q, hLookup, hVote⟩ := h.stored
  obtain ⟨r, hr, hVotes, -⟩ := hLater.proposals id q hLookup
  exact ⟨h.id_eq, h.toEpoch, h.own, r, hr, hVotes localNode hVote⟩

theorem stands_of_later {thread : VoteThread} (hLater : Later l l')
    (h : Stands measure l thread) : Stands measure l' thread := by
  match thread with
  | .idle => trivial
  | .called .. => trivial
  | .entitled .. => trivial
  | .holding .. => exact h
  | .recording .. => exact ⟨h.1.later hLater, h.2⟩
  | .closing .. => exact Saved.later h hLater
  | .closed .. => exact Saved.later h hLater
  | .advancing .. => exact Saved.later h hLater
  | .entering .. => exact ⟨h.1.later hLater, h.2⟩
  | .returned localNode id saved answer =>
    refine ⟨fun hOk => ?_, fun p hSaved hNeed => ?_⟩
    · obtain ⟨p, hLookup, hVote⟩ := h.1 hOk
      obtain ⟨q, hq, hVotes, -⟩ := hLater.proposals id p hLookup
      exact ⟨q, hq, hVotes localNode hVote⟩
    · rw [hLater.governanceT] at hNeed
      exact hLater.advances _ (h.2 p hSaved hNeed)

/-- An entry leaves the proposals, and the advances that are there. -/
theorem Later.extend {entry : LedgerEntry}
    (h : ∀ k ∈ l.chain.advances, k ∈ (l.extend entry).chain.advances) : Later l (l.extend entry) :=
  ⟨fun _ p hLookup => ⟨p, hLookup, fun _ hv => hv, fun hp => hp⟩, h, rfl⟩

/-- What a turn leaves of the ledger and of its own execution. -/
structure Turned (measure : String → String) (l : InMemoryLedger) (thread : VoteThread)
    (r : VoteThread × InMemoryLedger) : Prop where
  keyed : Keyed r.2
  stands : Stands measure r.2 r.1
  later : Later l r.2
  effect : Effect l thread r.2 r.1

/-- A turn that leaves the ledger. -/
theorem Turned.read (hKeyed : Keyed l) {thread thread' : VoteThread}
    (h : Stands measure l thread') (hPending : pending thread' = pending thread) :
    Turned measure l thread (thread', l) :=
  ⟨hKeyed, h, .refl l, .still rfl rfl hPending⟩

/-- A turn that saves a copy. -/
theorem Turned.saves (hKeyed : Keyed l) {thread thread' : VoteThread}
    (hLookup : l.proposals.lookup id = some p) (hId : q.id = id)
    (hTo : q.toEpoch = q.fromEpoch + 1) (hVotes : ∀ v ∈ p.votes, v ∈ q.votes)
    (hClosed : p.closed = true → q.closed = true)
    (h : Stands measure (l.saveProposal q) thread') (hPending : pending thread' = pending thread) :
    Turned measure l thread (thread', l.saveProposal q) :=
  ⟨hKeyed.save hTo, h, .save hLookup hId hVotes hClosed, .still rfl rfl hPending⟩

theorem lookup_saved (hId : q.id = id) : (l.saveProposal q).proposals.lookup id = some q := by
  rw [InMemoryLedger.lookup_saveProposal, if_pos hId.symm]

/-- The vote is saved over the proposal it was read from. -/
theorem turned_holding (hKeyed : Keyed l) {number : Nat}
    (h : Stands measure l (.holding localNode id number p))
    (hCurrent : Current l .next (.holding localNode id number p)) :
    Turned measure l (.holding localNode id number p)
      (VoteThread.turn measure .next (.holding localNode id number p) l) := by
  obtain ⟨hId, hTo⟩ := h
  unfold VoteThread.turn
  dsimp only
  cases hCast : VoteEpochAdvance.cast number l.chain.constitution localNode p with
  | error e => exact .read hKeyed ⟨nofun, nofun⟩ rfl
  | ok q =>
    have hLookup : l.proposals.lookup id = some p := hCurrent (by rw [hCast]; rfl)
    obtain ⟨-, hOpen, rfl⟩ := VoteEpochAdvance.cast_ok hCast
    have hId' : (p.withVote localNode).id = id := EpochAdvanceProposal.withVote_id.trans hId
    have hTo' : (p.withVote localNode).toEpoch = (p.withVote localNode).fromEpoch + 1 := by
      rw [EpochAdvanceProposal.withVote_toEpoch, EpochAdvanceProposal.withVote_fromEpoch, hTo]
    have hOwn : localNode ∈ (p.withVote localNode).votes :=
      EpochAdvanceProposal.mem_withVote.mpr (.inl rfl)
    refine .saves hKeyed hLookup hId' hTo' (fun v hv => EpochAdvanceProposal.mem_withVote.mpr (.inr hv))
      (fun hClosed => ?_) ⟨⟨hId', hTo', hOwn, _, lookup_saved hId', hOwn⟩, trivial⟩ rfl
    rw [hOpen] at hClosed
    cases hClosed

/-- The vote event, where it is not refused once the threshold is reached. -/
theorem turned_recording (hKeyed : Keyed l) {number : Nat} {a : Appending}
    (h : Stands measure l (.recording localNode id number p a))
    (hCurrent : Current l .next (.recording localNode id number p a)) :
    Turned measure l (.recording localNode id number p a)
      (VoteThread.turn measure .next (.recording localNode id number p a) l) := by
  obtain ⟨hSaved, hMade⟩ := h
  unfold VoteThread.turn
  dsimp only
  -- the append reads, is accepted with the entry of the vote, or is refused
  rcases a.turn_cases (VoteThread.voteEvent measure localNode number p) l hMade with
    ⟨b, hb, hEq⟩ | ⟨entry, ⟨index, prevHash, rfl⟩, -, hEq⟩ | ⟨hRefused, e, hEq⟩
  · rw [hEq]
    exact .read hKeyed ⟨hSaved, hb⟩ rfl
  · have hAdvances : (l.extend (VoteThread.voteEvent measure localNode number p index
        prevHash)).chain.advances = l.chain.advances :=
      @GovernanceLedger.advances_concat_of_ne l.chain _ _ l.chain.epoch nofun
    have hLater : Later l (l.extend (VoteThread.voteEvent measure localNode number p index
        prevHash)) := .extend fun k hk => hAdvances ▸ hk
    have hAfter := hSaved.later hLater
    rw [hEq]
    dsimp only
    split
    · exact ⟨hKeyed, hAfter, hLater, .still rfl hAdvances rfl⟩
    · rename_i hNeed
      refine ⟨hKeyed, ⟨fun _ => hAfter.stored, fun q hq hNeed' => ?_⟩, hLater,
        .still rfl hAdvances rfl⟩
      obtain rfl := Option.some.inj hq
      exact absurd hNeed' hNeed
  · rw [hEq]
    refine .read hKeyed ⟨nofun, fun q hq hNeed => ?_⟩ rfl
    obtain rfl := Option.some.inj hq
    exact absurd hRefused (hCurrent hNeed)

/-- The closed copy is saved over the one the execution saved before. -/
theorem turned_closing (hKeyed : Keyed l) (h : Stands measure l (.closing localNode id p))
    (hCurrent : Current l .next (.closing localNode id p)) :
    Turned measure l (.closing localNode id p)
      (VoteThread.turn measure .next (.closing localNode id p) l) :=
  have hSaved : Saved l localNode id p := h
  have hLookup : l.proposals.lookup id = some p := hCurrent
  .saves hKeyed hLookup hSaved.id_eq hSaved.toEpoch (fun _ hv => hv) (fun _ => rfl)
    ⟨hSaved.id_eq, hSaved.toEpoch, hSaved.own, p.close, lookup_saved (q := p.close) hSaved.id_eq,
      hSaved.own⟩ rfl

/-- The epoch is set to the next. -/
theorem turned_advancing (hKeyed : Keyed l) {epoch : Epoch}
    (h : Stands measure l (.advancing localNode id p epoch))
    (hCurrent : Current l .next (.advancing localNode id p epoch)) :
    Turned measure l (.advancing localNode id p epoch)
      (VoteThread.turn measure .next (.advancing localNode id p epoch) l) := by
  have hSaved : Saved l localNode id p := h
  have hNumber : l.chain.epoch.number = p.fromEpoch := hCurrent
  have hTo : p.toEpoch = l.chain.epoch.number + 1 := by rw [hSaved.toEpoch, hNumber]
  have hLater : Later l (l.setEpoch { epoch with number := p.toEpoch }) :=
    ⟨fun _ q hLookup => ⟨q, hLookup, fun _ hv => hv, fun hq => hq⟩, fun _ hk => hk, rfl⟩
  exact ⟨hKeyed, ⟨hSaved.later hLater, trivial⟩, hLater, .set hTo rfl rfl (congrArg some hTo)⟩

/-- The entry of the epoch is appended. -/
theorem turned_entering (hKeyed : Keyed l) {a : Appending}
    (h : Stands measure l (.entering localNode id p a))
    (hCurrent : Current l .next (.entering localNode id p a)) :
    Turned measure l (.entering localNode id p a)
      (VoteThread.turn measure .next (.entering localNode id p a) l) := by
  obtain ⟨hSaved, hMade⟩ := h
  unfold VoteThread.turn
  dsimp only
  -- the append reads, is accepted with the entry of the advance, or is refused
  rcases a.turn_cases (VoteThread.advanceEvent measure localNode p) l hMade with
    ⟨b, hb, hEq⟩ | ⟨entry, ⟨index, prevHash, rfl⟩, -, hEq⟩ | ⟨hRefused, -⟩
  · rw [hEq]
    exact .read hKeyed ⟨hSaved, hb⟩ rfl
  · -- the entry of the advance is in, and so is that of every epoch before it
    have hAdvances : (l.extend (VoteThread.advanceEvent measure localNode p index
        prevHash)).chain.advances = l.chain.advances ++ [p.toEpoch] :=
      @GovernanceLedger.advances_concat l.chain _ _ l.chain.epoch rfl
    have hLater : Later l (l.extend (VoteThread.advanceEvent measure localNode p index
        prevHash)) := .extend fun k hk => hAdvances ▸ List.mem_append_left _ hk
    rw [hEq]
    refine ⟨hKeyed, ⟨fun _ => (hSaved.later hLater).stored, fun q hq _ => ?_⟩, hLater,
      .entered p.toEpoch rfl hAdvances rfl rfl⟩
    obtain rfl := Option.some.inj hq
    rw [hAdvances]
    exact List.mem_append_right _ (List.mem_singleton_self _)
  · exact absurd hRefused hCurrent

/-- What an undisturbed turn leaves. -/
theorem turn_turned (hKeyed : Keyed l) {thread : VoteThread} (h : Stands measure l thread)
    (t : VoteTurn) (hCurrent : Current l t thread) :
    Turned measure l thread (VoteThread.turn measure t thread l) := by
  -- a start is taken by an idle thread; any other goes on from where it is
  match t, thread with
  | .start node id, .idle => exact .read hKeyed trivial rfl
  | .start .., .called .. => exact .read hKeyed h rfl
  | .start .., .entitled .. => exact .read hKeyed h rfl
  | .start .., .holding .. => exact .read hKeyed h rfl
  | .start .., .recording .. => exact .read hKeyed h rfl
  | .start .., .closing .. => exact .read hKeyed h rfl
  | .start .., .closed .. => exact .read hKeyed h rfl
  | .start .., .advancing .. => exact .read hKeyed h rfl
  | .start .., .entering .. => exact .read hKeyed h rfl
  | .start .., .returned .. => exact .read hKeyed h rfl
  | .next, .idle => exact .read hKeyed trivial rfl
  | .next, .called node id =>
    unfold VoteThread.turn
    dsimp only
    split
    · exact .read hKeyed trivial rfl
    · exact .read hKeyed ⟨nofun, nofun⟩ rfl
  | .next, .entitled node id number =>
    unfold VoteThread.turn
    dsimp only
    cases hGet : l.getProposal id with
    | error e => exact .read hKeyed ⟨nofun, nofun⟩ rfl
    | ok p => exact .read hKeyed (hKeyed id p (InMemoryLedger.getProposal_ok.mp hGet)) rfl
  | .next, .holding .. => exact turned_holding hKeyed h hCurrent
  | .next, .recording .. => exact turned_recording hKeyed h hCurrent
  | .next, .closing .. => exact turned_closing hKeyed h hCurrent
  | .next, .closed .. => exact .read hKeyed h rfl
  | .next, .advancing .. => exact turned_advancing hKeyed h hCurrent
  | .next, .entering .. => exact turned_entering hKeyed h hCurrent
  | .next, .returned .. => exact .read hKeyed h rfl

/-! ### Runs -/

/-- The ledger and the executions are in order, and each epoch up to the present
one is entered, or about to be by one execution. -/
structure Sound (measure : String → String) (s : SharedLedger) : Prop where
  holds : Threads.Holds Keyed (Stands measure) s
  exclusive : Threads.Exclusive pending s
  nodup : s.store.chain.advances.Nodup
  apart : ∀ k ∈ s.store.chain.advances, ¬ Threads.Held pending s k
  epochs : ∀ k, k ∈ s.store.chain.advances ∨ Threads.Held pending s k ↔
    1 ≤ k ∧ k ≤ s.store.chain.epoch.number

theorem sound_start (h : KeroseneVault.Sound measure l) : Sound measure (start l) := by
  have hFree (k : Nat) : ¬ Threads.Held pending (start l) k := by
    rintro ⟨n, hn⟩
    cases hn
  have hAdvances : l.chain.advances = List.range' 1 l.chain.epoch.number := h.ordered.epochs
  refine ⟨⟨fun id p hLookup => ?_, fun _ => trivial⟩, fun n m k hn => ?_, ?_, fun k _ => hFree k,
    fun k => ?_⟩
  · exact ⟨(h.proposals id p hLookup).id_eq, (h.proposals id p hLookup).toEpoch⟩
  · cases hn
  · show l.chain.advances.Nodup
    rw [hAdvances]
    exact List.nodup_range'
  · show k ∈ l.chain.advances ∨ _ ↔ 1 ≤ k ∧ k ≤ l.chain.epoch.number
    rw [or_iff_left (hFree k), hAdvances, List.mem_range'_1]
    omega

/-- An undisturbed turn keeps everything in order. -/
theorem Sound.step {s : SharedLedger} {a : Nat × VoteTurn} (h : Sound measure s)
    (hCurrent : Undisturbed s a) : Sound measure (s.step measure a) := by
  obtain ⟨n, t⟩ := a
  obtain ⟨hKeyed, hStands, hLater, hEffect⟩ :=
    turn_turned h.holds.store (h.holds.threads n) t hCurrent
  have hHolds : Threads.Holds Keyed (Stands measure) (s.step measure (n, t)) :=
    Threads.Holds.step (L := Stands measure) stands_of_later h.holds ⟨hKeyed, hStands, hLater⟩
  cases hEffect with
  | still hNumber hAdvances hPending =>
    have hHeld (k : Nat) : Threads.Held pending (s.step measure (n, t)) k ↔
        Threads.Held pending s k := Threads.held_same hPending
    have hNumber' : (s.step measure (n, t)).store.chain.epoch.number =
      s.store.chain.epoch.number := hNumber
    have hAdvances' : (s.step measure (n, t)).store.chain.advances =
      s.store.chain.advances := hAdvances
    refine ⟨hHolds, h.exclusive.same hPending, ?_, fun k hk => ?_, fun k => ?_⟩
    · exact hAdvances' ▸ h.nodup
    · rw [hHeld]
      exact h.apart k (hAdvances' ▸ hk)
    · rw [hHeld, hAdvances', hNumber', h.epochs]
  | set hNumber hAdvances hBefore hAfter =>
    have hHeld (k : Nat) : Threads.Held pending (s.step measure (n, t)) k ↔
        k = s.store.chain.epoch.number + 1 ∨ Threads.Held pending s k :=
      Threads.held_take hBefore hAfter
    have hNumber' : (s.step measure (n, t)).store.chain.epoch.number =
      s.store.chain.epoch.number + 1 := hNumber
    have hAdvances' : (s.step measure (n, t)).store.chain.advances =
      s.store.chain.advances := hAdvances
    -- the next epoch is neither entered nor about to be
    have hNext (hSome : s.store.chain.epoch.number + 1 ∈ s.store.chain.advances ∨
        Threads.Held pending s (s.store.chain.epoch.number + 1)) : False := by
      have hRange := (h.epochs _).mp hSome
      omega
    refine ⟨hHolds, h.exclusive.take (fun hHeldNext => hNext (.inr hHeldNext)) hAfter, ?_,
      fun k hk => ?_, fun k => ?_⟩
    · exact hAdvances' ▸ h.nodup
    · rw [hAdvances'] at hk
      rw [hHeld]
      rintro (rfl | hOld)
      · exact hNext (.inl hk)
      · exact h.apart k hk hOld
    · have hOld := h.epochs k
      rw [hHeld, hAdvances', hNumber', or_left_comm, hOld]
      omega
  | entered j hNumber hAdvances hBefore hAfter =>
    have hHeld (k : Nat) : Threads.Held pending (s.step measure (n, t)) k ↔
        k ≠ j ∧ Threads.Held pending s k := Threads.held_drop h.exclusive hBefore hAfter
    have hNumber' : (s.step measure (n, t)).store.chain.epoch.number =
      s.store.chain.epoch.number := hNumber
    have hAdvances' : (s.step measure (n, t)).store.chain.advances =
      s.store.chain.advances ++ [j] := hAdvances
    have hPending : Threads.Held pending s j := ⟨n, hBefore⟩
    have hNew : j ∉ s.store.chain.advances := fun hMem => h.apart j hMem hPending
    refine ⟨hHolds, h.exclusive.drop hAfter, ?_, fun k hk => ?_, fun k => ?_⟩
    · rw [hAdvances']
      refine h.nodup.append (List.nodup_singleton j) fun k hk hj => hNew ?_
      exact List.mem_singleton.mp hj ▸ hk
    · rw [hAdvances', List.mem_append, List.mem_singleton] at hk
      rw [hHeld]
      rintro ⟨hNe, hOld⟩
      exact hk.elim (fun hMem => h.apart k hMem hOld) hNe
    · rw [hHeld, hAdvances', hNumber', List.mem_append, List.mem_singleton, ← h.epochs k]
      by_cases hk : k = j
      · subst hk
        simp [hPending]
      · simp [hk]

/-- What is kept is enough for the ledger to be consistent. -/
theorem Sound.consistent {s : SharedLedger} (h : Sound measure s) : Consistent s := by
  refine ⟨fun n localNode id saved hReturned => ?_, fun hQuiet => ?_,
    fun n localNode id p answer hReturned hNeed => ?_⟩
  · have hStands := h.holds.threads n
    rw [hReturned] at hStands
    exact hStands.1 rfl
  · -- at rest no execution holds an epoch that it has still to enter
    have hFree (k : Nat) : ¬ Threads.Held pending s k := by
      rintro ⟨n, hn⟩
      rcases hQuiet n with hIdle | ⟨node, id, saved, answer, hReturned⟩
      · rw [hIdle] at hn
        cases hn
      · rw [hReturned] at hn
        cases hn
    -- so the entries are those of the epochs up to this one, each once
    have hPerm : s.store.chain.advances.Perm (List.range' 1 s.store.chain.epoch.number) := by
      rw [List.perm_ext_iff_of_nodup h.nodup List.nodup_range']
      intro k
      have hEntered := h.epochs k
      rw [or_iff_left (hFree k)] at hEntered
      rw [hEntered, List.mem_range'_1]
      omega
    rw [hPerm.length_eq, List.length_range']
  · have hStands := h.holds.threads n
    rw [hReturned] at hStands
    exact List.count_eq_one_of_mem h.nodup (hStands.2 p rfl hNeed)

theorem Sound.neverReopens {s : SharedLedger} {a : Nat × VoteTurn} (h : Sound measure s)
    (hCurrent : Undisturbed s a) : NeverReopens measure s a := by
  intro id p hLookup hClosed
  have hTurned := turn_turned h.holds.store (h.holds.threads a.1) a.2 hCurrent
  obtain ⟨q, hq, -, hStays⟩ := hTurned.later.proposals id p hLookup
  exact ⟨q, hq, hStays hClosed⟩

theorem votesKept_of_sound (hStart : KeroseneVault.Sound measure l)
    {turns : List (Nat × VoteTurn)}
    (h : Runs.EveryStep (step measure) Undisturbed (start l) turns) : VotesKept measure l turns := by
  have hStep (s : SharedLedger) (a : Nat × VoteTurn) (hSound : Sound measure s)
      (hCurrent : Undisturbed s a) : Sound measure (s.step measure a) := hSound.step hCurrent
  have hSound := Runs.EveryState.of_everyStep hStep (sound_start hStart) h
  refine ⟨hSound.mono fun s hs => hs.consistent, ?_⟩
  exact Runs.EveryStep.of_everyState (fun s a hs _ hCurrent => hs.neverReopens hCurrent) hSound h

/--
**No lost governance vote.** On any ledger that the use cases lead to,
interleaved votes that are not disturbed keep every vote that answered Ok and
every closing, advance the epoch with its entries, and enter the advance of a
proposal that reached the threshold once.
-/
theorem votesKept_of_undisturbed (measure : String → String) (constitution : Constitution)
    (governanceT pRewardBps : Nat) (activeSet : List NodeId) (writer : NodeId) (payload : String)
    (economy : EconomyBooks) (calls : List LedgerCall) (turns : List (Nat × VoteTurn))
    (h : Runs.EveryStep (step measure) Undisturbed
      (start (Runs.run (LedgerNode.step measure)
        ⟨.genesis measure constitution governanceT pRewardBps activeSet writer payload, economy⟩
        calls).ledger) turns) :
    VotesKept measure (Runs.run (LedgerNode.step measure)
      ⟨.genesis measure constitution governanceT pRewardBps activeSet writer payload, economy⟩
      calls).ledger turns :=
  votesKept_of_sound (LedgerNode.sound_run measure constitution governanceT pRewardBps activeSet
    writer payload economy calls) h

/-! ### Two votes on one proposal -/

/-- Texts as their own hashes, for runs on given inputs. -/
def plainHash (text : String) : String := text

/-- A proposal of `v1`, which needs the votes of all three nodes. -/
def proposedNode : LedgerNode :=
  Runs.run (LedgerNode.step plainHash)
    ⟨.genesis plainHash ⟨"law", ⟨4000, 3000, 3000⟩⟩ 3 100 [⟨"v1"⟩, ⟨"v2"⟩, ⟨"v3"⟩] ⟨"v1"⟩ "genesis",
      soloBooks⟩ [.proposeEpochAdvance ⟨"v1"⟩ "p1"]

/-- The votes of `v2` and `v3`, as many turns of each as are needed. -/
def votesInTurn : List (Nat × VoteTurn) :=
  [(0, .start ⟨"v2"⟩ "p1"), (1, .start ⟨"v3"⟩ "p1"), (1, .next)] ++ List.replicate 6 (0, .next) ++
    List.replicate 11 (1, .next)

theorem votesKept_inTurn : VotesKept plainHash proposedNode.ledger votesInTurn :=
  votesKept_of_undisturbed plainHash ⟨"law", ⟨4000, 3000, 3000⟩⟩ 3 100
    [⟨"v1"⟩, ⟨"v2"⟩, ⟨"v3"⟩] ⟨"v1"⟩ "genesis" soloBooks [.proposeEpochAdvance ⟨"v1"⟩ "p1"]
    votesInTurn (by decide +kernel)

/-- Both read the proposal before either saves its vote. -/
def overlappingVotes : List (Nat × VoteTurn) :=
  [(0, .start ⟨"v2"⟩ "p1"), (1, .start ⟨"v3"⟩ "p1"), (0, .next), (0, .next), (1, .next),
    (1, .next), (0, .next), (1, .next), (0, .next), (0, .next), (0, .next)]

theorem votesKept_fails : ¬ VotesKept plainHash proposedNode.ledger overlappingVotes := by
  rintro ⟨hConsistent, -⟩
  have hReturned : ∃ saved, (Runs.run (step plainHash) (start proposedNode.ledger)
      overlappingVotes).threads 0 = .returned ⟨"v2"⟩ "p1" saved (.ok ()) := ⟨_, rfl⟩
  obtain ⟨saved, hReturned⟩ := hReturned
  obtain ⟨p, hLookup, hVote⟩ := hConsistent.last.kept 0 ⟨"v2"⟩ "p1" saved hReturned
  have hLost : ∀ p ∈ (Runs.run (step plainHash) (start proposedNode.ledger)
      overlappingVotes).store.proposals.lookup "p1", ⟨"v2"⟩ ∉ p.votes := by decide +kernel
  exact hLost p hLookup hVote

end SharedLedger

end KeroseneVault
