import KeroseneVault.Ledger.Governance

/-!
# Epoch advances

Proposals to advance the epoch, the votes of the active set on them, and the two
use cases that propose and vote over an `InMemoryLedger`. The vote that reaches
`governance_t` closes the proposal, advances the epoch and enters that.

* `EpochAdvanceProposal` — a proposal and its votes;
* `InMemoryLedger` — the chain of entries with the proposals;
* `ProposeEpochAdvance.execute`, `VoteEpochAdvance.execute` — the use cases.

Main results:

* `ProposeEpochAdvance.execute_cases`, `VoteEpochAdvance.execute_cases` — what the
  use cases leave of a ledger that admits its active set.
-/

namespace KeroseneVault

/-! ## Proposals -/

structure EpochAdvanceProposal where
  id : String
  fromEpoch : Nat
  toEpoch : Nat
  constitutionHash : String
  proposer : NodeId
  votes : List NodeId
  closed : Bool
  deriving DecidableEq

namespace EpochAdvanceProposal

def new (id : String) (fromEpoch : Nat) (constitutionHash : String) (proposer : NodeId) :
    EpochAdvanceProposal :=
  { id, fromEpoch, toEpoch := fromEpoch + 1, constitutionHash, proposer, votes := [proposer],
    closed := false }

/-- With the vote of a node, once. -/
def withVote (p : EpochAdvanceProposal) (voter : NodeId) : EpochAdvanceProposal :=
  if p.votes.contains voter then p else { p with votes := p.votes ++ [voter] }

/-- `add_vote`. -/
def addVote (p : EpochAdvanceProposal) (voter : NodeId) :
    Except DomainError EpochAdvanceProposal :=
  if p.closed then .error (.proposalClosed p.id) else .ok (p.withVote voter)

def close (p : EpochAdvanceProposal) : EpochAdvanceProposal := { p with closed := true }

/-- `to_json`. -/
def toJson (p : EpochAdvanceProposal) : String :=
  let votes := ",".intercalate (p.votes.map fun n => s!"\"{n.text}\"")
  s!"\x7b\"id\":\"{p.id}\",\"from_epoch\":{p.fromEpoch},\"to_epoch\":{p.toEpoch}," ++
  s!"\"constitution_hash\":\"{p.constitutionHash}\",\"proposer\":\"{p.proposer.text}\"," ++
  s!"\"votes\":[{votes}],\"closed\":{p.closed}\x7d"

variable {p : EpochAdvanceProposal} {voter : NodeId}

@[simp] theorem close_id : p.close.id = p.id := rfl
@[simp] theorem close_fromEpoch : p.close.fromEpoch = p.fromEpoch := rfl
@[simp] theorem close_toEpoch : p.close.toEpoch = p.toEpoch := rfl
@[simp] theorem close_votes : p.close.votes = p.votes := rfl
@[simp] theorem close_closed : p.close.closed = true := rfl

/-- A vote changes nothing but the votes. -/
theorem withVote_eq (p : EpochAdvanceProposal) (voter : NodeId) :
    ∃ votes, p.withVote voter = { p with votes } := by
  unfold withVote
  split
  · exact ⟨p.votes, rfl⟩
  · exact ⟨_, rfl⟩

theorem withVote_id : (p.withVote voter).id = p.id := by
  obtain ⟨votes, hEq⟩ := p.withVote_eq voter
  rw [hEq]

theorem withVote_fromEpoch : (p.withVote voter).fromEpoch = p.fromEpoch := by
  obtain ⟨votes, hEq⟩ := p.withVote_eq voter
  rw [hEq]

theorem withVote_toEpoch : (p.withVote voter).toEpoch = p.toEpoch := by
  obtain ⟨votes, hEq⟩ := p.withVote_eq voter
  rw [hEq]

theorem withVote_closed : (p.withVote voter).closed = p.closed := by
  obtain ⟨votes, hEq⟩ := p.withVote_eq voter
  rw [hEq]

theorem mem_withVote {v : NodeId} : v ∈ (p.withVote voter).votes ↔ v = voter ∨ v ∈ p.votes := by
  unfold withVote
  split
  · rename_i hContains
    have hMem := List.contains_iff_mem.mp hContains
    exact ⟨.inr, fun h => h.elim (fun hEq => hEq ▸ hMem) fun hv => hv⟩
  · rw [List.mem_append, List.mem_singleton, or_comm]

theorem nodup_withVote (h : p.votes.Nodup) : (p.withVote voter).votes.Nodup := by
  unfold withVote
  split
  · exact h
  · rename_i hNot
    refine h.append (List.nodup_singleton voter) fun v hv hVoter => hNot ?_
    rw [List.mem_singleton.mp hVoter] at hv
    exact List.contains_iff_mem.mpr hv

theorem addVote_ok {q : EpochAdvanceProposal} (h : p.addVote voter = .ok q) :
    p.closed = false ∧ q = p.withVote voter := by
  unfold addVote at h
  split at h
  · cases h
  · rename_i hOpen
    exact ⟨by simpa using hOpen, (Except.ok.inj h).symm⟩

end EpochAdvanceProposal

/-! ## The ledger -/

/-- `InMemoryLedger`. Of its constitution, the chain has the hash and the splits. -/
structure InMemoryLedger where
  chain : GovernanceLedger
  governanceT : Nat
  pRewardBps : Nat
  proposals : Table String EpochAdvanceProposal

namespace InMemoryLedger

/-- `genesis`, of a constitution that validates. The payload is the text of the
constitution and the epoch. -/
def genesis (measure : String → String) (constitution : Constitution)
    (governanceT pRewardBps : Nat) (activeSet : List NodeId) (writer : NodeId) (payload : String) :
    InMemoryLedger :=
  { chain := { constitution, epoch := ⟨0, activeSet⟩,
               entries := [.chain measure 0 0 .genesis payload writer "genesis-prev"] }
    governanceT
    pRewardBps
    proposals := ∅ }

/-- `set_epoch`. -/
def setEpoch (l : InMemoryLedger) (epoch : Epoch) : InMemoryLedger :=
  { l with chain := { l.chain with epoch } }

/-- `append`. -/
def append (l : InMemoryLedger) (entry : LedgerEntry) : Outcome × InMemoryLedger :=
  let r := l.chain.append entry
  (r.1, { l with chain := r.2 })

/-- `save_proposal`. -/
def saveProposal (l : InMemoryLedger) (p : EpochAdvanceProposal) : InMemoryLedger :=
  { l with proposals := l.proposals.insert p.id p }

/-- `put_proposal`. -/
def putProposal (l : InMemoryLedger) (p : EpochAdvanceProposal) : Outcome × InMemoryLedger :=
  if (l.proposals.lookup p.id).isSome then
    (.error (.ledgerConflict s!"proposal {p.id} exists"), l)
  else (.ok (), l.saveProposal p)

/-- `get_proposal`. -/
def getProposal (l : InMemoryLedger) (id : String) : Except DomainError EpochAdvanceProposal :=
  match l.proposals.lookup id with
  | some p => .ok p
  | none => .error (.unknownProposal id)

/-- With one more entry. -/
def extend (l : InMemoryLedger) (entry : LedgerEntry) : InMemoryLedger :=
  { l with chain := { l.chain with entries := l.chain.entries ++ [entry] } }

section Ports

variable {l : InMemoryLedger} {p : EpochAdvanceProposal} {entry : LedgerEntry} {epoch : Epoch}

@[simp] theorem setEpoch_entries : (l.setEpoch epoch).chain.entries = l.chain.entries := rfl
@[simp] theorem setEpoch_epoch : (l.setEpoch epoch).chain.epoch = epoch := rfl
@[simp] theorem setEpoch_proposals : (l.setEpoch epoch).proposals = l.proposals := rfl
@[simp] theorem setEpoch_governanceT : (l.setEpoch epoch).governanceT = l.governanceT := rfl
@[simp] theorem saveProposal_chain : (l.saveProposal p).chain = l.chain := rfl
@[simp] theorem saveProposal_governanceT : (l.saveProposal p).governanceT = l.governanceT := rfl
@[simp] theorem extend_entries :
    (l.extend entry).chain.entries = l.chain.entries ++ [entry] := rfl
@[simp] theorem extend_epoch : (l.extend entry).chain.epoch = l.chain.epoch := rfl
@[simp] theorem extend_constitution :
    (l.extend entry).chain.constitution = l.chain.constitution := rfl
@[simp] theorem extend_proposals : (l.extend entry).proposals = l.proposals := rfl
@[simp] theorem extend_governanceT : (l.extend entry).governanceT = l.governanceT := rfl

theorem lookup_saveProposal (id : String) : (l.saveProposal p).proposals.lookup id =
    if id = p.id then some p else l.proposals.lookup id := by
  unfold saveProposal
  by_cases h : id = p.id
  · subst h
    simp
  · simp [h]

theorem getProposal_ok {id : String} :
    l.getProposal id = .ok p ↔ l.proposals.lookup id = some p := by
  unfold getProposal
  split
  · rename_i q hq
    rw [hq, Except.ok.injEq, Option.some.injEq]
  · rename_i hNone
    rw [hNone]
    exact ⟨nofun, nofun⟩

theorem append_cases (l : InMemoryLedger) (entry : LedgerEntry) :
    (l.chain.Accepts entry ∧ l.append entry = (.ok (), l.extend entry)) ∨
    (¬ l.chain.Accepts entry ∧ ∃ e, l.append entry = (.error e, l)) := by
  unfold append
  rcases l.chain.append_cases entry with ⟨hAccepts, hEq⟩ | ⟨hNot, e, hEq⟩
  · rw [hEq]
    exact .inl ⟨hAccepts, rfl⟩
  · rw [hEq]
    exact .inr ⟨hNot, e, rfl⟩

/-- The next entry of an admitted writer is appended. -/
theorem append_entryAt {measure : String → String} {number : Nat} {kind : LedgerEventKind}
    {payload : String} {writer : NodeId} (h : l.chain.Admits writer) :
    l.append (l.chain.entryAt measure number kind payload writer) =
      (.ok (), l.extend (l.chain.entryAt measure number kind payload writer)) := by
  rcases l.append_cases (l.chain.entryAt measure number kind payload writer) with
    ⟨-, hEq⟩ | ⟨hNot, -⟩
  · exact hEq
  · exact absurd (GovernanceLedger.accepts_entryAt_iff.mpr h) hNot

end Ports

end InMemoryLedger

/-! ## The use cases -/

/-- The entry of `append_vote_event`. -/
def voteEntry (measure : String → String) (epochNumber : Nat) (writer : NodeId)
    (p : EpochAdvanceProposal) (l : InMemoryLedger) : LedgerEntry :=
  l.chain.entryAt measure epochNumber .voteRecorded p.toJson writer

/-- `append_vote_event`. -/
def appendVoteEvent (measure : String → String) (epochNumber : Nat) (writer : NodeId)
    (p : EpochAdvanceProposal) (l : InMemoryLedger) : Outcome × InMemoryLedger :=
  l.append (voteEntry measure epochNumber writer p l)

/-- `ProposeEpochAdvance::execute`. -/
def ProposeEpochAdvance.execute (measure : String → String) (localNode : NodeId)
    (proposalId : String) (l : InMemoryLedger) :
    Except DomainError EpochAdvanceProposal × InMemoryLedger :=
  if l.chain.epoch.activeSet.contains localNode then
    let proposal := EpochAdvanceProposal.new proposalId l.chain.epoch.number
      l.chain.constitution.hash localNode
    match l.putProposal proposal with
    | (.error e, l) => (.error e, l)
    | (.ok (), l) =>
      match appendVoteEvent measure l.chain.epoch.number localNode proposal l with
      | (.error e, l) => (.error e, l)
      | (.ok (), l) => (.ok proposal, l)
  else (.error (.unauthorizedWriter localNode.text), l)

namespace VoteEpochAdvance

/-- The proposal with the vote, where it can be voted on in the epoch. -/
def cast (epochNumber : Nat) (constitution : Constitution) (localNode : NodeId)
    (proposal : EpochAdvanceProposal) : Except DomainError EpochAdvanceProposal :=
  if proposal.fromEpoch ≠ epochNumber then
    .error (.epochMismatch epochNumber proposal.fromEpoch)
  else if proposal.constitutionHash ≠ constitution.hash then
    .error (.ledgerConflict "proposal constitution hash diverges from active")
  else proposal.addVote localNode

/-- The payload of an `EpochAdvanced` entry. -/
def advancePayload (proposal : EpochAdvanceProposal) : String :=
  s!"\x7b\"to_epoch\":{proposal.toEpoch}," ++
  s!"\"constitution_hash\":\"{proposal.constitutionHash}\"\x7d"

/-- The entry of `advance_epoch`. -/
def advanceEntry (measure : String → String) (localNode : NodeId)
    (proposal : EpochAdvanceProposal) (l : InMemoryLedger) : LedgerEntry :=
  l.chain.entryAt measure proposal.toEpoch .epochAdvanced (advancePayload proposal) localNode

/-- `advance_epoch`: the epoch is set before the entry is appended. -/
def advanceEpoch (measure : String → String) (localNode : NodeId)
    (proposal : EpochAdvanceProposal) (l : InMemoryLedger) : Outcome × InMemoryLedger :=
  let l := l.setEpoch { l.chain.epoch with number := proposal.toEpoch }
  l.append (advanceEntry measure localNode proposal l)

/-- `execute`. -/
def execute (measure : String → String) (localNode : NodeId) (proposalId : String)
    (l : InMemoryLedger) : Except DomainError EpochAdvanceProposal × InMemoryLedger :=
  if l.chain.epoch.activeSet.contains localNode then
    match l.getProposal proposalId with
    | .error e => (.error e, l)
    | .ok proposal =>
      match cast l.chain.epoch.number l.chain.constitution localNode proposal with
      | .error e => (.error e, l)
      | .ok proposal =>
        match appendVoteEvent measure l.chain.epoch.number localNode proposal
          (l.saveProposal proposal) with
        | (.error e, l) => (.error e, l)
        | (.ok (), l) =>
          if l.governanceT ≤ proposal.votes.length then
            match advanceEpoch measure localNode proposal.close (l.saveProposal proposal.close) with
            | (.error e, l) => (.error e, l)
            | (.ok (), l) => (.ok proposal.close, l)
          else (.ok proposal, l)
  else (.error (.unauthorizedWriter localNode.text), l)

theorem cast_ok {epochNumber : Nat} {constitution : Constitution} {localNode : NodeId}
    {p q : EpochAdvanceProposal} (h : cast epochNumber constitution localNode p = .ok q) :
    p.fromEpoch = epochNumber ∧ p.closed = false ∧ q = p.withVote localNode := by
  unfold cast at h
  split at h
  · cases h
  split at h
  · cases h
  · exact ⟨not_not.mp ‹_›, EpochAdvanceProposal.addVote_ok h⟩

end VoteEpochAdvance

/-! ### What they leave -/

section Cases

variable {measure : String → String} {l : InMemoryLedger} {localNode : NodeId}
  {proposalId : String}

/-- The next index is that of the next entry. -/
def InMemoryLedger.Numbered (l : InMemoryLedger) : Prop :=
  ∀ prev ∈ l.chain.entries.getLast?, l.chain.entries.length = prev.index + 1

theorem InMemoryLedger.numbered_extend {number : Nat} {kind : LedgerEventKind} {payload : String}
    {writer : NodeId} :
    (l.extend (l.chain.entryAt measure number kind payload writer)).Numbered := by
  intro prev hPrev
  rw [extend_entries, List.getLast?_concat] at hPrev
  obtain rfl := Option.some.inj hPrev
  rw [extend_entries, List.length_append]
  rfl

/-- The ledger after a vote is saved and recorded. -/
def InMemoryLedger.voted (measure : String → String) (localNode : NodeId)
    (p : EpochAdvanceProposal) (l : InMemoryLedger) : InMemoryLedger :=
  (l.saveProposal p).extend (voteEntry measure l.chain.epoch.number localNode p l)

/-- The ledger after a proposal is saved as closed, and the epoch advanced by it. -/
def InMemoryLedger.advanced (measure : String → String) (localNode : NodeId)
    (p : EpochAdvanceProposal) (l : InMemoryLedger) : InMemoryLedger :=
  ((l.saveProposal p).setEpoch { l.chain.epoch with number := p.toEpoch }).extend
    (VoteEpochAdvance.advanceEntry measure localNode p l)

theorem appendVoteEvent_saved (hNode : localNode ∈ l.chain.epoch.activeSet) (h : l.Numbered)
    (p : EpochAdvanceProposal) :
    appendVoteEvent measure l.chain.epoch.number localNode p (l.saveProposal p) =
      (.ok (), l.voted measure localNode p) :=
  InMemoryLedger.append_entryAt (l := l.saveProposal p) ⟨hNode, h⟩

theorem advanceEpoch_saved (hNode : localNode ∈ l.chain.epoch.activeSet) (h : l.Numbered)
    (p : EpochAdvanceProposal) :
    VoteEpochAdvance.advanceEpoch measure localNode p (l.saveProposal p) =
      (.ok (), l.advanced measure localNode p) :=
  InMemoryLedger.append_entryAt
    (l := (l.saveProposal p).setEpoch { l.chain.epoch with number := p.toEpoch }) ⟨hNode, h⟩

/-- A proposal is refused, or entered with the vote of its proposer. -/
theorem ProposeEpochAdvance.execute_cases (measure : String → String) (localNode : NodeId)
    (proposalId : String) (h : l.Numbered) :
    (∃ e, ProposeEpochAdvance.execute measure localNode proposalId l = (.error e, l)) ∨
    ∃ p, p = EpochAdvanceProposal.new proposalId l.chain.epoch.number l.chain.constitution.hash
        localNode ∧ localNode ∈ l.chain.epoch.activeSet ∧ l.proposals.lookup proposalId = none ∧
      ProposeEpochAdvance.execute measure localNode proposalId l =
        (.ok p, l.voted measure localNode p) := by
  unfold ProposeEpochAdvance.execute
  by_cases hContains : l.chain.epoch.activeSet.contains localNode = true
  · have hMem := List.contains_iff_mem.mp hContains
    rw [if_pos hContains]
    dsimp only
    generalize hNew : EpochAdvanceProposal.new proposalId l.chain.epoch.number
      l.chain.constitution.hash localNode = p
    have hId : p.id = proposalId := by rw [← hNew]; rfl
    unfold InMemoryLedger.putProposal
    rw [hId]
    -- an id is proposed once
    cases hLookup : l.proposals.lookup proposalId with
    | some q => exact .inl ⟨_, rfl⟩
    | none =>
      refine .inr ⟨p, rfl, hMem, rfl, ?_⟩
      show (match appendVoteEvent measure l.chain.epoch.number localNode p (l.saveProposal p) with
        | (.error e, l) => (Except.error e, l)
        | (.ok (), l) => (Except.ok p, l)) = _
      rw [appendVoteEvent_saved hMem h p]
  · rw [if_neg hContains]
    exact .inl ⟨_, rfl⟩

/-- A vote is refused, or saved and recorded; the vote that reaches the threshold
closes the proposal and advances the epoch. -/
theorem VoteEpochAdvance.execute_cases (measure : String → String) (localNode : NodeId)
    (proposalId : String) (h : l.Numbered) :
    (∃ e, VoteEpochAdvance.execute measure localNode proposalId l = (.error e, l)) ∨
    ∃ p, l.proposals.lookup proposalId = some p ∧ localNode ∈ l.chain.epoch.activeSet ∧
      p.fromEpoch = l.chain.epoch.number ∧ p.closed = false ∧
      ((p.withVote localNode).votes.length < l.governanceT ∧
        VoteEpochAdvance.execute measure localNode proposalId l =
          (.ok (p.withVote localNode), l.voted measure localNode (p.withVote localNode)) ∨
      l.governanceT ≤ (p.withVote localNode).votes.length ∧
        VoteEpochAdvance.execute measure localNode proposalId l =
          (.ok (p.withVote localNode).close,
            (l.voted measure localNode (p.withVote localNode)).advanced measure localNode
              (p.withVote localNode).close)) := by
  unfold VoteEpochAdvance.execute
  by_cases hContains : l.chain.epoch.activeSet.contains localNode = true
  · have hMem := List.contains_iff_mem.mp hContains
    rw [if_pos hContains]
    cases hGet : l.getProposal proposalId with
    | error e => exact .inl ⟨e, rfl⟩
    | ok p =>
      dsimp only
      cases hCast : cast l.chain.epoch.number l.chain.constitution localNode p with
      | error e => exact .inl ⟨e, rfl⟩
      | ok q =>
        obtain ⟨hEpoch, hOpen, rfl⟩ := cast_ok hCast
        refine .inr ⟨p, InMemoryLedger.getProposal_ok.mp hGet, hMem, hEpoch, hOpen, ?_⟩
        dsimp only
        rw [appendVoteEvent_saved hMem h]
        dsimp only
        have hT : (l.voted measure localNode (p.withVote localNode)).governanceT = l.governanceT :=
          rfl
        rw [hT]
        -- the last vote that is needed advances the epoch in the same call
        by_cases hNeed : l.governanceT ≤ (p.withVote localNode).votes.length
        · have hAdvance := @advanceEpoch_saved measure (l.voted measure localNode (p.withVote localNode))
            localNode hMem InMemoryLedger.numbered_extend (p.withVote localNode).close
          rw [if_pos hNeed, hAdvance]
          exact .inr ⟨hNeed, rfl⟩
        · rw [if_neg hNeed]
          exact .inl ⟨not_le.mp hNeed, rfl⟩
  · rw [if_neg hContains]
    exact .inl ⟨_, rfl⟩

end Cases

end KeroseneVault
