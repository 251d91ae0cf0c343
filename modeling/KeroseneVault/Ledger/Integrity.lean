import KeroseneVault.Application.EconomyOps
import KeroseneVault.Lib.HashChain
import KeroseneVault.Lib.Runs

/-!
# Integrity of the governance ledger

The use cases that write the ledger, one after the other from its genesis, keep
it a hash chain of the active set's entries, with the epoch advanced once for
each `EpochAdvanced` entry and each advance voted for.

* `LedgerCall`, `LedgerNode.step` — a use case;
* `LedgerStep` — what one leaves of the ledger;
* `Sound` — what all of them keep;
* `Integrity` — what the ledger shows.

Main results:

* `step_ledger` — a use case leaves what `LedgerStep` says;
* `ledger_integrity` — the ledger after every run.
-/

namespace KeroseneVault

/-! ## Calls -/

/-- An event of the reshare hook. -/
inductive ReshareEvent where
  | dayAdvanced
  | reshareCompleted
  deriving DecidableEq

def ReshareEvent.kind : ReshareEvent → LedgerEventKind
  | .dayAdvanced => .dayAdvanced
  | .reshareCompleted => .reshareCompleted

/-- A call of a use case, with what the environment supplies. -/
inductive LedgerCall where
  | proposeEpochAdvance (localNode : NodeId) (proposalId : String)
  | voteEpochAdvance (localNode : NodeId) (proposalId : String)
  | accrueMinerRewards (accrue : AccrueMinerRewards) (economyWrite : Outcome) (profitSats : U64)
  | accrueGovernanceWork (gov : AccrueGovernanceWork) (economyWrite : Outcome)
      (job : GovernanceJobKind) (participants : List NodeId) (context : String)
  | reshareEvent (writer : NodeId) (event : ReshareEvent) (payload : String)

/-- What the use cases run on. -/
structure LedgerNode where
  ledger : InMemoryLedger
  economy : EconomyBooks

namespace LedgerNode

/-- One call. -/
def step (measure : String → String) (s : LedgerNode) : LedgerCall → LedgerNode
  | .proposeEpochAdvance localNode proposalId =>
    { s with ledger := (ProposeEpochAdvance.execute measure localNode proposalId s.ledger).2 }
  | .voteEpochAdvance localNode proposalId =>
    { s with ledger := (VoteEpochAdvance.execute measure localNode proposalId s.ledger).2 }
  | .accrueMinerRewards accrue economyWrite profitSats =>
    let r := accrue.execute measure economyWrite profitSats s.economy s.ledger
    { ledger := r.2.2, economy := r.2.1 }
  | .accrueGovernanceWork gov economyWrite job participants context =>
    let r := gov.execute measure economyWrite job participants context s.economy.toEconomyPools
      s.ledger.chain
    { ledger := { s.ledger with chain := r.2.2 },
      economy := { s.economy with toEconomyPools := r.2.1 } }
  | .reshareEvent writer event payload =>
    { s with ledger := { s.ledger with
        chain := (s.ledger.chain.appendLedgerEvent measure writer event.kind payload).2 } }

end LedgerNode

/-- What a call leaves of the ledger. -/
inductive LedgerStep (measure : String → String) (l : InMemoryLedger) : InMemoryLedger → Prop
  | refused : LedgerStep measure l l
  | event (writer : NodeId) (kind : LedgerEventKind) (payload : String)
      (hWriter : writer ∈ l.chain.epoch.activeSet) (hKind : kind ≠ .epochAdvanced) :
      LedgerStep measure l (l.extend (l.chain.nextEntry measure kind payload writer))
  | proposed (localNode : NodeId) (proposalId : String)
      (hNode : localNode ∈ l.chain.epoch.activeSet) (hNew : l.proposals.lookup proposalId = none) :
      LedgerStep measure l (l.voted measure localNode
        (.new proposalId l.chain.epoch.number l.chain.constitution.hash localNode))
  | voted (localNode : NodeId) (proposalId : String) (p : EpochAdvanceProposal)
      (hLookup : l.proposals.lookup proposalId = some p)
      (hNode : localNode ∈ l.chain.epoch.activeSet) (hEpoch : p.fromEpoch = l.chain.epoch.number)
      (hOpen : p.closed = false) :
      LedgerStep measure l (l.voted measure localNode (p.withVote localNode))
  | advanced (localNode : NodeId) (proposalId : String) (p : EpochAdvanceProposal)
      (hLookup : l.proposals.lookup proposalId = some p)
      (hNode : localNode ∈ l.chain.epoch.activeSet) (hEpoch : p.fromEpoch = l.chain.epoch.number)
      (hOpen : p.closed = false) (hNeed : l.governanceT ≤ (p.withVote localNode).votes.length) :
      LedgerStep measure l ((l.voted measure localNode (p.withVote localNode)).advanced measure
        localNode (p.withVote localNode).close)

/-- What any call leaves of the ledger. -/
theorem LedgerNode.step_ledger (measure : String → String) (s : LedgerNode)
    (h : s.ledger.Numbered) (call : LedgerCall) :
    LedgerStep measure s.ledger (s.step measure call).ledger := by
  cases call with
  | proposeEpochAdvance localNode proposalId =>
    show LedgerStep _ _ (ProposeEpochAdvance.execute measure localNode proposalId s.ledger).2
    rcases ProposeEpochAdvance.execute_cases measure localNode proposalId h with
      ⟨e, hEq⟩ | ⟨p, rfl, hNode, hNew, hEq⟩
    · rw [hEq]
      exact .refused
    · rw [hEq]
      exact .proposed localNode proposalId hNode hNew
  | voteEpochAdvance localNode proposalId =>
    show LedgerStep _ _ (VoteEpochAdvance.execute measure localNode proposalId s.ledger).2
    rcases VoteEpochAdvance.execute_cases measure localNode proposalId h with
      ⟨e, hEq⟩ | ⟨p, hLookup, hNode, hEpoch, hOpen, ⟨-, hEq⟩ | ⟨hNeed, hEq⟩⟩
    · rw [hEq]
      exact .refused
    · rw [hEq]
      exact .voted localNode proposalId p hLookup hNode hEpoch hOpen
    · rw [hEq]
      exact .advanced localNode proposalId p hLookup hNode hEpoch hOpen hNeed
  | accrueMinerRewards accrue economyWrite profitSats =>
    -- the economy decides whether there is an event, and the ledger whether it is entered
    show LedgerStep _ _ (accrue.execute measure economyWrite profitSats s.economy s.ledger).2.2
    rcases accrue.execute_ledger measure economyWrite profitSats s.economy s.ledger with
      hEq | ⟨hAdmits, payload, hEq⟩
    · rw [hEq]
      exact .refused
    · rw [hEq]
      exact .event accrue.writer .profitAllocated payload hAdmits.1 (by decide)
  | accrueGovernanceWork gov economyWrite job participants context =>
    show LedgerStep _ _ { s.ledger with chain := (gov.execute measure economyWrite job participants
      context s.economy.toEconomyPools s.ledger.chain).2.2 }
    rcases gov.execute_ledger measure economyWrite job participants context
      s.economy.toEconomyPools s.ledger.chain with hEq | ⟨hAdmits, hEq⟩
    · rw [hEq]
      exact .refused
    · rw [hEq]
      exact .event gov.writer .governanceRewardAccrued _ hAdmits.1 (by decide)
  | reshareEvent writer event payload =>
    show LedgerStep _ _ { s.ledger with
      chain := (s.ledger.chain.appendLedgerEvent measure writer event.kind payload).2 }
    rcases s.ledger.chain.appendLedgerEvent_cases measure writer event.kind payload with
      ⟨hAdmits, hEq⟩ | ⟨-, e, hEq⟩
    · rw [hEq]
      exact .event writer event.kind payload hAdmits.1 (by cases event <;> decide)
    · rw [hEq]
      exact .refused

/-! ## The chain -/

/-- The entries are numbered and linked. -/
abbrev Chained (entries : List LedgerEntry) : Prop :=
  HashChain.Linked LedgerEntry.index LedgerEntry.prevHash LedgerEntry.entryHash entries

/-- The hashes of an entry are those of its parts and of some payload. -/
def LedgerEntry.Sealed (measure : String → String) (e : LedgerEntry) : Prop :=
  ∃ payload, e = .chain measure e.index e.epoch e.kind payload e.writer e.prevHash

/-- The epochs of the advances, in order. -/
def GovernanceLedger.advances (c : GovernanceLedger) : List Nat :=
  (c.entries.filter fun e => e.kind = .epochAdvanced).map LedgerEntry.epoch

/-- What the entries of a chain keep. -/
structure GovernanceLedger.Ordered (measure : String → String) (c : GovernanceLedger) : Prop where
  started : c.entries ≠ []
  chained : Chained c.entries
  hashed : ∀ e ∈ c.entries, e.Sealed measure
  writers : ∀ e ∈ c.entries.tail, e.writer ∈ c.epoch.activeSet
  epochs : c.advances = List.range' 1 c.epoch.number

namespace GovernanceLedger

variable {measure : String → String} {c : GovernanceLedger} {number : Nat}
  {kind : LedgerEventKind} {payload : String} {writer : NodeId}

theorem advances_concat_of_ne {entries : List LedgerEntry} {e : LedgerEntry} {epoch : Epoch}
    (h : e.kind ≠ .epochAdvanced) :
    advances { c with epoch, entries := entries ++ [e] } = advances { c with entries } := by
  unfold advances
  dsimp only
  rw [List.filter_append, List.filter_cons_of_neg (by simpa using h), List.filter_nil,
    List.append_nil]

theorem advances_concat {entries : List LedgerEntry} {e : LedgerEntry} {epoch : Epoch}
    (h : e.kind = .epochAdvanced) :
    advances { c with epoch, entries := entries ++ [e] } =
      advances { c with entries } ++ [e.epoch] := by
  unfold advances
  dsimp only
  rw [List.filter_append, List.map_append, List.filter_cons_of_pos (by simpa using h),
    List.filter_nil, List.map_singleton]

/-- The next entry of a member goes on the chain. -/
theorem Ordered.concat (h : c.Ordered measure) (hWriter : writer ∈ c.epoch.activeSet)
    {epoch : Epoch} (hActive : epoch.activeSet = c.epoch.activeSet)
    (hAdvances : advances { c with epoch, entries :=
      c.entries ++ [c.entryAt measure number kind payload writer] } = List.range' 1 epoch.number) :
    Ordered measure { c with epoch, entries :=
      c.entries ++ [c.entryAt measure number kind payload writer] } := by
  refine ⟨List.append_ne_nil_of_right_ne_nil _ (List.cons_ne_nil _ _), ?_, ?_, ?_, hAdvances⟩
  · -- the new entry follows the head
    refine h.chained.concat rfl fun last hLast => ?_
    show c.headHash = last.entryHash
    rw [headHash, Option.mem_def.mp hLast]
    rfl
  · intro e he
    rcases List.mem_append.mp he with hOld | hNew
    · exact h.hashed e hOld
    · rw [List.mem_singleton.mp hNew]
      exact ⟨payload, rfl⟩
  · intro e he
    -- every entry but the genesis has its writer among the active
    dsimp only at he ⊢
    rw [List.tail_append_of_ne_nil h.started] at he
    rw [hActive]
    rcases List.mem_append.mp he with hOld | hNew
    · exact h.writers e hOld
    · rw [List.mem_singleton.mp hNew]
      exact hWriter

/-- An event leaves the epoch. -/
theorem Ordered.event (h : c.Ordered measure) (hWriter : writer ∈ c.epoch.activeSet)
    (hKind : kind ≠ .epochAdvanced) :
    Ordered measure { c with entries :=
      c.entries ++ [c.entryAt measure number kind payload writer] } :=
  h.concat hWriter rfl ((advances_concat_of_ne (c := c) hKind).trans h.epochs)

/-- An advance is to the next epoch. -/
theorem Ordered.advance (h : c.Ordered measure) (hWriter : writer ∈ c.epoch.activeSet) :
    Ordered measure { c with
      epoch := { c.epoch with number := c.epoch.number + 1 }
      entries := c.entries ++
        [c.entryAt measure (c.epoch.number + 1) .epochAdvanced payload writer] } := by
  refine h.concat hWriter rfl ?_
  rw [advances_concat (c := c) rfl]
  show c.advances ++ [c.epoch.number + 1] = _
  rw [h.epochs, List.range'_1_concat, Nat.add_comm 1]

theorem Ordered.numbered (h : c.Ordered measure) :
    ∀ prev ∈ c.entries.getLast?, c.entries.length = prev.index + 1 :=
  fun _ hPrev => h.chained.index_last hPrev

end GovernanceLedger

/-! ## The votes -/

/-- A vote of the node on the proposal is recorded, in the epoch of the proposal. -/
def VoteRecorded (measure : String → String) (entries : List LedgerEntry)
    (p : EpochAdvanceProposal) (voter : NodeId) : Prop :=
  ∃ e ∈ entries, e.kind = .voteRecorded ∧ e.writer = voter ∧ e.epoch = p.fromEpoch ∧
    ∃ q : EpochAdvanceProposal, q.id = p.id ∧ q.fromEpoch = p.fromEpoch ∧ voter ∈ q.votes ∧
      e.payloadHash = measure q.toJson

/-- What a stored proposal keeps. -/
structure EpochAdvanceProposal.Cast (measure : String → String) (c : GovernanceLedger)
    (id : String) (p : EpochAdvanceProposal) : Prop where
  id_eq : p.id = id
  toEpoch : p.toEpoch = p.fromEpoch + 1
  nodup : p.votes.Nodup
  active : ∀ v ∈ p.votes, v ∈ c.epoch.activeSet
  recorded : ∀ v ∈ p.votes, VoteRecorded measure c.entries p v

/-- A closed proposal for the epoch has its votes before the entry. -/
def InMemoryLedger.Backed (measure : String → String) (l : InMemoryLedger) (i : Nat)
    (e : LedgerEntry) : Prop :=
  ∃ p, l.proposals.lookup p.id = some p ∧ p.closed = true ∧ p.fromEpoch + 1 = e.epoch ∧
    l.governanceT ≤ p.votes.length ∧ p.votes.Nodup ∧
    ∀ v ∈ p.votes, v ∈ l.chain.epoch.activeSet ∧
      VoteRecorded measure (l.chain.entries.take i) p v

/-- What the use cases keep. -/
structure Sound (measure : String → String) (l : InMemoryLedger) : Prop where
  ordered : l.chain.Ordered measure
  proposals : ∀ id p, l.proposals.lookup id = some p → p.Cast measure l.chain id
  backed : ∀ i e, l.chain.entries[i]? = some e → e.kind = .epochAdvanced → l.Backed measure i e

section Votes

variable {measure : String → String} {l : InMemoryLedger} {c c' : GovernanceLedger}
  {p : EpochAdvanceProposal} {id : String} {voter : NodeId}

theorem VoteRecorded.mono {entries entries' : List LedgerEntry}
    (h : VoteRecorded measure entries p voter) (hSub : ∀ e ∈ entries, e ∈ entries') :
    VoteRecorded measure entries' p voter := by
  obtain ⟨e, he, hRecord⟩ := h
  exact ⟨e, hSub e he, hRecord⟩

theorem EpochAdvanceProposal.Cast.mono (h : p.Cast measure c id)
    (hActive : c'.epoch.activeSet = c.epoch.activeSet) (hSub : ∀ e ∈ c.entries, e ∈ c'.entries) :
    p.Cast measure c' id :=
  ⟨h.id_eq, h.toEpoch, h.nodup, fun v hv => hActive ▸ h.active v hv,
    fun v hv => (h.recorded v hv).mono hSub⟩

/-- What backs an entry stays, with the entries before it and the closed proposals. -/
theorem InMemoryLedger.Backed.mono {i : Nat} {e : LedgerEntry} {l' : InMemoryLedger}
    (h : l.Backed measure i e)
    (hClosed : ∀ id q, l.proposals.lookup id = some q → q.closed = true →
      l'.proposals.lookup id = some q)
    (hT : l'.governanceT = l.governanceT)
    (hActive : l'.chain.epoch.activeSet = l.chain.epoch.activeSet)
    (hEntries : l'.chain.entries.take i = l.chain.entries.take i) : l'.Backed measure i e := by
  obtain ⟨p, hLookup, hp, hEpoch, hNeed, hNodup, hVotes⟩ := h
  refine ⟨p, hClosed p.id p hLookup hp, hp, hEpoch, hT ▸ hNeed, hNodup, fun v hv => ?_⟩
  rw [hActive, hEntries]
  exact hVotes v hv

end Votes

namespace Sound

variable {measure : String → String} {l : InMemoryLedger} {p : EpochAdvanceProposal}
  {localNode writer : NodeId} {kind : LedgerEventKind} {payload : String}

/-- One more entry leaves what is backed, and is backed itself where it advances. -/
theorem backed_concat (h : Sound measure l) {l' : InMemoryLedger} {entry : LedgerEntry}
    (hEntries : l'.chain.entries = l.chain.entries ++ [entry])
    (hClosed : ∀ id q, l.proposals.lookup id = some q → q.closed = true →
      l'.proposals.lookup id = some q)
    (hT : l'.governanceT = l.governanceT)
    (hActive : l'.chain.epoch.activeSet = l.chain.epoch.activeSet)
    (hEntry : entry.kind = .epochAdvanced → l'.Backed measure l.chain.entries.length entry) :
    ∀ i e, l'.chain.entries[i]? = some e → e.kind = .epochAdvanced → l'.Backed measure i e := by
  intro i e he hKind
  rw [hEntries] at he
  by_cases hi : i < l.chain.entries.length
  · rw [List.getElem?_append_left hi] at he
    refine (h.backed i e he hKind).mono hClosed hT hActive ?_
    rw [hEntries, List.take_append_of_le_length hi.le]
  · have hLast : i = l.chain.entries.length := by
      have hLength := (List.getElem?_eq_some_iff.mp he).1
      rw [List.length_append, List.length_singleton] at hLength
      omega
    subst hLast
    rw [List.getElem?_concat_length] at he
    obtain rfl := Option.some.inj he
    exact hEntry hKind

theorem genesis (measure : String → String) (constitution : Constitution)
    (governanceT pRewardBps : Nat) (activeSet : List NodeId) (writer : NodeId) (payload : String) :
    Sound measure (.genesis measure constitution governanceT pRewardBps activeSet writer payload) := by
  refine ⟨⟨List.cons_ne_nil _ _, ⟨rfl, .singleton _⟩, ?_, nofun, rfl⟩, ?_, ?_⟩
  · intro e he
    rw [List.mem_singleton.mp he]
    exact ⟨payload, rfl⟩
  · intro id p hLookup
    cases hLookup
  · intro i e he hKind
    obtain rfl := List.mem_singleton.mp (List.mem_of_getElem? he)
    cases hKind

/-- An entry that is no advance. -/
theorem event (h : Sound measure l) (hWriter : writer ∈ l.chain.epoch.activeSet)
    (hKind : kind ≠ .epochAdvanced) :
    Sound measure (l.extend (l.chain.nextEntry measure kind payload writer)) := by
  refine ⟨h.ordered.event hWriter hKind, fun id p hLookup => ?_, ?_⟩
  · exact (h.proposals id p hLookup).mono rfl fun e he => List.mem_append_left _ he
  · exact h.backed_concat rfl (fun _ _ hq _ => hq) rfl rfl fun hAdvanced => absurd hAdvanced hKind

/-- A vote, saved and recorded. -/
theorem voted (h : Sound measure l) (hNode : localNode ∈ l.chain.epoch.activeSet)
    (hToEpoch : p.toEpoch = p.fromEpoch + 1) (hEpoch : p.fromEpoch = l.chain.epoch.number)
    (hNodup : p.votes.Nodup) (hActive : ∀ v ∈ p.votes, v ∈ l.chain.epoch.activeSet)
    (hVote : localNode ∈ p.votes)
    (hOld : ∀ v ∈ p.votes, v = localNode ∨ VoteRecorded measure l.chain.entries p v)
    (hOpen : ∀ q, l.proposals.lookup p.id = some q → q.closed = false) :
    Sound measure (l.voted measure localNode p) := by
  have hSub : ∀ e ∈ l.chain.entries, e ∈ (l.voted measure localNode p).chain.entries :=
    fun e he => List.mem_append_left _ he
  have hRecorded : VoteRecorded measure (l.voted measure localNode p).chain.entries p localNode :=
    ⟨voteEntry measure l.chain.epoch.number localNode p l,
      List.mem_append_right _ (List.mem_singleton_self _), rfl, rfl, hEpoch.symm, p, rfl, rfl,
      hVote, rfl⟩
  have hLookup (id : String) : (l.voted measure localNode p).proposals.lookup id =
      if id = p.id then some p else l.proposals.lookup id := InMemoryLedger.lookup_saveProposal id
  refine ⟨h.ordered.event hNode (by decide), fun id q hq => ?_, ?_⟩
  · rw [hLookup] at hq
    split at hq
    · rename_i hId
      obtain rfl := Option.some.inj hq
      refine ⟨hId.symm, hToEpoch, hNodup, hActive, fun v hv => ?_⟩
      rcases hOld v hv with rfl | hBefore
      · exact hRecorded
      · exact hBefore.mono hSub
    · exact (h.proposals id q hq).mono rfl hSub
  · refine h.backed_concat rfl (fun id q hq hClosed => ?_) rfl rfl nofun
    -- a closed proposal is not the one that is saved
    rw [hLookup, if_neg, hq]
    rintro rfl
    rw [hOpen q hq] at hClosed
    cases hClosed

/-- A proposal that has its votes is closed, and the epoch advanced. -/
theorem advanced (h : Sound measure l) (hNode : localNode ∈ l.chain.epoch.activeSet)
    (hLookup : l.proposals.lookup p.id = some p) (hEpoch : p.fromEpoch = l.chain.epoch.number)
    (hOpen : p.closed = false) (hNeed : l.governanceT ≤ p.votes.length) :
    Sound measure (l.advanced measure localNode p.close) := by
  have hCast := h.proposals p.id p hLookup
  have hTo : p.close.toEpoch = l.chain.epoch.number + 1 := hCast.toEpoch.trans (by rw [hEpoch])
  have hSub : ∀ e ∈ l.chain.entries, e ∈ (l.advanced measure localNode p.close).chain.entries :=
    fun e he => List.mem_append_left _ he
  -- only this proposal changes
  have hSaved (id : String) : (l.advanced measure localNode p.close).proposals.lookup id =
      if id = p.id then some p.close else l.proposals.lookup id :=
    InMemoryLedger.lookup_saveProposal id
  refine ⟨?_, fun id q hq => ?_, ?_⟩
  · have hOrdered := @GovernanceLedger.Ordered.advance measure l.chain
      (VoteEpochAdvance.advancePayload p.close) localNode h.ordered hNode
    rw [← hTo] at hOrdered
    exact hOrdered
  · rw [hSaved] at hq
    split at hq
    · rename_i hId
      obtain rfl := Option.some.inj hq
      exact ⟨hId.symm, hCast.toEpoch, hCast.nodup, hCast.active,
        fun v hv => (hCast.recorded v hv).mono hSub⟩
    · exact (h.proposals id q hq).mono rfl hSub
  · refine h.backed_concat rfl (fun id q hq hClosed => ?_) rfl rfl fun _ => ?_
    · -- a proposal that was closed before is another one
      rw [hSaved, if_neg, hq]
      rintro rfl
      obtain rfl := Option.some.inj (hLookup.symm.trans hq)
      rw [hOpen] at hClosed
      cases hClosed
    · refine ⟨p.close, by rw [hSaved]; exact if_pos rfl, rfl, hCast.toEpoch.symm, hNeed,
        hCast.nodup, fun v hv => ⟨hCast.active v hv, ?_⟩⟩
      show VoteRecorded measure ((l.chain.entries ++ [_]).take l.chain.entries.length) p.close v
      rw [List.take_left]
      exact hCast.recorded v hv

/-- A call keeps the ledger sound. -/
theorem step (h : Sound measure l) {l' : InMemoryLedger} (hStep : LedgerStep measure l l') :
    Sound measure l' := by
  -- a vote that the ledger has not recorded yet
  have hVoted {q : EpochAdvanceProposal} {id : String} {node : NodeId}
      (hLookup : l.proposals.lookup id = some q) (hNode : node ∈ l.chain.epoch.activeSet)
      (hEpoch : q.fromEpoch = l.chain.epoch.number) (hOpen : q.closed = false) :
      Sound measure (l.voted measure node (q.withVote node)) := by
    have hCast := h.proposals id q hLookup
    obtain ⟨votes, hEq⟩ := q.withVote_eq node
    refine h.voted hNode ?_ ?_ (EpochAdvanceProposal.nodup_withVote hCast.nodup)
      (fun v hv => ?_) (EpochAdvanceProposal.mem_withVote.mpr (.inl rfl)) (fun v hv => ?_) ?_
    · rw [hEq]
      exact hCast.toEpoch
    · rw [hEq]
      exact hEpoch
    · rcases EpochAdvanceProposal.mem_withVote.mp hv with rfl | hOld
      · exact hNode
      · exact hCast.active v hOld
    · rcases EpochAdvanceProposal.mem_withVote.mp hv with hNew | hOld
      · exact .inl hNew
      · rw [hEq]
        exact .inr (hCast.recorded v hOld)
    · intro r hr
      rw [EpochAdvanceProposal.withVote_id, hCast.id_eq, hLookup] at hr
      obtain rfl := Option.some.inj hr
      exact hOpen
  cases hStep with
  | refused => exact h
  | event writer kind payload hWriter hKind => exact h.event hWriter hKind
  | proposed node id hNode hNew =>
    refine h.voted hNode rfl rfl (List.nodup_singleton _) (fun v hv => ?_)
      (List.mem_singleton_self _) (fun v hv => .inl (List.mem_singleton.mp hv)) fun q hq => ?_
    · rw [List.mem_singleton.mp hv]
      exact hNode
    · rw [show (EpochAdvanceProposal.new id _ _ node).id = id from rfl, hNew] at hq
      cases hq
  | voted node id q hLookup hNode hEpoch hOpen => exact hVoted hLookup hNode hEpoch hOpen
  | advanced node id q hLookup hNode hEpoch hOpen hNeed =>
    refine (hVoted hLookup hNode hEpoch hOpen).advanced hNode ?_ ?_ ?_ hNeed
    · exact (InMemoryLedger.lookup_saveProposal _).trans (if_pos rfl)
    · rw [EpochAdvanceProposal.withVote_fromEpoch]
      exact hEpoch
    · rw [EpochAdvanceProposal.withVote_closed]
      exact hOpen

end Sound

/-! ## Runs -/

/-- What the ledger shows: a hash chain of the active set's entries, the epoch
advanced once for each `EpochAdvanced` entry, and each advance voted for. -/
structure Integrity (measure : String → String) (l : InMemoryLedger) : Prop where
  index : ∀ (i : Nat) (e : LedgerEntry), l.chain.entries[i]? = some e → e.index = i
  prevHash : ∀ (i : Nat) (e d : LedgerEntry), l.chain.entries[i]? = some e →
    l.chain.entries[i + 1]? = some d → d.prevHash = e.entryHash
  hashed : ∀ e ∈ l.chain.entries, e.Sealed measure
  writers : ∀ (i : Nat) (e : LedgerEntry), l.chain.entries[i + 1]? = some e →
    e.writer ∈ l.chain.epoch.activeSet
  epoch : l.chain.epoch.number =
    (l.chain.entries.filter fun e => e.kind = .epochAdvanced).length
  backed : ∀ i e, l.chain.entries[i]? = some e → e.kind = .epochAdvanced → l.Backed measure i e

theorem Sound.integrity {measure : String → String} {l : InMemoryLedger} (h : Sound measure l) :
    Integrity measure l := by
  refine ⟨fun i e => h.ordered.chained.index_eq, fun i e d => h.ordered.chained.prev_eq,
    h.ordered.hashed, fun i e he => h.ordered.writers e ?_, ?_, h.backed⟩
  · rw [← List.getElem?_tail] at he
    exact List.mem_of_getElem? he
  · have hLength := congrArg List.length h.ordered.epochs
    rw [List.length_range', GovernanceLedger.advances, List.length_map] at hLength
    exact hLength.symm

theorem LedgerNode.sound_step {measure : String → String} (s : LedgerNode) (call : LedgerCall)
    (h : Sound measure s.ledger) : Sound measure (s.step measure call).ledger :=
  h.step (step_ledger measure s h.ordered.numbered call)

/-- No call changes the threshold or the active set. -/
theorem LedgerStep.frame {measure : String → String} {l l' : InMemoryLedger}
    (h : LedgerStep measure l l') :
    l'.governanceT = l.governanceT ∧ l'.chain.epoch.activeSet = l.chain.epoch.activeSet := by
  cases h <;> exact ⟨rfl, rfl⟩

theorem LedgerNode.sound_run (measure : String → String) (constitution : Constitution)
    (governanceT pRewardBps : Nat) (activeSet : List NodeId) (writer : NodeId) (payload : String)
    (economy : EconomyBooks) (calls : List LedgerCall) :
    Sound measure (Runs.run (LedgerNode.step measure)
      ⟨.genesis measure constitution governanceT pRewardBps activeSet writer payload, economy⟩
      calls).ledger :=
  Runs.run_preserves (P := fun s : LedgerNode => Sound measure s.ledger) sound_step
    (s := ⟨.genesis measure constitution governanceT pRewardBps activeSet writer payload, economy⟩)
    (.genesis measure constitution governanceT pRewardBps activeSet writer payload) calls

/-- After every run of the use cases from the genesis, the ledger has its
integrity, over the threshold and the active set of the genesis. -/
theorem ledger_integrity (measure : String → String) (constitution : Constitution)
    (governanceT pRewardBps : Nat) (activeSet : List NodeId) (writer : NodeId) (payload : String)
    (economy : EconomyBooks) (calls : List LedgerCall) :
    let l := (Runs.run (LedgerNode.step measure)
      ⟨.genesis measure constitution governanceT pRewardBps activeSet writer payload, economy⟩
      calls).ledger
    Integrity measure l ∧ l.governanceT = governanceT ∧ l.chain.epoch.activeSet = activeSet := by
  intro l
  have hSound (calls : List LedgerCall) := LedgerNode.sound_run measure constitution governanceT
    pRewardBps activeSet writer payload economy calls
  refine ⟨(hSound calls).integrity, ?_⟩
  show (Runs.run (LedgerNode.step measure) _ calls).ledger.governanceT = governanceT ∧
    (Runs.run (LedgerNode.step measure) _ calls).ledger.chain.epoch.activeSet = activeSet
  induction calls using List.reverseRecOn with
  | nil => exact ⟨rfl, rfl⟩
  | append_singleton calls call ih =>
    rw [Runs.run_append]
    obtain ⟨hT, hActive⟩ := (LedgerNode.step_ledger measure _ (hSound calls).ordered.numbered
      call).frame
    exact ⟨hT.trans ih.1, hActive.trans ih.2⟩

end KeroseneVault
