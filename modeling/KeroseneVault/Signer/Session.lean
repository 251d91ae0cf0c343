import KeroseneVault.Lib.Table
import Mathlib.Data.List.TakeWhile

/-!
# Sessions of the signer

`vault-signer`, `session.rs`: a session takes the commitments of its signers, one by one, until
it has enough of them, and then their shares.

* `SignerIdentifier`, `SignerSession` — who signs, and what a session has of them;
* `addCommitments`, `addSignatureShare` — the two ways in;
* `addBatch` — commitments that come in one request;
* `taken` — the entries of a batch that a session takes.

Main results:

* `addCommitments_eq_ok`, `addSignatureShare_eq_ok` — what a session looks like afterwards;
* `addBatch_accepted_iff` — a batch is accepted if all its entries are taken;
* `grown_addBatch` — those that are taken are in the session, in any case.
-/

namespace KeroseneVault

/-- An `Identifier`: a number that is not zero. -/
@[ext] structure SignerIdentifier where
  index : ℕ
  nonzero : index ≠ 0
deriving DecidableEq

/-- `SignerError`, as far as sessions make them. -/
inductive SignerError where
  | roundError (text : String)
  | sessionNotFound
  | sessionAlreadyCompleted
  | duplicateCommitment
  | internal (text : String)

/-- `Display`. -/
def SignerError.text : SignerError → String
  | .roundError text => s!"round error: {text}"
  | .sessionNotFound => "session not found"
  | .sessionAlreadyCompleted => "session already completed"
  | .duplicateCommitment => "duplicate commitment"
  | .internal text => s!"internal: {text}"

/-- `SessionState`. -/
inductive SignerState where
  | awaitingCommitments
  | awaitingSignatureShares
  | complete
  | failed (reason : String)
deriving DecidableEq

/-- `SigningSession`. -/
structure SignerSession (C S : Type) where
  id : String
  message : List UInt8
  state : SignerState
  commitments : Table SignerIdentifier C
  signatureShares : Table SignerIdentifier S
  expectedParticipants : List SignerIdentifier
  minSigners : ℕ

/-- A prefix is taken by what holds of the elements. -/
theorem takeWhile_congr {α : Type} {p q : α → Bool} {l : List α} (h : ∀ a ∈ l, p a = q a) :
    l.takeWhile p = l.takeWhile q := by
  induction l with
  | nil => rfl
  | cons a l ih =>
    rw [List.takeWhile_cons, List.takeWhile_cons, h a List.mem_cons_self,
      ih fun b hb => h b (List.mem_cons_of_mem a hb)]

namespace SignerSession

variable {C S : Type}

/-- `SigningSession::new`. -/
def new (id : String) (message : List UInt8) (expectedParticipants : List SignerIdentifier)
    (minSigners : ℕ) : SignerSession C S :=
  { id, message, state := .awaitingCommitments, commitments := ∅, signatureShares := ∅,
    expectedParticipants, minSigners }

/-- `add_commitments`. -/
def addCommitments (s : SignerSession C S) (identifier : SignerIdentifier) (commitments : C) :
    Except SignerError (SignerSession C S) :=
  if s.state ≠ .awaitingCommitments then .error .sessionAlreadyCompleted
  else if identifier ∈ s.commitments then .error .duplicateCommitment
  else
    let s := { s with commitments := s.commitments.insert identifier commitments }
    if s.commitments.size ≥ s.minSigners then .ok { s with state := .awaitingSignatureShares }
    else .ok s

/-- `add_signature_share`. -/
def addSignatureShare (s : SignerSession C S) (identifier : SignerIdentifier) (share : S) :
    Except SignerError (SignerSession C S) :=
  if s.state = .complete then .error .sessionAlreadyCompleted
  else if s.state = .awaitingCommitments then .error (.roundError "still awaiting commitments")
  else
    let s := { s with signatureShares := s.signatureShares.insert identifier share }
    if s.signatureShares.size ≥ s.minSigners then .ok { s with state := .complete }
    else .ok s

/-- `Identifier::try_from` a number; `zero` is the text of its error. -/
def identifierOf (zero : String) (n : ℕ) : Except String SignerIdentifier :=
  if h : n = 0 then .error zero else .ok ⟨n, h⟩

/-- The loop of `SubmitCommitments`: the answer, and what the session is then. -/
def addBatch (zero : String) : List (ℕ × C) → SignerSession C S →
    Except String Unit × SignerSession C S
  | [], s => (.ok (), s)
  | (n, commitments) :: rest, s =>
    match identifierOf zero n with
    | .error e => (.error s!"invalid identifier {n}: {e}", s)
    | .ok identifier =>
      match s.addCommitments identifier commitments with
      | .error e => (.error s!"add commitment: {e.text}", s)
      -- what was added stays, whatever comes of the rest
      | .ok s => addBatch zero rest s

-- ---------------------------------------------------------------------------
-- One signer
-- ---------------------------------------------------------------------------

variable {s s' : SignerSession C S} {identifier : SignerIdentifier}

/-- The session with the commitments of one more signer. -/
def withCommitments (s : SignerSession C S) (identifier : SignerIdentifier) (commitments : C) :
    SignerSession C S :=
  { s with
    commitments := s.commitments.insert identifier commitments
    state := if Table.size (s.commitments.insert identifier commitments) ≥ s.minSigners then
      .awaitingSignatureShares else s.state }

/-- The session with the share of one more signer. -/
def withSignatureShare (s : SignerSession C S) (identifier : SignerIdentifier) (share : S) :
    SignerSession C S :=
  { s with
    signatureShares := s.signatureShares.insert identifier share
    state := if Table.size (s.signatureShares.insert identifier share) ≥ s.minSigners then
      .complete else s.state }

theorem addCommitments_eq_ok {commitments : C} :
    s.addCommitments identifier commitments = .ok s' ↔
      s.state = .awaitingCommitments ∧ identifier ∉ s.commitments ∧
        s' = s.withCommitments identifier commitments := by
  unfold addCommitments withCommitments
  by_cases hState : s.state = .awaitingCommitments
  · rw [if_neg (fun hNe => hNe hState)]
    by_cases hMem : identifier ∈ s.commitments
    · simp [hMem]
    · rw [if_neg hMem]
      dsimp only
      -- the two answers differ in the state, and so does `withCommitments`
      split
      · rw [Except.ok.injEq]
        exact ⟨fun hEq => ⟨hState, hMem, hEq.symm⟩, fun h => h.2.2.symm⟩
      · rw [Except.ok.injEq]
        exact ⟨fun hEq => ⟨hState, hMem, hEq.symm⟩, fun h => h.2.2.symm⟩
  · simp [hState]

theorem addSignatureShare_eq_ok {share : S} :
    s.addSignatureShare identifier share = .ok s' ↔
      s.state ≠ .complete ∧ s.state ≠ .awaitingCommitments ∧
        s' = s.withSignatureShare identifier share := by
  unfold addSignatureShare withSignatureShare
  by_cases hComplete : s.state = .complete
  · simp [hComplete]
  rw [if_neg hComplete]
  by_cases hAwaiting : s.state = .awaitingCommitments
  · simp [hAwaiting]
  rw [if_neg hAwaiting]
  dsimp only
  split
  · rw [Except.ok.injEq]
    exact ⟨fun hEq => ⟨hComplete, hAwaiting, hEq.symm⟩, fun h => h.2.2.symm⟩
  · rw [Except.ok.injEq]
    exact ⟨fun hEq => ⟨hComplete, hAwaiting, hEq.symm⟩, fun h => h.2.2.symm⟩

-- ---------------------------------------------------------------------------
-- A batch
-- ---------------------------------------------------------------------------

/-- A number that makes an identifier, of which the session has no commitments. -/
def Takes (s : SignerSession C S) (n : ℕ) : Prop :=
  n ≠ 0 ∧ n ∉ s.commitments.keys.map SignerIdentifier.index

instance decidableTakes (s : SignerSession C S) : DecidablePred s.Takes := fun _ =>
  instDecidableAnd

/-- How many commitments the session takes before it goes on to the shares. It looks at their
number after it took one. -/
def room (s : SignerSession C S) : ℕ := max 1 (s.minSigners - s.commitments.size)

/-- The entries of a batch that the session takes. -/
def taken (s : SignerSession C S) (batch : List (ℕ × C)) : List (ℕ × C) :=
  if s.state = .awaitingCommitments then (batch.takeWhile fun e => s.Takes e.1).take s.room
  else []

theorem index_mem_iff {ids : List SignerIdentifier} {identifier : SignerIdentifier} :
    identifier.index ∈ ids.map SignerIdentifier.index ↔ identifier ∈ ids := by
  rw [List.mem_map]
  constructor
  · rintro ⟨⟨n, hn⟩, hMem, hIndex⟩
    obtain ⟨m, hm⟩ := identifier
    obtain rfl : n = m := hIndex
    exact hMem
  · exact fun hMem => ⟨identifier, hMem, rfl⟩

theorem takes_index : s.Takes identifier.index ↔ identifier ∉ s.commitments := by
  unfold Takes
  rw [index_mem_iff, and_iff_right identifier.nonzero, AList.mem_keys]

theorem mem_withCommitments {commitments : C} {other : SignerIdentifier} :
    other ∈ (s.withCommitments identifier commitments).commitments ↔
      other = identifier ∨ other ∈ s.commitments :=
  AList.mem_insert _

/-- A number of another signer is taken as before. -/
theorem takes_withCommitments {commitments : C} {n : ℕ} (h : n ≠ identifier.index) :
    (s.withCommitments identifier commitments).Takes n ↔ s.Takes n := by
  by_cases hn : n = 0
  · subst hn
    exact ⟨fun hTakes => absurd rfl hTakes.1, fun hTakes => absurd rfl hTakes.1⟩
  · let other : SignerIdentifier := ⟨n, hn⟩
    have hOther : other ≠ identifier := fun hEq => h (congrArg SignerIdentifier.index hEq)
    show (s.withCommitments identifier commitments).Takes other.index ↔ s.Takes other.index
    rw [takes_index, takes_index, mem_withCommitments, or_iff_right hOther]

/-- Where the session does not take the first entry, it takes none. -/
theorem taken_cons_of_not {e : ℕ × C} {rest : List (ℕ × C)}
    (h : ¬ (s.state = .awaitingCommitments ∧ s.Takes e.1)) : s.taken (e :: rest) = [] := by
  unfold taken
  split
  · rename_i hState
    have hTakes : ¬ s.Takes e.1 := fun hTakes => h ⟨hState, hTakes⟩
    rw [List.takeWhile_cons, if_neg (by simpa using hTakes), List.take_nil]
  · rfl

/-- Where it takes the first entry, it goes on with the rest. -/
theorem taken_cons {commitments : C} {rest : List (ℕ × C)} (hState : s.state = .awaitingCommitments)
    (hTakes : s.Takes identifier.index) (hNew : identifier.index ∉ rest.map Prod.fst) :
    s.taken ((identifier.index, commitments) :: rest) = (identifier.index, commitments) ::
      (s.withCommitments identifier commitments).taken rest := by
  have hSize : Table.size (s.withCommitments identifier commitments).commitments =
      s.commitments.size + 1 :=
    Table.size_insert_of_notMem (takes_index.mp hTakes) commitments
  -- no later entry is of the same signer, so the session takes the same of them
  have hRest : (rest.takeWhile fun e => (s.withCommitments identifier commitments).Takes e.1) =
      rest.takeWhile fun e => s.Takes e.1 :=
    takeWhile_congr fun e he => decide_eq_decide.mpr
      (takes_withCommitments fun hEq => hNew (hEq ▸ List.mem_map_of_mem he))
  unfold taken
  rw [if_pos hState, List.takeWhile_cons, if_pos (by simpa using hTakes), hRest]
  have hAfter : (s.withCommitments identifier commitments).state =
      if Table.size (s.withCommitments identifier commitments).commitments ≥ s.minSigners then
        .awaitingSignatureShares else s.state := rfl
  rw [hAfter, hSize]
  by_cases hEnough : s.commitments.size + 1 ≥ s.minSigners
  · -- this was the last one
    have hRoom : s.room = 1 := by
      unfold room
      omega
    rw [if_pos hEnough, if_neg (by decide), hRoom, List.take_succ_cons, List.take_zero]
  · have hRoom : s.room = (s.withCommitments identifier commitments).room + 1 := by
      unfold room
      rw [hSize]
      show _ = max 1 (s.minSigners - _) + 1
      omega
    rw [if_neg hEnough, if_pos hState, hRoom, List.take_succ_cons]

theorem takes_of_mem_taken {batch : List (ℕ × C)} {e : ℕ × C} (h : e ∈ s.taken batch) :
    s.Takes e.1 := by
  unfold taken at h
  split at h
  · have hTakes := List.mem_takeWhile_imp (List.mem_of_mem_take h)
    exact of_decide_eq_true hTakes
  · cases h

/-- There is room for one at least. -/
theorem taken_cons_eq_nil_iff {e : ℕ × C} {rest : List (ℕ × C)} :
    s.taken (e :: rest) = [] ↔ ¬ (s.state = .awaitingCommitments ∧ s.Takes e.1) := by
  refine ⟨?_, taken_cons_of_not⟩
  rintro hNil ⟨hState, hTakes⟩
  have hRoom : s.room ≠ 0 := by
    unfold room
    omega
  obtain ⟨k, hk⟩ := Nat.exists_eq_succ_of_ne_zero hRoom
  rw [taken, if_pos hState, List.takeWhile_cons, if_pos (by simpa using hTakes), hk,
    List.take_succ_cons] at hNil
  cases hNil

/-- The whole batch is taken where all of it is new and there is room for it. -/
theorem taken_eq_self_iff {batch : List (ℕ × C)} (hBatch : batch ≠ []) :
    s.taken batch = batch ↔
      s.state = .awaitingCommitments ∧ (∀ e ∈ batch, s.Takes e.1) ∧ batch.length ≤ s.room := by
  unfold taken
  split
  · rename_i hState
    rw [and_iff_right hState]
    constructor
    · -- neither the prefix nor its cut can have lost an entry
      intro hAll
      have hWhole : (batch.takeWhile fun e => decide (s.Takes e.1)) = batch := by
        have hLength := congrArg List.length hAll
        rw [List.length_take] at hLength
        exact (List.takeWhile_prefix _).eq_of_length_le (by omega)
      refine ⟨fun e he => ?_, ?_⟩
      · exact of_decide_eq_true (List.takeWhile_eq_self_iff.mp hWhole e he)
      · rw [hWhole] at hAll
        exact List.take_eq_self_iff _ |>.mp hAll
    · rintro ⟨hTakes, hLength⟩
      rw [List.takeWhile_eq_self_iff.mpr fun e he => decide_eq_true (hTakes e he)]
      exact List.take_of_length_le hLength
  · rename_i hState
    exact ⟨fun h => absurd h.symm hBatch, fun h => absurd h.1 hState⟩

/-- A batch of which the session takes nothing, or everything. -/
def AllOrNothing (s : SignerSession C S) (batch : List (ℕ × C)) : Prop :=
  s.state ≠ .awaitingCommitments ∨ (∃ first ∈ batch.head?, ¬ s.Takes first.1) ∨
    (∀ e ∈ batch, s.Takes e.1) ∧ batch.length ≤ s.room

theorem takes_allOrNothing_iff {batch : List (ℕ × C)} (hBatch : batch ≠ []) :
    s.AllOrNothing batch ↔ s.taken batch = [] ∨ s.taken batch = batch := by
  obtain ⟨first, rest, rfl⟩ := List.exists_cons_of_ne_nil hBatch
  rw [taken_cons_eq_nil_iff, taken_eq_self_iff hBatch]
  unfold AllOrNothing
  simp only [List.head?_cons, Option.mem_some_iff, exists_eq_left']
  tauto

-- ---------------------------------------------------------------------------
-- What a batch does
-- ---------------------------------------------------------------------------

/-- The session has the commitments of some more signers, and is otherwise as it was. -/
structure Grown (s : SignerSession C S) (ids : List ℕ) (s' : SignerSession C S) : Prop where
  mem : ∀ identifier, identifier ∈ s'.commitments ↔
    identifier ∈ s.commitments ∨ identifier.index ∈ ids
  shares : s'.signatureShares = s.signatureShares
  participants : s'.expectedParticipants = s.expectedParticipants
  minSigners : s'.minSigners = s.minSigners
  state : s'.state = s.state ∨ s'.state = .awaitingSignatureShares

theorem Grown.refl (s : SignerSession C S) : Grown s [] s :=
  ⟨fun _ => by simp, rfl, rfl, rfl, .inl rfl⟩

theorem Grown.cons {commitments : C} {ids : List ℕ}
    (h : Grown (s.withCommitments identifier commitments) ids s') :
    Grown s (identifier.index :: ids) s' := by
  refine ⟨fun other => ?_, h.shares, h.participants, h.minSigners, ?_⟩
  · have hIndex : other.index = identifier.index ↔ other = identifier := by
      constructor
      · obtain ⟨n, hn⟩ := other
        obtain ⟨m, hm⟩ := identifier
        rintro (rfl : n = m)
        rfl
      · exact fun hEq => congrArg _ hEq
    rw [h.mem other, mem_withCommitments, List.mem_cons, hIndex]
    tauto
  · rcases h.state with hSame | hShares
    · -- the batch may end with the signer that was added first
      rw [hSame]
      show (if _ then _ else s.state) = s.state ∨ (if _ then _ else s.state) = _
      split
      · exact .inr rfl
      · exact .inl rfl
    · exact .inr hShares

section Batch

variable {zero : String}

/-- An entry the session does not take ends the batch. -/
theorem addBatch_cons_of_not (zero : String) {e : ℕ × C} (rest : List (ℕ × C))
    (h : ¬ (s.state = .awaitingCommitments ∧ s.Takes e.1)) :
    ∃ text, addBatch zero (e :: rest) s = (.error text, s) := by
  obtain ⟨n, commitments⟩ := e
  unfold addBatch identifierOf
  by_cases hn : n = 0
  · rw [dif_pos hn]
    exact ⟨_, rfl⟩
  rw [dif_neg hn]
  dsimp only
  split
  · exact ⟨_, rfl⟩
  · rename_i hAdded
    obtain ⟨hState, hMem, -⟩ := addCommitments_eq_ok.mp hAdded
    exact absurd ⟨hState, takes_index.mpr hMem⟩ h

theorem addBatch_cons {commitments : C} {rest : List (ℕ × C)}
    (hState : s.state = .awaitingCommitments) (hTakes : s.Takes identifier.index) :
    addBatch zero ((identifier.index, commitments) :: rest) s =
      addBatch zero rest (s.withCommitments identifier commitments) := by
  have hAdded : s.addCommitments identifier commitments = .ok _ :=
    addCommitments_eq_ok.mpr ⟨hState, takes_index.mp hTakes, rfl⟩
  rw [addBatch, identifierOf, dif_neg identifier.nonzero]
  dsimp only
  rw [hAdded]

/-- What holds of the empty batch, of a batch whose first entry is refused, and of an entry that is
taken when it holds of the rest and the session after it, holds of every batch. -/
theorem batch_induction {motive : SignerSession C S → List (ℕ × C) → Prop}
    (nil : ∀ s, motive s [])
    (refused : ∀ s e rest, ¬ (s.state = .awaitingCommitments ∧ s.Takes e.1) →
      motive s (e :: rest))
    (added : ∀ s identifier commitments rest, s.state = .awaitingCommitments →
      s.Takes (SignerIdentifier.index identifier) →
      SignerIdentifier.index identifier ∉ rest.map Prod.fst →
      motive (s.withCommitments identifier commitments) rest →
      motive s ((identifier.index, commitments) :: rest))
    {batch : List (ℕ × C)} (hNodup : (batch.map Prod.fst).Nodup) (s : SignerSession C S) :
    motive s batch := by
  induction batch generalizing s with
  | nil => exact nil s
  | cons e rest ih =>
    obtain ⟨hNew, hRest⟩ := List.nodup_cons.mp hNodup
    by_cases hFirst : s.state = .awaitingCommitments ∧ s.Takes e.1
    · obtain ⟨n, commitments⟩ := e
      let identifier : SignerIdentifier := ⟨n, hFirst.2.1⟩
      exact added s identifier commitments rest hFirst.1 hFirst.2 hNew (ih hRest _)
    · exact refused s e rest hFirst

/-- Every entry that is taken is in the session, whatever the answer. -/
theorem grown_addBatch {batch : List (ℕ × C)} (hNodup : (batch.map Prod.fst).Nodup) :
    Grown s ((s.taken batch).map Prod.fst) (addBatch zero batch s).2 := by
  refine batch_induction (motive := fun s batch =>
    Grown s ((s.taken batch).map Prod.fst) (addBatch zero batch s).2) ?nil ?refused ?added hNodup s
  case nil =>
    intro s
    unfold taken
    simpa [addBatch] using Grown.refl s
  case refused =>
    intro s e rest hFirst
    obtain ⟨text, hError⟩ := addBatch_cons_of_not zero rest hFirst
    rw [taken_cons_of_not hFirst, hError]
    exact Grown.refl s
  case added =>
    intro s identifier commitments rest hState hTakes hNew hRest
    rw [taken_cons hState hTakes hNew, addBatch_cons hState hTakes]
    exact hRest.cons

/-- A batch is accepted if all of it is taken. -/
theorem addBatch_accepted_iff {batch : List (ℕ × C)} (hNodup : (batch.map Prod.fst).Nodup) :
    (addBatch zero batch s).1 = .ok () ↔ s.taken batch = batch := by
  refine batch_induction (motive := fun s batch =>
    (addBatch zero batch s).1 = .ok () ↔ s.taken batch = batch) ?nil ?refused ?added hNodup s
  case nil =>
    intro s
    simp [addBatch, taken]
  case refused =>
    intro s e rest hFirst
    obtain ⟨text, hError⟩ := addBatch_cons_of_not zero rest hFirst
    rw [taken_cons_of_not hFirst, hError]
    exact ⟨nofun, nofun⟩
  case added =>
    intro s identifier commitments rest hState hTakes hNew hRest
    rw [taken_cons hState hTakes hNew, addBatch_cons hState hTakes, hRest, List.cons.injEq,
      and_iff_right rfl]

/-- Where nothing is taken, nothing changes. -/
theorem addBatch_of_taken_nil {batch : List (ℕ × C)} (h : s.taken batch = []) :
    (addBatch zero batch s).2 = s := by
  cases batch with
  | nil => rfl
  | cons e rest =>
    obtain ⟨text, hError⟩ := addBatch_cons_of_not zero rest (taken_cons_eq_nil_iff.mp h)
    rw [hError]

/-- Where something is taken, something changes. -/
theorem addBatch_ne {batch : List (ℕ × C)} (hNodup : (batch.map Prod.fst).Nodup)
    (h : s.taken batch ≠ []) : (addBatch zero batch s).2 ≠ s := by
  intro hSame
  obtain ⟨e, he⟩ := List.exists_mem_of_ne_nil _ h
  have hTakes := takes_of_mem_taken he
  let identifier : SignerIdentifier := ⟨e.1, hTakes.1⟩
  have hMem : identifier ∈ (addBatch zero batch s).2.commitments :=
    ((grown_addBatch hNodup).mem identifier).mpr (.inr (List.mem_map_of_mem he))
  have hNew : identifier ∉ s.commitments := takes_index.mp hTakes
  rw [hSame] at hMem
  exact hNew hMem

end Batch

end SignerSession

end KeroseneVault
