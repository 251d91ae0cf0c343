import KeroseneVault.Lab.Dkg
import KeroseneVault.Lib.Runs
import KeroseneVault.Lib.Table

/-!
# Signing sessions of the lab

`threshold_state.rs`: a session binds the commitment to the nonce of the local share, takes
partial signatures, and is consumed where they are combined. A helper for the lab makes the
partials of all shares at once.

* `LabVault`, `LabVaultState` — the shares, and what changes;
* `beginSession` to `combine` — the four calls;
* `Lawful` — a consumed session stays so, it is combined once and nothing is made for it
  afterwards, and no two sessions have a nonce commitment in common;
* `Clean` — calls that keep to that.

Main results:

* `combined_nodup` — no run combines a session twice;
* `threshold_sessions_lawful_iff` — a run is lawful exactly if all its calls are clean.
-/

namespace KeroseneVault

/-- `SigningPhase`. -/
inductive LabPhase where
  | open
  | noncesBound
  | combined
  | consumed
deriving DecidableEq

/-- `{phase:?}`. -/
def LabPhase.text : LabPhase → String
  | .open => "Open"
  | .noncesBound => "NoncesBound"
  | .combined => "Combined"
  | .consumed => "Consumed"

/-- `PartialSignature`. -/
structure LabPartial where
  index : ShareIndex
  nodeId : NodeId
  nonceCommitment : String
  partialValue : ℕ

/-- `SigningSession`. -/
structure LabSession where
  sessionId : String
  messageHash : String
  phase : LabPhase
  boundNonceCommitments : List String
  partials : List LabPartial

/-- `CombinedSignature`. -/
structure LabCombined where
  sessionId : String
  messageHash : String
  value : ℕ
  participants : List ℕ

/-- What a `ThresholdVaultState` is made of and never changes; the values are `u64`. -/
structure LabVault where
  sha256 : List UInt8 → Digest
  group : GroupKey
  localShare : KeyShare
  labAllShares : List KeyShare
  localInU64 : localShare.value < 2 ^ 64
  allInU64 : ∀ share ∈ labAllShares, share.value < 2 ^ 64

/-- What the calls change. -/
structure LabVaultState where
  sessions : Table String LabSession
  usedNonceCommitments : Finset String
  consumedSessions : Finset String

def LabVaultState.new : LabVaultState := ⟨∅, ∅, ∅⟩

namespace LabVault

variable (V : LabVault)

/-- `derive_nonce`. -/
def deriveNonce (sessionId messageHash : String) (shareValue : ℕ) : ℕ :=
  labRandomU64 V.sha256 (textBytes s!"nonce|{sessionId}|{messageHash}|{shareValue}")

/-- `nonce_commitment`. -/
def nonceCommitment (nonce : ℕ) (index : ShareIndex) : String :=
  (ContentHash.fromBytes V.sha256 (textBytes s!"nonce-commit:{index.value}:{nonce}")).text

/-- The nonce commitment of a share in a session. -/
def commitmentOf (sessionId messageHash : String) (share : KeyShare) : String :=
  V.nonceCommitment (V.deriveNonce sessionId messageHash share.value) share.index

/-- The partial signature of a share. -/
def partialOf (sessionId messageHash : String) (share : KeyShare) :
    Intake DomainError LabPartial := do
  let nonce := V.deriveNonce sessionId messageHash share.value
  let commit := V.nonceCommitment nonce share.index
  let msgScalar := labRandomU64 V.sha256 (textBytes messageHash)
  let product ← fieldMul share.value nonce
  let partialValue ← fieldAdd product msgScalar
  .ok ⟨share.index, share.nodeId, commit, partialValue⟩

/-- `begin_session`. -/
def beginSession (sessionId messageHash : String) (online : ℕ) (s : LabVaultState) :
    Except DomainError LabSession × LabVaultState :=
  if online < V.group.t then (.error (.failStop online V.group.t), s)
  else if sessionId ∈ s.consumedSessions ∨ sessionId ∈ s.sessions then
    (.error (.nonceReuse s!"session_id already used: {sessionId}"), s)
  else
    let commit := V.commitmentOf sessionId messageHash V.localShare
    if commit ∈ s.usedNonceCommitments then (.error (.nonceReuse commit), s)
    else
      let session : LabSession := ⟨sessionId, messageHash, .noncesBound, [commit], []⟩
      (.ok session, { s with
        usedNonceCommitments := insert commit s.usedNonceCommitments
        sessions := s.sessions.insert sessionId session })

/-- `contribute_local_partial`. -/
def contributeLocalPartial (sessionId : String) (s : LabVaultState) :
    Intake DomainError LabPartial × LabVaultState :=
  if sessionId ∈ s.consumedSessions then (.error (.sessionConsumed sessionId), s)
  else
    match s.sessions.lookup sessionId with
    | none => (.error (.unknownProposal sessionId), s)
    | some session =>
      if session.phase ≠ .noncesBound ∧ session.phase ≠ .open then
        (.error (.badSigningPhase sessionId session.phase.text), s)
      else
        match V.partialOf sessionId session.messageHash V.localShare with
        | .panicked => (.panicked, s)
        | .error e => (.error e, s)
        | .ok made =>
          if session.partials.any fun p => p.index = made.index then
            (.error (.nonceReuse "duplicate partial for share index"), s)
          else
            let session := { session with partials := session.partials ++ [made] }
            (.ok made, { s with sessions := s.sessions.insert sessionId session })

/-- The loop of `lab_collect_partials_from_all` over the shares: the partials, and the nonce
commitments that are used then. -/
def collectLoop (sessionId messageHash : String) :
    List KeyShare → Finset String → Intake DomainError (List LabPartial) × Finset String
  | [], used => (.ok [], used)
  | share :: rest, used =>
    let used := insert (V.commitmentOf sessionId messageHash share) used
    match V.partialOf sessionId messageHash share with
    | .panicked => (.panicked, used)
    | .error e => (.error e, used)
    | .ok made =>
      match collectLoop sessionId messageHash rest used with
      | (.panicked, used) => (.panicked, used)
      | (.error e, used) => (.error e, used)
      | (.ok out, used) => (.ok (made :: out), used)

/-- The shares that the helper takes. -/
def collected (online : ℕ) : List KeyShare := V.labAllShares.take (min online V.group.n)

/-- `lab_collect_partials_from_all`. -/
def labCollectPartialsFromAll (sessionId : String) (online : ℕ) (s : LabVaultState) :
    Intake DomainError (List LabPartial) × LabVaultState :=
  if online < V.group.t then (.error (.failStop online V.group.t), s)
  else
    match s.sessions.lookup sessionId with
    | none => (.error (.unknownProposal sessionId), s)
    | some session =>
      -- whether the session is consumed is not asked
      match V.collectLoop sessionId session.messageHash (V.collected online)
          s.usedNonceCommitments with
      | (.panicked, used) => (.panicked, { s with usedNonceCommitments := used })
      | (.error e, used) => (.error e, { s with usedNonceCommitments := used })
      | (.ok out, used) =>
        let bound := out.foldl (fun bound p =>
          if p.nonceCommitment ∈ bound then bound else bound ++ [p.nonceCommitment])
          session.boundNonceCommitments
        let session := { session with
          boundNonceCommitments := bound, partials := out, phase := .noncesBound }
        (.ok out, { s with
          usedNonceCommitments := used
          sessions := s.sessions.insert sessionId session })

/-- `combine`. -/
def combine (sessionId : String) (online : ℕ) (s : LabVaultState) :
    Intake DomainError LabCombined × LabVaultState :=
  let need := V.group.t
  if online < need then (.error (.failStop online need), s)
  else if sessionId ∈ s.consumedSessions then (.error (.sessionConsumed sessionId), s)
  else
    match s.sessions.lookup sessionId with
    | none => (.error (.unknownProposal sessionId), s)
    | some session =>
      let partials := session.partials
      if partials.length < need then (.error (.quorumNotMet partials.length need), s)
      else
        let points := (partials.take need).map fun p => (p.index.value, p.partialValue)
        match interpolateSecret points with
        | .panicked => (.panicked, s)
        | .error e => (.error e, s)
        | .ok value =>
          let combined : LabCombined :=
            ⟨sessionId, session.messageHash, value, points.map Prod.fst⟩
          let session := { session with phase := .consumed, partials := [] }
          (.ok combined, { s with
            sessions := s.sessions.insert sessionId session
            consumedSessions := insert sessionId s.consumedSessions })

-- ---------------------------------------------------------------------------
-- Calls
-- ---------------------------------------------------------------------------

/-- A call, with its arguments. -/
inductive LabCall where
  | begin (sessionId messageHash : String) (online : ℕ)
  | contribute (sessionId : String)
  | collect (sessionId : String) (online : ℕ)
  | combine (sessionId : String) (online : ℕ)

/-- What comes out of a call: partials of a session, or its signature. -/
inductive LabEvent where
  | partials (sessionId : String)
  | combined (sessionId : String)
deriving DecidableEq

def LabEvent.session : LabEvent → String
  | .partials sessionId => sessionId
  | .combined sessionId => sessionId

/-- What a call leaves. -/
def step (s : LabVaultState) : LabCall → LabVaultState
  | .begin sessionId messageHash online => (V.beginSession sessionId messageHash online s).2
  | .contribute sessionId => (V.contributeLocalPartial sessionId s).2
  | .collect sessionId online => (V.labCollectPartialsFromAll sessionId online s).2
  | .combine sessionId online => (V.combine sessionId online s).2

/-- What comes out of it. -/
def event (s : LabVaultState) : LabCall → Option LabEvent
  | .begin _ _ _ => none
  | .contribute sessionId =>
    match (V.contributeLocalPartial sessionId s).1 with
    | .ok _ => some (.partials sessionId)
    | _ => none
  | .collect sessionId online =>
    match (V.labCollectPartialsFromAll sessionId online s).1 with
    | .ok (_ :: _) => some (.partials sessionId)
    | _ => none
  | .combine sessionId online =>
    match (V.combine sessionId online s).1 with
    | .ok _ => some (.combined sessionId)
    | _ => none

-- ---------------------------------------------------------------------------
-- Partials
-- ---------------------------------------------------------------------------

/-- No value of a share overflows. -/
theorem partialOf_ok (sessionId messageHash : String) {share : KeyShare}
    (h : share.value < 2 ^ 64) : ∃ made, V.partialOf sessionId messageHash share = .ok made ∧
      made.index = share.index ∧
      made.nonceCommitment = V.commitmentOf sessionId messageHash share := by
  obtain ⟨product, hProduct, hLess, -⟩ := Gives.fieldMul h
    (lt_of_lt_labPrime (labRandomU64_lt V.sha256
      (textBytes s!"nonce|{sessionId}|{messageHash}|{share.value}")))
  obtain ⟨value, hValue, -, -⟩ := Gives.fieldAdd (lt_of_lt_labPrime hLess)
    (lt_of_lt_labPrime (labRandomU64_lt V.sha256 (textBytes messageHash)))
  unfold partialOf deriveNonce
  dsimp only
  rw [hProduct, Intake.ok_bind, hValue, Intake.ok_bind]
  exact ⟨_, rfl, rfl, rfl⟩

theorem collectLoop_ok (sessionId messageHash : String) {shares : List KeyShare}
    (h : ∀ share ∈ shares, share.value < 2 ^ 64) (used : Finset String) :
    ∃ out used', V.collectLoop sessionId messageHash shares used = (.ok out, used') ∧
      out.map LabPartial.nonceCommitment = shares.map (V.commitmentOf sessionId messageHash) ∧
      ∀ c, c ∈ used' ↔ c ∈ used ∨ c ∈ out.map LabPartial.nonceCommitment := by
  induction shares generalizing used with
  | nil => exact ⟨[], used, rfl, rfl, fun c => by simp⟩
  | cons share rest ih =>
    rw [List.forall_mem_cons] at h
    obtain ⟨made, hMade, -, hCommit⟩ := V.partialOf_ok sessionId messageHash h.1
    -- the commitment is used before the partial is made
    obtain ⟨out, used', hRest, hOut, hUsed⟩ :=
      ih h.2 (insert (V.commitmentOf sessionId messageHash share) used)
    unfold collectLoop
    rw [hMade]
    dsimp only
    rw [hRest]
    refine ⟨made :: out, used', rfl, ?_, fun c => ?_⟩
    · rw [List.map_cons, List.map_cons, hOut, hCommit]
    · rw [hUsed c, Finset.mem_insert, List.map_cons, List.mem_cons, hCommit]
      tauto

theorem collected_inU64 (online : ℕ) : ∀ share ∈ V.collected online, share.value < 2 ^ 64 :=
  fun share hShare => V.allInU64 share (List.mem_of_mem_take hShare)

end LabVault

/-- Commitments that are not there yet are put at the end. -/
theorem mem_bindAll {out : List LabPartial} {bound : List String} {c : String} :
    c ∈ out.foldl (fun bound p =>
      if p.nonceCommitment ∈ bound then bound else bound ++ [p.nonceCommitment]) bound ↔
      c ∈ bound ∨ c ∈ out.map LabPartial.nonceCommitment := by
  induction out generalizing bound with
  | nil => simp
  | cons p rest ih =>
    rw [List.foldl_cons, ih, List.map_cons, List.mem_cons]
    split
    · -- it was bound before, and is not put in twice
      rename_i hThere
      constructor
      · tauto
      · rintro (hBound | rfl | hRest)
        · exact .inl hBound
        · exact .inl hThere
        · exact .inr hRest
    · rw [List.mem_append, List.mem_singleton]
      tauto

-- ---------------------------------------------------------------------------
-- What a call can do
-- ---------------------------------------------------------------------------

/-- The session that a call wrote. -/
def LabVaultState.put (s : LabVaultState) (sessionId : String) (session : LabSession) :
    LabVaultState :=
  { s with sessions := s.sessions.insert sessionId session }

/-- All that a call can do. -/
inductive LabMoves (V : LabVault) (s : LabVaultState) :
    LabVault.LabCall → LabVaultState → Option LabVault.LabEvent → Prop where
  | refused {call : LabVault.LabCall} (hNot : ∀ sessionId online, call = .collect sessionId online →
      V.group.t ≤ online → s.sessions.lookup sessionId = none) : LabMoves V s call s none
  | begun {sessionId messageHash : String} {online : ℕ} {commit : String}
      (hNew : sessionId ∉ s.consumedSessions) (hFresh : s.sessions.lookup sessionId = none)
      (hUnused : commit ∉ s.usedNonceCommitments) :
      LabMoves V s (.begin sessionId messageHash online)
        { s.put sessionId ⟨sessionId, messageHash, .noncesBound, [commit], []⟩ with
          usedNonceCommitments := insert commit s.usedNonceCommitments } none
  | contributed {sessionId : String} {session : LabSession} {partials : List LabPartial}
      (hOpen : sessionId ∉ s.consumedSessions)
      (hLookup : s.sessions.lookup sessionId = some session) :
      LabMoves V s (.contribute sessionId) (s.put sessionId { session with partials })
        (some (.partials sessionId))
  | collected {sessionId : String} {online : ℕ} {session : LabSession} {bound : List String}
      {partials : List LabPartial} {used : Finset String} {event : Option LabVault.LabEvent}
      (hOnline : V.group.t ≤ online) (hLookup : s.sessions.lookup sessionId = some session)
      (hBound : ∀ c, c ∈ bound ↔ c ∈ session.boundNonceCommitments ∨
        c ∈ (V.collected online).map (V.commitmentOf sessionId session.messageHash))
      (hUsed : ∀ c, c ∈ used ↔ c ∈ s.usedNonceCommitments ∨
        c ∈ (V.collected online).map (V.commitmentOf sessionId session.messageHash))
      (hEvent : ∀ e, event = some e → e = .partials sessionId) :
      LabMoves V s (.collect sessionId online)
        { s.put sessionId { session with
            boundNonceCommitments := bound, partials, phase := .noncesBound } with
          usedNonceCommitments := used } event
  | combined {sessionId : String} {online : ℕ} {session : LabSession}
      (hOpen : sessionId ∉ s.consumedSessions)
      (hLookup : s.sessions.lookup sessionId = some session) :
      LabMoves V s (.combine sessionId online)
        { s.put sessionId { session with phase := .consumed, partials := [] } with
          consumedSessions := insert sessionId s.consumedSessions } (some (.combined sessionId))

namespace LabVault

variable (V : LabVault) (s : LabVaultState)

theorem moves_begin (sessionId messageHash : String) (online : ℕ) :
    LabMoves V s (.begin sessionId messageHash online)
      (V.beginSession sessionId messageHash online s).2 none := by
  unfold beginSession
  dsimp only
  split
  · exact .refused nofun
  split
  · exact .refused nofun
  rename_i hNew
  obtain ⟨hConsumed, hFresh⟩ := not_or.mp hNew
  split
  · exact .refused nofun
  · rename_i hUnused
    exact .begun hConsumed (AList.lookup_eq_none.mpr hFresh) hUnused

/-- To contribute takes one partial, or refuses it. -/
theorem moves_contribute (sessionId : String) :
    LabMoves V s (.contribute sessionId) (V.step s (.contribute sessionId))
      (V.event s (.contribute sessionId)) := by
  unfold step event contributeLocalPartial
  dsimp only
  split
  · exact .refused nofun
  rename_i hOpen
  cases hLookup : s.sessions.lookup sessionId with
  | none => exact .refused nofun
  | some session =>
    dsimp only
    -- the phase, the arithmetic, and a second partial of one index
    split
    · exact .refused nofun
    cases V.partialOf sessionId session.messageHash V.localShare with
    | panicked => exact .refused nofun
    | error e => exact .refused nofun
    | ok made =>
      dsimp only
      split
      · exact .refused nofun
      · exact .contributed hOpen hLookup

/-- To collect takes partials of as many shares as are online. -/
theorem moves_collect (sessionId : String) (online : ℕ) :
    LabMoves V s (.collect sessionId online) (V.step s (.collect sessionId online))
      (V.event s (.collect sessionId online)) := by
  unfold step event labCollectPartialsFromAll
  dsimp only
  split
  · rename_i hOffline
    refine .refused ?_
    rintro _ _ ⟨⟩ hOnline
    exact absurd hOffline (Nat.not_lt.mpr hOnline)
  rename_i hOnline
  cases hLookup : s.sessions.lookup sessionId with
  | none =>
    refine .refused ?_
    rintro _ _ ⟨⟩ -
    exact hLookup
  | some session =>
    -- past the lookup nothing can fail
    obtain ⟨out, used, hLoop, hOut, hUsed⟩ := V.collectLoop_ok sessionId session.messageHash
      (V.collected_inU64 online) s.usedNonceCommitments
    dsimp only
    rw [hLoop]
    refine .collected (Nat.not_lt.mp hOnline) hLookup (fun c => ?_) (fun c => ?_) ?_
    · rw [← hOut]
      exact mem_bindAll
    · rw [← hOut]
      exact hUsed c
    · -- of an empty list of shares nothing comes out
      intro e he
      cases out with
      | nil => cases he
      | cons made rest =>
        cases he
        rfl

theorem moves_combine (sessionId : String) (online : ℕ) :
    LabMoves V s (.combine sessionId online) (V.step s (.combine sessionId online))
      (V.event s (.combine sessionId online)) := by
  unfold step event combine
  dsimp only
  split
  · exact .refused nofun
  split
  · exact .refused nofun
  rename_i hOpen
  cases hLookup : s.sessions.lookup sessionId with
  | none => exact .refused nofun
  | some session =>
    dsimp only
    -- too few partials, and the three ends of the interpolation
    split
    · exact .refused nofun
    split
    · exact .refused nofun
    · exact .refused nofun
    · exact .combined hOpen hLookup

theorem moves (call : LabCall) : LabMoves V s call (V.step s call) (V.event s call) := by
  cases call with
  | begin sessionId messageHash online => exact V.moves_begin s sessionId messageHash online
  | contribute sessionId => exact V.moves_contribute s sessionId
  | collect sessionId online => exact V.moves_collect s sessionId online
  | combine sessionId online => exact V.moves_combine s sessionId online

end LabVault

-- ---------------------------------------------------------------------------
-- What no call breaks
-- ---------------------------------------------------------------------------

namespace LabVaultState

variable {s s' : LabVaultState} {V : LabVault} {call : LabVault.LabCall}
  {event : Option LabVault.LabEvent}

/-- All sessions, after one was written. -/
theorem forall_put {p : String → LabSession → Prop} {sessionId : String} {session : LabSession} :
    (∀ id found, (s.put sessionId session).sessions.lookup id = some found → p id found) ↔
      p sessionId session ∧
        ∀ id found, id ≠ sessionId → s.sessions.lookup id = some found → p id found :=
  Table.forall_lookup_insert

/-- Nonce commitments that are bound are used, and a session in phase `Consumed` is among the
consumed. -/
structure Tracked (s : LabVaultState) : Prop where
  used : ∀ id session, s.sessions.lookup id = some session →
    ∀ c ∈ session.boundNonceCommitments, c ∈ s.usedNonceCommitments
  consumed : ∀ id session, s.sessions.lookup id = some session →
    session.phase = .consumed → id ∈ s.consumedSessions

theorem tracked_new : Tracked new := by
  constructor
  · intro id session hLookup
    cases hLookup
  · intro id session hLookup
    cases hLookup

/-- Each call keeps track of the commitments that were used. -/
theorem Tracked.moves (h : s.Tracked) (hMoves : LabMoves V s call s' event) : s'.Tracked := by
  cases hMoves with
  | refused => exact h
  | begun =>
    -- the new session is not consumed, and its one commitment is used with it
    refine ⟨forall_put.mpr ⟨?_, ?_⟩, forall_put.mpr ⟨nofun, ?_⟩⟩
    · intro c hc
      exact Finset.mem_insert.mpr (.inl (List.mem_singleton.mp hc))
    · intro id found _ hFound c hc
      exact Finset.mem_insert_of_mem (h.used id found hFound c hc)
    · exact fun id found _ hFound => h.consumed id found hFound
  | contributed hOpen hLookup =>
    have hUsed := h.used _ _ hLookup
    have hConsumed := h.consumed _ _ hLookup
    exact ⟨forall_put.mpr ⟨hUsed, fun id found _ => h.used id found⟩,
      forall_put.mpr ⟨hConsumed, fun id found _ => h.consumed id found⟩⟩
  | collected hOnline hLookup hBound hUsed hEvent =>
    -- what is bound here is used here; the session is in phase `NoncesBound`
    refine ⟨forall_put.mpr ⟨?_, ?_⟩,
      forall_put.mpr ⟨nofun, fun id found _ => h.consumed id found⟩⟩
    · intro c hc
      exact (hUsed c).mpr (((hBound c).mp hc).imp_left (h.used _ _ hLookup c))
    · intro id found _ hFound c hc
      exact (hUsed c).mpr (.inl (h.used id found hFound c hc))
  | combined hOpen hLookup =>
    -- the nonces stay bound; phase and set of consumed sessions change together
    have hUsed := h.used _ _ hLookup
    refine ⟨forall_put.mpr ⟨hUsed, fun id found _ => h.used id found⟩,
      forall_put.mpr ⟨fun _ => Finset.mem_insert_self _ _, ?_⟩⟩
    intro id found _ hFound hPhase
    exact Finset.mem_insert_of_mem (h.consumed id found hFound hPhase)

/-- A session is consumed once and for all. -/
theorem consumed_moves (hMoves : LabMoves V s call s' event) {id : String}
    (h : id ∈ s.consumedSessions) : id ∈ s'.consumedSessions := by
  cases hMoves with
  | refused => exact h
  | begun => exact h
  | contributed => exact h
  | collected => exact h
  | combined => exact Finset.mem_insert_of_mem h

-- ---------------------------------------------------------------------------
-- What one call breaks
-- ---------------------------------------------------------------------------

/-- Every consumed session is in phase `Consumed`. -/
def Settled (s : LabVaultState) : Prop :=
  ∀ id ∈ s.consumedSessions, ∃ session, s.sessions.lookup id = some session ∧
    session.phase = .consumed

/-- No two sessions have a nonce commitment in common. -/
def Unshared (s : LabVaultState) : Prop :=
  ∀ id session, s.sessions.lookup id = some session →
    ∀ id' session', s.sessions.lookup id' = some session' → id ≠ id' →
      ∀ c ∈ session.boundNonceCommitments, c ∉ session'.boundNonceCommitments

/-- No session leaves the phase `Consumed`. -/
def KeepsConsumed (s s' : LabVaultState) : Prop :=
  ∀ id session, s.sessions.lookup id = some session → session.phase = .consumed →
    ∃ session', s'.sessions.lookup id = some session' ∧ session'.phase = .consumed

/-- The call collects no partials for a consumed session, and binds no nonce commitment that
another session has bound. -/
def Clean (V : LabVault) (s : LabVaultState) (call : LabVault.LabCall) : Prop :=
  match call with
  | .collect sessionId online => V.group.t ≤ online →
    ∀ session, s.sessions.lookup sessionId = some session →
      sessionId ∉ s.consumedSessions ∧
        ∀ id found, id ≠ sessionId → s.sessions.lookup id = some found →
          ∀ share ∈ V.collected online,
            V.commitmentOf sessionId session.messageHash share ∉ found.boundNonceCommitments
  | _ => True

theorem keepsConsumed_put {sessionId : String} {session : LabSession}
    (h : ∀ found, s.sessions.lookup sessionId = some found → found.phase = .consumed →
      session.phase = .consumed) : KeepsConsumed s (s.put sessionId session) := by
  intro id found hFound hPhase
  by_cases hId : id = sessionId
  · subst hId
    exact ⟨session, AList.lookup_insert _, h found hFound hPhase⟩
  · exact ⟨found, (AList.lookup_insert_ne hId).trans hFound, hPhase⟩

/-- A session written shares nothing with the others if it did not before, or nothing new. -/
theorem unshared_put {sessionId : String} {session : LabSession} (h : s.Unshared)
    (hNew : ∀ id found, id ≠ sessionId → s.sessions.lookup id = some found →
      ∀ c ∈ session.boundNonceCommitments, c ∉ found.boundNonceCommitments) :
    (s.put sessionId session).Unshared := by
  refine forall_put.mpr ⟨?_, ?_⟩
  · refine forall_put.mpr ⟨fun hNe => absurd rfl hNe, ?_⟩
    intro id found hId hFound _ c hc
    exact hNew id found hId hFound c hc
  · intro id found hId hFound
    refine forall_put.mpr ⟨?_, ?_⟩
    · intro _ c hc hBound
      exact hNew id found hId hFound c hBound hc
    · intro id' found' hId' hFound'
      exact h id found hFound id' found' hFound'

/-- Calls that are clean keep both, and no others do. -/
theorem clean_iff (hTracked : s.Tracked) (hSettled : s.Settled) (hUnshared : s.Unshared)
    (hMoves : LabMoves V s call s' event) :
    KeepsConsumed s s' ∧ s'.Unshared ↔ Clean V s call := by
  -- a refusal breaks nothing; each other move is looked at by itself
  cases hMoves with
  | refused hNot =>
    refine iff_of_true ⟨fun id session hLookup hPhase => ⟨session, hLookup, hPhase⟩, hUnshared⟩ ?_
    cases call with
    | collect sessionId online =>
      intro hOnline session hLookup
      rw [hNot sessionId online rfl hOnline] at hLookup
      cases hLookup
    | begin | contribute | combine => trivial
  | begun hNew hFresh hUnused =>
    refine iff_of_true ⟨keepsConsumed_put ?_, unshared_put hUnshared ?_⟩ trivial
    · intro found hFound
      rw [hFresh] at hFound
      cases hFound
    · -- the commitment is unused, so it is bound nowhere
      intro id found _ hFound c hc hBound
      rw [List.mem_singleton.mp hc] at hBound
      exact hUnused (hTracked.used id found hFound _ hBound)
  | contributed hOpen hLookup =>
    refine iff_of_true ⟨keepsConsumed_put ?_, unshared_put hUnshared ?_⟩ trivial
    · intro found hFound hPhase
      obtain rfl := Option.some.inj (hFound.symm.trans hLookup)
      exact hPhase
    · intro id found hId hFound
      exact hUnshared _ _ hLookup id found hFound hId.symm
  | combined hOpen hLookup =>
    refine iff_of_true ⟨keepsConsumed_put fun _ _ _ => rfl, unshared_put hUnshared ?_⟩ trivial
    intro id found hId hFound
    exact hUnshared _ _ hLookup id found hFound hId.symm
  | @collected sessionId online session bound partials used event hOnline hLookup hBound hUsed
      hEvent =>
    constructor
    · rintro ⟨hKeeps, hAfter⟩ _ session' hLookup'
      obtain rfl := Option.some.inj (hLookup'.symm.trans hLookup)
      constructor
      · -- a consumed session would be in phase `NoncesBound` now
        intro hConsumed
        obtain ⟨found, hFound, hPhase⟩ := hSettled sessionId hConsumed
        obtain ⟨after, hPut, hStill⟩ := hKeeps sessionId found hFound hPhase
        have hSame := Option.some.inj ((AList.lookup_insert _).symm.trans hPut)
        rw [← hSame] at hStill
        cases hStill
      · intro id found hId hFound share hShare hShared
        have hMem := (hBound _).mpr (.inr (List.mem_map_of_mem hShare))
        exact hAfter sessionId _ (AList.lookup_insert _) id found
          ((AList.lookup_insert_ne hId).trans hFound) hId.symm _ hMem hShared
    · intro hClean
      obtain ⟨hOpen, hNew⟩ := hClean hOnline session hLookup
      refine ⟨keepsConsumed_put ?_, unshared_put hUnshared ?_⟩
      · intro found hFound hPhase
        exact absurd (hTracked.consumed sessionId found hFound hPhase) hOpen
      · intro id found hId hFound c hc
        rcases (hBound c).mp hc with hOld | hMade
        · exact hUnshared sessionId session hLookup id found hFound hId.symm c hOld
        · obtain ⟨share, hShare, rfl⟩ := List.mem_map.mp hMade
          exact hNew id found hId hFound share hShare

theorem Settled.moves (h : s.Settled) (hMoves : LabMoves V s call s' event)
    (hKeeps : KeepsConsumed s s') : s'.Settled := by
  intro id hId
  by_cases hBefore : id ∈ s.consumedSessions
  · obtain ⟨session, hLookup, hPhase⟩ := h id hBefore
    exact hKeeps id session hLookup hPhase
  · -- it was consumed just now
    cases hMoves with
    | refused => exact absurd hId hBefore
    | begun => exact absurd hId hBefore
    | contributed => exact absurd hId hBefore
    | collected => exact absurd hId hBefore
    | combined =>
      rcases Finset.mem_insert.mp hId with rfl | hOld
      · exact ⟨_, AList.lookup_insert _, rfl⟩
      · exact absurd hOld hBefore

/-- What comes out of a clean call is of a session that is not consumed. -/
theorem event_open (hClean : Clean V s call) (hMoves : LabMoves V s call s' event)
    {e : LabVault.LabEvent} (he : event = some e) : e.session ∉ s.consumedSessions := by
  cases hMoves with
  | refused => cases he
  | begun => cases he
  | contributed hOpen =>
    cases he
    exact hOpen
  | collected hOnline hLookup _ _ hEvent =>
    rw [hEvent e he]
    exact (hClean hOnline _ hLookup).1
  | combined hOpen =>
    cases he
    exact hOpen

/-- Whether clean or not, a session that is combined was not consumed, and is now. -/
theorem combined_moves {sessionId : String}
    (hMoves : LabMoves V s call s' (some (.combined sessionId))) :
    sessionId ∉ s.consumedSessions ∧ sessionId ∈ s'.consumedSessions := by
  generalize hEvent : some (LabVault.LabEvent.combined sessionId) = event at hMoves
  cases hMoves with
  | refused => cases hEvent
  | begun => cases hEvent
  | contributed => cases hEvent
  | collected _ _ _ _ hIs => cases hIs _ hEvent.symm
  | combined hOpen =>
    cases hEvent
    exact ⟨hOpen, Finset.mem_insert_self _ _⟩

end LabVaultState

-- ---------------------------------------------------------------------------
-- Runs
-- ---------------------------------------------------------------------------

namespace LabVault

open LabVaultState

variable (V : LabVault)

/-- No session leaves the phase `Consumed`, nothing comes out of a session after it was
combined, and no two sessions have a nonce commitment in common. -/
structure Lawful (calls : List LabCall) : Prop where
  terminal : Runs.EveryStep V.step (fun s call => KeepsConsumed s (V.step s call)) new calls
  once : (Runs.emits V.step V.event new calls).Pairwise fun e e' =>
    ∀ sessionId, e = .combined sessionId → e'.session ≠ sessionId
  nonces : Runs.EveryState V.step Unshared new calls

theorem states_clean_iff {s : LabVaultState} (hTracked : s.Tracked) (hSettled : s.Settled)
    (hUnshared : s.Unshared) (calls : List LabCall) :
    Runs.EveryStep V.step (fun s call => KeepsConsumed s (V.step s call)) s calls ∧
      Runs.EveryState V.step Unshared s calls ↔ Runs.EveryStep V.step (Clean V) s calls := by
  induction calls generalizing s with
  | nil => exact iff_of_true ⟨trivial, (Runs.everyState_nil _ _ _).mpr hUnshared⟩ trivial
  | cons call rest ih =>
    have hMoves := V.moves s call
    have hClean := clean_iff hTracked hSettled hUnshared hMoves
    rw [Runs.everyStep_cons, Runs.everyState_cons, Runs.everyStep_cons]
    -- either side gives the three invariants of the next state, for the rest of the run
    constructor
    · rintro ⟨⟨hKeeps, hRest⟩, -, hStates⟩
      have hNext : (V.step s call).Unshared := hStates 0
      exact ⟨hClean.mp ⟨hKeeps, hNext⟩,
        (ih (hTracked.moves hMoves) (hSettled.moves hMoves hKeeps) hNext).mp ⟨hRest, hStates⟩⟩
    · rintro ⟨hCall, hRest⟩
      obtain ⟨hKeeps, hNext⟩ := hClean.mpr hCall
      obtain ⟨hSteps, hStates⟩ :=
        (ih (hTracked.moves hMoves) (hSettled.moves hMoves hKeeps) hNext).mpr hRest
      exact ⟨⟨hKeeps, hSteps⟩, hUnshared, hStates⟩

/-- In a clean run nothing comes out of a session that is consumed. -/
theorem events_of_clean {s : LabVaultState} {calls : List LabCall}
    (h : Runs.EveryStep V.step (Clean V) s calls) :
    (∀ e ∈ Runs.emits V.step V.event s calls, e.session ∉ s.consumedSessions) ∧
      (Runs.emits V.step V.event s calls).Pairwise fun e e' =>
        ∀ sessionId, e = .combined sessionId → e'.session ≠ sessionId := by
  induction calls generalizing s with
  | nil => exact ⟨nofun, List.Pairwise.nil⟩
  | cons call rest ih =>
    have hMoves := V.moves s call
    obtain ⟨hOpen, hLater⟩ := ih h.2
    have hStill : ∀ e ∈ Runs.emits V.step V.event (V.step s call) rest,
        e.session ∉ s.consumedSessions := fun e he hConsumed =>
      hOpen e he (consumed_moves hMoves hConsumed)
    unfold Runs.emits
    cases hEvent : V.event s call with
    | none => exact ⟨hStill, hLater⟩
    | some e =>
      -- were it a signature, its session would be consumed for all that comes later
      have hFirst := event_open h.1 hMoves hEvent
      refine ⟨List.forall_mem_cons.mpr ⟨hFirst, hStill⟩, List.pairwise_cons.mpr ⟨?_, hLater⟩⟩
      rintro e' he' sessionId rfl hSame
      rw [hEvent] at hMoves
      have hNow := (combined_moves hMoves).2
      rw [← hSame] at hNow
      exact hOpen e' he' hNow

/-- The session that is combined. -/
def LabEvent.combinedId : LabEvent → Option String
  | .partials _ => none
  | .combined sessionId => some sessionId

/-- No run, clean or not, combines a session twice. -/
theorem combined_nodup (s : LabVaultState) (calls : List LabCall) :
    (∀ id ∈ (Runs.emits V.step V.event s calls).filterMap LabEvent.combinedId,
      id ∉ s.consumedSessions) ∧
      ((Runs.emits V.step V.event s calls).filterMap LabEvent.combinedId).Nodup := by
  induction calls generalizing s with
  | nil => exact ⟨nofun, List.nodup_nil⟩
  | cons call rest ih =>
    have hMoves := V.moves s call
    obtain ⟨hOpen, hLater⟩ := ih (V.step s call)
    have hStill : ∀ id ∈ (Runs.emits V.step V.event (V.step s call) rest).filterMap
        LabEvent.combinedId, id ∉ s.consumedSessions := fun id hId hConsumed =>
      hOpen id hId (consumed_moves hMoves hConsumed)
    unfold Runs.emits
    cases hEvent : V.event s call with
    | none => exact ⟨hStill, hLater⟩
    | some e =>
      cases e with
      | partials sessionId => exact ⟨hStill, hLater⟩
      | combined sessionId =>
        rw [hEvent] at hMoves
        obtain ⟨hBefore, hAfter⟩ := combined_moves hMoves
        exact ⟨List.forall_mem_cons.mpr ⟨hBefore, hStill⟩,
          List.nodup_cons.mpr ⟨fun hAgain => hOpen sessionId hAgain hAfter, hLater⟩⟩

/-- **A run is lawful** exactly if it collects no partials for a consumed session, and binds in
collecting no nonce commitment of another session. -/
theorem threshold_sessions_lawful_iff (calls : List LabCall) :
    V.Lawful calls ↔ Runs.EveryStep V.step (Clean V) new calls := by
  have hSettled : new.Settled := fun id hId => absurd hId (Finset.notMem_empty id)
  have hUnshared : new.Unshared := by
    intro id session hLookup
    cases hLookup
  have hStates := V.states_clean_iff tracked_new hSettled hUnshared calls
  constructor
  · intro h
    exact hStates.mp ⟨h.terminal, h.nonces⟩
  · intro h
    obtain ⟨hTerminal, hNonces⟩ := hStates.mpr h
    exact ⟨hTerminal, (V.events_of_clean h).2, hNonces⟩

/-- A vault with one share. -/
def soloLab (share : KeyShare) (h : share.value < 2 ^ 64) : LabVault where
  sha256 := foldDigest
  group := ⟨1, 1, ""⟩
  localShare := share
  labAllShares := [share]
  localInU64 := h
  allInU64 := List.forall_mem_singleton.mpr h

/-- Partials are collected for a session that was combined, and its nonces are bound again. -/
theorem lab_collect_reopens_consumed : ¬ ∀ (V : LabVault) calls, V.Lawful calls := by
  intro h
  let V := soloLab ⟨⟨1⟩, 5, ⟨"a"⟩⟩ (by decide)
  let s := Runs.run V.step new [.begin "s" "m" 1, .contribute "s", .combine "s" 1]
  -- the helper is called once more after the session was combined
  have hSteps := (h V ([.begin "s" "m" 1, .contribute "s", .combine "s" 1] ++
    [.collect "s" 1])).terminal
  rw [Runs.everyStep_append] at hSteps
  have hKeeps : KeepsConsumed s (V.step s (.collect "s" 1)) := hSteps.2.1
  have hBefore : (s.sessions.lookup "s").map LabSession.phase = some .consumed := by
    decide +kernel
  have hAfter : ((V.step s (.collect "s" 1)).sessions.lookup "s").map LabSession.phase =
      some .noncesBound := by
    decide +kernel
  obtain ⟨session, hLookup, hPhase⟩ := Option.map_eq_some_iff.mp hBefore
  obtain ⟨session', hLookup', hPhase'⟩ := hKeeps "s" session hLookup hPhase
  rw [hLookup', Option.map_some, hPhase'] at hAfter
  cases hAfter

end LabVault

end KeroseneVault
