import KeroseneVault.Dkg.Session
import KeroseneVault.Lib.Runs

/-!
# Runs of wire DKG hubs

Every node has a hub, and a run is a list of calls on hubs: starts, deliveries
of messages, hand-outs of round 2 packages and finalizations, in any order and
for any number of sessions. What the hubs returned and what they were given is
recorded.

* `HubCall` — one call; `DkgHub.perform` is the hub after it;
* `SessionInner.after` — what a call makes of the session it names;
* `DkgMesh.step` — one call on the hub of one node.

Main results:

* `lookup_perform`, `lookup_perform_ne` — a call moves its own session, as
  `after` says, and no other;
* `perform_cases` — a hub has a new session only from a start;
* `after_extends` — what no call undoes.
-/

namespace KeroseneVault

/-- A call on a hub. -/
inductive HubCall (F : FrostDkg) where
  | start (req : DkgStartRequest) (rand : F.Randomness)
  | ingestRound1 (msg : Round1WireMessage)
  | takeRound2Outbound (sessionId : String)
  | ingestRound2 (msg : Round2WireMessage)
  | finalizeRound3 (sessionId : String) (disk : ShareDisk)

/-- The session a call names. -/
def HubCall.sessionId {F : FrostDkg} : HubCall F → String
  | .start req _ => req.sessionId
  | .ingestRound1 msg => msg.sessionId
  | .takeRound2Outbound sessionId => sessionId
  | .ingestRound2 msg => msg.sessionId
  | .finalizeRound3 sessionId _ => sessionId

variable {k : WireDkg} {F : FrostDkg}

namespace DkgHub

/-- The hub and its share store after a call. -/
def perform (hub : DkgHub k F) (store : ShareStore) : HubCall F → DkgHub k F × ShareStore
  | .start req rand => ((hub.start req rand).2, store)
  | .ingestRound1 msg => ((hub.ingestRound1 msg).2, store)
  | .takeRound2Outbound sessionId => ((hub.takeRound2Outbound sessionId).2, store)
  | .ingestRound2 msg => ((hub.ingestRound2 msg).2, store)
  | .finalizeRound3 sessionId disk => (hub.finalizeRound3 sessionId disk store).2

/-- The round 1 messages a call returns. -/
def sentRound1 (hub : DkgHub k F) : HubCall F → List Round1WireMessage
  | .start req rand =>
    match (hub.start req rand).1 with
    | .ok (_, wire) => [wire]
    | .error _ => []
  | _ => []

/-- The round 2 messages a call returns. -/
def sentRound2 (hub : DkgHub k F) : HubCall F → List Round2WireMessage
  | .takeRound2Outbound sessionId =>
    match (hub.takeRound2Outbound sessionId).1 with
    | .ok out => out
    | .error _ => []
  | _ => []

end DkgHub

/-- The hubs and their share stores, the messages they returned, and the
messages each was given. -/
structure DkgMesh (k : WireDkg) (F : FrostDkg) where
  hubs : String → DkgHub k F
  stores : String → ShareStore
  sent1 : List Round1WireMessage
  sent2 : List Round2WireMessage
  given1 : List (String × Round1WireMessage)
  given2 : List (String × Round2WireMessage)

namespace DkgMesh

/-- A call on the hub of one node. -/
def step (m : DkgMesh k F) : String × HubCall F → DkgMesh k F
  | (i, call) => {
      hubs := Function.update m.hubs i ((m.hubs i).perform (m.stores i) call).1
      stores := Function.update m.stores i ((m.hubs i).perform (m.stores i) call).2
      sent1 := (m.hubs i).sentRound1 call ++ m.sent1
      sent2 := (m.hubs i).sentRound2 call ++ m.sent2
      given1 := match call with
        | .ingestRound1 msg => (i, msg) :: m.given1
        | _ => m.given1
      given2 := match call with
        | .ingestRound2 msg => (i, msg) :: m.given2
        | _ => m.given2 }

/-- Hubs that have returned and been given nothing. -/
def init (hubs : String → DkgHub k F) (stores : String → ShareStore) : DkgMesh k F :=
  ⟨hubs, stores, [], [], [], []⟩

/-- The session `sid` of the hub of node `i`. -/
def session (m : DkgMesh k F) (i sid : String) : Option (SessionInner k F) :=
  (m.hubs i).sessions.lookup sid

end DkgMesh

namespace DkgHub

/-- Every session is stored under its own id. -/
def Keyed (hub : DkgHub k F) : Prop :=
  ∀ sid s, hub.sessions.lookup sid = some s → s.sessionId = sid

theorem lookup_new (localNodeId sid : String) :
    (new localNodeId : DkgHub k F).sessions.lookup sid = none := AList.lookup_empty _

theorem keyed_new (localNodeId : String) : (new localNodeId : DkgHub k F).Keyed :=
  fun sid _ h => absurd ((lookup_new localNodeId sid).symm.trans h) (by simp)

/-- The messages of a start bear the id it names. -/
theorem Keyed.sentRound1_sessionId {hub : DkgHub k F} (h : hub.Keyed) {call : HubCall F}
    {msg : Round1WireMessage} (hMsg : msg ∈ hub.sentRound1 call) :
    msg.sessionId = call.sessionId := by
  -- only a start sends in round 1, for a session that is there or for one that it opens
  cases call with
  | start req rand =>
    rcases start_cases hub req rand with ⟨_, hEq⟩ | ⟨s, answer, hFound, hRestart, hEq⟩ |
      ⟨_, inner, wire, -, -, -, -, -, -, hOpen, hEq⟩
    · rw [sentRound1, hEq] at hMsg
      cases hMsg
    · rw [sentRound1, hEq] at hMsg
      cases List.mem_singleton.mp hMsg
      show answer.2.sessionId = req.sessionId
      rw [← h _ s hFound]
      unfold SessionInner.restart at hRestart
      split at hRestart
      · cases hRestart
      · split at hRestart
        · cases hRestart
        · cases Except.ok.inj hRestart
          rfl
    · rw [sentRound1, hEq] at hMsg
      cases List.mem_singleton.mp hMsg
      obtain ⟨_, _, _, _, -, -, -, rfl, rfl⟩ := openSession_ok.mp hOpen
      rfl
  | _ => cases hMsg

/-- The messages of a hand-out bear the id it names. -/
theorem sentRound2_sessionId {hub : DkgHub k F} {call : HubCall F} {msg : Round2WireMessage}
    (hMsg : msg ∈ hub.sentRound2 call) : msg.sessionId = call.sessionId := by
  cases call with
  | takeRound2Outbound sessionId =>
    cases hFound : hub.sessions.lookup sessionId with
    | none => simp [sentRound2, takeRound2Outbound, hFound] at hMsg
    | some s =>
      simp only [sentRound2, takeRound2Outbound, hFound] at hMsg
      split at hMsg
      · rename_i out hOut
        obtain ⟨entry, -, hEntry⟩ := Results.exists_of_mem_mapM hOut msg hMsg
        unfold SessionInner.round2Message at hEntry
        split at hEntry
        · cases hEntry
        · split at hEntry
          · cases hEntry
          · cases Except.ok.inj hEntry
            rfl
      · cases hMsg
  | _ => cases hMsg

end DkgHub

/-! ## What a call does to the session it names -/

namespace SessionInner

/-- The session after a call that names it. -/
def after (s : SessionInner k F) : HubCall F → SessionInner k F
  | .start _ _ => s
  | .ingestRound1 msg =>
    match checkEnvelope k "round1" msg.envelope with
    | .error _ => s
    | .ok () => (s.ingestRound1 msg).2
  | .takeRound2Outbound _ => s.drained
  | .ingestRound2 msg =>
    match checkEnvelope k "round2" msg.envelope with
    | .error _ => s
    | .ok () => (s.ingestRound2 msg).2
  | .finalizeRound3 _ disk =>
    if s.phase = .complete then s
    else
      match s.round3Keys with
      | .error _ => s
      | .ok keys =>
        match (putAll disk ∅ (s.round3Records keys)).1 with
        | .error _ => s
        | .ok () => s.completeWith keys

end SessionInner

namespace DkgHub

@[simp] theorem onSession_lookup_self (hub : DkgHub k F) (sid missing : String)
    (f : SessionInner k F → Outcome × SessionInner k F) :
    (hub.onSession sid missing f).2.sessions.lookup sid =
      (hub.sessions.lookup sid).map fun s => (f s).2 := by
  unfold onSession
  cases hs : hub.sessions.lookup sid with
  | none => simp [hs]
  | some s =>
    dsimp only
    cases (f s).1 with
    | error e => simp
    | ok u => simp

@[simp] theorem onSession_lookup_ne (hub : DkgHub k F) {sid sid' : String} (h : sid' ≠ sid)
    (missing : String) (f : SessionInner k F → Outcome × SessionInner k F) :
    (hub.onSession sid missing f).2.sessions.lookup sid' = hub.sessions.lookup sid' := by
  unfold onSession
  cases hs : hub.sessions.lookup sid with
  | none => rfl
  | some s =>
    dsimp only
    cases (f s).1 with
    | error e => simp [AList.lookup_insert_ne h]
    | ok u => simp [AList.lookup_insert_ne h]

/-- A call moves no session but its own. -/
theorem lookup_perform_ne (hub : DkgHub k F) (store : ShareStore) {call : HubCall F}
    {sid : String} (h : sid ≠ call.sessionId) :
    (hub.perform store call).1.sessions.lookup sid = hub.sessions.lookup sid := by
  -- each call inserts under its own session's name, if at all
  cases call with
  | start req rand =>
    rcases start_cases hub req rand with
      ⟨_, hEq⟩ | ⟨_, _, _, _, hEq⟩ | ⟨_, inner, _, _, _, _, _, _, _, _, hEq⟩
    · rw [perform, hEq]
    · rw [perform, hEq]
    · rw [perform, hEq]
      exact AList.lookup_insert_ne h
  | ingestRound1 msg =>
    simp only [perform, ingestRound1]
    split
    · rfl
    · exact onSession_lookup_ne hub h _ _
  | takeRound2Outbound sessionId =>
    simp only [perform, takeRound2Outbound]
    split
    · rfl
    · exact AList.lookup_insert_ne h
  | ingestRound2 msg =>
    simp only [perform, ingestRound2]
    split
    · rfl
    · exact onSession_lookup_ne hub h _ _
  | finalizeRound3 sessionId disk =>
    simp only [perform, finalizeRound3]
    split
    · rfl
    · split
      · rfl
      · split
        · rfl
        · split
          · rfl
          · exact AList.lookup_insert_ne h

/-- A call moves the session it names as `after` says. -/
theorem lookup_perform (hub : DkgHub k F) (store : ShareStore) (call : HubCall F)
    {s : SessionInner k F} (h : hub.sessions.lookup call.sessionId = some s) :
    (hub.perform store call).1.sessions.lookup call.sessionId = some (s.after call) := by
  cases call with
  | start req rand =>
    rcases start_cases hub req rand with ⟨_, hEq⟩ | ⟨_, _, _, _, hEq⟩ | ⟨_, _, _, hNone, _⟩
    · rw [perform, hEq]
      exact h
    · rw [perform, hEq]
      exact h
    · exact absurd (h.symm.trans hNone) (by simp)
  | ingestRound1 msg =>
    simp only [perform, ingestRound1, SessionInner.after, HubCall.sessionId] at h ⊢
    cases checkEnvelope k "round1" msg.envelope with
    | error e => exact h
    | ok u => simp [h]
  | takeRound2Outbound sessionId =>
    simp only [perform, takeRound2Outbound, SessionInner.after, HubCall.sessionId] at h ⊢
    rw [h]
    exact AList.lookup_insert _
  | ingestRound2 msg =>
    simp only [perform, ingestRound2, SessionInner.after, HubCall.sessionId] at h ⊢
    cases checkEnvelope k "round2" msg.envelope with
    | error e => exact h
    | ok u => simp [h]
  | finalizeRound3 sessionId disk =>
    simp only [perform, finalizeRound3, SessionInner.after, HubCall.sessionId] at h ⊢
    rw [h]
    dsimp only
    by_cases hComplete : s.phase = .complete
    · rw [if_pos hComplete, if_pos hComplete]
      exact h
    · rw [if_neg hComplete, if_neg hComplete]
      cases s.round3Keys with
      | error e => exact h
      | ok keys =>
        dsimp only
        -- which write fails is the disk's doing, whatever files stood there before
        have hSame := putAll_outcome disk ∅ store (s.round3Records keys)
        rw [hSame]
        rcases putAll disk store (s.round3Records keys) with ⟨outcome, after⟩
        cases outcome with
        | error e => exact h
        | ok u => exact AList.lookup_insert _

/-- A hub has a new session only from a start. -/
theorem perform_cases (hub : DkgHub k F) (store : ShareStore) {call : HubCall F}
    (h : hub.sessions.lookup call.sessionId = none) :
    (hub.perform store call).1.sessions.lookup call.sessionId = none ∨
      ∃ req rand roster inner wire, call = .start req rand ∧
        buildRoster k F req.roster = .ok roster ∧ roster.length % 2 ^ 16 = req.maxSigners ∧
        hub.openSession req roster rand = .ok (inner, wire) ∧ hub.sentRound1 call = [wire] ∧
        (hub.perform store call).1.sessions.lookup call.sessionId = some inner := by
  cases call with
  | start req rand =>
    rcases start_cases hub req rand with ⟨_, hEq⟩ | ⟨_, _, hSome, -, hEq⟩ |
      ⟨roster, inner, wire, _, _, _, _, hR, hL, hOpen, hEq⟩
    · exact .inl (by rw [perform, hEq]; exact h)
    · exact absurd (h.symm.trans hSome) (by simp)
    · -- only a start opens a session: every other call is refused without one
      refine .inr ⟨req, rand, roster, inner, wire, rfl, hR, hL, hOpen, ?_, ?_⟩
      · rw [sentRound1, hEq]
      · rw [perform, hEq]
        exact AList.lookup_insert _
  | ingestRound1 msg =>
    refine .inl ?_
    simp only [perform, ingestRound1, HubCall.sessionId] at h ⊢
    split
    · exact h
    · simp [h]
  | takeRound2Outbound sessionId =>
    refine .inl ?_
    simp only [perform, takeRound2Outbound, HubCall.sessionId] at h ⊢
    rw [h]
    exact h
  | ingestRound2 msg =>
    refine .inl ?_
    simp only [perform, ingestRound2, HubCall.sessionId] at h ⊢
    split
    · exact h
    · simp [h]
  | finalizeRound3 sessionId disk =>
    refine .inl ?_
    simp only [perform, finalizeRound3, HubCall.sessionId] at h ⊢
    rw [h]
    exact h

end DkgHub

namespace SessionInner

/-- What a session freezes at its start. -/
def constitution (s : SessionInner k F) :
    String × String × F.Identifier × Nat × Nat × Roster F × String :=
  (s.sessionId, s.localNodeId, s.localIdentifier, s.maxSigners, s.minSigners, s.roster,
    s.transcriptHex)

/-- The package a session sends to its peers. -/
def localPackage (s : SessionInner k F) : Option F.Round1Package :=
  s.round1Packages.lookup s.localIdentifier

/-- Each call leaves the constitution and the local package, loses no package
and does not reopen a complete session. -/
structure Extends (s t : SessionInner k F) : Prop where
  constitution : t.constitution = s.constitution
  localPackage : t.localPackage = s.localPackage
  packages : ∀ j ∈ s.round1Packages, j ∈ t.round1Packages
  inbox : ∀ j ∈ s.round2Inbox, j ∈ t.round2Inbox
  complete : s.phase = .complete → t.phase = .complete

theorem Extends.refl (s : SessionInner k F) : s.Extends s :=
  ⟨rfl, rfl, fun _ => id, fun _ => id, id⟩

theorem acceptRound1_extends (s : SessionInner k F) {id : F.Identifier} (package : F.Round1Package)
    (hPhase : s.phase = .round1) (hOther : id ≠ s.localIdentifier) :
    s.Extends (s.acceptRound1 id package).2 := by
  have hOwn : (s.round1Packages.insert id package).lookup s.localIdentifier = s.localPackage :=
    AList.lookup_insert_ne hOther.symm
  have hMono : ∀ j ∈ s.round1Packages, j ∈ s.round1Packages.insert id package :=
    fun j hj => (AList.mem_insert _).mpr (.inr hj)
  have hOpen : s.phase = .complete → False := fun hDone => by
    rw [hPhase] at hDone
    cases hDone
  rcases s.acceptRound1_cases id package hPhase with
    ⟨hEq, -⟩ | ⟨-, _, -, ⟨_, _, -, hEq⟩ | ⟨_, -, hEq⟩⟩
  all_goals
    rw [hEq]
    exact ⟨rfl, hOwn, hMono, fun _ hj => hj, fun hDone => (hOpen hDone).elim⟩

theorem ingestRound1_extends (s : SessionInner k F) (msg : Round1WireMessage) :
    s.Extends (s.ingestRound1 msg).2 := by
  rcases s.ingestRound1_cases msg with hSame | ⟨id, package, hPhase, -, -, -, hOther, -, hEq⟩
  · rw [hSame]
    exact Extends.refl s
  · rw [hEq]
    exact s.acceptRound1_extends package hPhase hOther

/-- No call undoes what a session has. -/
theorem after_extends (s : SessionInner k F) (call : HubCall F) : s.Extends (s.after call) := by
  cases call with
  | start req rand => exact Extends.refl s
  | ingestRound1 msg =>
    simp only [after]
    split
    · exact Extends.refl s
    · exact s.ingestRound1_extends msg
  | takeRound2Outbound sessionId => exact ⟨rfl, rfl, fun _ hj => hj, fun _ hj => hj, id⟩
  | ingestRound2 msg =>
    simp only [after]
    split
    · exact Extends.refl s
    · rcases s.ingestRound2_cases msg with hSame | ⟨id, package, -, hEq⟩
      · rw [hSame]
        exact Extends.refl s
      · rw [hEq]
        exact ⟨rfl, rfl, fun _ hj => hj, fun j hj => (AList.mem_insert _).mpr (.inr hj), fun h => h⟩
  | finalizeRound3 sessionId disk =>
    simp only [after]
    split
    · exact Extends.refl s
    · split
      · exact Extends.refl s
      · split
        · exact Extends.refl s
        · exact ⟨rfl, rfl, fun _ hj => hj, fun _ hj => hj, fun _ => rfl⟩

/-- No call takes a session back to round 1. -/
theorem after_phase (s : SessionInner k F) (call : HubCall F) (h : s.phase ≠ .round1) :
    (s.after call).phase ≠ .round1 := by
  -- to come back into round 1 a call would have to be one that is refused outside it
  cases call with
  | start req rand => exact h
  | takeRound2Outbound sessionId => exact h
  | ingestRound1 msg =>
    rw [after]
    split
    · exact h
    · rcases s.ingestRound1_cases msg with hSame | ⟨_, _, hPhase, -⟩
      · rwa [hSame]
      · exact absurd hPhase h
  | ingestRound2 msg =>
    rw [after]
    split
    · exact h
    · rcases s.ingestRound2_cases msg with hSame | ⟨_, _, -, hEq⟩
      · rwa [hSame]
      · rw [hEq]
        exact h
  | finalizeRound3 sessionId disk =>
    rw [after]
    split
    · exact h
    · split
      · exact h
      · split
        · exact h
        · exact fun hRound1 => (by cases hRound1)

/-- A session that waits in round 1 moves on, and gets a secret for part 3,
only by a package. -/
theorem after_waits (s : SessionInner k F) (call : HubCall F)
    (hSame : ∀ msg, call ≠ .ingestRound1 msg) (hPhase : s.phase = .round1)
    (hNone : s.round2Secret = none) :
    (s.after call).phase = .round1 ∧ (s.after call).round2Secret = none := by
  cases call with
  | start req rand => exact ⟨hPhase, hNone⟩
  | takeRound2Outbound sessionId => exact ⟨hPhase, hNone⟩
  | ingestRound1 msg => exact absurd rfl (hSame msg)
  | ingestRound2 msg =>
    rw [after]
    split
    · exact ⟨hPhase, hNone⟩
    · rcases s.ingestRound2_cases msg with hEq | ⟨_, _, -, hEq⟩
      · rw [hEq]
        exact ⟨hPhase, hNone⟩
      · rw [hEq]
        exact ⟨hPhase, hNone⟩
  | finalizeRound3 sessionId disk =>
    -- round three needs the secret that round two leaves, and there is none yet
    have hKeys : ∀ keys, s.round3Keys ≠ .ok keys := by
      intro keys hKeys
      obtain ⟨_, _, _, -, hSecret, -⟩ := round3Keys_ok.mp hKeys
      exact absurd (hNone.symm.trans hSecret) (by simp)
    rw [after]
    split
    · exact ⟨hPhase, hNone⟩
    · split
      · exact ⟨hPhase, hNone⟩
      · rename_i keys hOk
        exact absurd hOk (hKeys keys)

/-- A call brings the packages of a session at most one of another frozen
member; a round 1 message that brings none leaves the session as it is. -/
theorem after_round1Packages (s : SessionInner k F) (call : HubCall F) :
    ((s.after call).round1Packages = s.round1Packages ∧
      ∀ msg, call = .ingestRound1 msg → s.after call = s) ∨
      ∃ msg id package, call = .ingestRound1 msg ∧ s.phase = .round1 ∧
        s.roster.lookup msg.senderNodeId = some id ∧ id ≠ s.localIdentifier ∧
        decodeRound1 k F msg.packageHex = .ok package ∧
        (s.after call) = (s.acceptRound1 id package).2 ∧
        (s.after call).round1Packages = s.round1Packages.insert id package := by
  cases call with
  | start req rand => exact .inl ⟨rfl, fun _ h => (by cases h)⟩
  | takeRound2Outbound sessionId => exact .inl ⟨rfl, fun _ h => (by cases h)⟩
  | ingestRound1 msg =>
    rw [after]
    split
    · exact .inl ⟨rfl, fun _ _ => rfl⟩
    rcases s.ingestRound1_cases msg with
      hSame | ⟨id, package, hPhase, -, -, hSender, hOther, hDecode, hEq⟩
    · exact .inl ⟨by rw [hSame], fun _ _ => hSame⟩
    refine .inr ⟨msg, id, package, rfl, hPhase, hSender, hOther, hDecode, by rw [hEq], ?_⟩
    rw [hEq]
    -- whether the package completes the round or not, it stays in the table
    rcases s.acceptRound1_cases id package hPhase with
      ⟨hAccept, -⟩ | ⟨-, _, -, ⟨_, _, -, hAccept⟩ | ⟨_, -, hAccept⟩⟩
    all_goals rw [hAccept]
  | ingestRound2 msg =>
    refine .inl ⟨?_, fun _ h => (by cases h)⟩
    rw [after]
    split
    · rfl
    · rcases s.ingestRound2_cases msg with hSame | ⟨_, _, -, hEq⟩
      · rw [hSame]
      · rw [hEq]
  | finalizeRound3 sessionId disk =>
    refine .inl ⟨?_, fun _ h => (by cases h)⟩
    rw [after]
    split
    · rfl
    · split
      · rfl
      · split
        · rfl
        · rfl

/-- Only its own hand-out takes a package from a session that has moved on. -/
theorem after_outbound (s : SessionInner k F) {call : HubCall F}
    (hTake : ∀ sessionId, call ≠ .takeRound2Outbound sessionId) (hPhase : s.phase ≠ .round1) :
    (s.after call).round2Outbound = s.round2Outbound := by
  -- the queue is filled when round 2 begins, and emptied by the hand-out, which is excluded
  cases call with
  | start req rand => rfl
  | takeRound2Outbound sessionId => exact absurd rfl (hTake sessionId)
  | ingestRound1 msg =>
    rw [SessionInner.after]
    split
    · rfl
    · rcases s.ingestRound1_cases msg with hSame | ⟨_, _, hRound1, -⟩
      · rw [hSame]
      · exact absurd hRound1 hPhase
  | ingestRound2 msg =>
    rw [SessionInner.after]
    split
    · rfl
    · rcases s.ingestRound2_cases msg with hSame | ⟨_, _, -, hEq⟩
      · rw [hSame]
      · rw [hEq]
  | finalizeRound3 sessionId disk =>
    rw [SessionInner.after]
    split
    · rfl
    · split
      · rfl
      · split
        · rfl
        · rfl

end SessionInner

namespace DkgHub

/-- What a call returns for round 1 is the package its session then has. -/
theorem sentRound1_local (hub : DkgHub k F) (store : ShareStore) {call : HubCall F}
    {msg : Round1WireMessage} (hMsg : msg ∈ hub.sentRound1 call) :
    ∃ t package bytes, (hub.perform store call).1.sessions.lookup call.sessionId = some t ∧
      t.localPackage = some package ∧ F.round1Bytes package = .ok bytes ∧
      msg = t.round1Message (F.hexEncode bytes) := by
  cases call with
  | start req rand =>
    rcases start_cases hub req rand with ⟨_, hEq⟩ | ⟨s, answer, hFound, hRestart, hEq⟩ |
      ⟨_, inner, wire, -, -, -, -, -, -, hOpen, hEq⟩
    · rw [sentRound1, hEq] at hMsg
      cases hMsg
    · -- a repeated start: the package sent is the one the session drew when it opened
      have hNext : ((hub.perform store (.start req rand)).1).sessions.lookup req.sessionId =
          some s := by
        rw [perform, hEq]
        exact hFound
      rw [sentRound1, hEq] at hMsg
      cases List.mem_singleton.mp hMsg
      unfold SessionInner.restart at hRestart
      split at hRestart
      · cases hRestart
      · rename_i package hPackage
        split at hRestart
        · cases hRestart
        · rename_i bytes hBytes
          cases Except.ok.inj hRestart
          exact ⟨s, package, bytes, hNext, hPackage, mapErr_ok.mp hBytes, rfl⟩
    · have hNext : ((hub.perform store (.start req rand)).1).sessions.lookup req.sessionId =
          some inner := by
        rw [perform, hEq]
        exact AList.lookup_insert _
      rw [sentRound1, hEq] at hMsg
      cases List.mem_singleton.mp hMsg
      obtain ⟨_, _, package, bytes, -, -, hBytes, rfl, rfl⟩ := openSession_ok.mp hOpen
      exact ⟨_, package, bytes, hNext, AList.lookup_insert _, hBytes, rfl⟩
  | _ => cases hMsg

/-- A hub keeps its name. -/
theorem perform_localNodeId (hub : DkgHub k F) (store : ShareStore) (call : HubCall F) :
    (hub.perform store call).1.localNodeId = hub.localNodeId := by
  -- a call inserts sessions, and touches no other field
  cases call with
  | start req rand =>
    rcases start_cases hub req rand with ⟨_, hEq⟩ | ⟨_, _, _, _, hEq⟩ |
      ⟨_, _, _, _, _, _, _, _, _, _, hEq⟩
    all_goals rw [perform, hEq]
  | ingestRound1 msg =>
    simp only [perform, ingestRound1, onSession]
    repeat' split
    all_goals rfl
  | takeRound2Outbound sessionId =>
    simp only [perform, takeRound2Outbound]
    split
    all_goals rfl
  | ingestRound2 msg =>
    simp only [perform, ingestRound2, onSession]
    repeat' split
    all_goals rfl
  | finalizeRound3 sessionId disk =>
    simp only [perform, finalizeRound3]
    repeat' split
    all_goals rfl

/-- Calls leave every session under its own id. -/
theorem Keyed.perform {hub : DkgHub k F} (h : hub.Keyed) (store : ShareStore)
    (call : HubCall F) : (hub.perform store call).1.Keyed := by
  intro sid s hs
  by_cases hSid : sid = call.sessionId
  swap
  · rw [hub.lookup_perform_ne store hSid] at hs
    exact h sid s hs
  subst hSid
  cases hFound : hub.sessions.lookup call.sessionId with
  | none =>
    rcases hub.perform_cases store hFound with hNone | ⟨_, _, _, _, _, rfl, -, -, hOpen, -, hSome⟩
    · exact absurd (hNone.symm.trans hs) (by simp)
    · cases Option.some.inj (hSome.symm.trans hs)
      exact openSession_sessionId hOpen
  | some t =>
    cases Option.some.inj ((hub.lookup_perform store call hFound).symm.trans hs)
    have hFrozen := congrArg Prod.fst (t.after_extends call).constitution
    exact hFrozen.trans (h _ t hFound)

end DkgHub

/-! ## Steps of the mesh -/

namespace DkgMesh

theorem session_step_of_ne (m : DkgMesh k F) {i j sid : String} {call : HubCall F}
    (h : j ≠ i ∨ sid ≠ call.sessionId) : (m.step (i, call)).session j sid = m.session j sid := by
  unfold session step
  dsimp only
  by_cases hj : j = i
  · subst hj
    rw [Function.update_self]
    exact (m.hubs j).lookup_perform_ne _ (h.resolve_left (not_not.mpr rfl))
  · rw [Function.update_of_ne hj]

theorem session_step_self (m : DkgMesh k F) {i : String} {call : HubCall F}
    {s : SessionInner k F} (h : m.session i call.sessionId = some s) :
    (m.step (i, call)).session i call.sessionId = some (s.after call) := by
  unfold session step
  dsimp only
  rw [Function.update_self]
  exact (m.hubs i).lookup_perform _ call h

/-- A session is one there was before, perhaps moved by this call, or one that
this call opened. -/
theorem session_step_cases (m : DkgMesh k F) {i j sid : String} {call : HubCall F}
    {s : SessionInner k F} (h : (m.step (i, call)).session j sid = some s) :
    (∃ t, m.session j sid = some t ∧ (s = t ∨ j = i ∧ sid = call.sessionId ∧ s = t.after call)) ∨
    ∃ req rand roster wire, m.session j sid = none ∧ j = i ∧ call = .start req rand ∧
      buildRoster k F req.roster = .ok roster ∧ roster.length % 2 ^ 16 = req.maxSigners ∧
      (m.hubs j).openSession req roster rand = .ok (s, wire) := by
  by_cases hOther : j ≠ i ∨ sid ≠ call.sessionId
  · exact .inl ⟨s, (m.session_step_of_ne hOther).symm.trans h, .inl rfl⟩
  rw [not_or, not_not, not_not] at hOther
  obtain ⟨rfl, rfl⟩ := hOther
  cases hFound : m.session j call.sessionId with
  | some t =>
    exact .inl ⟨t, rfl, .inr ⟨rfl, rfl, Option.some.inj (h.symm.trans (m.session_step_self hFound))⟩⟩
  | none =>
    have hHub : (m.step (j, call)).hubs j = ((m.hubs j).perform (m.stores j) call).1 :=
      Function.update_self ..
    rw [session, hHub] at h
    rcases (m.hubs j).perform_cases (m.stores j) hFound with
      hNone | ⟨req, rand, roster, inner, wire, hCall, hRoster, hLength, hOpen, -, hSome⟩
    · exact absurd (hNone.symm.trans h) (by simp)
    · cases Option.some.inj (hSome.symm.trans h)
      exact .inr ⟨req, rand, roster, wire, rfl, rfl, hCall, hRoster, hLength, hOpen⟩

/-- What was a session stays one that extends it. -/
theorem session_step_extends (m : DkgMesh k F) (a : String × HubCall F) {j sid : String}
    {s : SessionInner k F} (h : m.session j sid = some s) :
    ∃ t, (m.step a).session j sid = some t ∧ s.Extends t := by
  obtain ⟨i, call⟩ := a
  by_cases hOther : j ≠ i ∨ sid ≠ call.sessionId
  · exact ⟨s, (m.session_step_of_ne hOther).trans h, .refl s⟩
  · rw [not_or, not_not, not_not] at hOther
    obtain ⟨rfl, rfl⟩ := hOther
    exact ⟨_, m.session_step_self h, s.after_extends call⟩

/-! ### One call on each of several hubs -/

section Each

variable {l : List String} (call : String → HubCall F)

/-- Members that are called once each do what they would do first. -/
theorem members_runEach (m : DkgMesh k F) (hNodup : l.Nodup) (i : String) :
    ((Runs.run step m (l.map fun i => (i, call i))).hubs i,
      (Runs.run step m (l.map fun i => (i, call i))).stores i) =
      if i ∈ l then (m.hubs i).perform (m.stores i) (call i) else (m.hubs i, m.stores i) := by
  induction l generalizing m with
  | nil => rfl
  | cons j rest ih =>
    rw [List.nodup_cons] at hNodup
    rw [List.map_cons, Runs.run_cons, ih (m.step (j, call j)) hNodup.2]
    by_cases hi : i = j
    · subst hi
      rw [if_neg hNodup.1, if_pos (List.mem_cons_self ..)]
      exact Prod.ext (Function.update_self ..) (Function.update_self ..)
    · have hHub : (m.step (j, call j)).hubs i = m.hubs i := Function.update_of_ne hi ..
      have hStore : (m.step (j, call j)).stores i = m.stores i := Function.update_of_ne hi ..
      rw [hHub, hStore]
      simp [hi]

theorem hubs_runEach (m : DkgMesh k F) (hNodup : l.Nodup) (i : String) :
    (Runs.run step m (l.map fun i => (i, call i))).hubs i =
      if i ∈ l then ((m.hubs i).perform (m.stores i) (call i)).1 else m.hubs i := by
  have h := congrArg Prod.fst (members_runEach call m hNodup i)
  rwa [apply_ite Prod.fst] at h

/-- Their share stores are those that they would leave first. -/
theorem stores_runEach (m : DkgMesh k F) (hNodup : l.Nodup) (i : String) :
    (Runs.run step m (l.map fun i => (i, call i))).stores i =
      if i ∈ l then ((m.hubs i).perform (m.stores i) (call i)).2 else m.stores i := by
  have h := congrArg Prod.snd (members_runEach call m hNodup i)
  rwa [apply_ite Prod.snd] at h

/-- What they return is what each returns first. -/
theorem mem_sent1_runEach (m : DkgMesh k F) (hNodup : l.Nodup) (msg : Round1WireMessage) :
    msg ∈ (Runs.run step m (l.map fun i => (i, call i))).sent1 ↔
      (∃ i ∈ l, msg ∈ (m.hubs i).sentRound1 (call i)) ∨ msg ∈ m.sent1 := by
  -- each hub is called once, so that those still to come are as they were at the beginning
  induction l generalizing m with
  | nil => simp
  | cons j rest ih =>
    rw [List.nodup_cons] at hNodup
    have hHubs : ∀ i ∈ rest, (m.step (j, call j)).hubs i = m.hubs i := fun i hi =>
      Function.update_of_ne (show i ≠ j from fun hEq => hNodup.1 (hEq ▸ hi)) ..
    have hSent : msg ∈ (m.step (j, call j)).sent1 ↔
        msg ∈ (m.hubs j).sentRound1 (call j) ∨ msg ∈ m.sent1 := List.mem_append
    rw [List.map_cons, Runs.run_cons, ih (m.step (j, call j)) hNodup.2, hSent]
    constructor
    · rintro (⟨i, hi, hMsg⟩ | hMsg | hMsg)
      · rw [hHubs i hi] at hMsg
        exact .inl ⟨i, List.mem_cons_of_mem _ hi, hMsg⟩
      · exact .inl ⟨j, List.mem_cons_self .., hMsg⟩
      · exact .inr hMsg
    · rintro (⟨i, hi, hMsg⟩ | hMsg)
      · rcases List.mem_cons.mp hi with rfl | hi
        · exact .inr (.inl hMsg)
        · exact .inl ⟨i, hi, by rwa [hHubs i hi]⟩
      · exact .inr (.inr hMsg)

/-- Starts give no message to a hub and hand out none of round 2. -/
theorem runEach_start (m : DkgMesh k F) (l : List String) (req : DkgStartRequest)
    (rand : String → F.Randomness) :
    let m' := Runs.run step m (l.map fun i => (i, .start req (rand i)))
    m'.sent2 = m.sent2 ∧ m'.given1 = m.given1 ∧ m'.given2 = m.given2 := by
  induction l generalizing m with
  | nil => exact ⟨rfl, rfl, rfl⟩
  | cons j rest ih => exact ih (m.step (j, .start req (rand j)))

end Each

end DkgMesh

end KeroseneVault
