import KeroseneVault.Dkg.Completion

/-!
# Starts that race

`start` looks for the session under the lock, runs part 1 without it, and
inserts what it drew under the lock again, without a second look. Whatever else
the hub is called for comes in between.

* `StartStep` — the two sections of a start, and the other calls;
* `Starting` — a hub with its starts on their way, and what starts returned;
* `Keeps` — what is not to change in the life of a session;
* `InsertsSame` — an insert brings what is there already.

Main results:

* `frozen_step` — a step keeps all sessions exactly when it inserts the same;
* `startFreeze_iff` — so a run does, and then all starts of a session returned
  one package;
* `startFreeze_fails` — two starts of one session at once.
-/

namespace KeroseneVault

variable {k : WireDkg} {F : FrostDkg}

/-! ## Starts on their way -/

/-- One section of a start under the lock, or another call. The first section
comes with the draw of part 1 that follows it. -/
inductive StartStep (F : FrostDkg) where
  | check (req : DkgStartRequest) (rand : F.Randomness)
  | insert (n : Nat)
  | call (call : HubCall F)

/-- A hub, the starts between their sections, and the messages starts
returned. -/
structure Starting (k : WireDkg) (F : FrostDkg) where
  hub : DkgHub k F
  store : ShareStore
  pending : List (SessionInner k F × Round1WireMessage)
  returned : List Round1WireMessage

namespace Starting

def new (localNodeId : String) : Starting k F := ⟨.new localNodeId, ∅, [], []⟩

def session (c : Starting k F) (sid : String) : Option (SessionInner k F) :=
  c.hub.sessions.lookup sid

def step (c : Starting k F) : StartStep F → Starting k F
  | .check req rand =>
    match c.hub.startCheck req rand with
    | .error _ => c
    | .ok (.inl answer) => { c with returned := answer.2 :: c.returned }
    | .ok (.inr opened) => { c with pending := c.pending ++ [opened] }
  | .insert n =>
    match c.pending[n]? with
    | none => c
    | some (inner, wire) => { c with
        hub := c.hub.startInsert inner
        pending := c.pending.eraseIdx n
        returned := wire :: c.returned }
  | .call call => { c with
      hub := (c.hub.perform c.store call).1
      store := (c.hub.perform c.store call).2
      returned := c.hub.sentRound1 call ++ c.returned }

end Starting

/-! ## What is frozen -/

def WireDkgPhase.rank : WireDkgPhase → Nat
  | .round1 => 0
  | .round2 => 1
  | .complete => 2

namespace SessionInner

/-- What is not to change in the life of a session. -/
structure Keeps (s t : SessionInner k F) : Prop where
  roster : t.roster = s.roster
  maxSigners : t.maxSigners = s.maxSigners
  minSigners : t.minSigners = s.minSigners
  transcriptHex : t.transcriptHex = s.transcriptHex
  localPackage : t.localPackage = s.localPackage
  phase : s.phase.rank ≤ t.phase.rank

theorem Keeps.refl (s : SessionInner k F) : s.Keeps s := ⟨rfl, rfl, rfl, rfl, rfl, le_rfl⟩

/-- A call keeps a session. -/
theorem keeps_after (s : SessionInner k F) (call : HubCall F) : s.Keeps (s.after call) := by
  have hExtends := s.after_extends call
  have hFrozen := hExtends.constitution
  simp only [constitution, Prod.mk.injEq] at hFrozen
  obtain ⟨-, -, -, hMax, hMin, hRoster, hTranscript⟩ := hFrozen
  refine ⟨hRoster, hMax, hMin, hTranscript, hExtends.localPackage, ?_⟩
  cases hPhase : s.phase with
  | round1 => exact Nat.zero_le _
  | round2 =>
    have hPast := s.after_phase call (by rw [hPhase]; simp)
    cases hNext : (s.after call).phase with
    | round1 => exact absurd hNext hPast
    | round2 => exact le_rfl
    | complete => exact Nat.le_succ _
  | complete => rw [hExtends.complete hPhase]

/-- The session's package is the one in the message. -/
def Announces (s : SessionInner k F) (wire : Round1WireMessage) : Prop :=
  ∃ package bytes, s.localPackage = some package ∧ F.round1Bytes package = .ok bytes ∧
    wire.packageHex = F.hexEncode bytes

theorem Announces.unique {s t : SessionInner k F} {wire wire' : Round1WireMessage} (h : s.Announces wire)
    (h' : t.Announces wire') (hSame : t.localPackage = s.localPackage) :
    wire.packageHex = wire'.packageHex := by
  obtain ⟨package, bytes, hPackage, hBytes, hHex⟩ := h
  obtain ⟨package', bytes', hPackage', hBytes', hHex'⟩ := h'
  cases Option.some.inj (hPackage.symm.trans (hSame.symm.trans hPackage'))
  cases Except.ok.inj (hBytes.symm.trans hBytes')
  rw [hHex, hHex']

theorem Announces.keeps {s t : SessionInner k F} {wire : Round1WireMessage} (h : s.Announces wire)
    (hKeeps : s.Keeps t) : t.Announces wire := by
  obtain ⟨package, bytes, hPackage, hRest⟩ := h
  exact ⟨package, bytes, hKeeps.localPackage.trans hPackage, hRest⟩

end SessionInner

namespace Starting

/-- The step keeps every session there is. -/
def Frozen (c : Starting k F) (a : StartStep F) : Prop :=
  ∀ sid s, c.session sid = some s → ∃ t, (c.step a).session sid = some t ∧ s.Keeps t

/-- The starts of a session returned one package. -/
def ReturnedSame (c : Starting k F) : Prop :=
  ∀ wire ∈ c.returned, ∀ wire' ∈ c.returned, wire.sessionId = wire'.sessionId →
    wire.packageHex = wire'.packageHex

/-- A start that finds a session of its name at its insert has drawn the same
package for the same constitution, and finds it in round 1. -/
def InsertsSame (c : Starting k F) : StartStep F → Prop
  | .insert n => ∀ inner wire, c.pending[n]? = some (inner, wire) →
      ∀ s, c.session inner.sessionId = some s →
        inner.roster = s.roster ∧ inner.maxSigners = s.maxSigners ∧
        inner.minSigners = s.minSigners ∧ inner.transcriptHex = s.transcriptHex ∧
        inner.localPackage = s.localPackage ∧ s.phase = .round1
  | _ => True

/-- What waits to be inserted is a new session with its own message. -/
def PendingNew (c : Starting k F) : Prop :=
  ∀ opened ∈ c.pending, opened.1.phase = .round1 ∧ opened.1.sessionId = opened.2.sessionId ∧
    opened.1.Announces opened.2

/-- What starts returned is the package of the session. -/
structure Current (c : Starting k F) : Prop where
  pending : c.PendingNew
  keyed : c.hub.Keyed
  returned : ∀ wire ∈ c.returned, ∃ s, c.session wire.sessionId = some s ∧ s.Announces wire

theorem Current.returnedSame {c : Starting k F} (h : c.Current) : c.ReturnedSame := by
  intro wire hWire wire' hWire' hName
  obtain ⟨s, hs, hAnnounces⟩ := h.returned wire hWire
  obtain ⟨t, ht, hAnnounces'⟩ := h.returned wire' hWire'
  rw [hName] at hs
  cases Option.some.inj (hs.symm.trans ht)
  exact hAnnounces.unique hAnnounces' rfl

/-! ## One section -/

/-- What part 1 opens is a new session with its own message. -/
theorem opened_new {hub : DkgHub k F} {req : DkgStartRequest} {rand : F.Randomness}
    {opened : SessionInner k F × Round1WireMessage}
    (h : hub.startCheck req rand = .ok (.inr opened)) :
    opened.1.phase = .round1 ∧ opened.1.sessionId = opened.2.sessionId ∧
      opened.1.Announces opened.2 := by
  rcases startCheck_cases hub req rand with ⟨e, hEq⟩ | ⟨_, _, answer, -, -, -, -, -, -, -, hEq⟩ |
    ⟨roster, inner, wire, -, -, -, -, -, -, hOpen, hEq⟩
  · rw [hEq] at h
    cases h
  · rw [hEq] at h
    cases Except.ok.inj h
  · rw [hEq] at h
    cases Except.ok.inj h
    obtain ⟨id, _, package, bytes, -, -, hBytes, rfl, rfl⟩ := openSession_ok.mp hOpen
    exact ⟨rfl, rfl, package, bytes, AList.lookup_insert _, hBytes, rfl⟩

/-- A start that finds its session returns that session's package. -/
theorem answer_announced {hub : DkgHub k F} (hKeyed : hub.Keyed) {req : DkgStartRequest}
    {rand : F.Randomness} {answer : WireDkgStatus × Round1WireMessage}
    (h : hub.startCheck req rand = .ok (.inl answer)) :
    ∃ s, hub.sessions.lookup answer.2.sessionId = some s ∧ s.Announces answer.2 := by
  -- a start fails, answers with a session that is there, or draws one; only the second answers
  -- now
  rcases startCheck_cases hub req rand with ⟨e, hEq⟩ |
    ⟨s, _, found, hFound, -, -, -, -, -, hRestart, hEq⟩ |
    ⟨_, inner, wire, -, -, -, -, -, -, -, hEq⟩
  · rw [hEq] at h
    cases h
  · rw [hEq] at h
    cases Except.ok.inj h
    unfold SessionInner.restart at hRestart
    split at hRestart
    · cases hRestart
    · rename_i package hPackage
      split at hRestart
      · cases hRestart
      · rename_i bytes hBytes
        cases Except.ok.inj hRestart
        refine ⟨s, ?_, package, bytes, hPackage, mapErr_ok.mp hBytes, rfl⟩
        show hub.sessions.lookup s.sessionId = some s
        rw [hKeyed _ s hFound]
        exact hFound
  · rw [hEq] at h
    cases Except.ok.inj h

variable {c : Starting k F}

/-- Calls under one lock keep every session. -/
theorem frozen_call (call : HubCall F) : c.Frozen (.call call) := by
  intro sid s hs
  by_cases hSid : sid = call.sessionId
  · subst hSid
    exact ⟨s.after call, c.hub.lookup_perform c.store call hs, s.keeps_after call⟩
  · exact ⟨s, (c.hub.lookup_perform_ne c.store hSid).trans hs, .refl s⟩

theorem hub_check (req : DkgStartRequest) (rand : F.Randomness) :
    (c.step (.check req rand)).hub = c.hub := by
  rw [step]
  split
  all_goals rfl

theorem session_insert {n : Nat} {inner : SessionInner k F} {wire : Round1WireMessage}
    (h : c.pending[n]? = some (inner, wire)) (sid : String) :
    (c.step (.insert n)).session sid =
      if sid = inner.sessionId then some inner else c.session sid := by
  unfold session
  simp only [step, h, DkgHub.startInsert]
  by_cases hSid : sid = inner.sessionId
  · subst hSid
    rw [if_pos rfl, AList.lookup_insert]
  · rw [if_neg hSid, AList.lookup_insert_ne hSid]

/-- **One section.** -/
theorem frozen_step (hPending : c.PendingNew) (a : StartStep F) :
    c.Frozen a ↔ c.InsertsSame a := by
  cases a with
  | check req rand =>
    refine iff_of_true (fun sid s hs => ⟨s, ?_, .refl s⟩) trivial
    rw [session, hub_check]
    exact hs
  | call call => exact iff_of_true (frozen_call call) trivial
  | insert n =>
    constructor
    · intro hFrozen inner wire hWaits s hs
      obtain ⟨t, ht, hKeeps⟩ := hFrozen _ s hs
      rw [session_insert hWaits, if_pos rfl] at ht
      cases Option.some.inj ht
      have hNew := (hPending _ (List.mem_of_getElem? hWaits)).1
      -- no phase is before round 1
      have hPhase : s.phase = .round1 := by
        have hRank := hKeeps.phase
        dsimp only at hNew
        rw [hNew] at hRank
        cases hCase : s.phase with
        | round1 => rfl
        | round2 =>
          rw [hCase] at hRank
          exact absurd hRank (by decide)
        | complete =>
          rw [hCase] at hRank
          exact absurd hRank (by decide)
      exact ⟨hKeeps.roster, hKeeps.maxSigners, hKeeps.minSigners, hKeeps.transcriptHex,
        hKeeps.localPackage, hPhase⟩
    · intro hSame sid s hs
      cases hWaits : c.pending[n]? with
      | none =>
        refine ⟨s, ?_, .refl s⟩
        rw [session, step, hWaits]
        exact hs
      | some opened =>
        obtain ⟨inner, wire⟩ := opened
        rw [session_insert hWaits]
        -- the insert overwrites its own session alone
        by_cases hSid : sid = inner.sessionId
        · subst hSid
          obtain ⟨hRoster, hMax, hMin, hTranscript, hPackage, hPhase⟩ := hSame inner wire hWaits s hs
          exact ⟨inner, if_pos rfl, hRoster, hMax, hMin, hTranscript, hPackage, by
            rw [hPhase]
            exact Nat.zero_le _⟩
        · exact ⟨s, by rw [if_neg hSid]; exact hs, .refl s⟩

/-- What waits to be inserted is in round 1. -/
theorem pendingNew_step (h : c.PendingNew) (a : StartStep F) : (c.step a).PendingNew := by
  cases a with
  | check req rand =>
    rw [step]
    split
    · exact h
    · exact h
    · rename_i opened hOpened
      intro waiting hWaiting
      rcases List.mem_append.mp hWaiting with hEarlier | hNow
      · exact h waiting hEarlier
      · rw [List.mem_singleton.mp hNow]
        exact opened_new hOpened
  | insert n =>
    rw [step]
    split
    · exact h
    · exact fun waiting hWaiting => h waiting (List.mem_of_mem_eraseIdx hWaiting)
  | call call => exact h

/-- Sessions stay under their own names. -/
theorem keyed_step (h : c.hub.Keyed) (a : StartStep F) : (c.step a).hub.Keyed := by
  cases a with
  | check req rand =>
    rw [hub_check]
    exact h
  | insert n =>
    cases hWaits : c.pending[n]? with
    | none =>
      rw [step, hWaits]
      exact h
    | some opened =>
      obtain ⟨inner, wire⟩ := opened
      intro sid s hs
      have hSession := session_insert hWaits sid
      rw [session, hs] at hSession
      by_cases hSid : sid = inner.sessionId
      · rw [if_pos hSid] at hSession
        cases Option.some.inj hSession
        exact hSid.symm
      · rw [if_neg hSid] at hSession
        exact h sid s hSession.symm
  | call call => exact h.perform c.store call

/-- What starts returned stays the sessions' packages while the inserts bring
the same. -/
theorem Current.step (h : c.Current) {a : StartStep F} (hSame : c.InsertsSame a) :
    (c.step a).Current := by
  refine ⟨pendingNew_step h.pending a, keyed_step h.keyed a, fun wire hWire => ?_⟩
  have hFrozen := (frozen_step h.pending a).mpr hSame
  -- what was returned before is still the package of its session
  have hEarlier : wire ∈ c.returned →
      ∃ s, (c.step a).session wire.sessionId = some s ∧ s.Announces wire := by
    intro hOld
    obtain ⟨s, hs, hAnnounces⟩ := h.returned wire hOld
    obtain ⟨t, ht, hKeeps⟩ := hFrozen _ s hs
    exact ⟨t, ht, hAnnounces.keeps hKeeps⟩
  cases a with
  | check req rand =>
    have hHub := c.hub_check req rand
    rw [Starting.step] at hWire
    split at hWire
    · exact hEarlier hWire
    · rename_i answer hAnswer
      rcases List.mem_cons.mp hWire with rfl | hOld
      · obtain ⟨s, hs, hAnnounces⟩ := answer_announced h.keyed hAnswer
        refine ⟨s, ?_, hAnnounces⟩
        rw [session, hHub]
        exact hs
      · exact hEarlier hOld
    · exact hEarlier hWire
  | insert n =>
    cases hWaits : c.pending[n]? with
    | none =>
      rw [Starting.step, hWaits] at hWire
      exact hEarlier hWire
    | some opened =>
      obtain ⟨inner, own⟩ := opened
      rw [Starting.step, hWaits] at hWire
      rcases List.mem_cons.mp hWire with rfl | hOld
      · obtain ⟨-, hName, hAnnounces⟩ := h.pending _ (List.mem_of_getElem? hWaits)
        refine ⟨inner, ?_, hAnnounces⟩
        rw [session_insert hWaits, if_pos hName.symm]
      · exact hEarlier hOld
  | call call =>
    rcases List.mem_append.mp hWire with hNow | hOld
    · obtain ⟨t, package, bytes, ht, hPackage, hBytes, rfl⟩ :=
        c.hub.sentRound1_local c.store hNow
      have hName : t.sessionId = call.sessionId := h.keyed.sentRound1_sessionId hNow
      refine ⟨t, ?_, package, bytes, hPackage, hBytes, rfl⟩
      show (c.hub.perform c.store call).1.sessions.lookup t.sessionId = some t
      rw [hName]
      exact ht
    · exact hEarlier hOld

theorem current_new (localNodeId : String) : (new localNodeId : Starting k F).Current where
  pending _ h := by cases h
  keyed := DkgHub.keyed_new localNodeId
  returned _ h := by cases h

end Starting

/--
**The freeze.** However starts and other calls interleave on a hub, its
sessions keep roster, threshold, transcript, local package and the order of
phases, and all starts of a session return one package, exactly when no start
inserts over a session another start made meanwhile, other than one with the
same constitution and package that is still in round 1.
-/
theorem startFreeze_iff (localNodeId : String) (as : List (StartStep F)) :
    (Runs.EveryStep Starting.step Starting.Frozen (.new localNodeId : Starting k F) as ∧
      Runs.EveryState Starting.step Starting.ReturnedSame (.new localNodeId : Starting k F) as) ↔
    Runs.EveryStep Starting.step Starting.InsertsSame (.new localNodeId : Starting k F) as := by
  have hNew : (.new localNodeId : Starting k F).Current := Starting.current_new localNodeId
  constructor
  · rintro ⟨hFrozen, -⟩
    exact hFrozen.of_invariant (J := Starting.PendingNew) (fun c a h => c.pendingNew_step h a)
      (fun c a h hKept => (Starting.frozen_step h a).mp hKept) hNew.pending
  · intro hSame
    refine ⟨?_, ?_⟩
    · exact hSame.of_invariant (J := Starting.PendingNew) (fun c a h => c.pendingNew_step h a)
        (fun c a h hInserts => (Starting.frozen_step h a).mpr hInserts) hNew.pending
    · exact (Runs.EveryState.of_everyStep (P := Starting.Current)
        (fun c a h hInserts => h.step hInserts) hNew hSame).mono fun c h => h.returnedSame

/-! ### Two starts at once -/

/-- `a` is asked twice for one session; both starts look before either
inserts. The first has returned its package. -/
def raceSteps : List (StartStep smallFrost.toFrostDkg) :=
  [.check pairRequest (pairRand "a"), .check pairRequest (pairRand "b"), .insert 0]

def raceHub : Starting .plain smallFrost.toFrostDkg :=
  Runs.run Starting.step (.new "a") raceSteps

/-- What a session sends, as far as it tells two packages apart. -/
def sessionCommitment (c : Starting .plain smallFrost.toFrostDkg) : Option (List Small) :=
  ((c.session "s1").bind SessionInner.localPackage).map
    (PolyRound1.commitment : PolyRound1 Small Small → List Small)

/-- The second start replaces the package the first one returned. -/
theorem startFreeze_fails :
    ¬ raceHub.Frozen (.insert 0) ∧ ¬ (raceHub.step (.insert 0)).ReturnedSame := by
  have hDiffer : sessionCommitment (raceHub.step (.insert 0)) ≠ sessionCommitment raceHub := by
    decide +kernel
  have hThere : (raceHub.session "s1").isSome := by decide +kernel
  have hReturned : ∃ wire ∈ (raceHub.step (.insert 0)).returned,
      ∃ wire' ∈ (raceHub.step (.insert 0)).returned,
        wire.sessionId = wire'.sessionId ∧ wire.packageHex ≠ wire'.packageHex := by
    decide +kernel
  constructor
  · intro hFrozen
    obtain ⟨s, hs⟩ := Option.isSome_iff_exists.mp hThere
    obtain ⟨t, ht, hKeeps⟩ := hFrozen "s1" s hs
    refine hDiffer ?_
    rw [sessionCommitment, sessionCommitment, hs, ht, Option.bind_some, Option.bind_some,
      hKeeps.localPackage]
  · intro hSame
    obtain ⟨wire, hWire, wire', hWire', hName, hHex⟩ := hReturned
    exact hHex (hSame wire hWire wire' hWire' hName)

end KeroseneVault
