import KeroseneVault.Lib.Runs
import KeroseneVault.Signer.Handlers

/-!
# Who has a part in a session

A session is to have shares of those only that committed, and commitments of those only that it
expects; and it is complete with enough shares. Nothing in the daemon compares the three.

* `SignerSession.Sound` — the two inclusions, and enough shares where it is complete;
* `SignerCall`, `step` — requests, each with the id that a new session gets;
* `Listed` — requests that add nobody but those who are to be added.

Main results:

* `enough_run` — a session is complete with enough distinct shares only, whoever they are of;
* `signer_sessions_sound_iff` — the inclusions hold along a run exactly if all its requests are
  listed.
-/

namespace KeroseneVault

namespace SignerSession

variable {C S : Type}

/-- A session that is complete has shares of as many signers as it needs. -/
def Enough (s : SignerSession C S) : Prop :=
  s.state = .complete → s.minSigners ≤ s.signatureShares.size

/-- Shares are of those that committed, commitments of those that are expected, and there are
enough shares where the session is complete. -/
structure Sound (s : SignerSession C S) : Prop where
  shares : ∀ identifier ∈ s.signatureShares, identifier ∈ s.commitments
  commitments : ∀ identifier ∈ s.commitments, identifier ∈ s.expectedParticipants
  enough : s.Enough

theorem sound_new (id : String) (message : List UInt8)
    (expectedParticipants : List SignerIdentifier) (minSigners : ℕ) :
    (new id message expectedParticipants minSigners : SignerSession C S).Sound :=
  ⟨fun identifier hMem => absurd hMem (AList.notMem_empty identifier),
    fun identifier hMem => absurd hMem (AList.notMem_empty identifier), nofun⟩

/-- No batch completes a session. -/
theorem enough_grown {s s' : SignerSession C S} {ids : List ℕ} (h : Grown s ids s')
    (hEnough : s.Enough) : s'.Enough := by
  intro hComplete
  rw [h.shares, h.minSigners]
  rcases h.state with hSame | hShares
  · exact hEnough (hSame.symm.trans hComplete)
  · rw [hShares] at hComplete
    cases hComplete

/-- A share completes a session if it is enough. -/
theorem enough_withSignatureShare {s : SignerSession C S} {identifier : SignerIdentifier}
    {share : S} (hState : s.state ≠ .complete) :
    (s.withSignatureShare identifier share).Enough := by
  intro hComplete
  by_contra hFew
  have hSame : (s.withSignatureShare identifier share).state = s.state := if_neg hFew
  exact hState (hSame.symm.trans hComplete)

/-- A batch keeps a session sound exactly if it is taken of those that are expected. -/
theorem sound_grown_iff {s s' : SignerSession C S} {ids : List ℕ} (h : Grown s ids s')
    (hSound : s.Sound) :
    s'.Sound ↔ ∀ identifier : SignerIdentifier, identifier.index ∈ ids →
      identifier ∈ s.expectedParticipants := by
  constructor
  · -- those that were taken are in the session now
    intro hAfter identifier hIds
    have hMem := hAfter.commitments identifier ((h.mem identifier).mpr (.inr hIds))
    rwa [h.participants] at hMem
  · intro hListed
    refine ⟨?_, ?_, enough_grown h hSound.enough⟩
    · intro identifier hShare
      rw [h.shares] at hShare
      exact (h.mem identifier).mpr (.inl (hSound.shares identifier hShare))
    · intro identifier hMem
      rw [h.participants]
      rcases (h.mem identifier).mp hMem with hOld | hNew
      · exact hSound.commitments identifier hOld
      · exact hListed identifier hNew

/-- A share keeps a session sound exactly if it is of one that committed. -/
theorem sound_withSignatureShare_iff {s : SignerSession C S} {identifier : SignerIdentifier}
    {share : S} (hState : s.state ≠ .complete) (hSound : s.Sound) :
    (s.withSignatureShare identifier share).Sound ↔ identifier ∈ s.commitments := by
  constructor
  · intro hAfter
    exact hAfter.shares identifier (AList.mem_insert _ |>.mpr (.inl rfl))
  · intro hMem
    refine ⟨fun other hShare => ?_, hSound.commitments, enough_withSignatureShare hState⟩
    rcases (AList.mem_insert _).mp hShare with rfl | hOld
    · exact hMem
    · exact hSound.shares other hOld

end SignerSession

/-- A request, and the id that `SessionId::new` makes if it is asked for one. -/
structure SignerCall where
  request : SignerRequest
  newId : String

namespace SignerDaemon

variable {P : SignerPorts}

/-- What a request leaves. -/
def step (d : SignerDaemon P) (call : SignerCall) : SignerDaemon P :=
  (d.handleRequest call.newId call.request).2

/-- All sessions are so. -/
def AllSessions (p : SignerSession P.Commitments P.Share → Prop) (d : SignerDaemon P) : Prop :=
  ∀ id session, d.sessions.lookup id = some session → p session

/-- The request adds commitments of expected participants, or a share of one that committed. -/
def Listed (d : SignerDaemon P) (call : SignerCall) : Prop :=
  match call.request with
  | .submitCommitments sessionId commitments => ∀ session batch,
    d.sessions.lookup sessionId = some session → P.readCommitments commitments = .ok batch →
      ∀ identifier : SignerIdentifier,
        identifier.index ∈ (session.taken batch.entries).map Prod.fst →
          identifier ∈ session.expectedParticipants
  | .submitSignatureShare sessionId share => ∀ session (identifier : SignerIdentifier) content,
    d.sessions.lookup sessionId = some session →
      P.readShare share = .ok (identifier.index, content) →
        session.state ≠ .complete → session.state ≠ .awaitingCommitments →
          identifier ∈ session.commitments
  | _ => True

-- ---------------------------------------------------------------------------
-- One request
-- ---------------------------------------------------------------------------

section One

variable {p : SignerSession P.Commitments P.Share → Prop} {d : SignerDaemon P}

/-- A session put back leaves the others. -/
theorem allSessions_put_iff (h : d.AllSessions p) (id : String)
    (session : SignerSession P.Commitments P.Share) :
    (d.putSession id session).AllSessions p ↔ p session := by
  constructor
  · intro hAfter
    exact hAfter id session (AList.lookup_insert _)
  · intro hSession
    exact Table.forall_lookup_insert.mpr ⟨hSession, fun other found _ => h other found⟩

theorem allSessions_create (h : d.AllSessions p)
    (hNew : ∀ id message expectedParticipants minSigners,
      p (SignerSession.new id message expectedParticipants minSigners))
    (newId message : String) (parts : List (List UInt8)) (minSigners : ℕ) :
    (d.handleCreateSession newId message parts minSigners).2.AllSessions p := by
  unfold handleCreateSession
  split
  · exact h
  split
  · exact h
  · exact h
  split
  · exact h
  · -- the session that is created is new, the others are as they were
    rename_i hCreated
    unfold createSession at hCreated
    split at hCreated
    · cases hCreated
    · cases hCreated
      exact (allSessions_put_iff h newId _).mpr (hNew _ _ _ _)

theorem allSessions_install (h : d.AllSessions p) (pubkeyPackage : Json) :
    (d.handleInstall pubkeyPackage).2.AllSessions p := by
  unfold handleInstall
  split
  · exact h
  · exact h

end One

theorem sound_handleCommitments_iff {d : SignerDaemon P}
    (hSound : d.AllSessions SignerSession.Sound) (newId sessionId : String) (commitments : Json) :
    (d.handleCommitments sessionId commitments).2.AllSessions SignerSession.Sound ↔
      d.Listed ⟨.submitCommitments sessionId commitments, newId⟩ := by
  rcases handleCommitments_cases d sessionId commitments with
    ⟨message, hSame, hEmpty⟩ | ⟨session, batch, hLookup, hRead, -, hAfter, -⟩
  · rw [hSame]
    refine ⟨fun _ session batch hLookup hRead identifier hTaken => ?_, fun _ => hSound⟩
    -- nothing is taken of an empty batch
    rw [hEmpty session batch hLookup hRead] at hTaken
    unfold SignerSession.taken at hTaken
    simp at hTaken
  · rw [hAfter, allSessions_put_iff hSound, SignerSession.sound_grown_iff
      (SignerSession.grown_addBatch batch.nodup_keys) (hSound _ _ hLookup)]
    refine ⟨fun h session' batch' hLookup' hRead' => ?_, fun h => h session batch hLookup hRead⟩
    obtain rfl := Option.some.inj (hLookup'.symm.trans hLookup)
    obtain rfl := Except.ok.inj (hRead'.symm.trans hRead)
    exact h

/-- Nothing was added, or the share of a session that waits for shares. -/
theorem handleShare_cases (d : SignerDaemon P) (sessionId : String) (share : Json) :
    ((d.handleShare sessionId share).2 = d ∧ ∀ session (identifier : SignerIdentifier) content,
      d.sessions.lookup sessionId = some session →
        P.readShare share = .ok (identifier.index, content) →
          session.state = .complete ∨ session.state = .awaitingCommitments) ∨
    (∃ session identifier content, d.sessions.lookup sessionId = some session ∧
      P.readShare share = .ok (identifier.index, content) ∧
      session.state ≠ .complete ∧ session.state ≠ .awaitingCommitments ∧
      (d.handleShare sessionId share).2 =
        d.putSession sessionId (session.withSignatureShare identifier content)) := by
  unfold handleShare
  cases hFound : d.getSession sessionId with
  | error e =>
    -- there is no such session
    refine .inl ⟨rfl, ?_⟩
    intro session _ _ hLookup
    rw [getSession_eq_ok.mpr hLookup] at hFound
    cases hFound
  | ok session =>
    have hLookup := getSession_eq_ok.mp hFound
    dsimp only
    cases hRead : P.readShare share with
    | error e => exact .inl ⟨rfl, fun _ _ _ _ => nofun⟩
    | ok read =>
      obtain ⟨n, content⟩ := read
      dsimp only
      by_cases hn : n = 0
      · rw [SignerSession.identifierOf, dif_pos hn]
        refine .inl ⟨rfl, ?_⟩
        intro _ identifier _ _ hSame
        obtain ⟨hIndex, -⟩ := Prod.mk.inj (Except.ok.inj hSame)
        exact absurd (hIndex.symm.trans hn) identifier.nonzero
      rw [SignerSession.identifierOf, dif_neg hn]
      dsimp only
      cases hAdded : session.addSignatureShare ⟨n, hn⟩ content with
      | error e =>
        -- the state alone makes a session refuse a share
        refine .inl ⟨rfl, ?_⟩
        intro session' _ _ hLookup' _
        obtain rfl := Option.some.inj (hLookup'.symm.trans hLookup)
        by_contra hOpen
        obtain ⟨hComplete, hAwaiting⟩ := not_or.mp hOpen
        rw [SignerSession.addSignatureShare_eq_ok.mpr ⟨hComplete, hAwaiting, rfl⟩] at hAdded
        cases hAdded
      | ok after =>
        obtain ⟨hComplete, hAwaiting, rfl⟩ := SignerSession.addSignatureShare_eq_ok.mp hAdded
        exact .inr ⟨session, ⟨n, hn⟩, content, hLookup, rfl, hComplete, hAwaiting, rfl⟩

theorem sound_handleShare_iff {d : SignerDaemon P}
    (hSound : d.AllSessions SignerSession.Sound) (newId sessionId : String) (share : Json) :
    (d.handleShare sessionId share).2.AllSessions SignerSession.Sound ↔
      d.Listed ⟨.submitSignatureShare sessionId share, newId⟩ := by
  rcases handleShare_cases d sessionId share with
    ⟨hSame, hClosed⟩ | ⟨session, identifier, content, hLookup, hRead, hComplete, hAwaiting, hAfter⟩
  · rw [hSame]
    refine ⟨?_, fun _ => hSound⟩
    intro _ session identifier content hLookup hRead hComplete hAwaiting
    rcases hClosed session identifier content hLookup hRead with hIs | hIs
    · exact absurd hIs hComplete
    · exact absurd hIs hAwaiting
  · rw [hAfter, allSessions_put_iff hSound,
      SignerSession.sound_withSignatureShare_iff hComplete (hSound _ _ hLookup)]
    constructor
    · -- the request names one session and one signer only
      intro hMem session' identifier' content' hLookup' hRead' _ _
      obtain rfl := Option.some.inj (hLookup'.symm.trans hLookup)
      obtain ⟨hIndex, -⟩ := Prod.mk.inj (Except.ok.inj (hRead'.symm.trans hRead))
      obtain rfl := SignerIdentifier.ext hIndex
      exact hMem
    · intro hListed
      exact hListed session identifier content hLookup hRead hComplete hAwaiting

/-- **One request** keeps all sessions sound exactly if it is listed. -/
theorem sound_step_iff {d : SignerDaemon P} (hSound : d.AllSessions SignerSession.Sound)
    (call : SignerCall) : (d.step call).AllSessions SignerSession.Sound ↔ d.Listed call := by
  obtain ⟨request, newId⟩ := call
  cases request with
  | createSession message parts minSigners =>
    exact iff_of_true
      (allSessions_create hSound SignerSession.sound_new newId message parts minSigners) trivial
  | installKeyPackages pubkeyPackage =>
    exact iff_of_true (allSessions_install hSound pubkeyPackage) trivial
  | submitCommitments sessionId commitments =>
    exact sound_handleCommitments_iff hSound newId sessionId commitments
  | submitSignatureShare sessionId share => exact sound_handleShare_iff hSound newId sessionId share
  | getSignature sessionId => exact iff_of_true hSound trivial
  | sessionStatus sessionId => exact iff_of_true hSound trivial
  | health => exact iff_of_true hSound trivial

-- ---------------------------------------------------------------------------
-- Enough shares
-- ---------------------------------------------------------------------------

/-- A session is complete with enough shares, whoever they are of. -/
theorem enough_step {d : SignerDaemon P} (hEnough : d.AllSessions SignerSession.Enough)
    (call : SignerCall) : (d.step call).AllSessions SignerSession.Enough := by
  obtain ⟨request, newId⟩ := call
  cases request with
  | createSession message parts minSigners =>
    exact allSessions_create hEnough (fun _ _ _ _ => nofun) newId message parts minSigners
  | installKeyPackages pubkeyPackage => exact allSessions_install hEnough pubkeyPackage
  | submitCommitments sessionId commitments =>
    show (d.handleCommitments sessionId commitments).2.AllSessions SignerSession.Enough
    -- a batch that is taken in part changes the session too
    rcases handleCommitments_cases d sessionId commitments with
      ⟨message, hSame, -⟩ | ⟨session, batch, hLookup, -, -, hAfter, -⟩
    · rw [hSame]
      exact hEnough
    · rw [hAfter]
      exact (allSessions_put_iff hEnough sessionId _).mpr (SignerSession.enough_grown
        (SignerSession.grown_addBatch batch.nodup_keys) (hEnough _ _ hLookup))
  | submitSignatureShare sessionId share =>
    show (d.handleShare sessionId share).2.AllSessions SignerSession.Enough
    rcases handleShare_cases d sessionId share with
      ⟨hSame, -⟩ | ⟨session, identifier, content, -, -, hState, -, hAfter⟩
    · rw [hSame]
      exact hEnough
    · rw [hAfter]
      exact (allSessions_put_iff hEnough sessionId _).mpr
        (SignerSession.enough_withSignatureShare hState)
  | getSignature sessionId => exact hEnough
  | sessionStatus sessionId => exact hEnough
  | health => exact hEnough

-- ---------------------------------------------------------------------------
-- Runs
-- ---------------------------------------------------------------------------

theorem allSessions_start (p : SignerSession P.Commitments P.Share → Prop)
    (pubkeyPackage : Option P.PubkeyPackage) : (start pubkeyPackage).AllSessions p := by
  intro id session hLookup
  cases hLookup

/-- Along any run a session is complete with enough shares only. -/
theorem enough_run (pubkeyPackage : Option P.PubkeyPackage) (calls : List SignerCall) :
    (Runs.run step (start pubkeyPackage) calls).AllSessions SignerSession.Enough := by
  have hStep (d : SignerDaemon P) (call : SignerCall)
      (hEnough : d.AllSessions SignerSession.Enough) :
      (d.step call).AllSessions SignerSession.Enough := enough_step hEnough call
  exact Runs.run_preserves hStep (allSessions_start _ pubkeyPackage) calls

/-- **The sessions are sound** along a run exactly if all its requests are listed. -/
theorem signer_sessions_sound_iff (P : SignerPorts) (pubkeyPackage : Option P.PubkeyPackage)
    (calls : List SignerCall) :
    Runs.EveryState step (AllSessions SignerSession.Sound) (start pubkeyPackage) calls ↔
      Runs.EveryStep step Listed (start pubkeyPackage) calls := by
  have hExact (d : SignerDaemon P) (call : SignerCall) (_ : True)
      (hSound : d.AllSessions SignerSession.Sound) :
      (d.step call).AllSessions SignerSession.Sound ↔ d.Listed call := sound_step_iff hSound call
  exact Runs.everyState_iff_everyStep (fun _ _ _ => trivial) hExact trivial
    (allSessions_start _ pubkeyPackage) calls

/-- A session for signer 1 takes the commitments of signer 2 and the share of signer 3. -/
theorem signer_session_takes_strangers :
    ¬ ∀ (P : SignerPorts) (pubkeyPackage : Option P.PubkeyPackage) (calls : List SignerCall),
      Runs.EveryState step (AllSessions SignerSession.Sound) (start pubkeyPackage) calls := by
  intro h
  let P := fixedPorts [2] 3
  let calls : List SignerCall := [⟨.createSession "" [[1]] 1, "session"⟩,
    ⟨.submitCommitments "session" (commitmentsJson [2]), ""⟩,
    ⟨.submitSignatureShare "session" (shareJson 3), ""⟩]
  have hLast := (h P none calls).last "session" _ rfl
  have hShare := hLast.shares ⟨3, by decide⟩ (by decide)
  exact absurd hShare (by decide)

end SignerDaemon

end KeroseneVault
