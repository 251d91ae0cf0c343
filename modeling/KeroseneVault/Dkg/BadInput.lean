import KeroseneVault.Dkg.ReshareSession
import KeroseneVault.Dkg.SmallFrost

/-!
# Round 1 messages that are refused

`ingest_round1` stores the package it is given, and where that is the last one
it takes the secret of part 1 out of the session and runs part 2, all in one
call. A part 2 that fails ends the call with an error, but the package stays
and the secret is gone.

* `Breaks` — a message that completes the packages of a session with one that
  part 2 refuses;
* `Survives` — what a refused message is to leave of the sessions of a hub;
* `CanComplete` — some calls complete the session;
* `Stranded` — a session in round 1 without its secret.

Main results:

* `Stranded.not_canComplete` — no calls complete a stranded session;
* `ingestRound1_survives_iff` — when the three hubs survive a refused message;
* `ingestRound1_survives_fails` — one bad proof of knowledge.
-/

namespace KeroseneVault

variable {k : WireDkg} {F : FrostDkg}

/-! ## Key generation -/

namespace SessionInner

/-- The message is admitted, its package is the last one, and part 2 refuses
the packages. -/
structure Breaks (s : SessionInner k F) (msg : Round1WireMessage) (id : F.Identifier)
    (package : F.Round1Package) (secret : F.Round1Secret) : Prop where
  admits : s.Admits msg id package
  holds : s.round1Secret = some secret
  full : Table.size (s.round1Packages.insert id package) % 2 ^ 16 = s.maxSigners
  refuses : ∃ e, F.part2 secret ((s.round1Packages.insert id package).erase s.localIdentifier) =
    .error e

/-- Some calls complete the session. -/
def CanComplete (s : SessionInner k F) : Prop :=
  ∃ calls : List (HubCall F), (Runs.run after s calls).phase = .complete

/-- The session waits in round 1 and has lost its secret. -/
structure Stranded (s : SessionInner k F) : Prop where
  phase : s.phase = .round1
  round1Secret : s.round1Secret = none
  round2Secret : s.round2Secret = none

variable {s : SessionInner k F} {msg : Round1WireMessage} {id : F.Identifier}
  {package : F.Round1Package} {secret : F.Round1Secret}

/-- The package is stored and the secret is gone. -/
theorem Breaks.ingestRound1 (h : s.Breaks msg id package secret) :
    ∃ e, s.ingestRound1 msg = (.error e,
      { s with round1Packages := s.round1Packages.insert id package, round1Secret := none }) := by
  obtain ⟨e, hPart⟩ := h.refuses
  rw [h.admits.ingestRound1]
  unfold acceptRound1
  dsimp only
  rw [if_pos ⟨h.full, Option.isSome_iff_exists.mpr ⟨secret, h.holds⟩, h.admits.phase⟩]
  unfold advanceToRound2
  dsimp only
  rw [h.holds]
  dsimp only
  rw [hPart]
  exact ⟨_, rfl⟩

/-- **One message.** A refused message leaves the session as it is unless it
breaks it. -/
theorem ingestRound1_error (hError : ∃ e, (s.ingestRound1 msg).1 = .error e)
    (h : ¬ ∃ id package secret, s.Breaks msg id package secret) :
    (s.ingestRound1 msg).2 = s := by
  rcases s.ingestRound1_admits msg with hSame | ⟨id, package, hAdmits⟩
  · exact hSame
  -- an admitted message is refused by part 2 only
  rw [hAdmits.ingestRound1] at hError
  rcases s.acceptRound1_cases id package hAdmits.phase with
    ⟨hEq, -⟩ | ⟨hFull, secret, hSecret, ⟨_, _, -, hEq⟩ | ⟨e, hPart, -⟩⟩
  · rw [hEq] at hError
    obtain ⟨e, hError⟩ := hError
    cases hError
  · rw [hEq] at hError
    obtain ⟨e, hError⟩ := hError
    cases hError
  · exact absurd ⟨id, package, secret, hAdmits, hSecret, hFull, e, hPart⟩ h

theorem Breaks.stranded (h : s.Breaks msg id package secret) (hWaits : s.round2Secret = none) :
    (s.ingestRound1 msg).2.Stranded := by
  obtain ⟨e, hEq⟩ := h.ingestRound1
  rw [hEq]
  exact ⟨h.admits.phase, rfl, hWaits⟩

/-- A package of round 1 comes, but nothing is left to run part 2 with. -/
theorem Stranded.ingestRound1 (h : s.Stranded) (msg : Round1WireMessage) :
    (s.ingestRound1 msg).2.Stranded := by
  rcases s.ingestRound1_admits msg with hSame | ⟨id, package, hAdmits⟩
  · rw [hSame]
    exact h
  rw [hAdmits.ingestRound1]
  rcases s.acceptRound1_cases id package h.phase with ⟨hEq, -⟩ | ⟨-, secret, hSecret, -⟩
  · rw [hEq]
    exact ⟨h.phase, h.round1Secret, h.round2Secret⟩
  · rw [h.round1Secret] at hSecret
    cases hSecret

/-- **One call** on a stranded session. -/
theorem Stranded.after (h : s.Stranded) (call : HubCall F) : (s.after call).Stranded := by
  -- each call looks for the secret, or leaves it alone
  cases call with
  | start req rand => exact h
  | ingestRound1 msg =>
    rw [SessionInner.after]
    split
    · exact h
    · exact h.ingestRound1 msg
  | takeRound2Outbound sessionId => exact ⟨h.phase, h.round1Secret, h.round2Secret⟩
  | ingestRound2 msg =>
    rw [SessionInner.after]
    split
    · exact h
    rcases s.ingestRound2_cases msg with hSame | ⟨_, _, -, hEq⟩
    · rw [hSame]
      exact h
    · rw [hEq]
      exact ⟨h.phase, h.round1Secret, h.round2Secret⟩
  | finalizeRound3 sessionId disk =>
    rw [SessionInner.after, if_neg (by rw [h.phase]; simp)]
    split
    · exact h
    · rename_i keys hKeys
      obtain ⟨_, _, _, -, hSecret, -⟩ := round3Keys_ok.mp hKeys
      rw [h.round2Secret] at hSecret
      cases hSecret

/-- No calls complete a stranded session. -/
theorem Stranded.not_canComplete (h : s.Stranded) : ¬ s.CanComplete := by
  rintro ⟨calls, hComplete⟩
  have hEnd := Runs.run_preserves (P := Stranded) (fun t call ht => ht.after call) h calls
  rw [hEnd.phase] at hComplete
  cases hComplete

end SessionInner

namespace DkgHub

/-- The message breaks the session it names. -/
def Breaks (hub : DkgHub k F) (msg : Round1WireMessage) : Prop :=
  checkEnvelope k "round1" msg.envelope = .ok () ∧
    ∃ s, hub.sessions.lookup msg.sessionId = some s ∧
      ∃ id package secret, s.Breaks msg id package secret

/-- Where the message is refused, every session is as it was, and what could be
completed still can. -/
def Survives (hub : DkgHub k F) (msg : Round1WireMessage) : Prop :=
  ∀ e, (hub.ingestRound1 msg).1 = .error e → ∀ sid,
    (hub.ingestRound1 msg).2.sessions.lookup sid = hub.sessions.lookup sid ∧
    ∀ s, hub.sessions.lookup sid = some s → s.CanComplete →
      ∃ t, (hub.ingestRound1 msg).2.sessions.lookup sid = some t ∧ t.CanComplete

theorem survives_iff {hub : DkgHub k F} {msg : Round1WireMessage} :
    hub.Survives msg ↔ ((∃ e, (hub.ingestRound1 msg).1 = .error e) → ∀ sid,
      (hub.ingestRound1 msg).2.sessions.lookup sid = hub.sessions.lookup sid) := by
  constructor
  · rintro h ⟨e, hError⟩ sid
    exact (h e hError sid).1
  · intro h e hError sid
    have hSame := h ⟨e, hError⟩ sid
    exact ⟨hSame, fun s hs hCan => ⟨s, hSame.trans hs, hCan⟩⟩

/-- What a message that passes the envelope check comes to on its session. -/
theorem ingestRound1_found {hub : DkgHub k F} {msg : Round1WireMessage} {s : SessionInner k F}
    (hEnvelope : checkEnvelope k "round1" msg.envelope = .ok ())
    (hs : hub.sessions.lookup msg.sessionId = some s) :
    (hub.ingestRound1 msg).2.sessions.lookup msg.sessionId = some (s.ingestRound1 msg).2 ∧
      ((∃ e, (hub.ingestRound1 msg).1 = .error e) ↔ ∃ e, (s.ingestRound1 msg).1 = .error e) := by
  unfold ingestRound1
  rw [hEnvelope]
  refine ⟨by simp [hs], ?_⟩
  dsimp only
  unfold onSession
  rw [hs]
  dsimp only
  rcases (s.ingestRound1 msg).1 with e | u
  · simp
  · simp

/-- The session as the break leaves it. -/
theorem Breaks.session {hub : DkgHub k F} {msg : Round1WireMessage} (h : hub.Breaks msg) :
    (∃ e, (hub.ingestRound1 msg).1 = .error e) ∧
      ∃ s t, hub.sessions.lookup msg.sessionId = some s ∧
        (hub.ingestRound1 msg).2.sessions.lookup msg.sessionId = some t ∧
        s.round1Secret.isSome ∧ t.round1Secret = none ∧
        (s.round2Secret = none → t.Stranded) := by
  obtain ⟨hEnvelope, s, hs, id, package, secret, hBreaks⟩ := h
  obtain ⟨hAfter, hErrors⟩ := ingestRound1_found hEnvelope hs
  obtain ⟨e, hEq⟩ := hBreaks.ingestRound1
  refine ⟨hErrors.mpr ⟨e, by rw [hEq]⟩, s, _, hs, hAfter, ?_, by rw [hEq], hBreaks.stranded⟩
  rw [hBreaks.holds]
  rfl

/-- **The exact condition**, for a hub of either kind. -/
theorem survives_iff_not_breaks (hub : DkgHub k F) (msg : Round1WireMessage) :
    hub.Survives msg ↔ ¬ hub.Breaks msg := by
  rw [survives_iff]
  refine @Table.unchanged_iff_not _ _ _ _ _ msg.sessionId _ _ (fun hBreaks => ?_)
    (fun ⟨e, hError⟩ h => ?_) fun sid hSid => ?_
  · -- the session named has lost its secret
    obtain ⟨hRefused, s, t, hs, ht, hSome, hNone, -⟩ := hBreaks.session
    refine ⟨hRefused, fun hSame => ?_⟩
    rw [ht, hs] at hSame
    cases Option.some.inj hSame
    rw [hNone] at hSome
    cases hSome
  · cases hs : hub.sessions.lookup msg.sessionId with
    | none =>
      have hNew := hub.perform_cases ∅ (show hub.sessions.lookup (HubCall.ingestRound1 msg).sessionId
        = none from hs)
      rcases hNew with hNone | ⟨_, _, _, _, _, hCall, -⟩
      · exact hNone
      · cases hCall
    | some s =>
      cases hEnvelope : checkEnvelope k "round1" msg.envelope with
      | error e =>
        unfold ingestRound1
        rw [hEnvelope]
        exact hs
      | ok u =>
        obtain ⟨hAfter, hErrors⟩ := ingestRound1_found hEnvelope hs
        rw [hAfter, SessionInner.ingestRound1_error (hErrors.mp ⟨e, hError⟩)]
        exact fun hBreaks => h ⟨hEnvelope, s, hs, hBreaks⟩
  · show (hub.perform ∅ (.ingestRound1 msg)).1.sessions.lookup sid = _
    exact hub.lookup_perform_ne ∅ hSid

end DkgHub

/-! ## Resharing -/

namespace ReshareSessionInner

variable {F : FrostRefresh}

/-- The message is admitted, its package is the last one, and part 2 refuses
the packages. -/
structure Breaks (s : ReshareSessionInner F) (msg : ReshareRound1WireMessage) (id : F.Identifier)
    (package : F.Round1Package) (secret : F.Round1Secret) : Prop where
  admits : s.Admits msg id package
  phase : s.phase = .round1
  holds : s.round1Secret = some secret
  full : Table.size (s.round1Packages.insert id package) % 2 ^ 16 = s.maxSigners
  refuses : ∃ e, F.refreshPart2 secret
    ((s.round1Packages.insert id package).erase s.localIdentifier) = .error e

/-- Some calls complete the session. -/
def CanComplete (s : ReshareSessionInner F) : Prop :=
  ∃ calls : List (ReshareHubCall F), (Runs.run after s calls).phase = .complete

/-- The session waits in round 1 and has lost its secret. -/
structure Stranded (s : ReshareSessionInner F) : Prop where
  phase : s.phase = .round1
  round1Secret : s.round1Secret = none
  round2Secret : s.round2Secret = none

variable {s : ReshareSessionInner F} {msg : ReshareRound1WireMessage} {id : F.Identifier}
  {package : F.Round1Package} {secret : F.Round1Secret}

/-- The package is stored and the secret is gone. -/
theorem Breaks.ingestRound1 (h : s.Breaks msg id package secret) :
    ∃ e, s.ingestRound1 msg = (.error e,
      { s with round1Packages := s.round1Packages.insert id package, round1Secret := none }) := by
  obtain ⟨e, hPart⟩ := h.refuses
  rw [h.admits.ingestRound1]
  rcases s.acceptRound1_cases id package with ⟨-, hNot⟩ | ⟨-, -, held, hHeld, hRest⟩
  · exact absurd ⟨h.full, Option.isSome_iff_exists.mpr ⟨secret, h.holds⟩, h.phase⟩ hNot
  obtain rfl := Option.some.inj (h.holds.symm.trans hHeld)
  rcases hRest with ⟨_, _, hOk, -⟩ | ⟨_, -, hEq⟩
  · rw [hPart] at hOk
    cases hOk
  · exact ⟨_, hEq⟩

/-- **One message.** A refused message leaves the session as it is unless it
breaks it. -/
theorem ingestRound1_error (hError : ∃ e, (s.ingestRound1 msg).1 = .error e)
    (h : ¬ ∃ id package secret, s.Breaks msg id package secret) :
    (s.ingestRound1 msg).2 = s := by
  rcases s.ingestRound1_cases msg with hSame | ⟨id, package, hAdmits⟩
  · exact hSame
  -- an admitted message is refused by part 2 only
  rw [hAdmits.ingestRound1] at hError
  rcases s.acceptRound1_cases id package with
    ⟨hEq, -⟩ | ⟨hFull, hPhase, secret, hSecret, ⟨_, _, -, hEq⟩ | ⟨e, hPart, -⟩⟩
  · rw [hEq] at hError
    obtain ⟨e, hError⟩ := hError
    cases hError
  · rw [hEq] at hError
    obtain ⟨e, hError⟩ := hError
    cases hError
  · exact absurd ⟨id, package, secret, hAdmits, hPhase, hSecret, hFull, e, hPart⟩ h

theorem Breaks.stranded (h : s.Breaks msg id package secret) (hWaits : s.round2Secret = none) :
    (s.ingestRound1 msg).2.Stranded := by
  obtain ⟨e, hEq⟩ := h.ingestRound1
  rw [hEq]
  exact ⟨h.phase, rfl, hWaits⟩

/-- A package of round 1 comes, but nothing is left to run part 2 with. -/
theorem Stranded.ingestRound1 (h : s.Stranded) (msg : ReshareRound1WireMessage) :
    (s.ingestRound1 msg).2.Stranded := by
  rcases s.ingestRound1_cases msg with hSame | ⟨id, package, hAdmits⟩
  · rw [hSame]
    exact h
  rw [hAdmits.ingestRound1]
  rcases s.acceptRound1_cases id package with ⟨hEq, -⟩ | ⟨-, -, secret, hSecret, -⟩
  · rw [hEq]
    exact ⟨h.phase, h.round1Secret, h.round2Secret⟩
  · rw [h.round1Secret] at hSecret
    cases hSecret

/-- **One call** on a stranded session. -/
theorem Stranded.after (h : s.Stranded) (call : ReshareHubCall F) : (s.after call).Stranded := by
  -- each call looks for the secret, or leaves it alone
  cases call with
  | start req oldPubkey oldKey rand => exact h
  | ingestRound1 msg =>
    rw [ReshareSessionInner.after]
    split
    · exact h
    · exact h.ingestRound1 msg
  | takeRound2Outbound sessionId => exact ⟨h.phase, h.round1Secret, h.round2Secret⟩
  | ingestRound2 msg =>
    rw [ReshareSessionInner.after]
    split
    · exact h
    rcases s.ingestRound2_cases msg with hSame | ⟨_, _, -, hEq⟩
    · rw [hSame]
      exact h
    · rw [hEq]
      exact ⟨h.phase, h.round1Secret, h.round2Secret⟩
  | finalize sessionId disk =>
    rw [ReshareSessionInner.after, if_neg (by rw [h.phase]; simp)]
    split
    · exact h
    · rename_i keys hKeys
      obtain ⟨_, _, -, hSecret, -⟩ := reshareKeys_ok.mp hKeys
      rw [h.round2Secret] at hSecret
      cases hSecret

theorem Stranded.not_canComplete (h : s.Stranded) : ¬ s.CanComplete := by
  rintro ⟨calls, hComplete⟩
  have hEnd := Runs.run_preserves (P := Stranded) (fun t call ht => ht.after call) h calls
  rw [hEnd.phase] at hComplete
  cases hComplete

end ReshareSessionInner

namespace WireReshareHub

variable {F : FrostRefresh} {hub : WireReshareHub F} {msg : ReshareRound1WireMessage}

/-- The message breaks the session it names. -/
def Breaks (hub : WireReshareHub F) (msg : ReshareRound1WireMessage) : Prop :=
  checkReshareEnvelope "r1" msg.envelope = .ok () ∧
    ∃ s, hub.sessions.lookup msg.sessionId = some s ∧
      ∃ id package secret, s.Breaks msg id package secret

/-- Where the message is refused, every session is as it was, and what could be
completed still can. -/
def Survives (hub : WireReshareHub F) (msg : ReshareRound1WireMessage) : Prop :=
  ∀ e, (hub.ingestRound1 msg).1 = .error e → ∀ sid,
    (hub.ingestRound1 msg).2.sessions.lookup sid = hub.sessions.lookup sid ∧
    ∀ s, hub.sessions.lookup sid = some s → s.CanComplete →
      ∃ t, (hub.ingestRound1 msg).2.sessions.lookup sid = some t ∧ t.CanComplete

theorem survives_iff :
    hub.Survives msg ↔ ((∃ e, (hub.ingestRound1 msg).1 = .error e) → ∀ sid,
      (hub.ingestRound1 msg).2.sessions.lookup sid = hub.sessions.lookup sid) := by
  constructor
  · rintro h ⟨e, hError⟩ sid
    exact (h e hError sid).1
  · intro h e hError sid
    have hSame := h ⟨e, hError⟩ sid
    exact ⟨hSame, fun s hs hCan => ⟨s, hSame.trans hs, hCan⟩⟩

/-- What a message that passes the envelope check comes to on its session. -/
theorem ingestRound1_found {s : ReshareSessionInner F}
    (hEnvelope : checkReshareEnvelope "r1" msg.envelope = .ok ())
    (hs : hub.sessions.lookup msg.sessionId = some s) :
    (hub.ingestRound1 msg).2.sessions.lookup msg.sessionId = some (s.ingestRound1 msg).2 ∧
      ((∃ e, (hub.ingestRound1 msg).1 = .error e) ↔ ∃ e, (s.ingestRound1 msg).1 = .error e) := by
  unfold ingestRound1
  rw [hEnvelope]
  refine ⟨by simp [hs], ?_⟩
  dsimp only
  unfold onSession
  rw [hs]
  dsimp only
  rcases (s.ingestRound1 msg).1 with e | u
  · simp
  · simp

theorem Breaks.session (h : hub.Breaks msg) :
    (∃ e, (hub.ingestRound1 msg).1 = .error e) ∧
      ∃ s t, hub.sessions.lookup msg.sessionId = some s ∧
        (hub.ingestRound1 msg).2.sessions.lookup msg.sessionId = some t ∧
        s.round1Secret.isSome ∧ t.round1Secret = none ∧
        (s.round2Secret = none → t.Stranded) := by
  obtain ⟨hEnvelope, s, hs, id, package, secret, hBreaks⟩ := h
  obtain ⟨hAfter, hErrors⟩ := ingestRound1_found hEnvelope hs
  obtain ⟨e, hEq⟩ := hBreaks.ingestRound1
  refine ⟨hErrors.mpr ⟨e, by rw [hEq]⟩, s, _, hs, hAfter, ?_, by rw [hEq], hBreaks.stranded⟩
  rw [hBreaks.holds]
  rfl

/-- **The exact condition**, for the reshare hub. -/
theorem survives_iff_not_breaks (hub : WireReshareHub F) (msg : ReshareRound1WireMessage) :
    hub.Survives msg ↔ ¬ hub.Breaks msg := by
  rw [survives_iff]
  refine @Table.unchanged_iff_not _ _ _ _ _ msg.sessionId _ _ (fun hBreaks => ?_)
    (fun ⟨e, hError⟩ h => ?_) fun sid hSid => ?_
  · -- the session named has lost its secret
    obtain ⟨hRefused, s, t, hs, ht, hSome, hNone, -⟩ := hBreaks.session
    refine ⟨hRefused, fun hSame => ?_⟩
    rw [ht, hs] at hSame
    cases Option.some.inj hSame
    rw [hNone] at hSome
    cases hSome
  · cases hs : hub.sessions.lookup msg.sessionId with
    | none =>
      have hNew := hub.perform_cases ∅
        (show hub.sessions.lookup (ReshareHubCall.ingestRound1 msg).sessionId = none from hs)
      rcases hNew with hNone | ⟨_, _, _, _, _, _, _, _, hCall, -⟩
      · exact hNone
      · cases hCall
    | some s =>
      cases hEnvelope : checkReshareEnvelope "r1" msg.envelope with
      | error e =>
        unfold ingestRound1
        rw [hEnvelope]
        exact hs
      | ok u =>
        obtain ⟨hAfter, hErrors⟩ := ingestRound1_found hEnvelope hs
        rw [hAfter, ReshareSessionInner.ingestRound1_error (hErrors.mp ⟨e, hError⟩)]
        exact fun hBreaks => h ⟨hEnvelope, s, hs, hBreaks⟩
  · show (hub.perform ∅ (.ingestRound1 msg)).1.sessions.lookup sid = _
    exact hub.lookup_perform_ne ∅ hSid

end WireReshareHub

/-! ## The three hubs -/

/--
**Refused round 1 messages.** A hub survives one exactly when the message does
not complete the packages of its session with one that part 2 refuses. A
session so broken, before it has a secret of round 2, is never completed.
-/
theorem ingestRound1_survives_iff (k : WireDkg) (F : FrostDkg) (R : FrostRefresh)
    (hub : DkgHub k F) (msg : Round1WireMessage) (reshareHub : WireReshareHub R)
    (reshareMsg : ReshareRound1WireMessage) :
    ((hub.Survives msg ↔ ¬ hub.Breaks msg) ∧
      (hub.Breaks msg → ∃ s t, hub.sessions.lookup msg.sessionId = some s ∧
        (hub.ingestRound1 msg).2.sessions.lookup msg.sessionId = some t ∧
        (s.round2Secret = none → ¬ t.CanComplete))) ∧
    ((reshareHub.Survives reshareMsg ↔ ¬ reshareHub.Breaks reshareMsg) ∧
      (reshareHub.Breaks reshareMsg → ∃ s t,
        reshareHub.sessions.lookup reshareMsg.sessionId = some s ∧
        (reshareHub.ingestRound1 reshareMsg).2.sessions.lookup reshareMsg.sessionId = some t ∧
        (s.round2Secret = none → ¬ t.CanComplete))) := by
  refine ⟨⟨hub.survives_iff_not_breaks msg, fun h => ?_⟩,
    ⟨reshareHub.survives_iff_not_breaks reshareMsg, fun h => ?_⟩⟩
  · obtain ⟨-, s, t, hs, ht, -, -, hStranded⟩ := h.session
    exact ⟨s, t, hs, ht, fun hWaits => (hStranded hWaits).not_canComplete⟩
  · obtain ⟨-, s, t, hs, ht, -, -, hStranded⟩ := h.session
    exact ⟨s, t, hs, ht, fun hWaits => (hStranded hWaits).not_canComplete⟩

/-! ### A bad proof of knowledge -/

/-- A package that decodes, and does not prove that its sender knows the
secret. -/
def badPackage : PolyRound1 Small Small := { commitment := [2, 3], nonce := 1, response := 0 }

/-- The hub of `a`, in a session with `b`. -/
def waitingHub : WireDkgHub smallFrost.toFrostDkg :=
  (DkgHub.start (.new "a") ⟨"s1", 2, 2, ["a", "b"]⟩ ((fun _ => 5), 3)).2

/-- `b` sends the bad package. -/
def badMessage : Round1WireMessage where
  sessionId := "s1"
  senderNodeId := "b"
  senderIdentifier := 2
  maxSigners := 2
  minSigners := 2
  transcriptHex := ((waitingHub.sessions.lookup "s1").map SessionInner.transcriptHex).getD ""
  packageHex := hexText (smallFrost.round1.bytes badPackage)
  envelope := none

/-- The message is refused, and the session has lost its secret. -/
theorem ingestRound1_survives_fails : ¬ waitingHub.Survives badMessage := by
  intro h
  have hError : (waitingHub.ingestRound1 badMessage).1.toBool = false := by decide +kernel
  have hHad : ((waitingHub.sessions.lookup "s1").bind SessionInner.round1Secret).isSome := by
    decide +kernel
  have hLost : (((waitingHub.ingestRound1 badMessage).2.sessions.lookup "s1").bind
      SessionInner.round1Secret).isSome = false := by decide +kernel
  cases hOutcome : (waitingHub.ingestRound1 badMessage).1 with
  | ok status =>
    rw [hOutcome] at hError
    cases hError
  | error e =>
    rw [DkgHub.survives_iff.mp h ⟨e, hOutcome⟩ "s1", hHad] at hLost
    cases hLost

end KeroseneVault
