import KeroseneVault.Dkg.SmallFrost

/-!
# Wire DKG completes in any order

All members of a roster start a session, and from there on the calls on their
hubs come in any order, messages are lost, repeated and delivered late, and the
hubs run other sessions in between. Once every message has been delivered, every
member finalizes, and all with the same key.

* `AllStart` — the hubs, and the request all members start;
* `Permits`, `Delivered` — the calls of the run, and when it has delivered all;
* `Ceremony.Tracked` — the invariant of the run: what a hub was given it has,
  what it moved on with it holds for its peers or has handed out.

Main results:

* `Tracked.step` — every permitted call keeps the invariant;
* `AllStart.tracked` — the starts establish it;
* `Tracked.ready` — with all delivered, every member has every package;
* `wireDkg_completes` — the run ends with all members complete.
-/

namespace KeroseneVault

variable {k : WireDkg} {F : FrostDkg}

/-! ## The environment -/

/-- The members' hubs have no session of this id yet, and all start it with the
same request. -/
structure AllStart (hubs : String → DkgHub k F) (req : DkgStartRequest)
    (rand : String → F.Randomness) : Prop where
  keyed : ∀ i, (hubs i).Keyed
  named : ∀ i ∈ req.members, (hubs i).localNodeId = i
  fresh : ∀ i ∈ req.members, (hubs i).sessions.lookup req.sessionId = none
  twoMembers : 2 ≤ req.members.length
  started : ∀ i ∈ req.members, ∃ answer, ((hubs i).start req (rand i)).1 = .ok answer

/-- A call the environment may make: on other sessions any, on this one a call
on a member's hub that delivers what some member sent, to whomever. -/
def Permits (req : DkgStartRequest) (m : DkgMesh k F) : String × HubCall F → Prop
  | (i, call) => call.sessionId = req.sessionId → i ∈ req.members ∧
    match call with
    | .ingestRound1 msg => msg ∈ m.sent1
    | .ingestRound2 msg => msg ∈ m.sent2
    | _ => True

instance decidablePermits (req : DkgStartRequest) (m : DkgMesh k F) :
    ∀ a, Decidable (Permits req m a)
  | (_, .ingestRound1 msg) => inferInstanceAs (Decidable (msg.sessionId = req.sessionId → _ ∧ _))
  | (_, .ingestRound2 msg) => inferInstanceAs (Decidable (msg.sessionId = req.sessionId → _ ∧ _))
  | (_, .start other _) => inferInstanceAs (Decidable (other.sessionId = req.sessionId → _ ∧ True))
  | (_, .takeRound2Outbound sid) => inferInstanceAs (Decidable (sid = req.sessionId → _ ∧ True))
  | (_, .finalizeRound3 sid _) => inferInstanceAs (Decidable (sid = req.sessionId → _ ∧ True))

/-- Every message of the session has been delivered at least once: round 1
messages to all other members, round 2 messages to their recipients, and no hub
holds one back. -/
structure Delivered (req : DkgStartRequest) (m : DkgMesh k F) : Prop where
  round1 : ∀ msg ∈ m.sent1, msg.sessionId = req.sessionId →
    ∀ i ∈ req.members, i ≠ msg.senderNodeId → (i, msg) ∈ m.given1
  handedOut : ∀ i ∈ req.members, ∀ s, m.session i req.sessionId = some s → s.round2Outbound = ∅
  round2 : ∀ msg ∈ m.sent2, msg.sessionId = req.sessionId → (msg.recipientNodeId, msg) ∈ m.given2

namespace Ceremony

variable {C : Ceremony k F} {e d : String × F.Identifier} {s : SessionInner k F}

theorem exists_of_mem_ids {j : F.Identifier} (hj : j ∈ C.ids) : ∃ d ∈ C.roster, d.2 = j :=
  List.mem_map.mp hj

/-! ## What a member's session returns -/

namespace Live

/-- A second start sends the member's package again. -/
theorem restart (h : C.Live e s) (he : e ∈ C.roster) {answer : WireDkgStatus × Round1WireMessage}
    (hRestart : s.restart = .ok answer) : answer.2 = C.wire1 e := by
  obtain ⟨x, hx⟩ := Option.isSome_iff_exists.mp (AList.lookup_isSome.mpr h.own)
  obtain ⟨-, rfl⟩ := h.packages e.2 x hx
  rw [SessionInner.restart, h.localIdentifier, hx] at hRestart
  dsimp only at hRestart
  rw [C.encodes e.2 (mem_ids he)] at hRestart
  cases Except.ok.inj hRestart
  simp [SessionInner.round1Message, wire1, h.sessionId, h.localNodeId, h.localIdentifier,
    h.maxSigners, h.minSigners, h.roster, h.transcriptHex]

/-- Handing out the packages for the others makes a message of each. -/
theorem takes (h : C.Live e s) (he : e ∈ C.roster) :
    ∃ out, s.round2Outbound.toPairs.mapM
        (s.drained.round2Message C.req.sessionId) = .ok out ∧
      (∀ msg ∈ out, ∃ d ∈ C.roster, d ≠ e ∧ msg = C.wire2 e d) ∧
      ∀ d ∈ C.roster, d.2 ∈ s.round2Outbound → C.wire2 e d ∈ out := by
  -- the member of each identifier, so that the messages are a map over the outbound
  have hMember : ∀ j, ∃ d : String × F.Identifier, j ∈ C.ids → d ∈ C.roster ∧ d.2 = j := by
    intro j
    by_cases hj : j ∈ C.ids
    · obtain ⟨d, hd, hId⟩ := exists_of_mem_ids hj
      exact ⟨d, fun _ => ⟨hd, hId⟩⟩
    · exact ⟨e, fun hIn => absurd hIn hj⟩
  choose member hMember using hMember
  have hEntry : ∀ entry ∈ s.round2Outbound.toPairs,
      entry.1 ∈ C.ids ∧ entry.1 ≠ e.2 ∧ entry.2 = C.generation.share e.2 entry.1 := by
    intro entry hEntry
    obtain ⟨found, hFound, rfl⟩ := List.mem_map.mp hEntry
    exact h.outbound found.1 found.2 (Table.mem_entries_iff.mp hFound)
  refine ⟨s.round2Outbound.toPairs.map fun entry => C.wire2 e (member entry.1), ?_, ?_, ?_⟩
  · have hEach := Results.mapM_map_ok (g := id)
      (f := s.drained.round2Message C.req.sessionId)
      (r := fun entry => C.wire2 e (member entry.1)) (l := s.round2Outbound.toPairs) fun entry hIn => by
        obtain ⟨hId, -, hShare⟩ := hEntry entry hIn
        obtain ⟨hRoster, hName⟩ := hMember entry.1 hId
        -- each recipient is found in the roster, and is the member
        unfold SessionInner.round2Message
        dsimp only [id, SessionInner.drained]
        cases hFind : s.roster.find? fun d => d.2 = entry.1 with
        | none =>
          have hNone := List.find?_eq_none.mp hFind (member entry.1) (by rwa [h.roster])
          simp [hName] at hNone
        | some recipient =>
          have hId' : recipient.2 = entry.1 := by
            have hMeets := List.find?_some hFind
            exact of_decide_eq_true hMeets
          have hSame : recipient = member entry.1 := eq_of_id
            (by rw [← h.roster]; exact List.mem_of_find?_eq_some hFind) hRoster
            (hId'.trans hName.symm)
          rw [hShare, C.generation.encodes e.2 (mem_ids he) entry.1 hId, hSame]
          simp [mapErr, wire2, h.localNodeId, h.localIdentifier, h.roster, h.transcriptHex, hName]
    rwa [List.map_id] at hEach
  · intro msg hMsg
    obtain ⟨entry, hIn, rfl⟩ := List.mem_map.mp hMsg
    obtain ⟨hId, hNe, -⟩ := hEntry entry hIn
    obtain ⟨hRoster, hName⟩ := hMember entry.1 hId
    exact ⟨_, hRoster, fun hEq => hNe (by rw [← hName, hEq]), rfl⟩
  · intro d hd hIn
    obtain ⟨x, hx⟩ := Option.isSome_iff_exists.mp (AList.lookup_isSome.mpr hIn)
    have hPair : (d.2, x) ∈ s.round2Outbound.toPairs :=
      List.mem_map.mpr ⟨⟨d.2, x⟩, Table.mem_entries_iff.mpr hx, rfl⟩
    obtain ⟨hRoster, hName⟩ := hMember d.2 (mem_ids hd)
    exact List.mem_map.mpr ⟨_, hPair, by rw [eq_of_id hRoster hd hName]⟩

/-- The call that ends round 1 leaves a package for every other member. -/
theorem outbound_of_advance (hLaws : F.Laws) (h : C.Live e s) (he : e ∈ C.roster)
    {call : HubCall F} (hCall : C.Admits call) (hBefore : s.phase = .round1)
    (hAfter : (s.after call).phase ≠ .round1) (hd : d ∈ C.roster) (hNe : d ≠ e) :
    d.2 ∈ (s.after call).round2Outbound := by
  cases call with
  | start req rand => exact absurd hBefore hAfter
  | takeRound2Outbound sessionId => exact absurd hBefore hAfter
  | ingestRound1 msg =>
    obtain ⟨c, hc, rfl⟩ := hCall
    rw [SessionInner.after, show (C.wire1 c).envelope = none from rfl, checkEnvelope_none]
      at hAfter ⊢
    dsimp only at hAfter ⊢
    rcases s.ingestRound1_cases (C.wire1 c) with
      hSame | ⟨id, package, -, -, -, hSender, -, hDecode, hEq⟩
    · rw [hSame] at hAfter
      exact absurd hBefore hAfter
    -- the message is the member's own
    rw [h.roster, show (C.wire1 c).senderNodeId = c.1 from rfl, C.rosterOk.lookup hc] at hSender
    cases Option.some.inj hSender
    rw [decode_wire1 hLaws hc] at hDecode
    cases Except.ok.inj hDecode
    obtain ⟨hLive, -⟩ := h.acceptRound1 he hc hBefore
    rw [hEq] at hAfter ⊢
    rcases s.acceptRound1_cases c.2 (C.generation.package c.2) hBefore with
      ⟨hWaits, -⟩ | ⟨-, secret, hSecret, ⟨r2Secret, outbound, hPart, hMoves⟩ | ⟨_, -, hFails⟩⟩
    · rw [hWaits] at hAfter
      exact absurd hBefore hAfter
    · rw [hMoves] at hLive ⊢
      cases Option.some.inj ((h.round1 hBefore).2.2.1.symm.trans hSecret)
      obtain ⟨outbound', hOk, hOutbound⟩ := C.generation.part2 e.2 (mem_ids he) _
        ((h.toHeld.insert hc).others_packages (hLive.full (by simp)))
      obtain ⟨-, rfl⟩ := Prod.mk.inj (Except.ok.inj (hOk.symm.trans hPart))
      have hLookup := (hOutbound d.2 _).mpr
        ⟨mem_ids hd, fun hId => hNe (eq_of_id hd he hId), rfl⟩
      exact AList.lookup_isSome.mp (by rw [hLookup]; rfl)
    · rw [hFails] at hAfter
      exact absurd hBefore hAfter
  | ingestRound2 msg =>
    rw [SessionInner.after] at hAfter
    split at hAfter
    · exact absurd hBefore hAfter
    · rcases s.ingestRound2_cases msg with hSame | ⟨_, _, -, hEq⟩
      · rw [hSame] at hAfter
        exact absurd hBefore hAfter
      · rw [hEq] at hAfter
        exact absurd hBefore hAfter
  | finalizeRound3 sessionId disk =>
    -- round 1 has no secret for part 3
    have hKeys : ∃ error, s.round3Keys = .error error := by
      cases hKeys : s.round3Keys with
      | error error => exact ⟨error, rfl⟩
      | ok keys =>
        obtain ⟨_, _, _, -, hSecret, -⟩ := SessionInner.round3Keys_ok.mp hKeys
        exact absurd ((h.round1 hBefore).2.1.symm.trans hSecret) (by simp)
    obtain ⟨error, hError⟩ := hKeys
    have hSame : s.after (.finalizeRound3 sessionId disk) = s := by
      rw [SessionInner.after, if_neg (by rw [hBefore]; simp), hError]
    rw [hSame] at hAfter
    exact absurd hBefore hAfter

end Live

/-! ## The run -/

/-- What the run so far has made of member `e`'s session: the packages it moved
on with are there for the others or handed out, and what it was given it has. -/
structure Current (C : Ceremony k F) (m : DkgMesh k F) (e : String × F.Identifier)
    (s : SessionInner k F) : Prop extends C.Live e s where
  handedOut : s.phase ≠ .round1 → ∀ d ∈ C.roster, d ≠ e →
    d.2 ∈ s.round2Outbound ∨ C.wire2 e d ∈ m.sent2
  given1 : ∀ d ∈ C.roster, (e.1, C.wire1 d) ∈ m.given1 → d.2 ∈ s.round1Packages
  given2 : ∀ d ∈ C.roster, d ≠ e → (e.1, C.wire2 d e) ∈ m.given2 →
    s.phase = .complete ∨ d.2 ∈ s.round2Inbox

/-- What the run so far has made of the ceremony: the messages of the session
are the members' own. -/
structure Tracked (C : Ceremony k F) (m : DkgMesh k F) : Prop where
  keyed : ∀ i, (m.hubs i).Keyed
  sessions : ∀ e ∈ C.roster, ∃ s, m.session e.1 C.req.sessionId = some s ∧ C.Current m e s
  sent1 : ∀ msg ∈ m.sent1, msg.sessionId = C.req.sessionId → ∃ d ∈ C.roster, msg = C.wire1 d
  announced : ∀ d ∈ C.roster, C.wire1 d ∈ m.sent1
  sent2 : ∀ msg ∈ m.sent2, msg.sessionId = C.req.sessionId →
    ∃ c ∈ C.roster, ∃ d ∈ C.roster, d ≠ c ∧ msg = C.wire2 c d

variable {m : DkgMesh k F}

namespace Tracked

theorem admits (h : C.Tracked m) {i : String} {call : HubCall F}
    (hCall : Permits C.req m (i, call)) (hSid : call.sessionId = C.req.sessionId) :
    C.Admits call := by
  obtain ⟨-, hSent⟩ := hCall hSid
  cases call with
  | ingestRound1 msg => exact h.sent1 msg hSent hSid
  | ingestRound2 msg => exact h.sent2 msg hSent hSid
  | _ => trivial

/-- What a call on this session returns is the member's own. -/
theorem returned (h : C.Tracked m) (he : e ∈ C.roster) {call : HubCall F}
    (hSid : call.sessionId = C.req.sessionId) :
    (∀ msg ∈ (m.hubs e.1).sentRound1 call, msg = C.wire1 e) ∧
      ∀ msg ∈ (m.hubs e.1).sentRound2 call, ∃ d ∈ C.roster, d ≠ e ∧ msg = C.wire2 e d := by
  obtain ⟨s, hs, hCurrent⟩ := h.sessions e he
  cases call with
  | start req rand =>
    refine ⟨fun msg hMsg => ?_, fun msg hMsg => by cases hMsg⟩
    have hFound : (m.hubs e.1).sessions.lookup req.sessionId = some s := by
      rw [show req.sessionId = C.req.sessionId from hSid]
      exact hs
    -- a repeated start answers with the package of the session as it is
    rcases start_cases (m.hubs e.1) req rand with
      ⟨_, hEq⟩ | ⟨t, answer, ht, hRestart, hEq⟩ | ⟨_, _, _, hNone, -⟩
    · rw [DkgHub.sentRound1, hEq] at hMsg
      cases hMsg
    · rw [DkgHub.sentRound1, hEq] at hMsg
      cases List.mem_singleton.mp hMsg
      cases Option.some.inj (hFound.symm.trans ht)
      exact hCurrent.toLive.restart he hRestart
    · exact absurd (hFound.symm.trans hNone) (by simp)
  | takeRound2Outbound sessionId =>
    refine ⟨fun msg hMsg => (by cases hMsg), fun msg hMsg => ?_⟩
    obtain ⟨out, hOut, hOwn, -⟩ := hCurrent.toLive.takes he
    cases hSid
    have hFound : (m.hubs e.1).sessions.lookup C.req.sessionId = some s := hs
    simp only [DkgHub.sentRound2, DkgHub.takeRound2Outbound, hFound, hOut]
      at hMsg
    exact hOwn msg hMsg
  | _ => exact ⟨fun msg hMsg => (by cases hMsg), fun msg hMsg => (by cases hMsg)⟩

/-- The session of a member after a call that names it. -/
theorem current_step (hLaws : F.Laws) (h : C.Tracked m) (he : e ∈ C.roster) {call : HubCall F}
    (hCall : Permits C.req m (e.1, call)) (hSid : call.sessionId = C.req.sessionId)
    {s : SessionInner k F} (hs : m.session e.1 C.req.sessionId = some s)
    (hCurrent : C.Current m e s) : C.Current (m.step (e.1, call)) e (s.after call) := by
  have hAdmits := h.admits hCall hSid
  have hExtends := s.after_extends call
  refine { hCurrent.toLive.after hLaws he hAdmits with handedOut := ?_, given1 := ?_, given2 := ?_ }
  · intro hPhase d hd hNe
    -- the shares are made when round 1 ends
    by_cases hBefore : s.phase = .round1
    · exact .inl (hCurrent.toLive.outbound_of_advance hLaws he hAdmits hBefore hPhase hd hNe)
    by_cases hTake : ∃ sessionId, call = .takeRound2Outbound sessionId
    · obtain ⟨sessionId, rfl⟩ := hTake
      refine .inr ?_
      rcases hCurrent.handedOut hBefore d hd hNe with hHeld | hSent
      · -- it is handed out now
        obtain ⟨out, hOut, -, hAll⟩ := hCurrent.toLive.takes he
        cases hSid
        have hFound : (m.hubs e.1).sessions.lookup C.req.sessionId = some s := hs
        refine List.mem_append_left _ ?_
        simp only [DkgHub.sentRound2, DkgHub.takeRound2Outbound, hFound, hOut]
        exact hAll d hd hHeld
      · exact List.mem_append_right _ hSent
    · rw [s.after_outbound (fun sessionId hEq => hTake ⟨sessionId, hEq⟩) hBefore]
      exact (hCurrent.handedOut hBefore d hd hNe).imp_right (List.mem_append_right _)
  · intro d hd hGiven
    cases call with
    | ingestRound1 msg =>
      rcases List.mem_cons.mp hGiven with hNow | hEarlier
      · obtain ⟨-, rfl⟩ := Prod.mk.inj hNow
        rw [SessionInner.after, show (C.wire1 d).envelope = none from rfl, checkEnvelope_none]
        exact (hCurrent.toLive.ingestRound1 hLaws he hd).2
      · exact hExtends.packages _ (hCurrent.given1 d hd hEarlier)
    | _ => exact hExtends.packages _ (hCurrent.given1 d hd hGiven)
  · intro d hd hNe hGiven
    -- an inbox only grows
    have hKept : s.phase = .complete ∨ d.2 ∈ s.round2Inbox →
        (s.after call).phase = .complete ∨ d.2 ∈ (s.after call).round2Inbox :=
      Or.imp hExtends.complete (hExtends.inbox _)
    cases call with
    | ingestRound2 msg =>
      rcases List.mem_cons.mp hGiven with hNow | hEarlier
      · obtain ⟨-, rfl⟩ := Prod.mk.inj hNow
        by_cases hComplete : s.phase = .complete
        · exact .inl (hExtends.complete hComplete)
        · rw [SessionInner.after, show (C.wire2 d e).envelope = none from rfl, checkEnvelope_none]
          exact .inr ((hCurrent.toLive.ingestRound2 hLaws he hd he hNe.symm).2 rfl hComplete)
      · exact hKept (hCurrent.given2 d hd hNe hEarlier)
    | _ => exact hKept (hCurrent.given2 d hd hNe hGiven)

/-- **One call.** Every permitted call keeps the invariant. -/
theorem step (hLaws : F.Laws) (h : C.Tracked m) {a : String × HubCall F}
    (hCall : Permits C.req m a) : C.Tracked (m.step a) := by
  obtain ⟨i, call⟩ := a
  refine ⟨fun j => ?_, fun e he => ?_, fun msg hMsg hSid => ?_, fun d hd => ?_, fun msg hMsg hSid => ?_⟩
  -- only the hub that is called changes
  · by_cases hj : j = i
    · subst hj
      have hHub : (m.step (j, call)).hubs j = ((m.hubs j).perform (m.stores j) call).1 :=
        Function.update_self ..
      rw [hHub]
      exact (h.keyed j).perform _ call
    · have hHub : (m.step (i, call)).hubs j = m.hubs j := Function.update_of_ne hj ..
      rw [hHub]
      exact h.keyed j
  · obtain ⟨s, hs, hCurrent⟩ := h.sessions e he
    by_cases hOther : e.1 ≠ i ∨ C.req.sessionId ≠ call.sessionId
    · -- the call is on another session
      refine ⟨s, (m.session_step_of_ne hOther).trans hs, { hCurrent with
        handedOut := fun hPhase d hd hNe =>
          (hCurrent.handedOut hPhase d hd hNe).imp_right (List.mem_append_right _)
        given1 := fun d hd hGiven => hCurrent.given1 d hd ?_
        given2 := fun d hd hNe hGiven => hCurrent.given2 d hd hNe ?_ }⟩
      · cases call with
        | ingestRound1 msg =>
          rcases List.mem_cons.mp hGiven with hNow | hEarlier
          · obtain ⟨rfl, rfl⟩ := Prod.mk.inj hNow
            exact absurd hOther (by simp [HubCall.sessionId, wire1])
          · exact hEarlier
        | _ => exact hGiven
      · cases call with
        | ingestRound2 msg =>
          rcases List.mem_cons.mp hGiven with hNow | hEarlier
          · obtain ⟨rfl, rfl⟩ := Prod.mk.inj hNow
            exact absurd hOther (by simp [HubCall.sessionId, wire2])
          · exact hEarlier
        | _ => exact hGiven
    · rw [not_or, not_not, not_not] at hOther
      obtain ⟨rfl, hSid⟩ := hOther
      have hFound : m.session e.1 call.sessionId = some s := by rwa [← hSid]
      have hNext := m.session_step_self hFound
      rw [← hSid] at hNext
      exact ⟨_, hNext, h.current_step hLaws he hCall hSid.symm hs hCurrent⟩
  · rcases List.mem_append.mp hMsg with hNow | hEarlier
    · -- what is sent for the session is sent by a member of it
      have hName := ((h.keyed i).sentRound1_sessionId hNow).symm.trans hSid
      obtain ⟨⟨e, he, rfl⟩, -⟩ : (∃ e ∈ C.roster, e.1 = i) ∧ _ :=
        (hCall hName).imp_left fun hIn => List.mem_map.mp (C.names ▸ hIn)
      exact ⟨e, he, (h.returned he hName).1 msg hNow⟩
    · exact h.sent1 msg hEarlier hSid
  · exact List.mem_append_right _ (h.announced d hd)
  · rcases List.mem_append.mp hMsg with hNow | hEarlier
    · have hName := (DkgHub.sentRound2_sessionId hNow).symm.trans hSid
      obtain ⟨⟨e, he, rfl⟩, -⟩ : (∃ e ∈ C.roster, e.1 = i) ∧ _ :=
        (hCall hName).imp_left fun hIn => List.mem_map.mp (C.names ▸ hIn)
      obtain ⟨d, hd, hNe, hEq⟩ := (h.returned he hName).2 msg hNow
      exact ⟨e, he, d, hd, hNe, hEq⟩
    · exact h.sent2 msg hEarlier hSid

/-! ### The end of the run -/

/-- With all round 1 messages delivered every member has moved on. -/
theorem moved (h : C.Tracked m) (hDelivered : Delivered C.req m) (he : e ∈ C.roster)
    {s : SessionInner k F} (hs : m.session e.1 C.req.sessionId = some s) :
    (∀ j ∈ C.ids, j ∈ s.round1Packages) ∧ s.phase ≠ .round1 := by
  obtain ⟨t, ht, hCurrent⟩ := h.sessions e he
  cases Option.some.inj (hs.symm.trans ht)
  have hAll : ∀ j ∈ C.ids, j ∈ s.round1Packages := by
    intro j hj
    obtain ⟨d, hd, rfl⟩ := exists_of_mem_ids hj
    by_cases hNe : d = e
    · subst hNe
      exact hCurrent.own
    · refine hCurrent.given1 d hd (hDelivered.round1 _ (h.announced d hd) rfl e.1 ?_ ?_)
      · rw [← C.names]
        exact List.mem_map_of_mem he
      · exact fun hName => hNe (C.rosterOk.eq_of_name hd he hName.symm)
  refine ⟨hAll, fun hRound1 => ?_⟩
  have hLe := Table.length_le_size ids_nodup hAll
  have hLt := (hCurrent.round1 hRound1).2.2.2
  rw [length_ids] at hLe
  omega

/-- With every message delivered a member is complete or has all it needs. -/
theorem ready (h : C.Tracked m) (hDelivered : Delivered C.req m) (he : e ∈ C.roster)
    {s : SessionInner k F} (hs : m.session e.1 C.req.sessionId = some s) :
    s.phase = .complete ∨ ∀ j ∈ C.ids, j ≠ e.2 → j ∈ s.round2Inbox := by
  by_cases hComplete : s.phase = .complete
  · exact .inl hComplete
  refine .inr fun j hj hNe => ?_
  obtain ⟨d, hd, rfl⟩ := exists_of_mem_ids hj
  have hOther : e ≠ d := fun hEq => hNe (by rw [hEq])
  obtain ⟨t, ht, hPeer⟩ := h.sessions d hd
  have hSent : C.wire2 d e ∈ m.sent2 := by
    refine (hPeer.handedOut (h.moved hDelivered hd ht).2 e he hOther).resolve_left fun hHeld => ?_
    rw [hDelivered.handedOut d.1 (C.names ▸ List.mem_map_of_mem hd) t ht] at hHeld
    exact absurd hHeld (AList.notMem_empty _)
  obtain ⟨t', ht', hCurrent⟩ := h.sessions e he
  cases Option.some.inj (hs.symm.trans ht')
  exact (hCurrent.given2 d hd hOther.symm (hDelivered.round2 _ hSent rfl)).resolve_left hComplete

/-- Finalizing succeeds, and leaves the member complete. -/
theorem finalizes (hLaws : F.Laws) (h : C.Tracked m) (hDelivered : Delivered C.req m)
    (he : e ∈ C.roster) {disk : ShareDisk} (hDisk : ∀ shareId bytes, disk shareId bytes = .stored)
    (store : ShareStore) :
    (∃ status, ((m.hubs e.1).finalizeRound3 C.req.sessionId disk store).1 = .ok status) ∧
      ∃ s, ((m.hubs e.1).perform store (.finalizeRound3 C.req.sessionId disk)).1.sessions.lookup
        C.req.sessionId = some s ∧ C.Live e s ∧ s.phase = .complete := by
  obtain ⟨s, hs, hCurrent⟩ := h.sessions e he
  have hFound : (m.hubs e.1).sessions.lookup C.req.sessionId = some s := hs
  have hNext : ((m.hubs e.1).perform store
      (.finalizeRound3 C.req.sessionId disk)).1.sessions.lookup C.req.sessionId =
        some (s.after (.finalizeRound3 C.req.sessionId disk)) :=
    (m.hubs e.1).lookup_perform store (.finalizeRound3 C.req.sessionId disk) hFound
  have hLive : C.Live e (s.after (.finalizeRound3 C.req.sessionId disk)) :=
    hCurrent.toLive.after hLaws he trivial
  -- a session that is complete answers its status, and writes nothing
  by_cases hComplete : s.phase = .complete
  · refine ⟨⟨s.status, by rw [DkgHub.finalizeRound3, hFound]; simp [hComplete]⟩,
      _, hNext, hLive, ?_⟩
    rw [SessionInner.after, if_pos hComplete]
    exact hComplete
  have hInbox := (h.ready hDelivered he hs).resolve_left hComplete
  obtain ⟨keys, hKeys, hPut⟩ := hCurrent.toLive.finalizes hLaws he hComplete
    (h.moved hDelivered he hs).1 hInbox
  refine ⟨⟨(s.completeWith keys).status, ?_⟩, _, hNext, hLive, ?_⟩
  · have hStored := hPut disk store hDisk
    rw [DkgHub.finalizeRound3, hFound]
    dsimp only
    rw [if_neg hComplete, hKeys]
    dsimp only
    rcases hResult : putAll disk store (s.round3Records keys) with ⟨outcome, after⟩
    rw [hResult] at hStored
    cases hStored
    rfl
  · rw [SessionInner.after, if_neg hComplete, hKeys]
    dsimp only
    rw [hPut disk ∅ hDisk]
    rfl

end Tracked

end Ceremony

/-! ## The starts -/

namespace AllStart

variable {hubs : String → DkgHub k F} {req : DkgStartRequest} {rand : String → F.Randomness}

/-- What the start of member `e` draws and returns. -/
structure Draws (hubs : String → DkgHub k F) (req : DkgStartRequest) (rand : String → F.Randomness)
    (roster : Roster F) (e : String × F.Identifier) (secret : F.Round1Secret)
    (package : F.Round1Package) (bytes : List UInt8) : Prop where
  part1 : F.part1 e.2 req.maxSigners req.minSigners (rand e.1) = .ok (secret, package)
  encodes : F.round1Bytes package = .ok bytes
  sent : (hubs e.1).sentRound1 (.start req (rand e.1)) =
    [((hubs e.1).freshSession req roster e.2 secret package).round1Message (F.hexEncode bytes)]
  session : ∀ store, ((hubs e.1).perform store (.start req (rand e.1))).1.sessions.lookup
    req.sessionId = some ((hubs e.1).freshSession req roster e.2 secret package)

/-- What a member's start comes to. -/
theorem opened (h : AllStart hubs req rand) {i : String} (hi : i ∈ req.members) :
    ∃ roster id secret package bytes, buildRoster k F req.roster = .ok roster ∧
      roster.length % 2 ^ 16 = req.maxSigners ∧ 2 ≤ req.minSigners ∧
      req.minSigners ≤ req.maxSigners ∧ roster.lookup i = some id ∧
      Draws hubs req rand roster (i, id) secret package bytes := by
  obtain ⟨answer, hAnswer⟩ := h.started i hi
  rcases start_cases (hubs i) req (rand i) with ⟨_, hEq⟩ | ⟨_, _, hFound, -⟩ |
    ⟨roster, inner, wire, -, -, hMin, hLe, hRoster, hLength, hOpen, hEq⟩
  · rw [hEq] at hAnswer
    cases hAnswer
  · exact absurd ((h.fresh i hi).symm.trans hFound) (by simp)
  · obtain ⟨id, secret, package, bytes, hId, hPart, hBytes, rfl, rfl⟩ := openSession_ok.mp hOpen
    rw [h.named i hi] at hId
    refine ⟨roster, id, secret, package, bytes, hRoster, hLength, hMin, hLe, hId, hPart, hBytes,
      by rw [DkgHub.sentRound1, hEq], fun store => ?_⟩
    rw [DkgHub.perform, hEq]
    exact AList.lookup_insert _

/-- What the members draw, as functions of their identifiers. -/
theorem exists_draws (hLaws : F.Laws) (h : AllStart hubs req rand) {roster : Roster F}
    (hRoster : buildRoster k F req.roster = .ok roster) :
    ∃ (secret : F.Identifier → F.Round1Secret) (package : F.Identifier → F.Round1Package)
      (bytes : F.Identifier → List UInt8), ∀ e ∈ roster,
        Draws hubs req rand roster e (secret e.2) (package e.2) (bytes e.2) := by
  obtain ⟨hOk, hNames, hTwo⟩ := buildRoster_ok hRoster
  have hOpened : ∀ e ∈ roster, ∃ drawn : F.Round1Secret × F.Round1Package × List UInt8,
      Draws hubs req rand roster e drawn.1 drawn.2.1 drawn.2.2 := by
    intro e he
    have hMember : e.1 ∈ req.members := by
      have hIn := List.mem_map_of_mem (f := Prod.fst) he
      rwa [hNames] at hIn
    obtain ⟨roster', id, secret, package, bytes, hRoster', -, -, -, hId, hDraws⟩ :=
      h.opened hMember
    cases Except.ok.inj (hRoster.symm.trans hRoster')
    cases Option.some.inj ((hOk.lookup he).symm.trans hId)
    exact ⟨(secret, package, bytes), hDraws⟩
  obtain ⟨first, hFirst⟩ := List.exists_mem_of_length_pos (show 0 < roster.length by omega)
  have hAt : ∀ id, ∃ drawn : F.Round1Secret × F.Round1Package × List UInt8, ∀ e ∈ roster,
      e.2 = id → Draws hubs req rand roster e drawn.1 drawn.2.1 drawn.2.2 := by
    intro id
    by_cases hIn : ∃ e ∈ roster, e.2 = id
    · obtain ⟨e, he, rfl⟩ := hIn
      obtain ⟨drawn, hDrawn⟩ := hOpened e he
      refine ⟨drawn, fun d hd hId => ?_⟩
      cases List.inj_on_of_nodup_map (hOk.ids_nodup hLaws) hd he hId
      exact hDrawn
    · obtain ⟨drawn, -⟩ := hOpened first hFirst
      exact ⟨drawn, fun e he hId => absurd ⟨e, he, hId⟩ hIn⟩
  -- by identifier, as the packages are named in the sessions
  choose drawn hDrawn using hAt
  exact ⟨fun id => (drawn id).1, fun id => (drawn id).2.1, fun id => (drawn id).2.2,
    fun e he => hDrawn e.2 e he rfl⟩

/-- The starts are a ceremony: each member opens its session and sends its
message. -/
theorem ceremony (hLaws : F.Laws) (h : AllStart hubs req rand) :
    ∃ C : Ceremony k F, C.req = req ∧ ∀ e ∈ C.roster,
      (hubs e.1).sentRound1 (.start req (rand e.1)) = [C.wire1 e] ∧
      ∀ store, ((hubs e.1).perform store (.start req (rand e.1))).1.sessions.lookup
        C.req.sessionId = some ((hubs e.1).freshSession C.req C.roster e.2
          (C.generation.secret e.2) (C.generation.package e.2)) := by
  obtain ⟨first, hFirst⟩ := List.exists_mem_of_length_pos
    (show 0 < req.members.length by have := h.twoMembers; omega)
  obtain ⟨roster, _, _, _, _, hRoster, hLength, hMin, hLe, -⟩ := h.opened hFirst
  obtain ⟨hOk, hNames, hTwo⟩ := buildRoster_ok hRoster
  have hShort := hOk.length_lt hLaws
  have hSize : roster.length = req.maxSigners := by
    rw [← hLength, Nat.mod_eq_of_lt hShort]
  -- what the members draw is one run of the key generation
  obtain ⟨secret, package, bytes, hDraws⟩ := h.exists_draws hLaws hRoster
  obtain ⟨G, rfl, rfl⟩ := hLaws.generates (roster.map Prod.snd) req.maxSigners
    req.minSigners secret package (hOk.ids_nodup hLaws) (by rw [List.length_map, hSize]) hMin hLe
    fun id hId => by
      obtain ⟨e, he, rfl⟩ := List.mem_map.mp hId
      exact ⟨rand e.1, (hDraws e he).part1⟩
  -- the Taproot hub makes the key even at the end, and for all members alike
  have hFinished : ∃ key, ∀ kp pk, F.verifyingKey pk = G.key →
      F.verifyingKey (SessionInner.finishKeys k (kp, pk)).2 = key := by
    cases k with
    | plain => exact ⟨G.key, fun _ _ hKey => hKey⟩
    | taproot =>
      obtain ⟨even, hEven⟩ := hLaws.evenVerifyingKey G.key
      exact ⟨even, fun _ pk hKey => hEven pk hKey⟩
  obtain ⟨key, hKey⟩ := hFinished
  refine ⟨{
    req, roster
    names := hNames
    rosterOk := hOk
    distinct := hOk.ids_nodup hLaws
    size := hSize
    size_lt := hShort
    two_le := by omega
    generation := G
    packageBytes := bytes
    encodes := fun id hId => by
      obtain ⟨e, he, rfl⟩ := List.mem_map.mp hId
      exact (hDraws e he).encodes
    key
    finished := hKey }, rfl, fun e he => ⟨?_, (hDraws e he).session⟩⟩
  have hMember : e.1 ∈ req.members := by
    have hIn := List.mem_map_of_mem (f := Prod.fst) he
    rwa [hNames] at hIn
  rw [(hDraws e he).sent]
  simp [SessionInner.round1Message, DkgHub.freshSession, Ceremony.wire1, Ceremony.transcript,
    h.named e.1 hMember]

/-- Started in any order, the members are a ceremony in its first state. -/
theorem tracked (hLaws : F.Laws) (h : AllStart hubs req rand) (stores : String → ShareStore)
    {order : List String} (hOrder : order.Perm req.members) :
    ∃ C : Ceremony k F, C.req = req ∧ C.Tracked (Runs.run DkgMesh.step (.init hubs stores)
      (order.map fun i => (i, .start req (rand i)))) := by
  obtain ⟨C, rfl, hStarts⟩ := h.ceremony hLaws
  -- each member starts once, so that its start is what it returned
  have hNodup : order.Nodup := hOrder.nodup_iff.mpr (sortDedup_nodup _)
  have hMember : ∀ e ∈ C.roster, e.1 ∈ C.req.members := fun e he =>
    C.names ▸ List.mem_map_of_mem he
  obtain ⟨hSent2, hGiven1, hGiven2⟩ := DkgMesh.runEach_start (.init hubs stores) order C.req rand
  have hSent1 := DkgMesh.mem_sent1_runEach (fun i => .start C.req (rand i))
    (.init hubs stores) hNodup
  have hHubs := DkgMesh.hubs_runEach (fun i => .start C.req (rand i)) (.init hubs stores) hNodup
  refine ⟨C, rfl, ⟨fun i => ?_, fun e he => ?_, fun msg hMsg hSid => ?_, fun d hd => ?_,
    fun msg hMsg => ?_⟩⟩
  · rw [hHubs i]
    split
    · exact (h.keyed i).perform _ _
    · exact h.keyed i
  · refine ⟨_, ?_, { C.live_fresh (h.named e.1 (hMember e he)) he with
      handedOut := fun hPhase => absurd rfl hPhase
      given1 := fun d _ hGiven => ?_
      given2 := fun d _ _ hGiven => ?_ }⟩
    · rw [DkgMesh.session, hHubs e.1, if_pos (hOrder.mem_iff.mpr (hMember e he))]
      exact (hStarts e he).2 _
    · rw [hGiven1] at hGiven
      cases hGiven
    · rw [hGiven2] at hGiven
      cases hGiven
  · rcases (hSent1 msg).mp hMsg with ⟨i, hi, hReturned⟩ | hEarlier
    · have hIn : i ∈ C.roster.map Prod.fst := C.names ▸ hOrder.mem_iff.mp hi
      obtain ⟨e, he, rfl⟩ := List.mem_map.mp hIn
      have hReturned : msg ∈ (hubs e.1).sentRound1 (.start C.req (rand e.1)) := hReturned
      rw [(hStarts e he).1] at hReturned
      exact ⟨e, he, List.mem_singleton.mp hReturned⟩
    · cases hEarlier
  · refine (hSent1 _).mpr (.inl ⟨d.1, hOrder.mem_iff.mpr (hMember d hd), ?_⟩)
    show C.wire1 d ∈ (hubs d.1).sentRound1 (.start C.req (rand d.1))
    rw [(hStarts d hd).1]
    exact List.mem_singleton_self _
  · rw [hSent2] at hMsg
    cases hMsg

end AllStart

/-! ## Completion -/

/--
**Wire DKG completes in any order.** All members start a session, in any
order; from there on the calls come in any order, and what is delivered is what
the members' hubs returned, to anyone and any number of times. Once every
message has been delivered, each member's `finalize_round3` succeeds, and after
these, in any order, all members are complete with the same roster, thresholds,
transcript and verifying key.
-/
theorem wireDkg_completes (hLaws : F.Laws) {hubs : String → DkgHub k F} {req : DkgStartRequest}
    {rand : String → F.Randomness} (hStart : AllStart hubs req rand)
    (stores : String → ShareStore) {order : List String} (hOrder : order.Perm req.members)
    {started m : DkgMesh k F}
    (hStarted : started = Runs.run DkgMesh.step (.init hubs stores)
      (order.map fun i => (i, .start req (rand i))))
    {calls : List (String × HubCall F)}
    (hCalls : Runs.EveryStep DkgMesh.step (Permits req) started calls)
    (hm : m = Runs.run DkgMesh.step started calls) (hDelivered : Delivered req m)
    {disks : String → ShareDisk}
    (hDisks : ∀ i ∈ req.members, ∀ shareId bytes, disks i shareId bytes = .stored)
    {finals : List String} (hFinals : finals.Perm req.members) :
    (∀ i ∈ req.members, ∃ status,
      ((m.hubs i).finalizeRound3 req.sessionId (disks i) (m.stores i)).1 = .ok status) ∧
    ∃ roster transcript key, ∀ i ∈ req.members, ∃ s pk,
      (Runs.run DkgMesh.step m
        (finals.map fun i => (i, .finalizeRound3 req.sessionId (disks i)))).session i
          req.sessionId = some s ∧
      s.phase = .complete ∧ s.roster = roster ∧ s.maxSigners = req.maxSigners ∧
      s.minSigners = req.minSigners ∧ s.transcriptHex = transcript ∧
      s.pubkeyPackage = some pk ∧ F.verifyingKey pk = key := by
  obtain ⟨C, rfl, hFirst⟩ := hStart.tracked hLaws stores hOrder
  rw [← hStarted] at hFirst
  -- the ceremony is tracked through whatever order the messages come in
  have hTracked : C.Tracked m := by
    rw [hm]
    exact (Runs.EveryState.of_everyStep (fun _ _ h hCall => h.step hLaws hCall) hFirst hCalls).last
  have hMember : ∀ i ∈ C.req.members, ∃ e ∈ C.roster, e.1 = i := fun i hi =>
    List.mem_map.mp (C.names ▸ hi)
  refine ⟨fun i hi => ?_, C.roster, C.transcript, C.key, fun i hi => ?_⟩
  · obtain ⟨e, he, rfl⟩ := hMember i hi
    exact (hTracked.finalizes hLaws hDelivered he (hDisks _ hi) _).1
  · obtain ⟨e, he, rfl⟩ := hMember i hi
    obtain ⟨-, s, hs, hLive, hComplete⟩ :=
      hTracked.finalizes hLaws hDelivered he (hDisks _ hi) (m.stores e.1)
    obtain ⟨pk, hPk, hKey⟩ := hLive.complete hComplete
    refine ⟨s, pk, ?_, hComplete, hLive.roster, hLive.maxSigners, hLive.minSigners,
      hLive.transcriptHex, hPk, hKey⟩
    -- each member finalizes its own hub alone
    rw [DkgMesh.session, DkgMesh.hubs_runEach (fun i => .finalizeRound3 C.req.sessionId (disks i)) m
      (hFinals.nodup_iff.mpr (sortDedup_nodup _)), if_pos (hFinals.mem_iff.mpr hi)]
    exact hs

/-! ### Two members -/

/-- The roster is neither sorted nor trimmed. -/
def pairRequest : DkgStartRequest := ⟨"s1", 2, 2, ["b ", "a"]⟩

def pairRand (i : String) : (Nat → Small) × Small :=
  if i = "a" then (fun n => [5, 7].getD n 0, 3) else (fun n => [11, 13].getD n 0, 4)

def pairStarted : DkgMesh .taproot smallFrost.toFrostDkg :=
  Runs.run DkgMesh.step (.init .new fun _ => ∅)
    (["b", "a"].map fun i => (i, .start pairRequest (pairRand i)))

/-- `a` gets everything twice, `b` gets its round 2 message before it is told
of `a`'s package. -/
def pairCalls : List (String × HubCall smallFrost.toFrostDkg) :=
  let round1 := pairStarted.sent1
  let toA := round1.map fun msg => ("a", .ingestRound1 msg)
  let toB := round1.map fun msg => ("b", .ingestRound1 msg)
  let taken := Runs.run DkgMesh.step pairStarted (toA ++ [("a", .takeRound2Outbound "s1")])
  let early := taken.sent2.map fun msg => ("b", .ingestRound2 msg)
  let first := toA ++ [("a", .takeRound2Outbound "s1")] ++ early ++ toB ++
    [("b", .takeRound2Outbound "s1")]
  let late := (Runs.run DkgMesh.step pairStarted first).sent2.map fun msg => ("a", .ingestRound2 msg)
  first ++ late ++ toA ++ late

def pairDelivered : DkgMesh .taproot smallFrost.toFrostDkg :=
  Runs.run DkgMesh.step pairStarted pairCalls

theorem pair_allStart :
    AllStart (k := .taproot) (F := smallFrost.toFrostDkg) .new pairRequest pairRand where
  keyed := DkgHub.keyed_new
  named _ _ := rfl
  fresh _ _ := rfl
  twoMembers := by decide +kernel
  started := by
    have hMembers : pairRequest.members = ["a", "b"] := by decide +kernel
    rw [hMembers]
    intro i hi
    rcases List.mem_cons.mp hi with rfl | hi
    · exact ⟨_, rfl⟩
    · rw [List.mem_singleton.mp hi]
      exact ⟨_, rfl⟩

theorem pair_delivered : Delivered pairRequest pairDelivered where
  round1 := by decide +kernel
  handedOut i hi s hs := by
    have hEmpty : pairRequest.members.all fun i =>
        match pairDelivered.session i "s1" with
        | none => true
        | some s => s.round2Outbound.entries.isEmpty := by decide +kernel
    have hAt := List.all_eq_true.mp hEmpty i hi
    rw [show pairDelivered.session i "s1" = some s from hs] at hAt
    exact AList.ext (List.isEmpty_iff.mp hAt)
  round2 := by decide +kernel

theorem wireDkg_completes_pair :
    (∀ i ∈ pairRequest.members, ∃ status,
      ((pairDelivered.hubs i).finalizeRound3 "s1" (fun _ _ => .stored)
        (pairDelivered.stores i)).1 = .ok status) ∧
    ∃ roster transcript key, ∀ i ∈ pairRequest.members, ∃ s pk,
      (Runs.run DkgMesh.step pairDelivered
        (["a", "b"].map fun i => (i, .finalizeRound3 "s1" fun _ _ => .stored))).session i "s1" =
          some s ∧
      s.phase = .complete ∧ s.roster = roster ∧ s.maxSigners = 2 ∧ s.minSigners = 2 ∧
      s.transcriptHex = transcript ∧ s.pubkeyPackage = some pk ∧
      smallFrost.toFrostDkg.verifyingKey pk = key := by
  have hOrder : ["b", "a"].Perm pairRequest.members := by decide +kernel
  have hCalls : Runs.EveryStep DkgMesh.step (Permits pairRequest) pairStarted pairCalls := by
    decide +kernel
  have hFinals : ["a", "b"].Perm pairRequest.members := by decide +kernel
  have hDisks : ∀ i ∈ pairRequest.members, ∀ shareId bytes,
      (fun _ _ _ => .stored : String → ShareDisk) i shareId bytes = .stored := fun _ _ _ _ => rfl
  exact wireDkg_completes smallFrost.laws pair_allStart (fun _ => ∅) hOrder rfl hCalls rfl
    pair_delivered hDisks hFinals

end KeroseneVault
