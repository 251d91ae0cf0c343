import KeroseneVault.Dkg.Completion

/-!
# Round 2 packages on their way

`take_round2_outbound` empties the queue of a session; the handler behind
`deliver` then posts the packages to their members one by one and stops at the
first that fails. Nothing puts a package back.

* `fanoutRound2`, `deliver` — the fan-out and the handler;
* `Relay` — a hub with its handler: the packages made, those handed to the
  caller, and those their members accepted;
* `Relay.Kept` — each package made is in its queue or accepted;
* `GetsThrough` — the posts a fan-out needs.

Main results:

* `Relay.kept_step` — what each step does to that;
* `round2Outbound_iff` — a run keeps all packages exactly when every hand-out of
  packages gets all of them through;
* `round2Outbound_fails` — one post fails, and the retry has nothing to send.
-/

namespace KeroseneVault

variable {k : WireDkg} {F : FrostDkg}

/-! ## The handler -/

/-- What comes of one post, its retries included. A member can take a message
whose answer is lost. -/
inductive Post where
  | answered
  | lost (e : DomainError)
  | failed (e : DomainError)

/-- The messages that reach their members, and what the fan-out returns, unless
it is dropped with its request. -/
def fanoutRound2 (k : WireDkg) (peers : List String) :
    List Post → List Round2WireMessage → List Round2WireMessage × Option Outcome
  | _, [] => ([], some (.ok ()))
  | posts, msg :: rest =>
    if msg.recipientNodeId ∉ peers then
      ([], some (.error (.thresholdError s!"no {k.tag}peer addr for {msg.recipientNodeId}")))
    else
      match posts with
      | [] => ([], none)
      | .answered :: posts =>
        let later := fanoutRound2 k peers posts rest
        (msg :: later.1, later.2)
      | .lost e :: _ =>
        ([msg], some (.error (.thresholdError
          s!"{k.lowTag}round2 fanout to {msg.recipientNodeId}: {e.display}")))
      | .failed e :: _ =>
        ([], some (.error (.thresholdError
          s!"{k.lowTag}round2 fanout to {msg.recipientNodeId}: {e.display}")))

/-- What the handler answers its caller. -/
inductive DeliverAnswer where
  | outbound (messages : List Round2WireMessage)
  | badGateway (e : DomainError)
  | badRequest (e : DomainError)
  | dropped
  deriving DecidableEq

/-- `dkg_round2_impl` with `deliver`: the answer, the messages that reached
their members, and the hub. -/
def deliver (hub : DkgHub k F) (peers : List String) (sessionId : String) (fanout : Bool)
    (posts : List Post) : DeliverAnswer × List Round2WireMessage × DkgHub k F :=
  match hub.takeRound2Outbound sessionId with
  | (.error e, hub) => (.badRequest e, [], hub)
  | (.ok msgs, hub) =>
    if fanout then
      match fanoutRound2 k peers posts msgs with
      | (accepted, none) => (.dropped, accepted, hub)
      | (accepted, some (.error e)) => (.badGateway e, accepted, hub)
      | (accepted, some (.ok ())) => (.outbound msgs, accepted, hub)
    else (.outbound msgs, [], hub)

/-! ## The hub and its handler -/

/-- A package made in a session for a member. -/
abbrev Parcel (F : FrostDkg) := String × F.Identifier × F.Round2Package

structure Relay (k : WireDkg) (F : FrostDkg) where
  hub : DkgHub k F
  store : ShareStore
  made : List (Parcel F)
  handed : List (Parcel F)
  accepted : List (Parcel F)

/-- A step: a call on the hub that hands nothing out, the handler, or a caller
that gets a message it was handed accepted. -/
inductive RelayStep (F : FrostDkg) where
  | call (call : HubCall F)
  | deliver (sessionId : String) (fanout : Bool) (posts : List Post)
  | forward (n : Nat)

/-- The packages of a session's queue. -/
def parcels (sessionId : String) (session : Option (SessionInner k F)) : List (Parcel F) :=
  match session with
  | none => []
  | some s => s.round2Outbound.toPairs.map fun e => (sessionId, e.1, e.2)

namespace Relay

def new (localNodeId : String) : Relay k F := ⟨.new localNodeId, ∅, [], [], []⟩

def session (r : Relay k F) (sessionId : String) : Option (SessionInner k F) :=
  r.hub.sessions.lookup sessionId

/-- A call on the hub; a queue that fills is noted. -/
def perform (r : Relay k F) (call : HubCall F) : Relay k F :=
  let next := r.hub.perform r.store call
  { r with
    hub := next.1
    store := next.2
    made := parcels call.sessionId (next.1.sessions.lookup call.sessionId) ++ r.made }

def step (peers : List String) (r : Relay k F) : RelayStep F → Relay k F
  -- a bare hand-out is one whose caller does what it likes with it
  | .call (.takeRound2Outbound sessionId) =>
    { r with
      hub := (r.hub.takeRound2Outbound sessionId).2
      handed := parcels sessionId (r.session sessionId) ++ r.handed }
  | .call call => r.perform call
  | .deliver sessionId fanout posts =>
    let done := KeroseneVault.deliver r.hub peers sessionId fanout posts
    { r with
      hub := done.2.2
      handed := match done.1 with
        | .outbound _ => parcels sessionId (r.session sessionId) ++ r.handed
        | _ => r.handed
      accepted := (parcels sessionId (r.session sessionId)).take done.2.1.length ++ r.accepted }
  | .forward n => { r with accepted := (r.handed[n]?).toList ++ r.accepted }

/-- The package can be had from the hub. -/
def Obtainable (r : Relay k F) (parcel : Parcel F) : Prop :=
  parcel ∈ parcels parcel.1 (r.session parcel.1)

/-- No package made is lost: each can be had from the hub until its member has
accepted it. -/
def Kept (r : Relay k F) : Prop :=
  ∀ parcel ∈ r.made, r.Obtainable parcel ∨ parcel ∈ r.accepted

end Relay

/-! ## What the fan-out gets through -/

/-- The posts get so many messages to their members: all are answered, or all
but the last and that one is accepted with its answer lost. -/
def Reaches : List Post → Nat → Prop
  | _, 0 => True
  | .answered :: posts, n + 1 => Reaches posts n
  | .lost _ :: _, n + 1 => n = 0
  | _, _ => False

/-- A fan-out gets every message through exactly when each member's address is
known and the posts do. -/
theorem fanoutRound2_length (k : WireDkg) (peers : List String) (posts : List Post)
    (msgs : List Round2WireMessage) :
    (fanoutRound2 k peers posts msgs).1.length ≤ msgs.length ∧
      ((fanoutRound2 k peers posts msgs).1.length = msgs.length ↔
        (∀ msg ∈ msgs, msg.recipientNodeId ∈ peers) ∧ Reaches posts msgs.length) := by
  -- on the messages, with the outcomes of their posts beside them
  induction msgs generalizing posts with
  | nil => simp [fanoutRound2, Reaches]
  | cons msg rest ih =>
    rw [List.forall_mem_cons, List.length_cons]
    unfold fanoutRound2
    -- a recipient who is no peer ends the fanout
    by_cases hPeer : msg.recipientNodeId ∈ peers
    swap
    · rw [if_pos hPeer]
      simp [hPeer]
    rw [if_neg (not_not.mpr hPeer)]
    rcases posts with - | ⟨post, posts⟩
    · simp [Reaches]
    cases post with
    | answered =>
      obtain ⟨hLe, hIff⟩ := ih posts
      dsimp only [List.length_cons, Reaches]
      refine ⟨by omega, ?_⟩
      rw [and_iff_right hPeer, ← hIff]
      omega
    | lost e =>
      dsimp only [List.length_cons, List.length_nil, Reaches]
      refine ⟨by omega, ?_⟩
      -- a lost answer was accepted, and ends the fanout: only the last may be lost
      constructor
      · intro hOne
        have hNone : rest = [] := List.length_eq_zero_iff.mp (by omega)
        subst hNone
        exact ⟨⟨hPeer, by simp⟩, rfl⟩
      · rintro ⟨-, hLast⟩
        omega
    | failed e => simp [Reaches]

/-- What the handler gets through, of a session that is there. -/
theorem deliver_length (hub : DkgHub k F) (peers : List String) {sessionId : String}
    {s : SessionInner k F} (h : hub.sessions.lookup sessionId = some s) (fanout : Bool)
    (posts : List Post) :
    s.round2Outbound.size ≤ (deliver hub peers sessionId fanout posts).2.1.length ↔
      s.round2Outbound.size = 0 ∨ fanout = true ∧
        ∃ msgs, s.round2Outbound.toPairs.mapM (s.drained.round2Message sessionId) = .ok msgs ∧
          (∀ msg ∈ msgs, msg.recipientNodeId ∈ peers) ∧ Reaches posts msgs.length := by
  unfold deliver
  simp only [DkgHub.takeRound2Outbound, h]
  rw [Table.size_eq_toPairs]
  cases hOut : s.round2Outbound.toPairs.mapM (s.drained.round2Message sessionId) with
  | error e => simp
  | ok msgs =>
    have hSize := (Results.mapM_eq_ok.mp hOut).length_eq
    dsimp only
    cases fanout with
    | false => simp
    | true =>
      rw [if_pos rfl]
      obtain ⟨hLe, hIff⟩ := fanoutRound2_length k peers posts msgs
      rcases hFan : fanoutRound2 k peers posts msgs with ⟨accepted, outcome⟩
      rw [hFan] at hLe hIff
      dsimp only at hLe hIff
      -- all were accepted exactly where the fanout reached its end
      have hAccepted : s.round2Outbound.toPairs.length ≤ accepted.length ↔
          s.round2Outbound.toPairs.length = 0 ∨ true = true ∧
            ∃ msgs', Except.ok msgs = Except.ok (ε := DomainError) msgs' ∧
            (∀ msg ∈ msgs', msg.recipientNodeId ∈ peers) ∧ Reaches posts msgs'.length := by
        constructor
        · intro hAll
          exact .inr ⟨rfl, msgs, rfl, hIff.mp (by omega)⟩
        · rintro (hNone | ⟨-, _, hSame, hThrough⟩)
          · omega
          · cases Except.ok.inj hSame
            have := hIff.mpr hThrough
            omega
      rcases outcome with - | ⟨e⟩ | ⟨⟨⟩⟩
      all_goals exact hAccepted

/-! ## What is where -/

theorem mem_parcels {sessionId : String} {session : Option (SessionInner k F)} {parcel : Parcel F}
    (h : parcel ∈ parcels sessionId session) : parcel.1 = sessionId := by
  unfold parcels at h
  split at h
  · cases h
  · obtain ⟨e, -, rfl⟩ := List.mem_map.mp h
    rfl

theorem parcels_nodup (sessionId : String) (session : Option (SessionInner k F)) :
    (parcels sessionId session).Nodup := by
  unfold parcels
  split
  · exact List.nodup_nil
  · rename_i s
    exact s.round2Outbound.nodup_toPairs.map fun a b h => (Prod.mk.inj h).2

theorem parcels_drained (sessionId : String) (session : Option (SessionInner k F)) :
    parcels sessionId (session.map SessionInner.drained) = [] := by
  cases session with
  | none => rfl
  | some s => rfl

/-- A session in round 1 has no queue, and no call gives it one. -/
theorem SessionInner.after_quiet {s : SessionInner k F} (call : HubCall F)
    (h : s.phase = .round1 → s.round2Outbound.toPairs = [])
    (hPhase : (s.after call).phase = .round1) : (s.after call).round2Outbound.toPairs = [] := by
  have hBefore : s.phase = .round1 := by
    by_contra hPast
    exact s.after_phase call hPast hPhase
  have hNone := h hBefore
  cases call with
  | start req rand => exact hNone
  | takeRound2Outbound sessionId => rfl
  | ingestRound1 msg =>
    revert hPhase
    rw [SessionInner.after]
    split
    · exact fun _ => hNone
    rcases s.ingestRound1_cases msg with hSame | ⟨id, package, hRound1, -, -, -, -, -, hEq⟩
    · rw [hSame]
      exact fun _ => hNone
    · rw [hEq]
      rcases s.acceptRound1_cases id package hRound1 with
        ⟨hAccept, -⟩ | ⟨-, _, -, ⟨_, _, -, hAccept⟩ | ⟨_, -, hAccept⟩⟩
      · rw [hAccept]
        exact fun _ => hNone
      · rw [hAccept]
        -- part 2 made the shares, and round 1 is over
        exact fun hRound2 => (by cases hRound2)
      · rw [hAccept]
        exact fun _ => hNone
  | ingestRound2 msg =>
    rw [SessionInner.after]
    split
    · exact hNone
    rcases s.ingestRound2_cases msg with hSame | ⟨_, _, -, hEq⟩
    · rw [hSame]
      exact hNone
    · rw [hEq]
      exact hNone
  | finalizeRound3 sessionId disk =>
    rw [SessionInner.after]
    split
    · exact hNone
    split
    · exact hNone
    split
    · exact hNone
    · exact hNone

/-- Handing out empties one queue and leaves all else. -/
theorem lookup_takeRound2Outbound (hub : DkgHub k F) (sessionId sid : String) :
    (hub.takeRound2Outbound sessionId).2.sessions.lookup sid =
      if sid = sessionId then (hub.sessions.lookup sid).map SessionInner.drained
      else hub.sessions.lookup sid := by
  unfold DkgHub.takeRound2Outbound
  by_cases hSid : sid = sessionId
  · subst hSid
    rw [if_pos rfl]
    cases hFound : hub.sessions.lookup sid with
    | none => exact hFound
    | some s => exact AList.lookup_insert _
  · rw [if_neg hSid]
    cases hub.sessions.lookup sessionId with
    | none => rfl
    | some s => exact AList.lookup_insert_ne hSid

theorem deliver_hub (hub : DkgHub k F) (peers : List String) (sessionId : String) (fanout : Bool)
    (posts : List Post) :
    (deliver hub peers sessionId fanout posts).2.2 = (hub.takeRound2Outbound sessionId).2 := by
  unfold deliver
  rcases hub.takeRound2Outbound sessionId with ⟨out, after⟩
  cases out with
  | error e => rfl
  | ok msgs =>
    dsimp only
    split
    · split
      all_goals rfl
    · rfl

namespace Relay

/-- Only a session past round 1 has had a queue, what is in a queue was made,
and a queue that was handed out stays empty. -/
structure Sound (r : Relay k F) : Prop where
  quiet : ∀ sid s, r.session sid = some s → s.phase = .round1 → s.round2Outbound.toPairs = []
  noted : ∀ sid, ∀ parcel ∈ parcels sid (r.session sid), parcel ∈ r.made
  gone : ∀ parcel, parcel ∈ r.handed ∨ parcel ∈ r.accepted →
    parcels parcel.1 (r.session parcel.1) = [] ∧
      ∃ s, r.session parcel.1 = some s ∧ s.phase ≠ .round1

theorem sound_new (localNodeId : String) : (new localNodeId : Relay k F).Sound where
  quiet sid s hs := absurd ((DkgHub.lookup_new localNodeId sid).symm.trans hs) (by simp)
  noted sid parcel h := by
    rw [show (new localNodeId : Relay k F).session sid = none from
      DkgHub.lookup_new localNodeId sid] at h
    cases h
  gone parcel h := by
    rcases h with h | h
    · cases h
    · cases h

/-- A hand-out of the queue of `sessionId`, whoever gets the packages. -/
structure HandsOut (r r' : Relay k F) (sessionId : String) : Prop where
  hub : r'.hub = (r.hub.takeRound2Outbound sessionId).2
  made : r'.made = r.made
  handed : ∀ parcel ∈ r'.handed, parcel ∈ parcels sessionId (r.session sessionId) ∨
    parcel ∈ r.handed
  accepted : ∀ parcel ∈ r'.accepted, parcel ∈ parcels sessionId (r.session sessionId) ∨
    parcel ∈ r.accepted
  keeps : ∀ parcel ∈ r.accepted, parcel ∈ r'.accepted

namespace HandsOut

variable {r r' : Relay k F} {sessionId : String}

theorem session (h : HandsOut r r' sessionId) (sid : String) :
    r'.session sid = if sid = sessionId then (r.session sid).map SessionInner.drained
      else r.session sid := by
  rw [Relay.session, h.hub]
  exact lookup_takeRound2Outbound ..

theorem parcels (h : HandsOut r r' sessionId) : parcels sessionId (r'.session sessionId) = [] := by
  rw [h.session, if_pos rfl]
  exact parcels_drained ..

/-- What was made and accepted is known as before. -/
theorem sound (h : HandsOut r r' sessionId) (hSound : r.Sound) : r'.Sound where
  quiet sid s hs hPhase := by
    rw [h.session] at hs
    split at hs
    · obtain ⟨t, -, rfl⟩ := Option.map_eq_some_iff.mp hs
      rfl
    · exact hSound.quiet sid s hs hPhase
  noted sid parcel hParcel := by
    rw [h.made]
    rw [h.session] at hParcel
    split at hParcel
    · rw [parcels_drained] at hParcel
      cases hParcel
    · exact hSound.noted sid parcel hParcel
  gone parcel hParcel := by
    -- what left the hub now was in the queue, what left before is still out of it
    have hFrom : parcel ∈ KeroseneVault.parcels sessionId (r.session sessionId) ∨
        parcel ∈ r.handed ∨ parcel ∈ r.accepted := by
      rcases hParcel with hHanded | hAccepted
      · exact (h.handed parcel hHanded).imp_right .inl
      · exact (h.accepted parcel hAccepted).imp_right .inr
    have hPast : ∃ s, r.session parcel.1 = some s ∧ s.phase ≠ .round1 := by
      rcases hFrom with hQueue | hOut
      · rw [mem_parcels hQueue]
        cases hs : r.session sessionId with
        | none =>
          rw [hs] at hQueue
          cases hQueue
        | some s =>
          refine ⟨s, rfl, fun hPhase => ?_⟩
          rw [hs, KeroseneVault.parcels, hSound.quiet sessionId s hs hPhase] at hQueue
          cases hQueue
      · exact (hSound.gone parcel hOut).2
    obtain ⟨s, hs, hPhase⟩ := hPast
    rw [h.session]
    by_cases hSid : parcel.1 = sessionId
    · rw [if_pos hSid, hs]
      exact ⟨rfl, s.drained, rfl, hPhase⟩
    · rw [if_neg hSid]
      rcases hFrom with hQueue | hOut
      · exact absurd (mem_parcels hQueue) hSid
      · exact hSound.gone parcel hOut

/-- All packages are kept exactly when the members accept what was in the
queue. -/
theorem kept (h : HandsOut r r' sessionId) (hSound : r.Sound) (hKept : r.Kept) :
    r'.Kept ↔ ∀ parcel ∈ KeroseneVault.parcels sessionId (r.session sessionId),
      parcel ∈ r'.accepted := by
  -- to the right, a package that was queued is there no more, so that it was accepted; to the
  -- left, one of another session is where it was
  constructor
  · intro hAfter parcel hQueue
    have hMade : parcel ∈ r'.made := by
      rw [h.made]
      exact hSound.noted sessionId parcel hQueue
    refine (hAfter parcel hMade).resolve_left fun hThere => ?_
    rw [Obtainable, mem_parcels hQueue, h.parcels] at hThere
    cases hThere
  · intro hAll parcel hMade
    rw [h.made] at hMade
    rcases hKept parcel hMade with hThere | hAccepted
    · by_cases hSid : parcel.1 = sessionId
      · rw [Obtainable, hSid] at hThere
        exact .inr (hAll parcel hThere)
      · refine .inl ?_
        rw [Obtainable, h.session, if_neg hSid]
        exact hThere
    · exact .inr (h.keeps parcel hAccepted)

end HandsOut

/-! ### The other calls -/

section Perform

variable {r : Relay k F} {call : HubCall F}

/-- A session that has moved on keeps its queue through a call. -/
theorem session_perform_past (hTake : ∀ sessionId, call ≠ .takeRound2Outbound sessionId)
    {sid : String} {s : SessionInner k F} (hs : r.session sid = some s) (hPhase : s.phase ≠ .round1) :
    ∃ t, (r.perform call).session sid = some t ∧ t.phase ≠ .round1 ∧
      t.round2Outbound = s.round2Outbound := by
  by_cases hSid : sid = call.sessionId
  · subst hSid
    exact ⟨s.after call, r.hub.lookup_perform r.store call hs, s.after_phase call hPhase,
      s.after_outbound hTake hPhase⟩
  · exact ⟨s, (r.hub.lookup_perform_ne r.store hSid).trans hs, hPhase, rfl⟩

/-- A session after a call was there before, or is in round 1 with no queue. -/
theorem session_perform_quiet (hSound : r.Sound) {sid : String} {t : SessionInner k F}
    (ht : (r.perform call).session sid = some t) (hPhase : t.phase = .round1) :
    t.round2Outbound.toPairs = [] := by
  by_cases hSid : sid = call.sessionId
  swap
  · rw [Relay.session, perform, r.hub.lookup_perform_ne r.store hSid] at ht
    exact hSound.quiet sid t ht hPhase
  subst hSid
  cases hs : r.session call.sessionId with
  | some s =>
    cases Option.some.inj ((r.hub.lookup_perform r.store call hs).symm.trans ht)
    exact SessionInner.after_quiet call (hSound.quiet _ s hs) hPhase
  | none =>
    rcases r.hub.perform_cases r.store hs with
      hNone | ⟨_, _, _, inner, _, -, -, -, hOpen, -, hSome⟩
    · exact absurd (hNone.symm.trans ht) (by simp)
    · cases Option.some.inj (hSome.symm.trans ht)
      obtain ⟨_, _, _, _, -, -, -, rfl, -⟩ := openSession_ok.mp hOpen
      rfl

theorem perform_sound (hTake : ∀ sessionId, call ≠ .takeRound2Outbound sessionId)
    (hSound : r.Sound) : (r.perform call).Sound where
  quiet sid t ht hPhase := session_perform_quiet hSound ht hPhase
  noted sid parcel hParcel := by
    by_cases hSid : sid = call.sessionId
    · subst hSid
      exact List.mem_append_left _ hParcel
    · rw [Relay.session, perform, r.hub.lookup_perform_ne r.store hSid] at hParcel
      exact List.mem_append_right _ (hSound.noted sid parcel hParcel)
  gone parcel hOut := by
    obtain ⟨hEmpty, s, hs, hPhase⟩ := hSound.gone parcel hOut
    obtain ⟨t, ht, hPast, hQueue⟩ := session_perform_past hTake hs hPhase
    rw [hs] at hEmpty
    refine ⟨?_, t, ht, hPast⟩
    rw [ht, parcels, hQueue]
    exact hEmpty

/-- Other calls put packages into queues and take none out. -/
theorem perform_kept (hTake : ∀ sessionId, call ≠ .takeRound2Outbound sessionId)
    (hSound : r.Sound) (hKept : r.Kept) : (r.perform call).Kept := by
  intro parcel hMade
  rcases List.mem_append.mp hMade with hNow | hEarlier
  · refine .inl ?_
    rw [Obtainable, mem_parcels hNow]
    exact hNow
  refine (hKept parcel hEarlier).imp_left fun hThere => ?_
  rw [Obtainable] at hThere ⊢
  cases hs : r.session parcel.1 with
  | none =>
    rw [hs] at hThere
    cases hThere
  | some s =>
    rw [hs] at hThere
    have hPhase : s.phase ≠ .round1 := fun hRound1 => by
      rw [parcels, hSound.quiet _ s hs hRound1] at hThere
      cases hThere
    obtain ⟨t, ht, -, hQueue⟩ := session_perform_past hTake hs hPhase
    rw [ht, parcels, hQueue]
    exact hThere

end Perform

/-! ### All steps -/

/-- A step that hands packages out gets them all through to their members: it
is the handler's with a fan-out, all of them serialize, the members' addresses
are known, and the posts reach them. -/
def GetsThrough (peers : List String) (r : Relay k F) : RelayStep F → Prop
  | .call (.takeRound2Outbound sessionId) => ∀ s, r.session sessionId = some s →
      s.round2Outbound.size = 0
  | .deliver sessionId fanout posts => ∀ s, r.session sessionId = some s →
      s.round2Outbound.size = 0 ∨ fanout = true ∧
        ∃ msgs, s.round2Outbound.toPairs.mapM (s.drained.round2Message sessionId) = .ok msgs ∧
          (∀ msg ∈ msgs, msg.recipientNodeId ∈ peers) ∧ Reaches posts msgs.length
  | _ => True

variable {r : Relay k F} {peers : List String}

theorem handsOut_take (sessionId : String) :
    HandsOut r (r.step peers (.call (.takeRound2Outbound sessionId))) sessionId where
  hub := rfl
  made := rfl
  handed _ h := List.mem_append.mp h
  accepted _ h := .inr h
  keeps _ h := h

theorem handsOut_deliver (sessionId : String) (fanout : Bool) (posts : List Post) :
    HandsOut r (r.step peers (.deliver sessionId fanout posts)) sessionId where
  hub := deliver_hub ..
  made := rfl
  handed parcel h := by
    simp only [step] at h
    split at h
    · exact List.mem_append.mp h
    · exact .inr h
  accepted parcel h := (List.mem_append.mp h).imp_left List.mem_of_mem_take
  keeps parcel h := List.mem_append_right _ h

theorem step_sound (hSound : r.Sound) (a : RelayStep F) : (r.step peers a).Sound := by
  cases a with
  | deliver sessionId fanout posts => exact (handsOut_deliver sessionId fanout posts).sound hSound
  | forward n =>
    refine ⟨hSound.quiet, hSound.noted, fun parcel hOut => hSound.gone parcel ?_⟩
    rcases hOut with hHanded | hAccepted
    · exact .inl hHanded
    · rcases List.mem_append.mp hAccepted with hNow | hEarlier
      · exact .inl (List.mem_of_getElem? (Option.mem_toList.mp hNow))
      · exact .inr hEarlier
  | call call =>
    cases call with
    | takeRound2Outbound sessionId => exact (handsOut_take sessionId).sound hSound
    | _ => exact perform_sound (fun _ h => (by cases h)) hSound

/-- So many parcels of a queue are accepted as the fan-out gets through. -/
theorem accepted_all (sessionId : String) (n : Nat) (hSound : r.Sound) :
    (∀ parcel ∈ parcels sessionId (r.session sessionId),
        parcel ∈ (parcels sessionId (r.session sessionId)).take n ++ r.accepted) ↔
      (parcels sessionId (r.session sessionId)).length ≤ n := by
  constructor
  · intro hAll
    have hTake : ∀ parcel ∈ parcels sessionId (r.session sessionId),
        parcel ∈ (parcels sessionId (r.session sessionId)).take n := by
      intro parcel hParcel
      refine (List.mem_append.mp (hAll parcel hParcel)).resolve_right fun hEarlier => ?_
      -- an accepted package of this session would have left the queue empty
      have hEmpty := (hSound.gone parcel (.inr hEarlier)).1
      rw [mem_parcels hParcel] at hEmpty
      rw [hEmpty] at hParcel
      cases hParcel
    have hLe := (List.subperm_of_subset (parcels_nodup ..) hTake).length_le
    rw [List.length_take] at hLe
    omega
  · intro hLe parcel hParcel
    rw [List.take_of_length_le hLe]
    exact List.mem_append_left _ hParcel

/-- **One step.** -/
theorem kept_step (hSound : r.Sound) (hKept : r.Kept) (a : RelayStep F) :
    (r.step peers a).Kept ↔ r.GetsThrough peers a := by
  have hLength : ∀ sessionId s, r.session sessionId = some s →
      (parcels sessionId (r.session sessionId)).length = s.round2Outbound.size := by
    intro sessionId s hs
    rw [hs, parcels, List.length_map, Table.size_eq_toPairs]
  cases a with
  | forward n =>
    exact iff_of_true (fun parcel hMade => (hKept parcel hMade).imp_right fun h =>
      List.mem_append_right _ h) trivial
  | deliver sessionId fanout posts =>
    -- a delivery hands out what was accepted, and the rest is gone with the drain
    rw [(handsOut_deliver sessionId fanout posts).kept hSound hKept]
    refine (accepted_all _ _ hSound).trans ?_
    cases hs : r.session sessionId with
    | none =>
      refine iff_of_true (by simp [parcels]) fun s hSome => ?_
      exact absurd (hs.symm.trans hSome) (by simp)
    | some s =>
      rw [← hs, hLength sessionId s hs, deliver_length r.hub peers hs]
      constructor
      · intro h t ht
        cases Option.some.inj (hs.symm.trans ht)
        exact h
      · exact fun h => h s hs
  | call call =>
    cases call with
    | takeRound2Outbound sessionId =>
      -- a take without a delivery hands out nothing
      rw [(handsOut_take sessionId).kept hSound hKept]
      have hNone := accepted_all sessionId 0 hSound
      rw [List.take_zero, List.nil_append] at hNone
      refine hNone.trans ?_
      cases hs : r.session sessionId with
      | none =>
        refine iff_of_true (by simp [parcels]) fun s hSome => ?_
        exact absurd (hs.symm.trans hSome) (by simp)
      | some s =>
        rw [← hs, hLength sessionId s hs, Nat.le_zero]
        constructor
        · intro h t ht
          cases Option.some.inj (hs.symm.trans ht)
          exact h
        · exact fun h => h s hs
    | _ => exact iff_of_true (perform_kept (fun _ h => (by cases h)) hSound hKept) trivial

end Relay

/--
**Packages on their way.** In a run of a hub with its handler and callers,
whatever the posts come to, each package made for a member can be had from the
hub until the member has accepted it exactly when every hand-out of a queue is
a fan-out that gets all its packages through.
-/
theorem round2Outbound_iff (peers : List String) (localNodeId : String) (as : List (RelayStep F)) :
    Runs.EveryState (Relay.step peers) Relay.Kept (.new localNodeId : Relay k F) as ↔
      Runs.EveryStep (Relay.step peers) (Relay.GetsThrough peers) (.new localNodeId : Relay k F) as :=
  Runs.everyState_iff_everyStep (J := Relay.Sound) (fun _ a hSound => Relay.step_sound hSound a)
    (fun _ a hSound hKept => Relay.kept_step hSound hKept a) (Relay.sound_new localNodeId)
    (fun _ hMade => (by cases hMade)) as

/-! ### A post that fails -/

/-- `a` has the package of `b`; it delivers, which fails, and delivers again. -/
def lossSteps : List (RelayStep smallFrost.toFrostDkg) :=
  .call (.start pairRequest (pairRand "a")) ::
    pairStarted.sent1.map (fun msg => .call (.ingestRound1 msg)) ++
    [.deliver "s1" true [.failed (.thresholdError "peer POST: timed out")]]

def lossRelay : Relay .taproot smallFrost.toFrostDkg :=
  Runs.run (Relay.step ["b"]) (.new "a") lossSteps

/-- The package for `b` is neither in the queue nor accepted, and the retry
succeeds with nothing to send. -/
theorem round2Outbound_fails :
    ¬ Relay.Kept lossRelay ∧ lossRelay.made.length = 1 ∧ lossRelay.accepted = [] ∧
      (deliver lossRelay.hub ["b"] "s1" true [.answered]).1 = .outbound [] := by
  have hMade : lossRelay.made.length = 1 := by decide +kernel
  have hQueue : (parcels "s1" (lossRelay.session "s1")).length = 0 := by decide +kernel
  have hName : (lossRelay.made.all fun parcel => parcel.1 = "s1") = true := by decide +kernel
  have hAccepted : lossRelay.accepted.length = 0 := by decide +kernel
  have hNone := List.length_eq_zero_iff.mp hAccepted
  refine ⟨fun hKept => ?_, hMade, hNone, by decide +kernel⟩
  obtain ⟨parcel, hParcel⟩ := List.exists_mem_of_length_pos (l := lossRelay.made) (by omega)
  rcases hKept parcel hParcel with hThere | hGone
  · rw [Relay.Obtainable, of_decide_eq_true (List.all_eq_true.mp hName parcel hParcel),
      List.length_eq_zero_iff.mp hQueue] at hThere
    cases hThere
  · rw [hNone] at hGone
    cases hGone

end KeroseneVault
