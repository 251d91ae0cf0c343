import KeroseneVault.Dkg.ReshareFreeze

/-!
# Wire reshares between honest hubs

Every node of a roster starts one session, and the hubs are given each other's
messages in any order. `identifier_to_u16`, which numbers the sender of every
message, takes the first byte of a serialization whose last two bytes hold the
number.

* `FixedWidth` — identifiers are serialized as scalars of fixed width;
* `ReshareMesh` — the hubs and the messages they returned;
* `Honest` — a call with a message that some hub returned;
* `Accepted`, `CanFinalize` — what the hubs are for;
* `Stalled` — every session waits in round 1, and every message is numbered
  zero.

Main results:

* `reshareIdentifierToU16_eq_zero` — no identifier gets its number back;
* `Stalled.step` — no honest call gets a session out of round 1;
* `reshareCompletes_never` — so no message is accepted and no hub finalizes;
* `reshareCompletes_fails` — two nodes.
-/

namespace KeroseneVault

variable {F : FrostRefresh}

/-! ## Identifiers and their numbers -/

/-- The identifier of a number is serialized as a big-endian scalar of `width`
bytes, which are more than the two of a `u16`. -/
structure FrostRefresh.FixedWidth (F : FrostRefresh) (width : Nat) : Prop where
  wide : 2 < width
  bytes : ∀ v id, v < 2 ^ 16 → F.ofU16 v = .ok id →
    F.identifierBytes id = List.replicate (width - 2) 0 ++ u16Bytes v

/-- **No identifier gets its number back.** -/
theorem reshareIdentifierToU16_eq_zero {width : Nat} (hWidth : F.FixedWidth width)
    (roster : Roster F.toFrostDkg) {v : Nat} {id : F.Identifier} (hv : v < 2 ^ 16)
    (hId : F.ofU16 v = .ok id) : reshareIdentifierToU16 roster id = 0 := by
  unfold reshareIdentifierToU16
  split
  · rfl
  rename_i entry hFound
  have hEntry : entry.2 = id := by simpa using List.find?_some hFound
  -- the first of the bytes is a leading zero
  obtain ⟨n, hn⟩ : ∃ n, width - 2 = n + 1 := ⟨width - 3, by have := hWidth.wide; omega⟩
  rw [hEntry, hWidth.bytes v id hv hId, hn, List.replicate_succ, List.cons_append]
  rfl

/-- The number of a seated session's own identifier is zero. -/
theorem ReshareSessionInner.Seated.number {width : Nat} (hWidth : F.FixedWidth width)
    {s : ReshareSessionInner F} (h : s.Seated) :
    reshareIdentifierToU16 s.roster s.localIdentifier = 0 := by
  obtain ⟨v, -, hv, hId⟩ := h.roster.numbered _ h.own
  exact reshareIdentifierToU16_eq_zero hWidth s.roster hv hId

/-! ## The mesh -/

namespace WireReshareHub

/-- The round 1 messages a call returns. -/
def sentRound1 (hub : WireReshareHub F) : ReshareHubCall F → List ReshareRound1WireMessage
  | .start req oldPubkey oldKey rand =>
    match (hub.start req oldPubkey oldKey rand).1 with
    | .ok (_, wire) => [wire]
    | .error _ => []
  | _ => []

/-- The round 2 messages a call returns. -/
def sentRound2 (hub : WireReshareHub F) : ReshareHubCall F → List ReshareRound2WireMessage
  | .takeRound2Outbound sessionId =>
    match (hub.takeRound2Outbound sessionId).1 with
    | .ok out => out
    | .error _ => []
  | _ => []

end WireReshareHub

/-- The hubs and their share stores, and the messages they returned. -/
structure ReshareMesh (F : FrostRefresh) where
  hubs : String → WireReshareHub F
  stores : String → ShareStore
  sent1 : List ReshareRound1WireMessage
  sent2 : List ReshareRound2WireMessage

namespace ReshareMesh

/-- A call on the hub of one node. -/
def step (m : ReshareMesh F) : String × ReshareHubCall F → ReshareMesh F
  | (i, call) => {
      hubs := Function.update m.hubs i ((m.hubs i).perform (m.stores i) call).1
      stores := Function.update m.stores i ((m.hubs i).perform (m.stores i) call).2
      sent1 := (m.hubs i).sentRound1 call ++ m.sent1
      sent2 := (m.hubs i).sentRound2 call ++ m.sent2 }

/-- Hubs that have returned nothing. -/
def init (stores : String → ShareStore) : ReshareMesh F := ⟨.new, stores, [], []⟩

def session (m : ReshareMesh F) (i sid : String) : Option (ReshareSessionInner F) :=
  (m.hubs i).sessions.lookup sid

/-- Members start sessions, and hubs are given what hubs returned. -/
def Honest (members : List String) (m : ReshareMesh F) : String × ReshareHubCall F → Prop
  | (i, .start ..) => i ∈ members
  | (_, .ingestRound1 msg) => msg ∈ m.sent1
  | (_, .ingestRound2 msg) => msg ∈ m.sent2
  | _ => True

/-- The members have all started the session. -/
def started (stores : String → ShareStore) (req : ReshareStartRequest)
    (oldPubkey : String → F.PublicKeyPackage) (oldKey : String → Option F.KeyPackage)
    (rand : String → F.Randomness) (members : List String) : ReshareMesh F :=
  Runs.run step (init stores)
    (members.map fun i => (i, .start req (oldPubkey i) (oldKey i) (rand i)))

/-- In whatever order messages are delivered, every member accepts those of the
others. -/
def Accepted (members : List String) (m₀ : ReshareMesh F) : Prop :=
  ∀ calls, Runs.EveryStep step (Honest members) m₀ calls →
    let m := Runs.run step m₀ calls
    (∀ msg ∈ m.sent1, ∀ j ∈ members, j ≠ msg.senderNodeId →
      ∃ status, ((m.hubs j).ingestRound1 msg).1 = .ok status) ∧
    ∀ msg ∈ m.sent2, ∀ j ∈ members, j = msg.recipientNodeId →
      ∃ status, ((m.hubs j).ingestRound2 msg).1 = .ok status

/-- Some deliveries get all members to where they can finalize the session. -/
def CanFinalize (members : List String) (sid : String) (m₀ : ReshareMesh F) : Prop :=
  ∃ calls, Runs.EveryStep step (Honest members) m₀ calls ∧
    let m := Runs.run step m₀ calls
    ∀ i ∈ members, ∃ status,
      ((m.hubs i).finalize sid (fun _ _ => .stored) (m.stores i)).1 = .ok status

end ReshareMesh

/-! ## Sessions that wait -/

namespace ReshareSessionInner

/-- The session of node `i` waits in round 1. -/
structure Waits (i : String) (s : ReshareSessionInner F) : Prop where
  seated : s.Seated
  node : s.localNodeId = i
  phase : s.phase = .round1
  round2Secret : s.round2Secret = none
  round2Outbound : s.round2Outbound = ∅

/-- A message numbered zero is refused. -/
theorem ingestRound1_zero (hF : F.Numbers) {s : ReshareSessionInner F}
    {msg : ReshareRound1WireMessage} (hPhase : s.phase ≠ .complete)
    (hZero : msg.senderIdentifier = 0) :
    (∃ e, (s.ingestRound1 msg).1 = .error e) ∧ (s.ingestRound1 msg).2 = s := by
  obtain ⟨e, hRefused⟩ := hF.zero
  unfold ingestRound1
  rw [if_neg hPhase]
  split
  · exact ⟨⟨_, rfl⟩, rfl⟩
  split
  · exact ⟨⟨_, rfl⟩, rfl⟩
  · rw [hZero, reshareIdentifierFromU16, hRefused]
    exact ⟨⟨_, rfl⟩, rfl⟩

/-- The packages a waiting session hands out are none. -/
theorem Waits.handsOut {i : String} {s : ReshareSessionInner F} (h : s.Waits i) (sid : String) :
    s.round2Outbound.toPairs.mapM (s.drained.round2Message sid) = .ok [] := by
  rw [h.round2Outbound]
  rfl

end ReshareSessionInner

namespace WireReshareHub

variable {hub : WireReshareHub F} {i : String}

/-- All sessions of the hub of node `i` wait. -/
structure Waits (i : String) (hub : WireReshareHub F) : Prop where
  named : hub.localNodeId = i
  sessions : ∀ sid s, hub.sessions.lookup sid = some s → s.Waits i

theorem waits_new (i : String) : Waits i (.new i : WireReshareHub F) where
  named := rfl
  sessions sid s hs := by cases (AList.lookup_empty sid).symm.trans hs

/-- A hub that waits refuses a message numbered zero. -/
theorem Waits.refuses (hF : F.Numbers) (h : hub.Waits i) {msg : ReshareRound1WireMessage}
    (hZero : msg.senderIdentifier = 0) : ∃ e, (hub.ingestRound1 msg).1 = .error e := by
  unfold ingestRound1
  split
  · exact ⟨_, rfl⟩
  unfold onSession
  split
  · exact ⟨_, rfl⟩
  rename_i s hs
  have hOpen : s.phase ≠ .complete := by
    rw [(h.sessions _ s hs).phase]
    simp
  obtain ⟨⟨e, hError⟩, -⟩ := s.ingestRound1_zero hF hOpen hZero
  dsimp only
  rw [hError]
  exact ⟨e, rfl⟩

/-- A hub that waits does not finalize. -/
theorem Waits.unfinished (h : hub.Waits i) (sid : String) (disk : ShareDisk)
    (store : ShareStore) : ∃ e, (hub.finalize sid disk store).1 = .error e := by
  unfold finalize
  split
  · exact ⟨_, rfl⟩
  rename_i s hs
  have hWaits := h.sessions sid s hs
  rw [if_neg (by rw [hWaits.phase]; simp)]
  split
  · exact ⟨_, rfl⟩
  rename_i keys hKeys
  obtain ⟨_, _, -, hSecret, -⟩ := ReshareSessionInner.reshareKeys_ok.mp hKeys
  rw [hWaits.round2Secret] at hSecret
  cases hSecret

/-- The session a start opens waits. -/
theorem Waits.opened (hF : F.Numbers) (h : hub.Waits i) {req : ReshareStartRequest}
    {dayEpoch : DayEpoch} {roster : Roster F.toFrostDkg} {oldPubkey : F.PublicKeyPackage}
    {oldKey : Option F.KeyPackage} {rand : F.Randomness} {inner : ReshareSessionInner F}
    {wire : ReshareRound1WireMessage} (hRoster : buildReshareRoster F req.roster = .ok roster)
    (hLength : roster.length % 2 ^ 16 = req.maxSigners)
    (hOpen : hub.openSession req dayEpoch roster oldPubkey oldKey rand = .ok (inner, wire)) :
    inner.Waits i := by
  have hSeated := ReshareSessionInner.Seated.freshSession hF hRoster hLength hOpen
  obtain ⟨id, secret, package, bytes, -, -, -, rfl, -⟩ := openSession_ok.mp hOpen
  exact ⟨hSeated, h.named, rfl, rfl, rfl⟩

/-- **One call** of a hub that waits, other than with a message that is numbered. -/
theorem Waits.after {s : ReshareSessionInner F} (hF : F.Numbers) (hs : s.Waits i)
    {call : ReshareHubCall F} (hRound1 : ∀ msg, call = .ingestRound1 msg → msg.senderIdentifier = 0)
    (hRound2 : ∀ msg, call ≠ .ingestRound2 msg) : (s.after call).Waits i := by
  -- a message of number zero is refused, and there is nothing to take or to finalize in round
  -- 1
  cases call with
  | start req oldPubkey oldKey rand => exact hs
  | ingestRound1 msg =>
    rw [ReshareSessionInner.after]
    split
    · exact hs
    have hOpen : s.phase ≠ .complete := by
      rw [hs.phase]
      simp
    rw [(s.ingestRound1_zero hF hOpen (hRound1 msg rfl)).2]
    exact hs
  | takeRound2Outbound sessionId =>
    exact ⟨hs.seated.after (.takeRound2Outbound sessionId), hs.node, hs.phase, hs.round2Secret, rfl⟩
  | ingestRound2 msg => exact absurd rfl (hRound2 msg)
  | finalize sessionId disk =>
    rw [ReshareSessionInner.after, if_neg (by rw [hs.phase]; simp)]
    split
    · exact hs
    rename_i keys hKeys
    obtain ⟨_, _, -, hSecret, -⟩ := ReshareSessionInner.reshareKeys_ok.mp hKeys
    rw [hs.round2Secret] at hSecret
    cases hSecret

theorem Waits.perform (hF : F.Numbers) (h : hub.Waits i) (store : ShareStore)
    {call : ReshareHubCall F} (hRound1 : ∀ msg, call = .ingestRound1 msg → msg.senderIdentifier = 0)
    (hRound2 : ∀ msg, call ≠ .ingestRound2 msg) : (hub.perform store call).1.Waits i := by
  refine ⟨(hub.perform_localNodeId store call).trans h.named, fun sid s hs => ?_⟩
  by_cases hSid : sid = call.sessionId
  swap
  · exact h.sessions sid s ((hub.lookup_perform_ne store hSid).symm.trans hs)
  subst hSid
  cases hFound : hub.sessions.lookup call.sessionId with
  | some t =>
    have hAfter := hub.lookup_perform store call hFound
    cases Option.some.inj (hAfter.symm.trans hs)
    exact Waits.after hF (h.sessions _ t hFound) hRound1 hRound2
  | none =>
    rcases hub.perform_cases store hFound with
      hNone | ⟨req, _, _, _, _, _, inner, _, -, hRoster, hLength, hOpen, hSome⟩
    · cases hNone.symm.trans hs
    · cases Option.some.inj (hSome.symm.trans hs)
      exact h.opened hF hRoster hLength hOpen

/-- Its messages are numbered zero. -/
theorem Waits.sentRound1_zero {width : Nat} (hF : F.Numbers) (hWidth : F.FixedWidth width)
    (h : hub.Waits i) {call : ReshareHubCall F} {msg : ReshareRound1WireMessage}
    (hMsg : msg ∈ hub.sentRound1 call) : msg.senderIdentifier = 0 ∧ msg.senderNodeId = i := by
  -- a start sends what its session drew, under the number that comes of its identifier
  cases call with
  | start req oldPubkey oldKey rand =>
    rcases hub.start_cases req oldPubkey oldKey rand with ⟨_, hEq⟩ |
      ⟨s, answer, hFound, hRestart, hEq⟩ |
      ⟨dayEpoch, roster, inner, wire, -, -, hRoster, hLength, hOpen, hEq⟩
    · rw [sentRound1, hEq] at hMsg
      cases hMsg
    · have hWaits := h.sessions _ s hFound
      rw [sentRound1, hEq] at hMsg
      cases List.mem_singleton.mp hMsg
      unfold ReshareSessionInner.restart at hRestart
      split at hRestart
      · cases hRestart
      split at hRestart
      · cases hRestart
      · cases Except.ok.inj hRestart
        exact ⟨hWaits.seated.number hWidth, hWaits.node⟩
    · have hWaits := h.opened hF hRoster hLength hOpen
      rw [sentRound1, hEq] at hMsg
      cases List.mem_singleton.mp hMsg
      obtain ⟨_, _, _, _, -, -, -, hInner, rfl⟩ := openSession_ok.mp hOpen
      exact ⟨hWaits.seated.number hWidth, hWaits.node⟩
  | _ => cases hMsg

/-- It hands out nothing. -/
theorem Waits.sentRound2_nil (h : hub.Waits i) (call : ReshareHubCall F) :
    hub.sentRound2 call = [] := by
  cases call with
  | takeRound2Outbound sessionId =>
    unfold sentRound2 takeRound2Outbound
    dsimp only
    cases hs : hub.sessions.lookup sessionId with
    | none => rfl
    | some s =>
      dsimp only
      rw [(h.sessions _ s hs).handsOut]
  | _ => rfl

end WireReshareHub

namespace ReshareMesh

/-- Every session waits in round 1, and every message is numbered zero. -/
structure Stalled (m : ReshareMesh F) : Prop where
  hubs : ∀ i, (m.hubs i).Waits i
  sent1 : ∀ msg ∈ m.sent1, msg.senderIdentifier = 0
  sent2 : m.sent2 = []

theorem stalled_init (stores : String → ShareStore) : (init stores : ReshareMesh F).Stalled where
  hubs := WireReshareHub.waits_new
  sent1 := by simp [init]
  sent2 := rfl

/-- **One honest call** gets no session out of round 1. -/
theorem Stalled.step {width : Nat} (hF : F.Numbers) (hWidth : F.FixedWidth width)
    {members : List String} {m : ReshareMesh F} (h : m.Stalled) {a : String × ReshareHubCall F}
    (hHonest : m.Honest members a) : (m.step a).Stalled := by
  obtain ⟨i, call⟩ := a
  have hRound1 : ∀ msg, call = .ingestRound1 msg → msg.senderIdentifier = 0 := by
    rintro msg rfl
    exact h.sent1 msg hHonest
  have hRound2 : ∀ msg, call ≠ .ingestRound2 msg := by
    rintro msg rfl
    have hNone : msg ∈ m.sent2 := hHonest
    rw [h.sent2] at hNone
    cases hNone
  -- the hubs, what they sent, and that no round 2 message is there to be delivered
  refine ⟨fun j => ?_, fun msg hMsg => ?_, ?_⟩
  · by_cases hj : j = i
    · subst hj
      have hHub : (m.step (j, call)).hubs j = ((m.hubs j).perform (m.stores j) call).1 :=
        Function.update_self ..
      rw [hHub]
      exact (h.hubs j).perform hF (m.stores j) hRound1 hRound2
    · have hHub : (m.step (i, call)).hubs j = m.hubs j := Function.update_of_ne hj ..
      rw [hHub]
      exact h.hubs j
  · rcases List.mem_append.mp hMsg with hNow | hEarlier
    · exact ((h.hubs i).sentRound1_zero hF hWidth hNow).1
    · exact h.sent1 msg hEarlier
  · show (m.hubs i).sentRound2 call ++ m.sent2 = []
    rw [(h.hubs i).sentRound2_nil, h.sent2]
    rfl

/-- **An honest run** stays where it is. -/
theorem Stalled.run {width : Nat} (hF : F.Numbers) (hWidth : F.FixedWidth width)
    {members : List String} {m : ReshareMesh F} (h : m.Stalled)
    {calls : List (String × ReshareHubCall F)}
    (hCalls : Runs.EveryStep ReshareMesh.step (Honest members) m calls) :
    (Runs.run ReshareMesh.step m calls).Stalled :=
  (Runs.EveryState.of_everyStep (fun _ _ hm hHonest => hm.step hF hWidth hHonest) h hCalls).last

/-! ## The members' starts -/

section Started

variable {req : ReshareStartRequest} {oldPubkey : String → F.PublicKeyPackage}
  {oldKey : String → Option F.KeyPackage} {rand : String → F.Randomness}

theorem honest_starts {members starting : List String} (h : ∀ i ∈ starting, i ∈ members)
    (m : ReshareMesh F) :
    Runs.EveryStep step (Honest members) m
      (starting.map fun i => (i, .start req (oldPubkey i) (oldKey i) (rand i))) := by
  induction starting generalizing m with
  | nil => trivial
  | cons i rest ih =>
    exact ⟨h i (List.mem_cons_self ..), ih (fun j hj => h j (List.mem_cons_of_mem _ hj)) _⟩

/-- Messages stay sent. -/
theorem sent1_run (m : ReshareMesh F) (calls : List (String × ReshareHubCall F))
    {msg : ReshareRound1WireMessage} (h : msg ∈ m.sent1) : msg ∈ (Runs.run step m calls).sent1 := by
  induction calls generalizing m with
  | nil => exact h
  | cons a rest ih => exact ih (m.step a) (List.mem_append_right _ h)

/-- What a new hub returns of its first start. -/
theorem sentRound1_new {i : String} {answer : WireReshareStatus × ReshareRound1WireMessage}
    (h : ((.new i : WireReshareHub F).start req (oldPubkey i) (oldKey i) (rand i)).1 =
      .ok answer) :
    (.new i : WireReshareHub F).sentRound1 (.start req (oldPubkey i) (oldKey i) (rand i)) =
      [answer.2] := by
  unfold WireReshareHub.sentRound1
  dsimp only
  rw [h]

/-- Every member that starts sends its package. -/
theorem sent1_starts {width : Nat} (hF : F.Numbers) (hWidth : F.FixedWidth width)
    {starting : List String} (m : ReshareMesh F) (hNodup : starting.Nodup)
    (hNew : ∀ i ∈ starting, m.hubs i = .new i)
    (hStart : ∀ i ∈ starting, ∃ answer,
      ((.new i : WireReshareHub F).start req (oldPubkey i) (oldKey i) (rand i)).1 = .ok answer) :
    ∀ i ∈ starting, ∃ msg ∈ (Runs.run step m
      (starting.map fun i => (i, .start req (oldPubkey i) (oldKey i) (rand i)))).sent1,
      msg.senderNodeId = i := by
  induction starting generalizing m with
  | nil => simp
  | cons j rest ih =>
    rw [List.nodup_cons] at hNodup
    intro i hi
    rw [List.map_cons, Runs.run_cons]
    rcases List.mem_cons.mp hi with rfl | hRest
    · obtain ⟨answer, hAnswer⟩ := hStart i hi
      have hSent := sentRound1_new hAnswer
      refine ⟨answer.2, sent1_run _ _ (List.mem_append_left _ ?_), ?_⟩
      · rw [hNew i hi, hSent]
        exact List.mem_singleton.mpr rfl
      · have hOwn := (WireReshareHub.waits_new (F := F) i).sentRound1_zero hF hWidth
          (hSent.symm ▸ List.mem_singleton.mpr rfl)
        exact hOwn.2
    · -- the start of another member leaves this one's hub new
      refine ih _ hNodup.2 (fun i' hi' => ?_) (fun i' hi' => hStart i' (List.mem_cons_of_mem _ hi'))
        i hRest
      have hOther : i' ≠ j := fun hEq => hNodup.1 (hEq ▸ hi')
      rw [← hNew i' (List.mem_cons_of_mem _ hi')]
      exact Function.update_of_ne hOther ..

/-- A start that is not refused names another node. -/
theorem exists_other (hF : F.Numbers) {i : String}
    {answer : WireReshareStatus × ReshareRound1WireMessage}
    (h : ((.new i : WireReshareHub F).start req (oldPubkey i) (oldKey i) (rand i)).1 =
      .ok answer) : ∃ j ∈ req.roster, j ≠ i := by
  rcases (WireReshareHub.new i).start_cases req (oldPubkey i) (oldKey i) (rand i) with
    ⟨e, hEq⟩ | ⟨s, _, hFound, -⟩ | ⟨dayEpoch, roster, inner, wire, -, -, hRoster, hLength, hOpen, -⟩
  · rw [hEq] at h
    cases h
  · cases (AList.lookup_empty _).symm.trans hFound
  have hSeated := ReshareSessionInner.Seated.freshSession hF hRoster hLength hOpen
  obtain ⟨_, _, _, _, -, -, -, rfl, -⟩ := WireReshareHub.openSession_ok.mp hOpen
  have hTwo : 2 ≤ (roster.map Prod.fst).length := by
    rw [List.length_map]
    exact hSeated.two
  -- not all of two distinct names are `i`
  by_contra hNone
  have hAll : ∀ name ∈ roster.map Prod.fst, name = i := by
    intro name hName
    by_contra hNe
    exact hNone ⟨name, buildReshareRoster_names hRoster name hName, hNe⟩
  have hFew := hSeated.roster.names.length_le_of_subset
    (fun name hName => List.mem_singleton.mpr (hAll name hName))
  rw [List.length_singleton] at hFew
  have hSame : (roster.map Prod.fst).length ≤ 1 := hFew
  omega

end Started

end ReshareMesh

/--
**Honest reshares never complete.** However the members of a roster have
started a session, a message of each is refused by another, no deliveries get a
member to where it can finalize, and no identifier gets its number back.
-/
theorem reshareCompletes_never {width : Nat} (hF : F.Numbers) (hWidth : F.FixedWidth width)
    (stores : String → ShareStore) {req : ReshareStartRequest}
    {oldPubkey : String → F.PublicKeyPackage} {oldKey : String → Option F.KeyPackage}
    {rand : String → F.Randomness} {members : List String} (hNodup : members.Nodup)
    (hMembers : ∀ i ∈ req.roster, i ∈ members)
    (hStart : ∀ i ∈ members, ∃ answer,
      ((.new i : WireReshareHub F).start req (oldPubkey i) (oldKey i) (rand i)).1 = .ok answer) :
    (members ≠ [] →
      ¬ ReshareMesh.Accepted members
          (ReshareMesh.started stores req oldPubkey oldKey rand members) ∧
      ¬ ReshareMesh.CanFinalize members req.sessionId
          (ReshareMesh.started stores req oldPubkey oldKey rand members)) ∧
    ∀ (roster : Roster F.toFrostDkg) v id, 0 < v → v < 2 ^ 16 → F.ofU16 v = .ok id →
      reshareIdentifierToU16 roster id ≠ v := by
  have hStalled : (ReshareMesh.started stores req oldPubkey oldKey rand members).Stalled :=
    (ReshareMesh.stalled_init stores).run hF hWidth (ReshareMesh.honest_starts (fun _ => id) _)
  refine ⟨fun hNe => ?_, fun roster v id hPos hv hId hNumber => ?_⟩
  swap
  · rw [reshareIdentifierToU16_eq_zero hWidth roster hv hId] at hNumber
    omega
  obtain ⟨i, hi⟩ := List.exists_mem_of_ne_nil members hNe
  refine ⟨fun hAccepted => ?_, ?_⟩
  · -- the first message to another member is refused there
    obtain ⟨answer, hAnswer⟩ := hStart i hi
    obtain ⟨j, hj, hOther⟩ := ReshareMesh.exists_other hF hAnswer
    obtain ⟨msg, hMsg, rfl⟩ := ReshareMesh.sent1_starts hF hWidth (.init stores) hNodup
      (fun _ _ => rfl) hStart i hi
    obtain ⟨status, hStatus⟩ := (hAccepted [] trivial).1 msg hMsg j (hMembers j hj) hOther
    obtain ⟨e, hError⟩ := (hStalled.hubs j).refuses hF (hStalled.sent1 msg hMsg)
    cases hError.symm.trans hStatus
  · rintro ⟨calls, hCalls, hFinal⟩
    obtain ⟨status, hStatus⟩ := hFinal i hi
    obtain ⟨e, hError⟩ := ((hStalled.run hF hWidth hCalls).hubs i).unfinished req.sessionId
      (fun _ _ => .stored) ((Runs.run ReshareMesh.step
        (ReshareMesh.started stores req oldPubkey oldKey rand members) calls).stores i)
    cases hError.symm.trans hStatus

/-! ### Two nodes -/

theorem smallRefresh_fixedWidth : smallRefresh.FixedWidth 3 where
  wide := by omega
  bytes v id hv hId := by
    have hOk : smallFrost.ofU16 v = .ok id := hId
    unfold PolyFrost.ofU16 at hOk
    split at hOk
    · cases hOk
    cases Except.ok.inj hOk
    have hVal : ((v : Small)).val = v := ZMod.val_natCast_of_lt (by omega)
    have hHigh : v / 65536 = 0 := by omega
    have hMiddle : v / 256 % 256 = v / 256 := by omega
    show [(v : Small)].flatMap scalarBytes = [0] ++ u16Bytes v
    rw [List.flatMap_singleton, scalarBytes, hVal, hHigh, hMiddle, u16Bytes, List.singleton_append]
    rfl

/-- `a` and `b` have started the session. -/
def pairReshare : ReshareMesh smallRefresh :=
  .started (fun _ => ∅) reshareRequest (fun _ => resharePubkey) (fun _ => none)
    (fun _ => ((fun _ => 3), 1)) ["a", "b"]

theorem reshareCompletes_never_pair :
    (["a", "b"] ≠ [] → ¬ ReshareMesh.Accepted ["a", "b"] pairReshare ∧
      ¬ ReshareMesh.CanFinalize ["a", "b"] "r1" pairReshare) ∧
    ∀ (roster : Roster smallRefresh.toFrostDkg) v id, 0 < v → v < 2 ^ 16 →
      smallRefresh.ofU16 v = .ok id → reshareIdentifierToU16 roster id ≠ v := by
  refine reshareCompletes_never smallRefresh_numbers smallRefresh_fixedWidth (fun _ => ∅)
    (by decide) (by decide) fun i hi => ?_
  rcases List.mem_pair.mp hi with rfl | rfl
  · exact ⟨_, rfl⟩
  · exact ⟨_, rfl⟩

/-- Neither takes the package of the other. -/
theorem reshareCompletes_fails : ¬ ReshareMesh.Accepted ["a", "b"] pairReshare := by
  intro h
  have hRefused : pairReshare.sent1.any (fun msg => msg.senderNodeId == "a" &&
      !((pairReshare.hubs "b").ingestRound1 msg).1.toBool) = true := by decide +kernel
  obtain ⟨msg, hMsg, hBoth⟩ := List.any_eq_true.mp hRefused
  rw [Bool.and_eq_true, beq_iff_eq] at hBoth
  obtain ⟨status, hStatus⟩ := (h [] trivial).1 msg hMsg "b" (by decide) (by rw [hBoth.1]; decide)
  have hOk : ((pairReshare.hubs "b").ingestRound1 msg).1 = .ok status := hStatus
  rw [hOk] at hBoth
  cases hBoth.2

end KeroseneVault
