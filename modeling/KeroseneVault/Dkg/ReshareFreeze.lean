import KeroseneVault.Dkg.PolyRefresh
import KeroseneVault.Dkg.ReshareSession

/-!
# What a reshare session freezes

The reshare hub mirrors the DKG hub, but it stores an admitted round 1 package
in whatever phase and whoever it names as its sender.

* `ReshareNode` — a hub and its share store;
* `KeepsFreeze` — what a call is not to change in a session;
* `InTurn` — a round 1 message brings another member's package in round 1, or
  one that is there already;
* `Seated` — a session with two members or more, each with its own identifier.

Main results:

* `keepsFreeze_iff` — one call keeps the freeze exactly when it is in turn;
* `Seated.freshSession`, `seated_step` — sessions are seated from their start;
* `reshareFreeze_iff` — so a run keeps the freeze exactly when its calls are in
  turn;
* `reshareFreeze_fails` — a message in the hub's own name.
-/

namespace KeroseneVault

variable {F : FrostRefresh}

namespace ReshareSessionInner

/-- The package a session sends to its peers. -/
def localPackage (s : ReshareSessionInner F) : Option F.Round1Package :=
  s.round1Packages.lookup s.localIdentifier

/-- Past round 1 no package changes, and the session's own never does. -/
structure Frozen (s t : ReshareSessionInner F) : Prop where
  packages : s.phase ≠ .round1 → ∀ j, t.round1Packages.lookup j = s.round1Packages.lookup j
  localPackage : t.localPackage = s.localPackage

theorem Frozen.refl (s : ReshareSessionInner F) : s.Frozen s := ⟨fun _ _ => rfl, rfl⟩

/-- The members of a session: two or more, with identifiers and names of their
own, and the node one of them. -/
structure Seated (s : ReshareSessionInner F) : Prop where
  roster : ReshareRosterOk s.roster
  two : 2 ≤ s.roster.length
  size : s.roster.length = s.maxSigners
  own : (s.localNodeId, s.localIdentifier) ∈ s.roster

/-- What a call that names the session is to keep of it. -/
def InTurn (s : ReshareSessionInner F) : ReshareHubCall F → Prop
  | .ingestRound1 msg => checkReshareEnvelope "r1" msg.envelope = .ok () →
      ∀ id package, s.Admits msg id package →
        (s.phase = .round1 ∧ id ≠ s.localIdentifier) ∨ s.round1Packages.lookup id = some package
  | _ => True

/-- Storing a package is in keeping with the freeze where it is another's in
round 1, or the one that is there. -/
theorem frozen_insert {s t : ReshareSessionInner F} {id : F.Identifier} {package : F.Round1Package}
    (hPackages : t.round1Packages = s.round1Packages.insert id package)
    (hLocal : t.localIdentifier = s.localIdentifier) :
    s.Frozen t ↔
      (s.phase = .round1 ∧ id ≠ s.localIdentifier) ∨
        s.round1Packages.lookup id = some package := by
  have hLookup : ∀ j, t.round1Packages.lookup j =
      if j = id then some package else s.round1Packages.lookup j := by
    intro j
    rw [hPackages]
    by_cases hj : j = id
    · rw [if_pos hj, hj, AList.lookup_insert]
    · rw [if_neg hj, AList.lookup_insert_ne hj]
  -- the package that is inserted is a new one in round 1, or else the one that is there
  constructor
  · intro h
    by_cases hPhase : s.phase = .round1
    · by_cases hOwn : id = s.localIdentifier
      · have hKept := h.localPackage
        unfold ReshareSessionInner.localPackage at hKept
        rw [hLocal, hLookup, if_pos hOwn.symm] at hKept
        exact .inr (hOwn ▸ hKept.symm)
      · exact .inl ⟨hPhase, hOwn⟩
    · have hKept := h.packages hPhase id
      rw [hLookup, if_pos rfl] at hKept
      exact .inr hKept.symm
  · rintro (⟨hPhase, hOther⟩ | hSame)
    · refine ⟨fun hPast => absurd hPhase hPast, ?_⟩
      unfold ReshareSessionInner.localPackage
      rw [hLocal, hLookup, if_neg fun hOwn => hOther hOwn.symm]
    · -- the package is the one that is there
      have hKept : ∀ j, t.round1Packages.lookup j = s.round1Packages.lookup j := by
        intro j
        rw [hLookup]
        by_cases hj : j = id
        · rw [if_pos hj, hj, hSame]
        · rw [if_neg hj]
      refine ⟨fun _ => hKept, ?_⟩
      unfold ReshareSessionInner.localPackage
      rw [hLocal, hKept]

/-- A call that is no round 1 message keeps the packages. -/
theorem after_round1Packages (s : ReshareSessionInner F) {call : ReshareHubCall F}
    (h : ∀ msg, call ≠ .ingestRound1 msg) :
    (s.after call).round1Packages = s.round1Packages := by
  -- no other call reads or writes them
  cases call with
  | start req oldPubkey oldKey rand => rfl
  | ingestRound1 msg => exact absurd rfl (h msg)
  | takeRound2Outbound sessionId => rfl
  | ingestRound2 msg =>
    rw [after]
    split
    · rfl
    rcases s.ingestRound2_cases msg with hSame | ⟨_, _, -, hEq⟩
    · rw [hSame]
    · rw [hEq]
  | finalize sessionId disk =>
    rw [after]
    split
    · rfl
    split
    · rfl
    split
    · rfl
    · rfl

theorem after_localIdentifier (s : ReshareSessionInner F) (call : ReshareHubCall F) :
    (s.after call).localIdentifier = s.localIdentifier := by
  have hSame := congrArg (fun c => c.2.1) (s.after_constitution call)
  exact hSame

/-- **One call.** -/
theorem frozen_after_iff (s : ReshareSessionInner F) (call : ReshareHubCall F) :
    s.Frozen (s.after call) ↔ s.InTurn call := by
  have hLocal := s.after_localIdentifier call
  by_cases hRound1 : ∃ msg, call = .ingestRound1 msg
  swap
  · -- the other calls keep the packages
    have hKept := s.after_round1Packages fun msg hCall => hRound1 ⟨msg, hCall⟩
    have hFrozen : s.Frozen (s.after call) := by
      refine ⟨fun _ j => by rw [hKept], ?_⟩
      unfold localPackage
      rw [hLocal, hKept]
    cases call with
    | ingestRound1 msg => exact absurd ⟨msg, rfl⟩ hRound1
    | _ => exact iff_of_true hFrozen trivial
  obtain ⟨msg, rfl⟩ := hRound1
  show s.Frozen (s.after (.ingestRound1 msg)) ↔ (_ → _)
  rw [after] at hLocal ⊢
  rcases hEnvelope : checkReshareEnvelope "r1" msg.envelope with e | u
  · refine iff_of_true (Frozen.refl s) fun hOk => ?_
    cases hOk
  rw [hEnvelope] at hLocal
  dsimp only at hLocal ⊢
  rcases s.ingestRound1_cases msg with hSame | ⟨id, package, hAdmits⟩
  · rw [hSame]
    refine iff_of_true (Frozen.refl s) fun _ id package hAdmits => ?_
    -- an admitted message that changed nothing brought what was there
    have hStored := s.acceptRound1_round1Packages id package
    rw [← hAdmits.ingestRound1, hSame] at hStored
    exact (frozen_insert (t := s) hStored rfl).mp (Frozen.refl s)
  · have hStored := s.acceptRound1_round1Packages id package
    rw [← hAdmits.ingestRound1] at hStored
    rw [frozen_insert hStored hLocal]
    constructor
    · intro hInTurn _ id' package' hAdmits'
      obtain ⟨rfl, rfl⟩ := hAdmits.unique hAdmits'
      exact hInTurn
    · exact fun h => h rfl id package hAdmits

/-- A start seats a session. -/
theorem Seated.freshSession (hF : F.Numbers) {hub : WireReshareHub F} {req : ReshareStartRequest}
    {dayEpoch : DayEpoch} {roster : Roster F.toFrostDkg} {oldPubkey : F.PublicKeyPackage}
    {oldKey : Option F.KeyPackage} {rand : F.Randomness} {inner : ReshareSessionInner F}
    {wire : ReshareRound1WireMessage} (hRoster : buildReshareRoster F req.roster = .ok roster)
    (hLength : roster.length % 2 ^ 16 = req.maxSigners)
    (hOpen : hub.openSession req dayEpoch roster oldPubkey oldKey rand = .ok (inner, wire)) :
    inner.Seated := by
  obtain ⟨id, secret, package, bytes, hId, hPart1, -, rfl, -⟩ :=
    WireReshareHub.openSession_ok.mp hOpen
  have hOk := buildReshareRoster_ok hF hRoster
  rw [Nat.mod_eq_of_lt hOk.short] at hLength
  have hTwo := hF.signers _ _ _ _ _ hPart1
  exact ⟨hOk, hLength.symm ▸ hTwo, hLength, mem_of_lookup hId⟩

/-- No call unseats a session. -/
theorem Seated.after {s : ReshareSessionInner F} (h : s.Seated) (call : ReshareHubCall F) :
    (s.after call).Seated := by
  have hFrozen := s.after_constitution call
  simp only [constitution, Prod.mk.injEq] at hFrozen
  obtain ⟨hNode, hLocal, hMax, -, hRoster, -⟩ := hFrozen
  refine ⟨hRoster ▸ h.roster, hRoster ▸ h.two, ?_, ?_⟩
  · rw [hRoster, hMax]
    exact h.size
  · rw [hRoster, hNode, hLocal]
    exact h.own

end ReshareSessionInner

/-! ## Runs of a hub -/

namespace WireReshareHub

/-- The call keeps what is frozen in every session. -/
def KeepsFreeze (c : WireReshareHub F × ShareStore) (call : ReshareHubCall F) : Prop :=
  ∀ sid s, c.1.sessions.lookup sid = some s →
    ∃ t, (step c call).1.sessions.lookup sid = some t ∧ s.Frozen t

/-- The call is in turn for the session it names. -/
def InTurn (c : WireReshareHub F × ShareStore) (call : ReshareHubCall F) : Prop :=
  ∀ s, c.1.sessions.lookup call.sessionId = some s → s.InTurn call

def Seated (c : WireReshareHub F × ShareStore) : Prop :=
  ∀ sid s, c.1.sessions.lookup sid = some s → s.Seated

/-- **One call** on a hub. -/
theorem keepsFreeze_iff (c : WireReshareHub F × ShareStore) (call : ReshareHubCall F) :
    KeepsFreeze c call ↔ InTurn c call := by
  constructor
  · intro h s hs
    obtain ⟨t, ht, hFrozen⟩ := h _ s hs
    have hAfter := c.1.lookup_perform c.2 call hs
    cases Option.some.inj (hAfter.symm.trans ht)
    exact (s.frozen_after_iff call).mp hFrozen
  · intro h sid s hs
    by_cases hSid : sid = call.sessionId
    · subst hSid
      exact ⟨_, c.1.lookup_perform c.2 call hs, (s.frozen_after_iff call).mpr (h s hs)⟩
    · exact ⟨s, (c.1.lookup_perform_ne c.2 hSid).trans hs, .refl s⟩

theorem seated_step (hF : F.Numbers) {c : WireReshareHub F × ShareStore} (h : Seated c)
    (call : ReshareHubCall F) : Seated (step c call) := by
  intro sid s hs
  by_cases hSid : sid = call.sessionId
  swap
  · exact h sid s ((c.1.lookup_perform_ne c.2 hSid).symm.trans hs)
  subst hSid
  cases hFound : c.1.sessions.lookup call.sessionId with
  | some t =>
    have hAfter := c.1.lookup_perform c.2 call hFound
    cases Option.some.inj (hAfter.symm.trans hs)
    exact (h _ t hFound).after call
  | none =>
    rcases c.1.perform_cases c.2 hFound with
      hNone | ⟨req, _, _, _, _, _, inner, _, -, hRoster, hLength, hOpen, hSome⟩
    · cases hNone.symm.trans hs
    · cases Option.some.inj (hSome.symm.trans hs)
      exact .freshSession hF hRoster hLength hOpen

end WireReshareHub

/--
**The freeze of a reshare.** However a hub is called, its sessions have two
members or more, each with its own identifier, and they keep every package past
round 1 and their own package throughout, exactly when no message that a
session admits comes in the session's own name or past round 1, other than with
the package that is stored there.
-/
theorem reshareFreeze_iff (hF : F.Numbers) (localNodeId : String) (store : ShareStore)
    (calls : List (ReshareHubCall F)) :
    (Runs.EveryStep WireReshareHub.step WireReshareHub.KeepsFreeze
        (.new localNodeId, store) calls ∧
      Runs.EveryState WireReshareHub.step WireReshareHub.Seated (.new localNodeId, store) calls) ↔
    Runs.EveryStep WireReshareHub.step WireReshareHub.InTurn (.new localNodeId, store) calls := by
  constructor
  · rintro ⟨hKeeps, -⟩
    exact hKeeps.mono fun c call h => (WireReshareHub.keepsFreeze_iff c call).mp h
  · intro hInTurn
    refine ⟨hInTurn.mono fun c call h => (WireReshareHub.keepsFreeze_iff c call).mpr h, ?_⟩
    refine Runs.EveryState.of_preserved (fun c call h => WireReshareHub.seated_step hF h call) ?_ calls
    intro sid s hs
    cases (AList.lookup_empty sid).symm.trans hs

/-! ### Two packages in a small session -/

theorem smallRefresh_numbers : smallRefresh.Numbers where
  zero := ⟨_, rfl⟩
  injective := smallFrost.laws.identifier_injective
  signers id maxSigners minSigners rand drawn h := by
    have hPart : smallFrost.refreshPart1 id maxSigners minSigners rand = .ok drawn := h
    unfold PolyFrost.refreshPart1 at hPart
    split at hPart
    · cases hPart
    · omega

/-- `a` and `b` reshare a key of theirs. -/
def reshareRequest : ReshareStartRequest where
  sessionId := "r1"
  maxSigners := 2
  minSigners := 2
  roster := ["b", "a"]
  dayEpoch := "2026-01-01"
  constitutionHash := "constitution"

def resharePubkey : smallRefresh.PublicKeyPackage :=
  ({ verifyingShares := [(1, 8), (2, 11)], verifyingKey := 5, minSigners := 2 } :
    PolyPubkey Small Small)

/-- `a` has started its session. -/
def reshareStarted : WireReshareHub smallRefresh × ShareStore :=
  WireReshareHub.step (.new "a", ∅) (.start reshareRequest resharePubkey none ((fun _ => 3), 1))

/-- A round 1 message in the name of a node, with a package of this
commitment. -/
def reshareMessage (sender : String) (number : Nat) (commitment : Small) :
    ReshareRound1WireMessage where
  sessionId := "r1"
  senderNodeId := sender
  senderIdentifier := number
  maxSigners := 2
  minSigners := 2
  dayEpoch := "2026-01-01"
  transcriptHex :=
    ((reshareStarted.1.sessions.lookup "r1").map ReshareSessionInner.transcriptHex).getD ""
  packageHex := hexText (smallFrost.round1.bytes
    { commitment := [commitment], nonce := 1, response := 1 })
  envelope := none

/-- What a package of the session commits to. -/
def storedCommitment (c : WireReshareHub smallRefresh × ShareStore)
    (package : ReshareSessionInner smallRefresh → Option smallRefresh.Round1Package) :
    Option (List Small) :=
  ((c.1.sessions.lookup "r1").bind package).map
    (PolyRound1.commitment : PolyRound1 Small Small → List Small)

/-- The package of the member numbered two. -/
def packageOfB (s : ReshareSessionInner smallRefresh) : Option smallRefresh.Round1Package :=
  s.round1Packages.lookup (2 : Small)

/-- `a` has the package of `b` and is in round 2. -/
def reshareRound2 : WireReshareHub smallRefresh × ShareStore :=
  WireReshareHub.step reshareStarted (.ingestRound1 (reshareMessage "b" 2 4))

/-- `a` starts, and hears from `b`. -/
def reshareCalls : List (ReshareHubCall smallRefresh) :=
  [.start reshareRequest resharePubkey none ((fun _ => 3), 1),
    .ingestRound1 (reshareMessage "b" 2 4)]

theorem reshareFreeze_iff_small :
    (Runs.EveryStep WireReshareHub.step WireReshareHub.KeepsFreeze (.new "a", ∅) reshareCalls ∧
      Runs.EveryState WireReshareHub.step WireReshareHub.Seated (.new "a", ∅) reshareCalls) ↔
    Runs.EveryStep WireReshareHub.step WireReshareHub.InTurn (.new "a", ∅) reshareCalls :=
  reshareFreeze_iff smallRefresh_numbers "a" ∅ reshareCalls

/-- A message in `a`'s own name replaces its package, and in round 2 another
message of `b` replaces that of `b`. -/
theorem reshareFreeze_fails :
    ¬ WireReshareHub.KeepsFreeze reshareStarted (.ingestRound1 (reshareMessage "a" 1 9)) ∧
      ¬ WireReshareHub.KeepsFreeze reshareRound2 (.ingestRound1 (reshareMessage "b" 2 9)) := by
  have hOwn : storedCommitment reshareStarted ReshareSessionInner.localPackage ≠
      storedCommitment (WireReshareHub.step reshareStarted
        (.ingestRound1 (reshareMessage "a" 1 9))) ReshareSessionInner.localPackage := by
    decide +kernel
  have hPeer : storedCommitment reshareRound2 packageOfB ≠
      storedCommitment (WireReshareHub.step reshareRound2
        (.ingestRound1 (reshareMessage "b" 2 9))) packageOfB := by decide +kernel
  have hStarted : (reshareStarted.1.sessions.lookup "r1").isSome := by decide +kernel
  have hRound2 : (reshareRound2.1.sessions.lookup "r1").map ReshareSessionInner.phase =
      some .round2 := by decide +kernel
  -- once over one's own package, and once over a peer's after round 1
  constructor
  · intro h
    obtain ⟨s, hs⟩ := Option.isSome_iff_exists.mp hStarted
    obtain ⟨t, ht, hFrozen⟩ := h "r1" s hs
    refine hOwn ?_
    rw [storedCommitment, storedCommitment, hs, ht, Option.bind_some, Option.bind_some,
      hFrozen.localPackage]
  · intro h
    obtain ⟨s, hs, hPhase⟩ := Option.map_eq_some_iff.mp hRound2
    obtain ⟨t, ht, hFrozen⟩ := h "r1" s hs
    have hKept : packageOfB t = packageOfB s := hFrozen.packages (by rw [hPhase]; simp) _
    refine hPeer ?_
    rw [storedCommitment, storedCommitment, hs, ht, Option.bind_some, Option.bind_some, hKept]

end KeroseneVault
