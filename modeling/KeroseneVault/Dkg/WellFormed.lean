import KeroseneVault.Dkg.Honest

/-!
# Well-formed sessions

What holds of every session of a hub, whatever messages it was given: the
roster is frozen with the node in it, the packages are of members, and past
round 1 all of them are there.

Main results:

* `WellFormed.freshSession`, `WellFormed.after` — a start establishes it, every
  call keeps it;
* `DkgMesh.wellFormed_step` — so it holds of all sessions along a run.
-/

namespace KeroseneVault

variable {k : WireDkg} {F : FrostDkg}

namespace SessionInner

/-- The identifiers of the frozen members. -/
def ids (s : SessionInner k F) : List F.Identifier := s.roster.map Prod.snd

/-- A session of the hub of node `i`. -/
structure WellFormed (i : String) (s : SessionInner k F) : Prop where
  rosterOk : RosterOk s.roster
  size : s.roster.length % 2 ^ 16 = s.maxSigners
  localNodeId : s.localNodeId = i
  own : (i, s.localIdentifier) ∈ s.roster
  localPackage : s.localIdentifier ∈ s.round1Packages
  members : ∀ j ∈ s.round1Packages, j ∈ s.ids
  waits : s.phase = .round1 → s.round2Secret = none
  full : s.phase ≠ .round1 → ∀ j ∈ s.ids, j ∈ s.round1Packages

namespace WellFormed

variable {i : String} {s : SessionInner k F}

theorem freshSession {hub : DkgHub k F} (hHub : hub.localNodeId = i) {req : DkgStartRequest}
    {roster : Roster F} (hRoster : buildRoster k F req.roster = .ok roster)
    (hLength : roster.length % 2 ^ 16 = req.maxSigners) {id : F.Identifier}
    (hId : roster.lookup hub.localNodeId = some id) (secret : F.Round1Secret)
    (package : F.Round1Package) :
    WellFormed i (hub.freshSession req roster id secret package) where
  rosterOk := (buildRoster_ok hRoster).1
  size := hLength
  localNodeId := hHub
  own := mem_of_lookup (hHub ▸ hId)
  localPackage := (AList.mem_insert _).mpr (.inl rfl)
  members j hj := by
    rcases (AList.mem_insert _).mp hj with rfl | hEmpty
    · exact List.mem_map_of_mem (mem_of_lookup hId)
    · exact absurd hEmpty (AList.notMem_empty j)
  waits _ := rfl
  full h := absurd rfl h

/-- A full table of packages has one of every member. -/
theorem mem_of_full (hLaws : F.Laws) (h : WellFormed i s) {id : F.Identifier}
    {package : F.Round1Package} (hMember : id ∈ s.ids)
    (hFull : Table.size (s.round1Packages.insert id package) % 2 ^ 16 = s.maxSigners) :
    ∀ j ∈ s.ids, j ∈ s.round1Packages.insert id package := by
  have hSub : ∀ j ∈ s.round1Packages.insert id package, j ∈ s.ids := by
    intro j hj
    rcases (AList.mem_insert _).mp hj with rfl | hOld
    · exact hMember
    · exact h.members j hOld
  have hLe := Table.size_le_of_subset hSub
  have hIds : s.ids.length = s.roster.length := List.length_map _
  have hShort := h.rosterOk.length_lt hLaws
  have hSize := h.size
  rw [Nat.mod_eq_of_lt (by omega)] at hSize hFull
  exact fun j hj => Table.mem_of_le_size hSub (by omega) hj

/-- **One call.** -/
theorem after (hLaws : F.Laws) (h : WellFormed i s) (call : HubCall F) :
    WellFormed i (s.after call) := by
  have hExtends := s.after_extends call
  have hFrozen := hExtends.constitution
  simp only [constitution, Prod.mk.injEq] at hFrozen
  obtain ⟨-, hNode, hLocal, hMax, -, hRoster, -⟩ := hFrozen
  have hIds : (s.after call).ids = s.ids := by rw [ids, ids, hRoster]
  -- what a call does to the packages, the phase and the secret of part 2
  have hMoves : (∀ j ∈ (s.after call).round1Packages, j ∈ s.ids) ∧
      ((s.after call).phase = .round1 → (s.after call).round2Secret = none) ∧
      ((s.after call).phase ≠ .round1 → ∀ j ∈ s.ids, j ∈ (s.after call).round1Packages) := by
    rcases s.after_round1Packages call with
      ⟨hSame, hLeaves⟩ | ⟨msg, id, package, -, hPhase, hSender, -, -, hAccept, hInsert⟩
    · rw [hSame]
      by_cases hBefore : s.phase = .round1
      swap
      · have hPast := s.after_phase call hBefore
        exact ⟨h.members, fun hRound1 => absurd hRound1 hPast, fun _ => h.full hBefore⟩
      have hStays : (s.after call).phase = .round1 ∧ (s.after call).round2Secret = none := by
        by_cases hMsg : ∃ msg, call = .ingestRound1 msg
        · obtain ⟨msg, hCall⟩ := hMsg
          rw [hLeaves msg hCall]
          exact ⟨hBefore, h.waits hBefore⟩
        · exact s.after_waits call (fun msg hCall => hMsg ⟨msg, hCall⟩) hBefore (h.waits hBefore)
      exact ⟨h.members, fun _ => hStays.2, fun hPast => absurd hStays.1 hPast⟩
    · have hMember : id ∈ s.ids := List.mem_map_of_mem (mem_of_lookup hSender)
      rw [hInsert]
      refine ⟨fun j hj => ?_, ?_⟩
      · rcases (AList.mem_insert _).mp hj with rfl | hOld
        · exact hMember
        · exact h.members j hOld
      · rw [hAccept]
        rcases s.acceptRound1_cases id package hPhase with
          ⟨hEq, -⟩ | ⟨hFull, _, -, ⟨_, _, -, hEq⟩ | ⟨_, -, hEq⟩⟩
        · rw [hEq]
          exact ⟨fun _ => h.waits hPhase, fun hPast => absurd hPhase hPast⟩
        · rw [hEq]
          exact ⟨fun hRound1 => (by cases hRound1), fun _ => h.mem_of_full hLaws hMember hFull⟩
        · rw [hEq]
          exact ⟨fun _ => h.waits hPhase, fun hPast => absurd hPhase hPast⟩
  obtain ⟨hMembers, hWaits, hFull⟩ := hMoves
  exact {
    rosterOk := hRoster ▸ h.rosterOk
    size := by rw [hRoster, hMax]; exact h.size
    localNodeId := hNode.trans h.localNodeId
    own := by rw [hRoster, hLocal]; exact h.own
    localPackage := by rw [hLocal]; exact hExtends.packages _ h.localPackage
    members := by rw [hIds]; exact hMembers
    waits := hWaits
    full := by rw [hIds]; exact hFull }

end WellFormed

end SessionInner

/-! ## Along a run -/

namespace DkgMesh

/-- Every hub is its node's, and all its sessions are well-formed. -/
structure WellFormed (m : DkgMesh k F) : Prop where
  named : ∀ i, (m.hubs i).localNodeId = i
  keyed : ∀ i, (m.hubs i).Keyed
  sessions : ∀ i sid s, m.session i sid = some s → s.WellFormed i

theorem wellFormed_init (stores : String → ShareStore) :
    (init .new stores : DkgMesh k F).WellFormed where
  named _ := rfl
  keyed := DkgHub.keyed_new
  sessions i sid s hs := absurd ((DkgHub.lookup_new i sid).symm.trans hs) (by simp)

/-- **One call.** -/
theorem WellFormed.step (hLaws : F.Laws) {m : DkgMesh k F} (h : m.WellFormed)
    (a : String × HubCall F) : (m.step a).WellFormed := by
  obtain ⟨i, call⟩ := a
  have hHubs : ∀ j, (m.step (i, call)).hubs j = m.hubs j ∨
      j = i ∧ (m.step (i, call)).hubs j = ((m.hubs i).perform (m.stores i) call).1 := by
    intro j
    by_cases hj : j = i
    · subst hj
      exact .inr ⟨rfl, Function.update_self ..⟩
    · exact .inl (Function.update_of_ne hj ..)
  -- names and keys of the hubs, and the session that the call is on
  refine ⟨fun j => ?_, fun j => ?_, fun j sid s hs => ?_⟩
  · rcases hHubs j with hSame | ⟨rfl, hNew⟩
    · rw [hSame]
      exact h.named j
    · rw [hNew, DkgHub.perform_localNodeId]
      exact h.named j
  · rcases hHubs j with hSame | ⟨rfl, hNew⟩
    · rw [hSame]
      exact h.keyed j
    · rw [hNew]
      exact (h.keyed j).perform _ call
  · rcases m.session_step_cases hs with ⟨t, ht, rfl | ⟨rfl, rfl, rfl⟩⟩ |
      ⟨req, rand, roster, wire, -, rfl, -, hRoster, hLength, hOpen⟩
    · exact h.sessions j sid s ht
    · exact (h.sessions j _ t ht).after hLaws call
    · obtain ⟨id, secret, package, _, hId, -, -, rfl, -⟩ := openSession_ok.mp hOpen
      exact .freshSession (h.named j) hRoster hLength hId secret package

end DkgMesh

end KeroseneVault
