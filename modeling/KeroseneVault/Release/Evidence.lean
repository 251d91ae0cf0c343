import KeroseneVault.Release.Mesh

/-!
# Evidence only grows

What the calls have in common: none takes a candidate away, or a signature, a
rebuild or a cosign of one, none opens a candidate that is listed, and none
lists anything but what an activation found in order.

* `ReleaseCandidate.Grown` — the same candidate, with the same or more evidence.

Main results:

* `MeshStep.grows` — every call leaves every candidate grown;
* `MeshStep.mem_allowlist` — an entry after a call is an old one, or that of an
  activation.
-/

namespace KeroseneVault

/-- The later candidate is the earlier one with the same or more evidence, and
listed where the earlier is. -/
structure ReleaseCandidate.Grown (c d : ReleaseCandidate) : Prop where
  hs : d.hs = c.hs
  hb : d.hb = c.hb
  councilSigs : d.councilSigs = c.councilSigs
  rebuilds : ∀ vault ∈ c.rebuilds.keys, vault ∈ d.rebuilds.keys
  cosigns : ∀ vault ∈ c.cosigns.keys, vault ∈ d.cosigns.keys
  phase : c.phase = .allowlisted → d.phase = .allowlisted

namespace ReleaseCandidate.Grown

variable {c d : ReleaseCandidate} {vault : String} {hb : ContentHash}

theorem refl (c : ReleaseCandidate) : Grown c c := ⟨rfl, rfl, rfl, fun _ h => h, fun _ h => h, fun h => h⟩

theorem withRebuild : Grown c (c.withRebuild vault hb) :=
  ⟨rfl, rfl, rfl, fun _ h => SortedMap.mem_keys_insert.mpr (.inr h), fun _ h => h, fun h => h⟩

theorem withCosign (hOpen : ¬ c.phase.Closed) : Grown c (c.withCosign vault) :=
  ⟨rfl, rfl, rfl, fun _ h => h, fun _ h => SortedSet.mem_add.mpr (.inr h),
    fun hPhase => absurd (.inl hPhase) hOpen⟩

theorem activated : Grown c c.activated :=
  ⟨rfl, rfl, rfl, fun _ h => h, fun _ h => h, fun _ => rfl⟩

end ReleaseCandidate.Grown

/-- The calls that add no evidence that the predicates count. -/
def ReleaseOp.Uncounted : ReleaseOp → Prop
  | .cosign .. => True
  | .activate .. => True
  | _ => False

namespace MeshStep

variable {sha256 : List UInt8 → Digest} {constitution : Constitution} {m m' : ReleaseMeshState}
  {op : ReleaseOp}

theorem published_candidates (op : ReleaseOp) :
    (op.published sha256 m).candidates = m.candidates := by
  cases op <;> rfl

theorem published_policy (op : ReleaseOp) : (op.published sha256 m).policy = m.policy := by
  cases op <;> rfl

theorem published_allowlist (op : ReleaseOp) :
    (op.published sha256 m).allowlist = m.allowlist := by
  cases op <;> rfl

theorem policy (h : MeshStep sha256 constitution m op m') : m'.policy = m.policy := by
  cases h with
  | refused op => exact published_policy op
  | proposed => rfl
  | proposedWithHashes => rfl
  | rebuilt => rfl
  | cosigned => rfl
  | activated => rfl

theorem keyed_setCandidate (hm : m.Keyed) {id : String} {c : ReleaseCandidate} (hId : c.id = id) :
    (m.setCandidate id c).Keyed := by
  intro j d hd
  rw [ReleaseMeshState.lookup_setCandidate] at hd
  split at hd
  · rename_i hj
    obtain rfl := Option.some.inj hd
    exact hId.trans hj.symm
  · exact hm j d hd

/-- Candidates stay under their own ids. -/
theorem keyed (h : MeshStep sha256 constitution m op m') (hm : m.Keyed) : m'.Keyed := by
  cases h with
  | refused op =>
    intro j d hd
    rw [published_candidates] at hd
    exact hm j d hd
  | proposed id source councilSigs now =>
    exact keyed_setCandidate (m := ProposeRelease.publish sha256 source m) hm rfl
  | proposedWithHashes id => exact keyed_setCandidate hm rfl
  | rebuilt id vaultId c source hLookup => exact keyed_setCandidate hm (hm id c hLookup)
  | cosigned localNode id now economyWrite c hLookup =>
    exact keyed_setCandidate hm (hm id c hLookup)
  | activated id checkedAt activatedAt economyWrite c hLookup =>
    exact keyed_setCandidate (c := c.activated) hm (hm id c hLookup)

/-- A candidate that is set anew keeps what was there, where it is grown from it. -/
theorem grows_setCandidate {id j : String} {c new : ReleaseCandidate}
    (hNew : ∀ old, m.candidates.lookup id = some old → old.Grown new)
    (h : m.candidates.lookup j = some c) :
    ∃ d, (m.setCandidate id new).candidates.lookup j = some d ∧ c.Grown d := by
  rw [ReleaseMeshState.lookup_setCandidate]
  by_cases hj : j = id
  · subst hj
    exact ⟨new, if_pos rfl, hNew c h⟩
  · exact ⟨c, (if_neg hj).trans h, .refl c⟩

/-- No call takes a candidate or a piece of its evidence away. -/
theorem grows (h : MeshStep sha256 constitution m op m') {j : String} {c : ReleaseCandidate}
    (hLookup : m.candidates.lookup j = some c) :
    ∃ d, m'.candidates.lookup j = some d ∧ c.Grown d := by
  -- a candidate is new, has one more piece of evidence, or is activated
  cases h with
  | refused op => exact ⟨c, by rw [published_candidates, hLookup], .refl c⟩
  | proposed id source councilSigs now hNew =>
    refine grows_setCandidate (fun old hOld => ?_) hLookup
    have hNone : m.candidates.lookup id = some old := hOld
    rw [hNew] at hNone
    cases hNone
  | proposedWithHashes id hs hb councilSigs now hNew =>
    refine grows_setCandidate (fun old hOld => ?_) hLookup
    rw [hNew] at hOld
    cases hOld
  | rebuilt id vaultId e source hLook =>
    refine grows_setCandidate (fun old hOld => ?_) hLookup
    obtain rfl := Option.some.inj (hLook.symm.trans hOld)
    exact .withRebuild
  | cosigned localNode id now economyWrite e hLook hOpen =>
    refine grows_setCandidate (fun old hOld => ?_) hLookup
    obtain rfl := Option.some.inj (hLook.symm.trans hOld)
    exact .withCosign hOpen
  | activated id checkedAt activatedAt economyWrite e hLook =>
    refine grows_setCandidate (m := m) (fun old hOld => ?_) hLookup
    obtain rfl := Option.some.inj (hLook.symm.trans hOld)
    exact .activated

/-- A cosign and an activation leave the evidence that the predicates count. -/
theorem uncounted (h : MeshStep sha256 constitution m op m')
    (hOp : op.Uncounted)
    {j : String} {d : ReleaseCandidate} (hLookup : m'.candidates.lookup j = some d) :
    ∃ c, m.candidates.lookup j = some c ∧ c.rebuilds = d.rebuilds ∧
      c.councilSigs = d.councilSigs := by
  -- a candidate with the same rebuilds and signatures takes the place of the old one
  have hSet {id : String} {old new : ReleaseCandidate} (hOld : m.candidates.lookup id = some old)
      (hRebuilds : old.rebuilds = new.rebuilds) (hSigs : old.councilSigs = new.councilSigs)
      (hNew : (m.setCandidate id new).candidates.lookup j = some d) :
      ∃ c, m.candidates.lookup j = some c ∧ c.rebuilds = d.rebuilds ∧
        c.councilSigs = d.councilSigs := by
    rw [ReleaseMeshState.lookup_setCandidate] at hNew
    split at hNew
    · rename_i hj
      obtain rfl := Option.some.inj hNew
      exact ⟨old, hj ▸ hOld, hRebuilds, hSigs⟩
    · exact ⟨d, hNew, rfl, rfl⟩
  cases h with
  | refused op =>
    rw [published_candidates] at hLookup
    exact ⟨d, hLookup, rfl, rfl⟩
  | proposed => exact hOp.elim
  | proposedWithHashes => exact hOp.elim
  | rebuilt => exact hOp.elim
  | cosigned localNode id now economyWrite c hOld =>
    exact @hSet _ c (c.withCosign localNode.text) hOld rfl rfl hLookup
  | activated id checkedAt activatedAt economyWrite c hOld =>
    exact @hSet _ c c.activated hOld rfl rfl hLookup

/-- Only an activation changes the list. -/
theorem allowlist (h : MeshStep sha256 constitution m op m')
    (hOther : ∀ id checkedAt activatedAt economyWrite,
      op ≠ .activate id checkedAt activatedAt economyWrite) : m'.allowlist = m.allowlist := by
  cases h with
  | refused op => exact published_allowlist op
  | proposed => rfl
  | proposedWithHashes => rfl
  | rebuilt => rfl
  | cosigned => rfl
  | activated id checkedAt activatedAt economyWrite =>
    exact absurd rfl (hOther id checkedAt activatedAt economyWrite)

/-- An entry of the list is an old one, or that of an activation. -/
theorem mem_allowlist (h : MeshStep sha256 constitution m op m') {entry : AllowlistEntry}
    (hEntry : entry ∈ m'.allowlist) : entry ∈ m.allowlist ∨
      ∃ id checkedAt activatedAt economyWrite c,
        op = .activate id checkedAt activatedAt economyWrite ∧
        m.candidates.lookup id = some c ∧ m'.candidates.lookup id = some c.activated ∧
        entry = ActivateRelease.entry constitution activatedAt c ∧
        c.predicatesOk m.policy checkedAt constitution.hash = .ok () ∧
        m.policy.vaultCosignQuorum ≤ c.cosigns.size := by
  cases h with
  | refused op => exact .inl (published_allowlist op ▸ hEntry)
  | proposed => exact .inl hEntry
  | proposedWithHashes => exact .inl hEntry
  | rebuilt => exact .inl hEntry
  | cosigned => exact .inl hEntry
  | activated id checkedAt activatedAt economyWrite c hLookup hPredicates hQuorum =>
    rcases List.mem_append.mp hEntry with hOld | hNew
    · exact .inl (List.mem_of_mem_filter hOld)
    · refine .inr ⟨id, checkedAt, activatedAt, economyWrite, c, rfl, hLookup, ?_,
        List.mem_singleton.mp hNew, hPredicates, hQuorum⟩
      exact (ReleaseMeshState.lookup_setCandidate _).trans (if_pos rfl)

end MeshStep

/-- In every store that calls lead to, candidates stand under their own ids. -/
theorem ReleaseNode.keyed_run (w : ReleaseWiring) (policy : ReleasePolicy)
    (economy : EconomyPools) (ledger : GovernanceLedger) (ops : List ReleaseOp) :
    (Runs.run (step w) (fresh policy economy ledger) ops).mesh.Keyed :=
  Runs.run_preserves (P := fun s : ReleaseNode => s.mesh.Keyed)
    (fun s op h => (step_mesh w s h op).keyed h) (fun _ _ h => by cases h) ops

end KeroseneVault
