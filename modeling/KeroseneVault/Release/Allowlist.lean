import KeroseneVault.Release.Evidence

/-!
# Allowlist safety

Every use case checks a threshold or two on its own copy of a candidate. Over a
run these add up: what is listed was activated, by a call that found the council,
the rebuilds, the cosigns, the timelock and the constitution of the candidate in
order. What does not last is the source: the blob at `hs` can be overwritten by a
later proposal.

* `Backed` — what an activation found of its candidate;
* `Sourced` — the stored source comes to the candidate's binary;
* `AllowlistSafe` — every listed entry comes of such an activation;
* `KeepsSources` — a proposal leaves the sources of rebuilt candidates alone.

Main results:

* `MeshStep.evident` — the invariant of the store;
* `allowlistSafe_of_keepsSources` — a run that keeps its sources has a safe
  allowlist.
-/

namespace KeroseneVault

/-! ## The store -/

/-- What an activation found of its candidate. The members of the three sets are distinct. -/
structure ReleaseCandidate.Backed (policy : ReleasePolicy) (constitution : Constitution)
    (checkedAt : U64) (c : ReleaseCandidate) : Prop where
  council : policy.councilQuorum ≤ c.councilSigs.keys.length
  rebuilds : policy.minRebuilds.1 ≤ c.rebuilds.keys.length
  matching : ∀ vault hb, c.rebuilds.lookup vault = some hb → hb = c.hb
  cosigns : policy.vaultCosignQuorum ≤ c.cosigns.keys.length
  timelock : policy.effectiveTimelockSecs ≤ checkedAt.1 - c.createdAtSecs.1
  constitution : c.constitutionHash = constitution.hash

/-- The source that is stored at `hs` comes to `hb`. -/
def ReleaseMeshState.Sourced (sha256 : List UInt8 → Digest) (m : ReleaseMeshState)
    (hs hb : ContentHash) : Prop :=
  ∃ source, m.blobs.lookup hs.text = some source ∧ labRebuildBinaryHash sha256 source = hb

/-- The rebuilds of the candidates match, and while rebuilds are asked for the
sources they were made of are stored. -/
structure ReleaseMeshState.Evident (sha256 : List UInt8 → Digest) (m : ReleaseMeshState) :
    Prop where
  keyed : m.Keyed
  matching : ∀ id c, m.candidates.lookup id = some c →
    ∀ vault hb, c.rebuilds.lookup vault = some hb → hb = c.hb
  sourced : 1 ≤ m.policy.minRebuilds.1 → ∀ id c, m.candidates.lookup id = some c →
    c.rebuilds.size ≠ 0 → m.Sourced sha256 c.hs c.hb

/-- A proposal puts nothing in the place of a source that a candidate was rebuilt
of: neither its binary, nor a source that comes to another binary. -/
def ReleaseMeshState.KeepsSources (sha256 : List UInt8 → Digest) (m : ReleaseMeshState) :
    ReleaseOp → Prop
  | .propose _ source _ _ => 1 ≤ m.policy.minRebuilds.1 →
    ∀ id c, m.candidates.lookup id = some c → c.rebuilds.size ≠ 0 →
      labRebuildBinaryHash sha256 source ≠ c.hs ∧
        (ContentHash.fromBytes sha256 source = c.hs → labRebuildBinaryHash sha256 source = c.hb)
  | _ => True

section Store

variable {sha256 : List UInt8 → Digest} {constitution : Constitution} {m m' : ReleaseMeshState}
  {op : ReleaseOp}

/-- A source stays stored under a proposal that puts nothing in its place. -/
theorem sourced_publish {source : List UInt8} {hs hb : ContentHash}
    (hBinary : labRebuildBinaryHash sha256 source ≠ hs)
    (hSource : ContentHash.fromBytes sha256 source = hs → labRebuildBinaryHash sha256 source = hb)
    (h : m.Sourced sha256 hs hb) :
    (ProposeRelease.publish sha256 source m).Sourced sha256 hs hb := by
  obtain ⟨stored, hStored, hHb⟩ := h
  have hNotBinary : hs.text ≠ (labRebuildBinaryHash sha256 source).text :=
    fun hText => hBinary (ContentHash.ext_text hText.symm)
  unfold ReleaseMeshState.Sourced ProposeRelease.publish
  dsimp only
  rw [ReleaseMeshState.lookup_putBlob, if_neg hNotBinary, ReleaseMeshState.lookup_putBlob]
  by_cases hText : hs.text = (ContentHash.fromBytes sha256 source).text
  · rw [if_pos hText]
    exact ⟨source, rfl, hSource (ContentHash.ext_text hText.symm)⟩
  · rw [if_neg hText]
    exact ⟨stored, hStored, hHb⟩

namespace ReleaseMeshState.Evident

theorem new (sha256 : List UInt8 → Digest) (policy : ReleasePolicy) :
    (ReleaseMeshState.new policy).Evident sha256 := by
  refine ⟨?_, ?_, ?_⟩
  · intro id c h
    cases h
  · intro id c h
    cases h
  · intro _ id c h
    cases h

/-- Blobs change the sources only. -/
theorem published (h : m.Evident sha256) (hKeeps : m.KeepsSources sha256 op) :
    (op.published sha256 m).Evident sha256 := by
  cases op with
  | propose id source councilSigs now =>
    refine ⟨h.keyed, h.matching, fun hMin j c hLookup hRebuilt => ?_⟩
    obtain ⟨hBinary, hSource⟩ := hKeeps hMin j c hLookup hRebuilt
    exact sourced_publish hBinary hSource (h.sourced hMin j c hLookup hRebuilt)
  | proposeWithHashes => exact h
  | rebuild => exact h
  | cosign => exact h
  | activate => exact h

/-- A candidate under its own id, with matching rebuilds and its source where it has any. -/
theorem setCandidate (h : m.Evident sha256) {id : String} {c : ReleaseCandidate} (hId : c.id = id)
    (hMatching : ∀ vault hb, c.rebuilds.lookup vault = some hb → hb = c.hb)
    (hSourced : 1 ≤ m.policy.minRebuilds.1 → c.rebuilds.size ≠ 0 → m.Sourced sha256 c.hs c.hb) :
    (m.setCandidate id c).Evident sha256 := by
  have hLookup (j : String) (d : ReleaseCandidate)
      (hd : (m.setCandidate id c).candidates.lookup j = some d) :
      j = id ∧ c = d ∨ m.candidates.lookup j = some d := by
    rw [ReleaseMeshState.lookup_setCandidate] at hd
    split at hd
    · exact .inl ⟨‹_›, Option.some.inj hd⟩
    · exact .inr hd
  refine ⟨fun j d hd => ?_, fun j d hd => ?_, fun hMin j d hd => ?_⟩
  · rcases hLookup j d hd with ⟨rfl, rfl⟩ | hOld
    · exact hId
    · exact h.keyed j d hOld
  · rcases hLookup j d hd with ⟨rfl, rfl⟩ | hOld
    · exact hMatching
    · exact h.matching j d hOld
  · rcases hLookup j d hd with ⟨rfl, rfl⟩ | hOld
    · exact hSourced hMin
    · exact h.sourced hMin j d hOld

theorem proposed (h : m.Evident sha256) (id : String) (hs hb : ContentHash)
    (constitutionHash : String) (councilSigs : SortedSet String) (now : U64) :
    (m.setCandidate id (.proposed id hs hb constitutionHash councilSigs now)).Evident sha256 := by
  refine h.setCandidate rfl (fun vault hb hNone => ?_) fun _ hRebuilt => absurd rfl hRebuilt
  cases hNone

end ReleaseMeshState.Evident

/-- The invariant of the store, along calls that keep the sources. -/
theorem MeshStep.evident (h : MeshStep sha256 constitution m op m') (hm : m.Evident sha256)
    (hKeeps : m.KeepsSources sha256 op) : m'.Evident sha256 := by
  cases h with
  | refused op => exact hm.published hKeeps
  | proposed id source councilSigs now =>
    have hPublished : ReleaseMeshState.Evident sha256 _ := hm.published hKeeps
    exact hPublished.proposed id _ _ _ councilSigs now
  | proposedWithHashes id hs hb councilSigs now =>
    exact hm.proposed id hs hb constitution.hash councilSigs now
  -- a rebuild opened the source at `hs` and hashed what it found
  | rebuilt id vaultId c source hLookup hOpen hBlob hHs hHb =>
    refine hm.setCandidate (hm.keyed id c hLookup) (fun vault hb hFound => ?_) fun _ _ => ?_
    · rw [ReleaseCandidate.withRebuild_rebuilds, SortedMap.lookup_insert] at hFound
      split at hFound
      · exact (Option.some.inj hFound).symm
      · exact hm.matching id c hLookup vault hb hFound
    · exact ⟨source, hBlob, hHb⟩
  | cosigned localNode id now economyWrite c hLookup =>
    exact hm.setCandidate (hm.keyed id c hLookup) (hm.matching id c hLookup)
      fun hMin => hm.sourced hMin id c hLookup
  | activated id checkedAt activatedAt economyWrite c hLookup =>
    have hSet := hm.setCandidate (c := c.activated) (hm.keyed id c hLookup)
      (hm.matching id c hLookup) fun hMin => hm.sourced hMin id c hLookup
    exact ⟨hSet.keyed, hSet.matching, hSet.sourced⟩

/-- An activation found its candidate backed. -/
theorem backed_of_predicates {c : ReleaseCandidate} {id : String} {checkedAt : U64}
    (hm : m.Evident sha256) (hLookup : m.candidates.lookup id = some c)
    (hPredicates : c.predicatesOk m.policy checkedAt constitution.hash = .ok ())
    (hQuorum : m.policy.vaultCosignQuorum ≤ c.cosigns.size) :
    c.Backed m.policy constitution checkedAt := by
  obtain ⟨hConstitution, hCouncil, hRebuilds, hTimelock⟩ :=
    ReleaseCandidate.predicatesOk_iff.mp hPredicates
  exact {
    council := by rwa [SortedMap.length_keys]
    rebuilds := by rwa [SortedMap.length_keys]
    matching := hm.matching id c hLookup
    cosigns := by rwa [SortedMap.length_keys]
    timelock := hTimelock
    constitution := hConstitution }

end Store

/-! ## Runs -/

namespace ReleaseNode

section Runs

variable (w : ReleaseWiring) (s : ReleaseNode)

/-- The entry comes of an activation of the run, which found its candidate
backed and, where rebuilds are asked for, sourced. -/
def Activated (ops : List ReleaseOp) (entry : AllowlistEntry) : Prop :=
  ∃ pre checkedAt activatedAt economyWrite post c,
    ops = pre ++ .activate entry.releaseId checkedAt activatedAt economyWrite :: post ∧
    (Runs.run (step w) s pre).mesh.candidates.lookup entry.releaseId = some c ∧
    entry = ActivateRelease.entry s.ledger.constitution activatedAt c ∧
    c.Backed s.mesh.policy s.ledger.constitution checkedAt ∧
    (1 ≤ s.mesh.policy.minRebuilds.1 →
      (Runs.run (step w) s pre).mesh.Sourced w.sha256 c.hs c.hb)

/-- Every entry that is listed after the calls comes of an activation, and its
source is still stored. -/
def AllowlistSafe (ops : List ReleaseOp) : Prop :=
  ∀ entry ∈ (Runs.run (step w) s ops).mesh.allowlist, Activated w s ops entry ∧
    (1 ≤ s.mesh.policy.minRebuilds.1 →
      (Runs.run (step w) s ops).mesh.Sourced w.sha256 entry.hs entry.hb)

/-- The call keeps the sources of the state it is made in. -/
def KeepsSources (s : ReleaseNode) (op : ReleaseOp) : Prop := s.mesh.KeepsSources w.sha256 op

end Runs

section Invariant

variable {w : ReleaseWiring} {s : ReleaseNode} {ops : List ReleaseOp}

theorem run_constitution (ops : List ReleaseOp) :
    (Runs.run (step w) s ops).ledger.constitution = s.ledger.constitution :=
  Runs.run_preserves (P := fun t : ReleaseNode => t.ledger.constitution = s.ledger.constitution)
    (fun t op h => (step_constitution w t op).trans h) rfl ops

theorem Activated.snoc {entry : AllowlistEntry} (h : Activated w s ops entry) (op : ReleaseOp) :
    Activated w s (ops ++ [op]) entry := by
  obtain ⟨pre, checkedAt, activatedAt, economyWrite, post, c, rfl, hc⟩ := h
  exact ⟨pre, checkedAt, activatedAt, economyWrite, post ++ [op], c, by simp, hc⟩

/-- What holds after a run: the store is in order, and each entry comes of an
activation and is that of a candidate with its rebuilds. -/
structure Listed (w : ReleaseWiring) (s : ReleaseNode) (ops : List ReleaseOp) : Prop where
  evident : (Runs.run (step w) s ops).mesh.Evident w.sha256
  policy : (Runs.run (step w) s ops).mesh.policy = s.mesh.policy
  activated : ∀ entry ∈ (Runs.run (step w) s ops).mesh.allowlist, Activated w s ops entry
  live : ∀ entry ∈ (Runs.run (step w) s ops).mesh.allowlist, ∃ d,
    (Runs.run (step w) s ops).mesh.candidates.lookup entry.releaseId = some d ∧
      d.hs = entry.hs ∧ d.hb = entry.hb ∧ s.mesh.policy.minRebuilds.1 ≤ d.rebuilds.size

/-- A candidate with as many rebuilds as are asked for has its source. -/
theorem sourced_of_rebuilds {m : ReleaseMeshState} {id : String} {c : ReleaseCandidate}
    (hm : m.Evident w.sha256) (hLookup : m.candidates.lookup id = some c)
    (hRebuilds : m.policy.minRebuilds.1 ≤ c.rebuilds.size) (hMin : 1 ≤ m.policy.minRebuilds.1) :
    m.Sourced w.sha256 c.hs c.hb :=
  hm.sourced hMin id c hLookup (by omega)

theorem Listed.nil (w : ReleaseWiring) (policy : ReleasePolicy) (economy : EconomyPools)
    (ledger : GovernanceLedger) : Listed w (fresh policy economy ledger) [] :=
  ⟨.new w.sha256 policy, rfl, nofun, nofun⟩

/-- One more call keeps the invariant, if it keeps the sources. -/
theorem Listed.snoc (h : Listed w s ops) {op : ReleaseOp}
    (hKeeps : KeepsSources w (Runs.run (step w) s ops) op) : Listed w s (ops ++ [op]) := by
  have hRun : Runs.run (step w) s (ops ++ [op]) = (Runs.run (step w) s ops).step w op :=
    Runs.run_append ..
  have hStep := step_mesh w (Runs.run (step w) s ops) h.evident.keyed op
  rw [run_constitution ops] at hStep
  have hEvident := h.evident
  refine ⟨?_, ?_, fun entry hEntry => ?_, fun entry hEntry => ?_⟩
  · rw [hRun]
    -- what is stored still has its evidence
    exact hStep.evident hEvident hKeeps
  · rw [hRun, hStep.policy, h.policy]
  · rw [hRun] at hEntry
    rcases hStep.mem_allowlist hEntry with hOld | ⟨id, checkedAt, activatedAt, economyWrite, c,
      rfl, hLookup, -, rfl, hPredicates, hQuorum⟩
    · exact (h.activated entry hOld).snoc op
    · -- the new entry has the evidence that its activation has looked at
      obtain rfl := hEvident.keyed id c hLookup
      have hBacked := backed_of_predicates hEvident hLookup hPredicates hQuorum
      rw [h.policy] at hBacked
      refine ⟨ops, checkedAt, activatedAt, economyWrite, [], c, rfl, hLookup, rfl, hBacked,
        fun hMin => ?_⟩
      have hRebuilds := (ReleaseCandidate.predicatesOk_iff.mp hPredicates).2.2.1
      exact sourced_of_rebuilds hEvident hLookup hRebuilds (h.policy ▸ hMin)
  · rw [hRun] at hEntry ⊢
    rcases hStep.mem_allowlist hEntry with hOld | ⟨id, checkedAt, activatedAt, economyWrite, c,
      rfl, hLookup, hLater, rfl, hPredicates, hQuorum⟩
    · obtain ⟨c, hLookup, hHs, hHb, hRebuilds⟩ := h.live entry hOld
      obtain ⟨d, hLater, hGrown⟩ := hStep.grows hLookup
      exact ⟨d, hLater, hGrown.hs.trans hHs, hGrown.hb.trans hHb,
        hRebuilds.trans (SortedMap.size_le_of_keys hGrown.rebuilds)⟩
    · obtain rfl := hEvident.keyed id c hLookup
      refine ⟨c.activated, hLater, rfl, rfl, ?_⟩
      rw [← h.policy]
      exact (ReleaseCandidate.predicatesOk_iff.mp hPredicates).2.2.1

/-- Along calls that keep the sources. -/
theorem Listed.of_everyStep {start : ReleaseNode} (hStart : Listed w start [])
    (h : Runs.EveryStep (step w) (KeepsSources w) start ops) : Listed w start ops := by
  induction ops using List.reverseRecOn with
  | nil => exact hStart
  | append_singleton ops op ih =>
    rw [Runs.everyStep_append] at h
    exact (ih h.1).snoc h.2.1

end Invariant

/--
**Allowlist safety.** Where every call of a run keeps the sources of the rebuilt
candidates, whatever is listed after it was activated with a council quorum, the
rebuilds, the cosigns, the timelock and the constitution in order, and its source
is stored.
-/
theorem allowlistSafe_of_keepsSources (w : ReleaseWiring) (policy : ReleasePolicy)
    (economy : EconomyPools) (ledger : GovernanceLedger) (ops : List ReleaseOp)
    (hKeeps : Runs.EveryStep (step w) (KeepsSources w) (fresh policy economy ledger) ops) :
    AllowlistSafe w (fresh policy economy ledger) ops := by
  have h := (Listed.nil w policy economy ledger).of_everyStep hKeeps
  intro entry hEntry
  refine ⟨h.activated entry hEntry, fun hMin => ?_⟩
  obtain ⟨d, hLookup, hHs, hHb, hRebuilds⟩ := h.live entry hEntry
  rw [← h.policy] at hRebuilds hMin
  exact hHs ▸ hHb ▸ sourced_of_rebuilds h.evident hLookup hRebuilds hMin

/-! ### A source that is overwritten after its release -/

def soloOps (source : String) : List ReleaseOp :=
  [.propose "r1" (textBytes source) (.ofKeys ["alice"]) (toU64 0), .rebuild "r1" ⟨"v1"⟩,
    .cosign ⟨"v1"⟩ "r1" (toU64 0) (.ok ()), .activate "r1" (toU64 0) (toU64 0) (.ok ())]

theorem allowlistSafe_solo :
    AllowlistSafe soloWiring soloNode (soloOps "x") ∧
      (Runs.run (step soloWiring) soloNode (soloOps "x")).mesh.allowlist.length = 1 :=
  ⟨allowlistSafe_of_keepsSources soloWiring .solo soloEconomy soloLedger (soloOps "x")
    ⟨fun _ _ _ hLookup => (nomatch hLookup), trivial, trivial, trivial, trivial⟩,
    by decide +kernel⟩

/-- The released source is `lab-rebuild-v1|x`, and then `x` is proposed. -/
def overwritingOps : List ReleaseOp :=
  soloOps "lab-rebuild-v1|x" ++ [.propose "r2" (textBytes "x") (.ofKeys ["alice"]) (toU64 0)]

theorem allowlistSafe_fails : ¬ AllowlistSafe soloWiring soloNode overwritingOps := by
  intro h
  have hOther : ∀ entry ∈ (Runs.run (step soloWiring) soloNode overwritingOps).mesh.allowlist,
      ((Runs.run (step soloWiring) soloNode overwritingOps).mesh.blobs.lookup entry.hs.text).map
        (labRebuildBinaryHash foldDigest) ≠ some entry.hb := by decide +kernel
  have hNonempty : (Runs.run (step soloWiring) soloNode overwritingOps).mesh.allowlist ≠ [] := by
    decide +kernel
  obtain ⟨entry, hEntry⟩ := List.exists_mem_of_ne_nil _ hNonempty
  obtain ⟨source, hStored, hHb⟩ := (h entry hEntry).2 (by decide +kernel)
  exact hOther entry hEntry (by rw [hStored]; exact congrArg some hHb)

end ReleaseNode

end KeroseneVault
