import KeroseneVault.Release.Snapshot

/-!
# The persisted release mesh

`PersistedReleaseMesh`: the ports write the snapshot and the blobs of the mesh
to a directory, and `open` reads them back. The use cases run over it as over the
mesh in memory, through the port calls they make.

* `StoreCall`, `ReleaseNode.calls` — the port calls of a use case that change the
  store;
* `PersistedReleaseMesh.openAt` — `open`;
* `PersistedNode.step` — a use case over a persisted mesh;
* `RoundTrips` — what is opened has the candidates, the allowlist and the blobs.

Main results:

* `calls_mesh` — the port calls of a use case come to its step;
* `Synced.run` — the directory has the mesh after every run;
* `snapshot_roundTrips_iff` — the directory opens to the mesh exactly where no
  text of the mesh has a control character.
-/

namespace KeroseneVault

/-! ## Port calls -/

/-- A call of a port that changes the store. -/
inductive StoreCall where
  | put (hash : ContentHash) (bytes : List UInt8)
  | putCandidate (c : ReleaseCandidate)
  | saveCandidate (c : ReleaseCandidate)
  | putAllowlist (entry : AllowlistEntry)

/-- Calls one after the other, up to the first that fails. -/
def runCalls {σ : Type} (call : σ → StoreCall → Outcome × σ) (s : σ) :
    List StoreCall → Outcome × σ
  | [] => (.ok (), s)
  | c :: rest =>
    match call s c with
    | (.error e, s) => (.error e, s)
    | (.ok (), s) => runCalls call s rest

/-- A call to `InMemoryReleaseMesh`. -/
def ReleaseMeshState.call (m : ReleaseMeshState) : StoreCall → Outcome × ReleaseMeshState
  | .put hash bytes => (.ok (), m.putBlob hash bytes)
  | .putCandidate c => m.putCandidate c
  | .saveCandidate c => m.saveCandidate c
  | .putAllowlist entry => (.ok (), m.putAllowlist entry)

/-- The calls of a proposal after its blobs. -/
def ProposeRelease.enterCalls (constitution : Constitution) (releaseId : String)
    (hs hb : ContentHash) (councilSigs : SortedSet String) (now : U64) (m : ReleaseMeshState) :
    List StoreCall :=
  if councilSigs.size < m.policy.councilQuorum then []
  else
    match ReleaseCandidate.new releaseId hs hb constitution.hash councilSigs now with
    | .error _ => []
    | .ok candidate => [.putCandidate candidate]

/-- The calls that a use case makes. -/
def ReleaseNode.calls (w : ReleaseWiring) (s : ReleaseNode) : ReleaseOp → List StoreCall
  | .propose releaseId source councilSigs now =>
    let hs := ContentHash.fromBytes w.sha256 source
    let hb := labRebuildBinaryHash w.sha256 source
    [.put hs source, .put hb (textBytes s!"lab-bin|{hs.text}")] ++
      ProposeRelease.enterCalls s.ledger.constitution releaseId hs hb councilSigs now s.mesh
  | .proposeWithHashes releaseId hs hb councilSigs now =>
    match s.mesh.getBlob hs with
    | .error _ => []
    | .ok _ =>
      ProposeRelease.enterCalls s.ledger.constitution releaseId hs hb councilSigs now s.mesh
  | .rebuild releaseId vaultId =>
    match s.mesh.getCandidate releaseId with
    | .error _ => []
    | .ok candidate =>
      match s.mesh.getBlob candidate.hs with
      | .error _ => []
      | .ok source =>
        match RebuildRelease.rebuilt w.sha256 candidate source vaultId with
        | .error _ => []
        | .ok candidate => [.saveCandidate candidate]
  | .cosign localNode releaseId now _ =>
    match s.mesh.getCandidate releaseId with
    | .error _ => []
    | .ok candidate =>
      match CosignRelease.cosigned s.mesh.policy s.ledger.constitution localNode now candidate with
      | .error _ => []
      | .ok candidate => [.saveCandidate candidate]
  | .activate releaseId checkedAt activatedAt _ =>
    match s.mesh.getCandidate releaseId with
    | .error _ => []
    | .ok candidate =>
      match ActivateRelease.admitted s.mesh.policy s.ledger.constitution checkedAt candidate with
      | .error _ => []
      | .ok () => [.saveCandidate candidate.activated,
          .putAllowlist (ActivateRelease.entry s.ledger.constitution activatedAt candidate)]

section Calls

theorem runCalls_cons {σ : Type} (call : σ → StoreCall → Outcome × σ) (s : σ) (c : StoreCall)
    (rest : List StoreCall) : runCalls call s (c :: rest) =
      match call s c with
      | (.error e, s) => (.error e, s)
      | (.ok (), s) => runCalls call s rest := rfl

theorem runCalls_single {σ : Type} (call : σ → StoreCall → Outcome × σ) (s : σ) (c : StoreCall) :
    (runCalls call s [c]).2 = (call s c).2 := by
  rw [runCalls_cons]
  rcases call s c with ⟨_ | _, t⟩ <;> rfl

/-- A last call leaves what it leaves, whatever is made of its answer. -/
theorem runCalls_last {α : Type} (m : ReleaseMeshState) (c : StoreCall) (a : α) :
    (runCalls ReleaseMeshState.call m [c]).2 =
      (match m.call c with
        | (.error e, m) => (Except.error e, m)
        | (.ok (), m) => ((.ok a : Except DomainError α), m)).2 := by
  rw [runCalls_single]
  rcases m.call c with ⟨_ | _, m'⟩ <;> rfl

theorem enterCalls_mesh (constitution : Constitution) (releaseId : String) (hs hb : ContentHash)
    (councilSigs : SortedSet String) (now : U64) (m : ReleaseMeshState) :
    (runCalls ReleaseMeshState.call m
      (ProposeRelease.enterCalls constitution releaseId hs hb councilSigs now m)).2 =
      (ProposeRelease.enter constitution releaseId hs hb councilSigs now m).2 := by
  unfold ProposeRelease.enterCalls ProposeRelease.enter
  split
  · rfl
  · cases ReleaseCandidate.new releaseId hs hb constitution.hash councilSigs now with
    | error e => rfl
    | ok candidate => exact runCalls_last m (.putCandidate candidate) candidate

/-- The port calls of a use case come to its step. -/
theorem calls_mesh (w : ReleaseWiring) (s : ReleaseNode) (op : ReleaseOp) :
    (runCalls ReleaseMeshState.call s.mesh (s.calls w op)).2 = (s.step w op).mesh := by
  cases op with
  | propose id source councilSigs now =>
    -- the blobs are published whatever becomes of the proposal
    exact enterCalls_mesh s.ledger.constitution id (.fromBytes w.sha256 source)
      (labRebuildBinaryHash w.sha256 source) councilSigs now
      (ProposeRelease.publish w.sha256 source s.mesh)
  | proposeWithHashes id hs hb councilSigs now =>
    show _ = (ProposeRelease.executeWithHashes s.ledger.constitution id hs hb councilSigs now
      s.mesh).2
    unfold ReleaseNode.calls ProposeRelease.executeWithHashes
    dsimp only
    cases s.mesh.getBlob hs with
    | error e => rfl
    | ok source => exact enterCalls_mesh s.ledger.constitution id hs hb councilSigs now s.mesh
  | rebuild id vaultId =>
    show _ = (RebuildRelease.execute w.sha256 id vaultId s.mesh).2
    unfold ReleaseNode.calls RebuildRelease.execute
    dsimp only
    cases s.mesh.getCandidate id with
    | error e => rfl
    | ok c =>
      dsimp only
      cases s.mesh.getBlob c.hs with
      | error e => rfl
      | ok source =>
        dsimp only
        cases RebuildRelease.rebuilt w.sha256 c source vaultId with
        | error e => rfl
        | ok d => exact runCalls_last s.mesh (.saveCandidate d) d
  | cosign localNode id now economyWrite =>
    rw [ReleaseNode.cosign_mesh]
    unfold ReleaseNode.calls CosignRelease.store
    dsimp only
    cases s.mesh.getCandidate id with
    | error e => rfl
    | ok c =>
      dsimp only
      cases CosignRelease.cosigned s.mesh.policy s.ledger.constitution localNode now c with
      | error e => rfl
      | ok d => exact runCalls_last s.mesh (.saveCandidate d) d
  | activate id checkedAt activatedAt economyWrite =>
    rw [ReleaseNode.activate_mesh]
    unfold ReleaseNode.calls ActivateRelease.store
    dsimp only
    cases s.mesh.getCandidate id with
    | error e => rfl
    | ok c =>
      dsimp only
      cases ActivateRelease.admitted s.mesh.policy s.ledger.constitution checkedAt c with
      | error e => rfl
      | ok u =>
        dsimp only
        rw [runCalls_cons]
        dsimp only [ReleaseMeshState.call]
        -- the entry is listed only where the candidate was saved
        rcases s.mesh.saveCandidate c.activated with ⟨_ | _, m⟩ <;> rfl

end Calls

/-! ## The directory -/

/-- `PersistedReleaseMesh`, with `release_meta.json` and the files of its `blobs`
directory. The writes go through. -/
structure PersistedReleaseMesh where
  inner : ReleaseMeshState
  metaFile : Option String
  blobFiles : Table String (List UInt8)

namespace PersistedReleaseMesh

/-- The files of the `blobs` directory. Those not named by a hash are left out. -/
def readBlobs (files : List (String × List UInt8)) (mesh : ReleaseMeshState) : ReleaseMeshState :=
  files.foldl (fun mesh file =>
    match ContentHash.parse file.1 with
    | .ok hash => mesh.putBlob hash file.2
    | .error _ => mesh) mesh

/-- `open`, on what is in the directory. The blob files come in any order. -/
def openAt (serde : SerdeJson) (policy : ReleasePolicy) (metaFile : Option String)
    (blobFiles : List (String × List UInt8)) : Except DomainError ReleaseMeshState :=
  match metaFile with
  | none => .ok (readBlobs blobFiles (.new policy))
  | some raw => (hydrateMeta serde raw (.new policy)).map (readBlobs blobFiles)

/-- `open` on a new directory. -/
def fresh (policy : ReleasePolicy) : PersistedReleaseMesh :=
  { inner := .new policy, metaFile := none, blobFiles := ∅ }

/-- `persist_meta`. -/
def persistMeta (p : PersistedReleaseMesh) : PersistedReleaseMesh :=
  { p with metaFile := some (releaseMetaJson p.inner) }

/-- A call of a port. -/
def call (p : PersistedReleaseMesh) : StoreCall → Outcome × PersistedReleaseMesh
  | .put hash bytes =>
    (.ok (), { p with inner := p.inner.putBlob hash bytes,
                      blobFiles := p.blobFiles.insert hash.text bytes })
  | .putCandidate c =>
    match p.inner.putCandidate c with
    | (.error e, inner) => (.error e, { p with inner })
    | (.ok (), inner) => (.ok (), persistMeta { p with inner })
  | .saveCandidate c =>
    match p.inner.saveCandidate c with
    | (.error e, inner) => (.error e, { p with inner })
    | (.ok (), inner) => (.ok (), persistMeta { p with inner })
  | .putAllowlist entry => (.ok (), persistMeta { p with inner := p.inner.putAllowlist entry })

/-- The files, listed in some order. -/
def Listing (p : PersistedReleaseMesh) (files : List (String × List UInt8)) : Prop :=
  files.Perm p.blobFiles.toPairs

/-- The directory opens, to the candidates, the allowlist and the blobs of the mesh. -/
def RoundTrips (serde : SerdeJson) (p : PersistedReleaseMesh) : Prop :=
  ∀ policy files, p.Listing files → ∃ m, openAt serde policy p.metaFile files = .ok m ∧
    m.candidates = p.inner.candidates ∧ m.allowlist = p.inner.allowlist ∧
    ∀ name, m.blobs.lookup name = p.inner.blobs.lookup name

/-- The directory has what the mesh has. -/
structure Synced (p : PersistedReleaseMesh) : Prop where
  metaFile : p.metaFile = some (releaseMetaJson p.inner) ∨
    p.metaFile = none ∧ p.inner.candidates = .empty ∧ p.inner.allowlist = []
  blobs : ∀ name, p.blobFiles.lookup name = p.inner.blobs.lookup name
  named : ∀ name bytes, p.blobFiles.lookup name = some bytes → MeasurementHex name

section Disk

variable {p : PersistedReleaseMesh}

theorem Synced.fresh (policy : ReleasePolicy) : (fresh policy).Synced :=
  ⟨.inr ⟨rfl, rfl, rfl⟩, fun _ => rfl, nofun⟩

/-- A call to the persisted mesh is one to the mesh. -/
theorem call_inner (p : PersistedReleaseMesh) (c : StoreCall) :
    (p.call c).1 = (p.inner.call c).1 ∧ (p.call c).2.inner = (p.inner.call c).2 := by
  cases c with
  | put hash bytes => exact ⟨rfl, rfl⟩
  | putCandidate c =>
    unfold call ReleaseMeshState.call
    dsimp only
    rcases p.inner.putCandidate c with ⟨_ | _, m⟩ <;> exact ⟨rfl, rfl⟩
  | saveCandidate c =>
    unfold call ReleaseMeshState.call
    dsimp only
    rcases p.inner.saveCandidate c with ⟨_ | _, m⟩ <;> exact ⟨rfl, rfl⟩
  | putAllowlist entry => exact ⟨rfl, rfl⟩

theorem runCalls_inner (p : PersistedReleaseMesh) (calls : List StoreCall) :
    (runCalls call p calls).2.inner = (runCalls ReleaseMeshState.call p.inner calls).2 := by
  induction calls generalizing p with
  | nil => rfl
  | cons c rest ih =>
    obtain ⟨hAnswer, hInner⟩ := call_inner p c
    rw [runCalls_cons, runCalls_cons]
    rcases hCall : p.call c with ⟨answer, q⟩
    rcases hMesh : p.inner.call c with ⟨answer', m⟩
    rw [hCall, hMesh] at hAnswer hInner
    dsimp only at hAnswer hInner ⊢
    subst hAnswer hInner
    cases answer with
    | error e => rfl
    | ok u => exact ih q

/-- What was refused leaves the mesh. -/
theorem putCandidate_error {m : ReleaseMeshState} {c : ReleaseCandidate} {e : DomainError}
    {m' : ReleaseMeshState} (h : m.putCandidate c = (.error e, m')) : m' = m := by
  unfold ReleaseMeshState.putCandidate at h
  split at h
  · exact (Prod.mk.inj h).2.symm
  · cases h

theorem saveCandidate_error {m : ReleaseMeshState} {c : ReleaseCandidate} {e : DomainError}
    {m' : ReleaseMeshState} (h : m.saveCandidate c = (.error e, m')) : m' = m := by
  unfold ReleaseMeshState.saveCandidate at h
  split at h
  · cases h
  · exact (Prod.mk.inj h).2.symm

theorem putCandidate_blobs (m : ReleaseMeshState) (c : ReleaseCandidate) :
    (m.putCandidate c).2.blobs = m.blobs := by
  unfold ReleaseMeshState.putCandidate
  split <;> rfl

theorem saveCandidate_blobs (m : ReleaseMeshState) (c : ReleaseCandidate) :
    (m.saveCandidate c).2.blobs = m.blobs := by
  unfold ReleaseMeshState.saveCandidate
  split <;> rfl

theorem Synced.persistMeta (h : p.Synced) {inner : ReleaseMeshState}
    (hBlobs : inner.blobs = p.inner.blobs) :
    (PersistedReleaseMesh.persistMeta { p with inner }).Synced :=
  ⟨.inl rfl, fun name => by
    show p.blobFiles.lookup name = inner.blobs.lookup name
    rw [hBlobs, h.blobs name], h.named⟩

/-- A call keeps the directory with the mesh. -/
theorem Synced.call (h : p.Synced) (c : StoreCall) : (p.call c).2.Synced := by
  cases c with
  | put hash bytes =>
    refine ⟨?_, fun name => ?_, fun name found hFound => ?_⟩
    · -- the snapshot has no blobs in it
      rcases h.metaFile with hMeta | ⟨hMeta, hCandidates, hAllowlist⟩
      · exact .inl hMeta
      · exact .inr ⟨hMeta, hCandidates, hAllowlist⟩
    · show (p.blobFiles.insert hash.text bytes).lookup name = _
      by_cases hName : name = hash.text
      · subst hName
        rw [AList.lookup_insert]
        exact (AList.lookup_insert p.inner.blobs).symm
      · rw [AList.lookup_insert_ne hName, h.blobs name]
        exact (AList.lookup_insert_ne hName).symm
    · change (p.blobFiles.insert hash.text bytes).lookup name = _ at hFound
      rcases Table.lookup_insert_eq_some.mp hFound with ⟨hName, -⟩ | ⟨-, hOld⟩
      · exact hName ▸ hash.hex
      · exact h.named name found hOld
  | putCandidate c =>
    -- a refused candidate is not persisted, and nothing changed
    have hBlobs := putCandidate_blobs p.inner c
    unfold PersistedReleaseMesh.call
    dsimp only
    rcases hPut : p.inner.putCandidate c with ⟨e | u, inner⟩
    · rw [putCandidate_error hPut]
      exact h
    · rw [hPut] at hBlobs
      exact h.persistMeta hBlobs
  | saveCandidate c =>
    have hBlobs := saveCandidate_blobs p.inner c
    unfold PersistedReleaseMesh.call
    dsimp only
    rcases hSave : p.inner.saveCandidate c with ⟨e | u, inner⟩
    · rw [saveCandidate_error hSave]
      exact h
    · rw [hSave] at hBlobs
      exact h.persistMeta hBlobs
  | putAllowlist entry => exact h.persistMeta rfl

theorem Synced.runCalls (h : p.Synced) (calls : List StoreCall) :
    (KeroseneVault.runCalls PersistedReleaseMesh.call p calls).2.Synced := by
  induction calls generalizing p with
  | nil => exact h
  | cons c rest ih =>
    have hNext := h.call c
    rw [runCalls_cons]
    rcases hCall : p.call c with ⟨e | u, q⟩
    · rwa [hCall] at hNext
    · rw [hCall] at hNext
      exact ih hNext

/-- The blobs of files named by their hashes. -/
theorem readBlobs_eq {files : List (String × List UInt8)} {m : ReleaseMeshState}
    (h : ∀ f ∈ files, MeasurementHex f.1) :
    readBlobs files m = { m with blobs := m.blobs.insertAll files } := by
  induction files generalizing m with
  | nil => rfl
  | cons f rest ih =>
    obtain ⟨hName, hRest⟩ := List.forall_mem_cons.mp h
    have hParse : ContentHash.parse f.1 = .ok ⟨f.1, hName⟩ := ContentHash.parse_text ⟨f.1, hName⟩
    have hStep : readBlobs (f :: rest) m = readBlobs rest (m.putBlob ⟨f.1, hName⟩ f.2) := by
      unfold readBlobs
      rw [List.foldl_cons, hParse]
    rw [hStep, ih hRest]
    rfl

/-- Listed files read back as the blobs. -/
theorem Synced.lookup_readBlobs (h : p.Synced) {files : List (String × List UInt8)}
    (hFiles : p.Listing files) {m : ReleaseMeshState} (hm : m.blobs = ∅) (name : String) :
    (readBlobs files m).blobs.lookup name = p.inner.blobs.lookup name := by
  have hNames : ∀ f ∈ files, MeasurementHex f.1 := fun f hf =>
    h.named f.1 f.2 (Table.mem_toPairs.mp (hFiles.mem_iff.mp hf))
  have hNodup : (files.map Prod.fst).Nodup := by
    rw [(hFiles.map Prod.fst).nodup_iff, Table.map_fst_toPairs]
    exact p.blobFiles.keys_nodup
  rw [readBlobs_eq hNames, hm, ← h.blobs name]
  show (Table.insertAll ∅ files).lookup name = _
  cases hFound : p.blobFiles.lookup name with
  | none =>
    refine Table.lookup_insertAll_of_notMem fun hMem => ?_
    obtain ⟨f, hf, rfl⟩ := List.mem_map.mp hMem
    rw [Table.mem_toPairs.mp (hFiles.mem_iff.mp hf)] at hFound
    cases hFound
  | some bytes =>
    exact Table.lookup_insertAll_of_mem hNodup
      (hFiles.mem_iff.mpr (Table.mem_toPairs.mpr hFound))

theorem readBlobs_frame {files : List (String × List UInt8)} (m : ReleaseMeshState) :
    (readBlobs files m).candidates = m.candidates ∧ (readBlobs files m).allowlist = m.allowlist := by
  unfold readBlobs
  induction files generalizing m with
  | nil => exact ⟨rfl, rfl⟩
  | cons f rest ih =>
    rw [List.foldl_cons]
    split
    · exact ih _
    · exact ih m

/-- The directory of a mesh opens to it exactly where none of its texts has a
control character. -/
theorem Synced.roundTrips_iff (h : p.Synced) (hm : p.inner.Recorded) (serde : SerdeJson) :
    p.RoundTrips serde ↔ p.inner.Clear := by
  rcases h.metaFile with hMeta | ⟨hMeta, hCandidates, hAllowlist⟩
  -- with a control character the parser refuses; without one each part reads back
  · constructor
    · intro hTrip
      by_contra hControl
      obtain ⟨m, hOpen, -⟩ := hTrip p.inner.policy p.blobFiles.toPairs (List.Perm.refl _)
      obtain ⟨e, hError⟩ := hydrateMeta_control serde hControl (.new p.inner.policy)
      rw [hMeta, openAt, hError] at hOpen
      cases hOpen
    · intro hClear policy files hFiles
      refine ⟨_, by rw [hMeta, openAt, hydrateMeta_clear serde hm hClear policy]; rfl, ?_⟩
      exact ⟨(readBlobs_frame _).1, (readBlobs_frame _).2, h.lookup_readBlobs hFiles rfl⟩
  · -- nothing is stored, and there is no snapshot
    refine ⟨fun _ => ?_, fun _ policy files hFiles => ?_⟩
    · constructor
      · intro id c hLookup
        rw [hCandidates] at hLookup
        cases hLookup
      · rw [hAllowlist]
        exact nofun
    · refine ⟨_, by rw [hMeta]; rfl, ?_⟩
      rw [hCandidates, hAllowlist]
      exact ⟨(readBlobs_frame _).1, (readBlobs_frame _).2, h.lookup_readBlobs hFiles rfl⟩

end Disk

end PersistedReleaseMesh

/-! ## What runs keep -/

section Kept

variable {sha256 : List UInt8 → Digest} {constitution : Constitution} {m m' : ReleaseMeshState}
  {op : ReleaseOp}

/-- A candidate that is set anew leaves what holds of each, where it holds of it. -/
theorem forall_setCandidate {P : ReleaseCandidate → Prop}
    (hm : ∀ j d, m.candidates.lookup j = some d → P d) {id : String} {c : ReleaseCandidate}
    (hNew : P c) : ∀ j d, (m.setCandidate id c).candidates.lookup j = some d → P d := by
  intro j d hLookup
  rw [ReleaseMeshState.lookup_setCandidate] at hLookup
  split at hLookup
  · obtain rfl := Option.some.inj hLookup
    exact hNew
  · exact hm j d hLookup

/-- No candidate loses its name or its signatures. -/
theorem MeshStep.named (h : MeshStep sha256 constitution m op m')
    (hm : ∀ id c, m.candidates.lookup id = some c →
      strTrim c.id ≠ "" ∧ c.councilSigs.size ≠ 0) :
    ∀ id c, m'.candidates.lookup id = some c → strTrim c.id ≠ "" ∧ c.councilSigs.size ≠ 0 := by
  cases h with
  | refused op =>
    intro j d hLookup
    rw [MeshStep.published_candidates] at hLookup
    exact hm j d hLookup
  | proposed id source councilSigs now hNew hQuorum hId hSigs =>
    exact forall_setCandidate (m := ProposeRelease.publish sha256 source m) hm ⟨hId, hSigs⟩
  | proposedWithHashes id hs hb councilSigs now hNew hQuorum hId hSigs =>
    exact forall_setCandidate hm ⟨hId, hSigs⟩
  | rebuilt id vaultId c source hLookup => exact forall_setCandidate hm (hm id c hLookup)
  | cosigned localNode id now economyWrite c hLookup =>
    exact forall_setCandidate hm (hm id c hLookup)
  | activated id checkedAt activatedAt economyWrite c hLookup =>
    exact forall_setCandidate (c := c.activated) hm (hm id c hLookup)

/-- An entry is filed once. -/
theorem nodup_putAllowlist (hm : (m.allowlist.map AllowlistEntry.releaseId).Nodup)
    (entry : AllowlistEntry) :
    ((m.putAllowlist entry).allowlist.map AllowlistEntry.releaseId).Nodup := by
  have hKept : ((m.allowlist.filter fun e => e.releaseId ≠ entry.releaseId).map
      AllowlistEntry.releaseId).Nodup := hm.sublist (List.filter_sublist.map _)
  show (((m.allowlist.filter fun e => e.releaseId ≠ entry.releaseId) ++ [entry]).map
    AllowlistEntry.releaseId).Nodup
  rw [List.map_append, List.map_singleton, List.nodup_append]
  refine ⟨hKept, List.nodup_singleton _, fun a ha b hb => ?_⟩
  obtain ⟨e, he, rfl⟩ := List.mem_map.mp ha
  rw [List.mem_singleton.mp hb]
  exact of_decide_eq_true (List.mem_filter.mp he).2

theorem MeshStep.recorded (h : MeshStep sha256 constitution m op m') (hm : m.Recorded) :
    m'.Recorded := by
  refine ⟨h.keyed hm.keyed, h.named hm.named, ?_⟩
  cases h with
  | refused op =>
    rw [MeshStep.published_allowlist]
    exact hm.listed
  | proposed => exact hm.listed
  | proposedWithHashes => exact hm.listed
  | rebuilt => exact hm.listed
  | cosigned => exact hm.listed
  | activated id checkedAt activatedAt economyWrite c =>
    exact nodup_putAllowlist (m := m.setCandidate id c.activated) hm.listed _

/-- The names in a call have no control character. -/
def ReleaseOp.Clear : ReleaseOp → Prop
  | .propose id _ councilSigs _ => Json.Clear id ∧ ∀ member ∈ councilSigs.keys, Json.Clear member
  | .proposeWithHashes id _ _ councilSigs _ =>
    Json.Clear id ∧ ∀ member ∈ councilSigs.keys, Json.Clear member
  | .rebuild _ vaultId => Json.Clear vaultId.text
  | .cosign localNode _ _ _ => Json.Clear localNode.text
  | .activate .. => True

/-- A mesh gets its texts from the calls and the constitution. -/
theorem MeshStep.clear (h : MeshStep sha256 constitution m op m')
    (hConstitution : Json.Clear constitution.hash) (hOp : op.Clear) (hm : m.Clear) : m'.Clear := by
  have hProposed {id : String} {councilSigs : SortedSet String} (hs hb : ContentHash) (now : U64)
      (hNames : Json.Clear id ∧ ∀ member ∈ councilSigs.keys, Json.Clear member) :
      (ReleaseCandidate.proposed id hs hb constitution.hash councilSigs now).Clear :=
    ⟨hNames.1, hConstitution, nofun, hNames.2, nofun, nofun⟩
  -- a step writes one candidate at most, whose texts are the call's or were there before
  cases h with
  | refused op =>
    refine ⟨fun j d hLookup => ?_, ?_⟩
    · rw [MeshStep.published_candidates] at hLookup
      exact hm.1 j d hLookup
    · rw [MeshStep.published_allowlist]
      exact hm.2
  | proposed id source councilSigs now =>
    exact ⟨forall_setCandidate (m := ProposeRelease.publish sha256 source m) hm.1
      (hProposed _ _ now hOp), hm.2⟩
  | proposedWithHashes id hs hb councilSigs now =>
    exact ⟨forall_setCandidate hm.1 (hProposed hs hb now hOp), hm.2⟩
  | rebuilt id vaultId c source hLookup =>
    obtain ⟨hId, hHash, hReason, hSigs, hCosigns, hRebuilds⟩ := hm.1 id c hLookup
    refine ⟨forall_setCandidate hm.1 ⟨hId, hHash, hReason, hSigs, hCosigns, ?_⟩, hm.2⟩
    intro vault hVault
    rcases SortedMap.mem_keys_insert.mp hVault with rfl | hOld
    · exact hOp
    · exact hRebuilds vault hOld
  | cosigned localNode id now economyWrite c hLookup =>
    obtain ⟨hId, hHash, hReason, hSigs, hCosigns, hRebuilds⟩ := hm.1 id c hLookup
    refine ⟨forall_setCandidate hm.1 ⟨hId, hHash, hReason, hSigs, ?_, hRebuilds⟩, hm.2⟩
    intro vault hVault
    rcases SortedSet.mem_add.mp hVault with rfl | hOld
    · exact hOp
    · exact hCosigns vault hOld
  | activated id checkedAt activatedAt economyWrite c hLookup =>
    have hc := hm.1 id c hLookup
    refine ⟨forall_setCandidate (c := c.activated) hm.1 hc, fun e he => ?_⟩
    rcases List.mem_append.mp he with hOld | hNew
    · exact hm.2 e (List.mem_of_mem_filter hOld)
    · rw [List.mem_singleton.mp hNew]
      exact ⟨hc.1, hConstitution⟩

end Kept

/-! ## Runs -/

/-- What the use cases run on, with a persisted mesh. -/
structure PersistedNode where
  store : PersistedReleaseMesh
  economy : EconomyPools
  ledger : GovernanceLedger

namespace PersistedNode

/-- The node in memory. -/
def node (s : PersistedNode) : ReleaseNode :=
  { mesh := s.store.inner, economy := s.economy, ledger := s.ledger }

def fresh (policy : ReleasePolicy) (economy : EconomyPools) (ledger : GovernanceLedger) :
    PersistedNode :=
  { store := .fresh policy, economy, ledger }

/-- A use case, over the ports of the persisted mesh. -/
def step (w : ReleaseWiring) (s : PersistedNode) (op : ReleaseOp) : PersistedNode :=
  { store := (runCalls PersistedReleaseMesh.call s.store (s.node.calls w op)).2
    economy := (s.node.step w op).economy
    ledger := (s.node.step w op).ledger }

variable (w : ReleaseWiring) (s : PersistedNode)

/-- The mesh in memory goes on as without the directory. -/
theorem step_node (op : ReleaseOp) : (s.step w op).node = s.node.step w op := by
  have hMesh : (s.step w op).store.inner = (s.node.step w op).mesh := by
    rw [← calls_mesh]
    exact PersistedReleaseMesh.runCalls_inner s.store (s.node.calls w op)
  unfold node
  rw [hMesh]
  rfl

/-- What holds of a persisted mesh after every run. -/
structure Kept : Prop where
  synced : s.store.Synced
  recorded : s.store.inner.Recorded

theorem Kept.fresh (policy : ReleasePolicy) (economy : EconomyPools) (ledger : GovernanceLedger) :
    (PersistedNode.fresh policy economy ledger).Kept :=
  ⟨.fresh policy, ⟨fun _ _ h => (nomatch h), fun _ _ h => (nomatch h), List.nodup_nil⟩⟩

variable {s}

theorem mesh_step (h : s.Kept) (op : ReleaseOp) :
    MeshStep w.sha256 s.ledger.constitution s.store.inner op (s.step w op).store.inner := by
  have hStep := ReleaseNode.step_mesh w s.node h.recorded.keyed op
  rw [← step_node] at hStep
  exact hStep

theorem Kept.step (h : s.Kept) (op : ReleaseOp) : (s.step w op).Kept :=
  ⟨h.synced.runCalls _, (mesh_step w h op).recorded h.recorded⟩

/-- Calls without control characters leave a mesh without them. -/
theorem clear_run (h : s.Kept) (hClear : s.store.inner.Clear)
    (hConstitution : Json.Clear s.ledger.constitution.hash) {ops : List ReleaseOp}
    (hOps : ∀ op ∈ ops, op.Clear) : (Runs.run (step w) s ops).store.inner.Clear := by
  induction ops generalizing s with
  | nil => exact hClear
  | cons op rest ih =>
    obtain ⟨hOp, hRest⟩ := List.forall_mem_cons.mp hOps
    have hNext : (s.step w op).ledger.constitution = s.ledger.constitution :=
      ReleaseNode.step_constitution w s.node op
    exact ih (h.step w op) ((mesh_step w h op).clear hConstitution hOp hClear)
      (hNext ▸ hConstitution) hRest

/-- After every run, the directory opens to the mesh exactly where none of its
texts has a control character; calls without them leave none. -/
theorem snapshot_roundTrips_iff (serde : SerdeJson) (policy : ReleasePolicy)
    (economy : EconomyPools) (ledger : GovernanceLedger) (ops : List ReleaseOp) :
    ((Runs.run (step w) (fresh policy economy ledger) ops).store.RoundTrips serde ↔
      (Runs.run (step w) (fresh policy economy ledger) ops).store.inner.Clear) ∧
    (Json.Clear ledger.constitution.hash → (∀ op ∈ ops, op.Clear) →
      (Runs.run (step w) (fresh policy economy ledger) ops).store.RoundTrips serde) := by
  have hStart := Kept.fresh policy economy ledger
  have hKept : (Runs.run (step w) (fresh policy economy ledger) ops).Kept :=
    Runs.run_preserves (P := Kept) (fun _ op h => h.step w op) hStart ops
  have hTrips := hKept.synced.roundTrips_iff hKept.recorded serde
  refine ⟨hTrips, fun hConstitution hOps => hTrips.mpr ?_⟩
  exact clear_run w hStart ⟨fun _ _ h => (nomatch h), nofun⟩ hConstitution hOps

/-- A release by a council member with a control character in the name. -/
def controlNode : PersistedNode :=
  Runs.run (step soloWiring) (fresh .solo soloEconomy soloLedger)
    [.propose "r1" (textBytes "x") (.ofKeys ["alice\x01"]) (toU64 0)]

theorem snapshot_fails : ¬ controlNode.store.RoundTrips compactJson := by
  have hKept : controlNode.Kept :=
    Runs.run_preserves (P := Kept) (fun _ op h => h.step soloWiring op)
      (Kept.fresh .solo soloEconomy soloLedger) _
  rw [hKept.synced.roundTrips_iff hKept.recorded compactJson]
  rintro ⟨hCandidates, -⟩
  -- the proposal was stored under the name as it was given
  have hMember : (controlNode.store.inner.candidates.lookup "r1").map (·.councilSigs.keys) =
      some ["alice\x01"] := by decide +kernel
  obtain ⟨c, hLookup, hKeys⟩ := Option.map_eq_some_iff.mp hMember
  obtain ⟨-, -, -, hCouncil, -⟩ := hCandidates "r1" c hLookup
  have hClear : Json.Clear "alice\x01" := hCouncil "alice\x01" (hKeys ▸ List.mem_singleton_self _)
  exact absurd (hClear '\x01' (by decide)) (by decide)

end PersistedNode

end KeroseneVault
