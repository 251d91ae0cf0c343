import KeroseneVault.Ledger.Governance
import KeroseneVault.Lib.Runs
import KeroseneVault.Release.Candidate

/-!
# The release mesh

`InMemoryReleaseMesh`, the store of blobs, candidates and the allowlist, and the
use cases over it. `ReleaseNode` is what they run on: the store, and the economy
and the ledger of the governance hook.

* `putBlob`, `getBlob`, `putCandidate`, `getCandidate`, `saveCandidate`,
  `putAllowlist` — the ports;
* `ProposeRelease`, `RebuildRelease`, `CosignRelease`, `ActivateRelease` — the
  use cases;
* `ReleaseOp`, `ReleaseNode.perform` — one call of any of them.

Main results:

* `enter_cases`, `execute_cases`, `store_cases` — what each use case answers and
  leaves;
* `step_mesh` — what any call leaves of the store (`MeshStep`): its blobs, a new
  candidate, one more piece of evidence, or an activated candidate.
-/

namespace KeroseneVault

/-- A constitution for runs on given inputs. -/
def soloConstitution : Constitution := ⟨"law", ⟨4000, 3000, 3000⟩⟩

/-- `ReleaseMeshState`. -/
structure ReleaseMeshState where
  policy : ReleasePolicy
  blobs : Table String (List UInt8)
  candidates : SortedMap String ReleaseCandidate
  allowlist : List AllowlistEntry

namespace ReleaseMeshState

/-- `InMemoryReleaseMesh::new`. -/
def new (policy : ReleasePolicy) : ReleaseMeshState :=
  { policy, blobs := ∅, candidates := .empty, allowlist := [] }

/-! ## The ports -/

/-- `BlobStorePort::put`. -/
def putBlob (m : ReleaseMeshState) (hash : ContentHash) (bytes : List UInt8) : ReleaseMeshState :=
  { m with blobs := m.blobs.insert hash.text bytes }

/-- `BlobStorePort::get`. -/
def getBlob (m : ReleaseMeshState) (hash : ContentHash) : Except DomainError (List UInt8) :=
  match m.blobs.lookup hash.text with
  | some bytes => .ok bytes
  | none => .error (.unknownBlob hash.text)

/-- `candidates.insert`. -/
def setCandidate (m : ReleaseMeshState) (id : String) (c : ReleaseCandidate) :
    ReleaseMeshState :=
  { m with candidates := m.candidates.insert id c }

/-- `put_candidate`. -/
def putCandidate (m : ReleaseMeshState) (c : ReleaseCandidate) : Outcome × ReleaseMeshState :=
  if (m.candidates.lookup c.id).isSome then
    (.error (.invalidRelease s!"release already exists: {c.id}"), m)
  else (.ok (), m.setCandidate c.id c)

/-- `get_candidate`. -/
def getCandidate (m : ReleaseMeshState) (id : String) : Except DomainError ReleaseCandidate :=
  match m.candidates.lookup id with
  | some c => .ok c
  | none => .error (.unknownRelease id)

/-- `save_candidate`. -/
def saveCandidate (m : ReleaseMeshState) (c : ReleaseCandidate) : Outcome × ReleaseMeshState :=
  if (m.candidates.lookup c.id).isSome then
    (.ok (), m.setCandidate c.id c)
  else (.error (.unknownRelease c.id), m)

/-- `put_allowlist`. -/
def putAllowlist (m : ReleaseMeshState) (entry : AllowlistEntry) : ReleaseMeshState :=
  { m with allowlist :=
      (m.allowlist.filter fun e => e.releaseId ≠ entry.releaseId) ++ [entry] }

section Ports

variable {m : ReleaseMeshState} {c : ReleaseCandidate} {id : String} {hash : ContentHash}
  {bytes : List UInt8} {entry : AllowlistEntry}

@[simp] theorem putBlob_candidates : (m.putBlob hash bytes).candidates = m.candidates := rfl
@[simp] theorem putBlob_allowlist : (m.putBlob hash bytes).allowlist = m.allowlist := rfl
@[simp] theorem putBlob_policy : (m.putBlob hash bytes).policy = m.policy := rfl
@[simp] theorem setCandidate_blobs : (m.setCandidate id c).blobs = m.blobs := rfl
@[simp] theorem setCandidate_allowlist : (m.setCandidate id c).allowlist = m.allowlist := rfl
@[simp] theorem setCandidate_policy : (m.setCandidate id c).policy = m.policy := rfl
@[simp] theorem putAllowlist_candidates : (m.putAllowlist entry).candidates = m.candidates := rfl
@[simp] theorem putAllowlist_blobs : (m.putAllowlist entry).blobs = m.blobs := rfl
@[simp] theorem putAllowlist_policy : (m.putAllowlist entry).policy = m.policy := rfl

theorem lookup_setCandidate (j : String) :
    (m.setCandidate id c).candidates.lookup j =
      if j = id then some c else m.candidates.lookup j :=
  m.candidates.lookup_insert j id c

theorem lookup_putBlob (j : String) : (m.putBlob hash bytes).blobs.lookup j =
    if j = hash.text then some bytes else m.blobs.lookup j := by
  unfold putBlob
  by_cases h : j = hash.text
  · subst h
    simp
  · simp [h]

theorem getCandidate_ok : m.getCandidate id = .ok c ↔ m.candidates.lookup id = some c := by
  unfold getCandidate
  split
  · rename_i d hd
    rw [hd, Except.ok.injEq, Option.some.injEq]
  · rename_i hNone
    rw [hNone]
    exact ⟨nofun, nofun⟩

theorem getBlob_ok :
    m.getBlob hash = .ok bytes ↔ m.blobs.lookup hash.text = some bytes := by
  unfold getBlob
  split
  · rename_i found hFound
    rw [hFound, Except.ok.injEq, Option.some.injEq]
  · rename_i hNone
    rw [hNone]
    exact ⟨nofun, nofun⟩

/-- What is stored under its id can be saved. -/
theorem saveCandidate_of_lookup (c : ReleaseCandidate) {d : ReleaseCandidate}
    (h : m.candidates.lookup id = some d) (hId : c.id = id) :
    m.saveCandidate c = (.ok (), m.setCandidate id c) := by
  subst hId
  exact if_pos (Option.isSome_iff_exists.mpr ⟨d, h⟩)

end Ports

end ReleaseMeshState

/-! ## The use cases -/

/-- The part of `ProposeRelease` after the blobs. -/
def ProposeRelease.enter (constitution : Constitution) (releaseId : String) (hs hb : ContentHash)
    (councilSigs : SortedSet String) (now : U64) (m : ReleaseMeshState) :
    Except DomainError ReleaseCandidate × ReleaseMeshState :=
  if councilSigs.size < m.policy.councilQuorum then
    (.error (.quorumNotMet councilSigs.size m.policy.councilQuorum), m)
  else
    match ReleaseCandidate.new releaseId hs hb constitution.hash councilSigs now with
    | .error e => (.error e, m)
    | .ok candidate =>
      match m.putCandidate candidate with
      | (.error e, m) => (.error e, m)
      | (.ok (), m) => (.ok candidate, m)

/-- The two blobs of a proposal, put before anything is checked. -/
def ProposeRelease.publish (sha256 : List UInt8 → Digest) (source : List UInt8)
    (m : ReleaseMeshState) : ReleaseMeshState :=
  let hs := ContentHash.fromBytes sha256 source
  let hb := labRebuildBinaryHash sha256 source
  (m.putBlob hs source).putBlob hb (textBytes s!"lab-bin|{hs.text}")

/-- `ProposeRelease::execute`. -/
def ProposeRelease.execute (sha256 : List UInt8 → Digest) (constitution : Constitution)
    (releaseId : String) (source : List UInt8) (councilSigs : SortedSet String) (now : U64)
    (m : ReleaseMeshState) : Except DomainError ReleaseCandidate × ReleaseMeshState :=
  ProposeRelease.enter constitution releaseId (.fromBytes sha256 source)
    (labRebuildBinaryHash sha256 source) councilSigs now (ProposeRelease.publish sha256 source m)

/-- `ProposeRelease::execute_with_hashes`. -/
def ProposeRelease.executeWithHashes (constitution : Constitution) (releaseId : String)
    (hs hb : ContentHash) (councilSigs : SortedSet String) (now : U64) (m : ReleaseMeshState) :
    Except DomainError ReleaseCandidate × ReleaseMeshState :=
  match m.getBlob hs with
  | .error e => (.error e, m)
  | .ok _ => ProposeRelease.enter constitution releaseId hs hb councilSigs now m

/-- The rebuild of a candidate from the source that is stored. -/
def RebuildRelease.rebuilt (sha256 : List UInt8 → Digest) (c : ReleaseCandidate)
    (source : List UInt8) (vaultId : NodeId) : Except DomainError ReleaseCandidate :=
  if ContentHash.fromBytes sha256 source ≠ c.hs then .error .measurementMismatch
  else c.recordRebuild vaultId (labRebuildBinaryHash sha256 source)

/-- `RebuildRelease::execute`. -/
def RebuildRelease.execute (sha256 : List UInt8 → Digest) (releaseId : String) (vaultId : NodeId)
    (m : ReleaseMeshState) : Except DomainError ReleaseCandidate × ReleaseMeshState :=
  match m.getCandidate releaseId with
  | .error e => (.error e, m)
  | .ok candidate =>
    match m.getBlob candidate.hs with
    | .error e => (.error e, m)
    | .ok source =>
      match rebuilt sha256 candidate source vaultId with
      | .error e => (.error e, m)
      | .ok candidate =>
        match m.saveCandidate candidate with
        | (.error e, m) => (.error e, m)
        | (.ok (), m) => (.ok candidate, m)

/-- The candidate with the cosign of a node, where its predicates are met. -/
def CosignRelease.cosigned (policy : ReleasePolicy) (constitution : Constitution)
    (localNode : NodeId) (now : U64) (c : ReleaseCandidate) :
    Except DomainError ReleaseCandidate :=
  match c.predicatesOk policy now constitution.hash with
  | .error e => .error e
  | .ok () => c.addCosign localNode

/-- `CosignRelease::execute`, up to the governance hook. -/
def CosignRelease.store (constitution : Constitution) (localNode : NodeId) (releaseId : String)
    (now : U64) (m : ReleaseMeshState) : Except DomainError ReleaseCandidate × ReleaseMeshState :=
  match m.getCandidate releaseId with
  | .error e => (.error e, m)
  | .ok candidate =>
    match cosigned m.policy constitution localNode now candidate with
    | .error e => (.error e, m)
    | .ok candidate =>
      match m.saveCandidate candidate with
      | (.error e, m) => (.error e, m)
      | (.ok (), m) => (.ok candidate, m)

/-- The checks of an activation. The clock is read for them, and again for the entry. -/
def ActivateRelease.admitted (policy : ReleasePolicy) (constitution : Constitution)
    (checkedAt : U64) (c : ReleaseCandidate) : Outcome :=
  match c.predicatesOk policy checkedAt constitution.hash with
  | .error e => .error e
  | .ok () =>
    if c.cosigns.size < policy.vaultCosignQuorum then
      .error (.quorumNotMet c.cosigns.size policy.vaultCosignQuorum)
    else .ok ()

def ActivateRelease.entry (constitution : Constitution) (activatedAt : U64)
    (c : ReleaseCandidate) : AllowlistEntry :=
  { releaseId := c.id, hs := c.hs, hb := c.hb, activatedAtSecs := activatedAt,
    constitutionHash := constitution.hash }

/-- `ActivateRelease::execute`, up to the governance hook. -/
def ActivateRelease.store (constitution : Constitution) (releaseId : String)
    (checkedAt activatedAt : U64) (m : ReleaseMeshState) :
    Except DomainError (ReleaseCandidate × AllowlistEntry) × ReleaseMeshState :=
  match m.getCandidate releaseId with
  | .error e => (.error e, m)
  | .ok candidate =>
    match admitted m.policy constitution checkedAt candidate with
    | .error e => (.error e, m)
    | .ok () =>
      match m.saveCandidate candidate.activated with
      | (.error e, m) => (.error e, m)
      | (.ok (), m) =>
        (.ok (candidate, entry constitution activatedAt candidate),
          m.putAllowlist (entry constitution activatedAt candidate))

/-! ### What they leave -/

section Cases

variable {sha256 : List UInt8 → Digest} {constitution : Constitution} {releaseId : String}
  {hs hb : ContentHash} {councilSigs : SortedSet String} {now checkedAt activatedAt : U64}
  {vaultId localNode : NodeId}

/-- A proposal is refused, or enters a candidate under a new id. -/
theorem ProposeRelease.enter_cases (constitution : Constitution) (releaseId : String)
    (hs hb : ContentHash) (councilSigs : SortedSet String) (now : U64) (m : ReleaseMeshState) :
    (∃ e, ProposeRelease.enter constitution releaseId hs hb councilSigs now m = (.error e, m)) ∨
    ∃ c, c = ReleaseCandidate.proposed releaseId hs hb constitution.hash councilSigs now ∧
      m.policy.councilQuorum ≤ councilSigs.size ∧ m.candidates.lookup releaseId = none ∧
      strTrim releaseId ≠ "" ∧ councilSigs.size ≠ 0 ∧
      ProposeRelease.enter constitution releaseId hs hb councilSigs now m =
        (.ok c, m.setCandidate releaseId c) := by
  unfold ProposeRelease.enter
  by_cases hQuorum : councilSigs.size < m.policy.councilQuorum
  · rw [if_pos hQuorum]
    exact .inl ⟨_, rfl⟩
  rw [if_neg hQuorum]
  cases hNew : ReleaseCandidate.new releaseId hs hb constitution.hash councilSigs now with
  | error e => exact .inl ⟨e, rfl⟩
  | ok c =>
    obtain ⟨hc, hId, hSigs⟩ := ReleaseCandidate.new_ok hNew
    have hKey : c.id = releaseId := by rw [hc]; rfl
    dsimp only [ReleaseMeshState.putCandidate]
    rw [hKey]
    cases hLookup : m.candidates.lookup releaseId with
    | some d => exact .inl ⟨_, rfl⟩
    | none => exact .inr ⟨c, hc, not_lt.mp hQuorum, rfl, hId, hSigs, rfl⟩

/-- What a proposal under a new id needs. -/
theorem ProposeRelease.enter_of (constitution : Constitution) (hs hb : ContentHash) (now : U64)
    {m : ReleaseMeshState} (hQuorum : m.policy.councilQuorum ≤ councilSigs.size)
    (hId : strTrim releaseId ≠ "") (hSigs : councilSigs.size ≠ 0)
    (hNew : m.candidates.lookup releaseId = none) :
    ProposeRelease.enter constitution releaseId hs hb councilSigs now m =
      (.ok (.proposed releaseId hs hb constitution.hash councilSigs now),
        m.setCandidate releaseId (.proposed releaseId hs hb constitution.hash councilSigs now)) := by
  have hCandidate : ReleaseCandidate.new releaseId hs hb constitution.hash councilSigs now =
      .ok (.proposed releaseId hs hb constitution.hash councilSigs now) := by
    unfold ReleaseCandidate.new
    rw [if_neg hId, if_neg hSigs]
  have hPut : m.putCandidate (.proposed releaseId hs hb constitution.hash councilSigs now) =
      (.ok (), m.setCandidate releaseId
        (.proposed releaseId hs hb constitution.hash councilSigs now)) :=
    if_neg (by rw [show (ReleaseCandidate.proposed releaseId hs hb constitution.hash councilSigs
      now).id = releaseId from rfl, hNew]; exact Bool.false_ne_true)
  unfold ProposeRelease.enter
  rw [if_neg (not_lt.mpr hQuorum), hCandidate]
  dsimp only
  rw [hPut]

/-- A source that comes to both hashes of an open candidate is a rebuild of it. -/
theorem RebuildRelease.rebuilt_of {c : ReleaseCandidate} {source : List UInt8}
    (hHs : ContentHash.fromBytes sha256 source = c.hs) (hOpen : ¬ c.phase.Closed)
    (hHb : labRebuildBinaryHash sha256 source = c.hb) :
    RebuildRelease.rebuilt sha256 c source vaultId = .ok (c.withRebuild vaultId.text c.hb) := by
  unfold RebuildRelease.rebuilt ReleaseCandidate.recordRebuild
  rw [if_neg (not_not.mpr hHs), if_neg hOpen, hHb, if_neg (not_not.mpr rfl)]

/-- What a rebuild needs. -/
theorem RebuildRelease.execute_of {m : ReleaseMeshState} {c : ReleaseCandidate}
    {source : List UInt8} (hLookup : m.candidates.lookup releaseId = some c)
    (hId : c.id = releaseId) (hOpen : ¬ c.phase.Closed)
    (hBlob : m.blobs.lookup c.hs.text = some source)
    (hHs : ContentHash.fromBytes sha256 source = c.hs)
    (hHb : labRebuildBinaryHash sha256 source = c.hb) :
    RebuildRelease.execute sha256 releaseId vaultId m =
      (.ok (c.withRebuild vaultId.text c.hb),
        m.setCandidate releaseId (c.withRebuild vaultId.text c.hb)) := by
  have hRebuilt : RebuildRelease.rebuilt sha256 c source vaultId =
      .ok (c.withRebuild vaultId.text c.hb) := rebuilt_of hHs hOpen hHb
  unfold RebuildRelease.execute
  rw [ReleaseMeshState.getCandidate_ok.mpr hLookup]
  dsimp only
  rw [ReleaseMeshState.getBlob_ok.mpr hBlob]
  dsimp only
  rw [hRebuilt]
  dsimp only
  rw [ReleaseMeshState.saveCandidate_of_lookup (c.withRebuild vaultId.text c.hb) hLookup hId]

theorem RebuildRelease.rebuilt_ok {c d : ReleaseCandidate} {source : List UInt8}
    (h : RebuildRelease.rebuilt sha256 c source vaultId = .ok d) :
    ContentHash.fromBytes sha256 source = c.hs ∧ ¬ c.phase.Closed ∧
      labRebuildBinaryHash sha256 source = c.hb ∧ d = c.withRebuild vaultId.text c.hb := by
  unfold RebuildRelease.rebuilt at h
  by_cases hHs : ContentHash.fromBytes sha256 source = c.hs
  · rw [if_neg (not_not.mpr hHs)] at h
    exact ⟨hHs, ReleaseCandidate.recordRebuild_ok h⟩
  · rw [if_pos hHs] at h
    cases h

/-- A rebuild is refused, or recorded of an open candidate whose stored source
comes to its two hashes. -/
theorem RebuildRelease.execute_cases (sha256 : List UInt8 → Digest) (releaseId : String)
    (vaultId : NodeId) (m : ReleaseMeshState)
    (hKeyed : ∀ c, m.candidates.lookup releaseId = some c → c.id = releaseId) :
    (∃ e, RebuildRelease.execute sha256 releaseId vaultId m = (.error e, m)) ∨
    ∃ c source, m.candidates.lookup releaseId = some c ∧ ¬ c.phase.Closed ∧
      m.blobs.lookup c.hs.text = some source ∧ ContentHash.fromBytes sha256 source = c.hs ∧
      labRebuildBinaryHash sha256 source = c.hb ∧
      RebuildRelease.execute sha256 releaseId vaultId m =
        (.ok (c.withRebuild vaultId.text c.hb),
          m.setCandidate releaseId (c.withRebuild vaultId.text c.hb)) := by
  unfold RebuildRelease.execute
  cases hGet : m.getCandidate releaseId with
  | error e => exact .inl ⟨e, rfl⟩
  | ok c =>
    have hLookup := ReleaseMeshState.getCandidate_ok.mp hGet
    dsimp only
    cases hBlob : m.getBlob c.hs with
    | error e => exact .inl ⟨e, rfl⟩
    | ok source =>
      dsimp only
      cases hRebuilt : RebuildRelease.rebuilt sha256 c source vaultId with
      | error e => exact .inl ⟨e, rfl⟩
      | ok d =>
        obtain ⟨hHs, hOpen, hHb, rfl⟩ := rebuilt_ok hRebuilt
        dsimp only
        rw [ReleaseMeshState.saveCandidate_of_lookup (c.withRebuild vaultId.text c.hb) hLookup
          (hKeyed c hLookup)]
        exact .inr ⟨c, source, hLookup, hOpen, ReleaseMeshState.getBlob_ok.mp hBlob, hHs, hHb, rfl⟩

theorem CosignRelease.cosigned_ok {policy : ReleasePolicy} {c d : ReleaseCandidate}
    (h : CosignRelease.cosigned policy constitution localNode now c = .ok d) :
    c.predicatesOk policy now constitution.hash = .ok () ∧ ¬ c.phase.Closed ∧
      d = c.withCosign localNode.text := by
  unfold CosignRelease.cosigned at h
  split at h
  · cases h
  · exact ⟨‹_›, ReleaseCandidate.addCosign_ok h⟩

theorem ActivateRelease.admitted_ok {policy : ReleasePolicy} {c : ReleaseCandidate}
    (h : ActivateRelease.admitted policy constitution checkedAt c = .ok ()) :
    c.predicatesOk policy checkedAt constitution.hash = .ok () ∧
      policy.vaultCosignQuorum ≤ c.cosigns.size := by
  unfold ActivateRelease.admitted at h
  split at h
  · cases h
  · split at h
    · cases h
    · exact ⟨‹_›, not_lt.mp ‹_›⟩

/-- A cosign is refused, or added to an open candidate that meets its predicates. -/
theorem CosignRelease.store_cases (constitution : Constitution) (localNode : NodeId)
    (releaseId : String) (now : U64) (m : ReleaseMeshState)
    (hKeyed : ∀ c, m.candidates.lookup releaseId = some c → c.id = releaseId) :
    (∃ e, CosignRelease.store constitution localNode releaseId now m = (.error e, m)) ∨
    ∃ c, m.candidates.lookup releaseId = some c ∧ ¬ c.phase.Closed ∧
      c.predicatesOk m.policy now constitution.hash = .ok () ∧
      CosignRelease.store constitution localNode releaseId now m =
        (.ok (c.withCosign localNode.text),
          m.setCandidate releaseId (c.withCosign localNode.text)) := by
  unfold CosignRelease.store
  cases hGet : m.getCandidate releaseId with
  | error e => exact .inl ⟨e, rfl⟩
  | ok c =>
    have hLookup := ReleaseMeshState.getCandidate_ok.mp hGet
    dsimp only
    cases hCosigned : CosignRelease.cosigned m.policy constitution localNode now c with
    | error e => exact .inl ⟨e, rfl⟩
    | ok d =>
      obtain ⟨hPredicates, hOpen, rfl⟩ := cosigned_ok hCosigned
      dsimp only
      rw [ReleaseMeshState.saveCandidate_of_lookup (c.withCosign localNode.text) hLookup
        (hKeyed c hLookup)]
      exact .inr ⟨c, hLookup, hOpen, hPredicates, rfl⟩

/-- An activation is refused, or closes a candidate that meets its predicates
and has its cosigns, and lists it. -/
theorem ActivateRelease.store_cases (constitution : Constitution) (releaseId : String)
    (checkedAt activatedAt : U64) (m : ReleaseMeshState)
    (hKeyed : ∀ c, m.candidates.lookup releaseId = some c → c.id = releaseId) :
    (∃ e, ActivateRelease.store constitution releaseId checkedAt activatedAt m = (.error e, m)) ∨
    ∃ c, m.candidates.lookup releaseId = some c ∧
      c.predicatesOk m.policy checkedAt constitution.hash = .ok () ∧
      m.policy.vaultCosignQuorum ≤ c.cosigns.size ∧
      ActivateRelease.store constitution releaseId checkedAt activatedAt m =
        (.ok (c, ActivateRelease.entry constitution activatedAt c),
          (m.setCandidate releaseId c.activated).putAllowlist
            (ActivateRelease.entry constitution activatedAt c)) := by
  unfold ActivateRelease.store
  cases hGet : m.getCandidate releaseId with
  | error e => exact .inl ⟨e, rfl⟩
  | ok c =>
    have hLookup := ReleaseMeshState.getCandidate_ok.mp hGet
    dsimp only
    cases hAdmitted : ActivateRelease.admitted m.policy constitution checkedAt c with
    | error e => exact .inl ⟨e, rfl⟩
    | ok u =>
      obtain ⟨hPredicates, hQuorum⟩ := admitted_ok hAdmitted
      dsimp only
      rw [ReleaseMeshState.saveCandidate_of_lookup c.activated hLookup (hKeyed c hLookup)]
      exact .inr ⟨c, hLookup, hPredicates, hQuorum, rfl⟩

end Cases

/-! ## The governance hook -/

/-- What the use cases run on. -/
structure ReleaseNode where
  mesh : ReleaseMeshState
  economy : EconomyPools
  ledger : GovernanceLedger

/-- `Measurement::from_bytes` of a text, in hexadecimal. -/
def measureText (sha256 : List UInt8 → Digest) (text : String) : String :=
  (ContentHash.fromBytes sha256 (textBytes text)).text

/-- What the node is wired with. -/
structure ReleaseWiring where
  sha256 : List UInt8 → Digest
  governance : Option AccrueGovernanceWork

/-- Without the governance hook. -/
def soloWiring : ReleaseWiring := { sha256 := foldDigest, governance := none }

def soloEconomy : EconomyPools :=
  { policy := ⟨0, 0, 0⟩, operators := ∅, minerPoolSats := 0, pendingGovernanceRewardSats := 0,
    governanceCredits := ∅ }

def soloLedger : GovernanceLedger :=
  { constitution := soloConstitution, epoch := ⟨0, [⟨"v1"⟩]⟩, entries := [] }

namespace ReleaseNode

/-- A node with an empty store. -/
def fresh (policy : ReleasePolicy) (economy : EconomyPools) (ledger : GovernanceLedger) :
    ReleaseNode :=
  { mesh := .new policy, economy, ledger }

/-- `gov.execute`, where a hook is set. -/
def reward (w : ReleaseWiring) (economyWrite : Outcome) (job : GovernanceJobKind)
    (participants : List NodeId) (context : String) (s : ReleaseNode) : Outcome × ReleaseNode :=
  match w.governance with
  | none => (.ok (), s)
  | some gov =>
    match gov.execute (measureText w.sha256) economyWrite job participants context s.economy
      s.ledger with
    | (.error e, economy, ledger) => (.error e, { s with economy, ledger })
    | (.ok _, economy, ledger) => (.ok (), { s with economy, ledger })

/-- A hook adds an event to the ledger, or leaves it. -/
theorem reward_ledger (w : ReleaseWiring) (economyWrite : Outcome) (job : GovernanceJobKind)
    (participants : List NodeId) (context : String) (s : ReleaseNode) :
    ∃ entries, (s.reward w economyWrite job participants context).2.ledger =
      { s.ledger with entries } := by
  unfold reward
  split
  · exact ⟨s.ledger.entries, rfl⟩
  · rename_i gov _
    have hLedger := gov.execute_ledger (measureText w.sha256) economyWrite job participants context
      s.economy s.ledger
    split
    · rename_i hEq
      rw [hEq] at hLedger
      rcases hLedger with rfl | ⟨-, rfl⟩
      · exact ⟨s.ledger.entries, rfl⟩
      · exact ⟨_, rfl⟩
    · rename_i hEq
      rw [hEq] at hLedger
      rcases hLedger with rfl | ⟨-, rfl⟩
      · exact ⟨s.ledger.entries, rfl⟩
      · exact ⟨_, rfl⟩

theorem reward_mesh (w : ReleaseWiring) (economyWrite : Outcome) (job : GovernanceJobKind)
    (participants : List NodeId) (context : String) (s : ReleaseNode) :
    (s.reward w economyWrite job participants context).2.mesh = s.mesh := by
  unfold reward
  split
  · rfl
  · split <;> rfl

end ReleaseNode

/-- `CosignRelease::execute`. -/
def CosignRelease.execute (w : ReleaseWiring) (localNode : NodeId) (releaseId : String) (now : U64)
    (economyWrite : Outcome) (s : ReleaseNode) : Outcome × ReleaseNode :=
  match CosignRelease.store s.ledger.constitution localNode releaseId now s.mesh with
  | (.error e, mesh) => (.error e, { s with mesh })
  | (.ok _, mesh) =>
    ReleaseNode.reward w economyWrite .releaseCosign [localNode] releaseId { s with mesh }

/-- The cosigners an activation rewards. -/
def ActivateRelease.cosigners (c : ReleaseCandidate) : List NodeId :=
  c.cosigns.keys.filterMap fun id => (NodeId.new id).toOption

/-- `ActivateRelease::execute`. -/
def ActivateRelease.execute (w : ReleaseWiring) (releaseId : String) (checkedAt activatedAt : U64)
    (economyWrite : Outcome) (s : ReleaseNode) : Outcome × ReleaseNode :=
  match ActivateRelease.store s.ledger.constitution releaseId checkedAt activatedAt s.mesh with
  | (.error e, mesh) => (.error e, { s with mesh })
  | (.ok (candidate, _), mesh) =>
    ReleaseNode.reward w economyWrite .releaseActivate (cosigners candidate) releaseId
      { s with mesh }

/-! ## Calls -/

/-- A call of a use case, with what the environment supplies. -/
inductive ReleaseOp where
  | propose (releaseId : String) (source : List UInt8) (councilSigs : SortedSet String) (now : U64)
  | proposeWithHashes (releaseId : String) (hs hb : ContentHash) (councilSigs : SortedSet String)
      (now : U64)
  | rebuild (releaseId : String) (vaultId : NodeId)
  | cosign (localNode : NodeId) (releaseId : String) (now : U64) (economyWrite : Outcome)
  | activate (releaseId : String) (checkedAt activatedAt : U64) (economyWrite : Outcome)

namespace ReleaseNode

/-- One call, and whether it answers Ok. -/
def perform (w : ReleaseWiring) (s : ReleaseNode) : ReleaseOp → Outcome × ReleaseNode
  | .propose releaseId source councilSigs now =>
    let r := ProposeRelease.execute w.sha256 s.ledger.constitution releaseId source councilSigs
      now s.mesh
    (r.1.map fun _ => (), { s with mesh := r.2 })
  | .proposeWithHashes releaseId hs hb councilSigs now =>
    let r := ProposeRelease.executeWithHashes s.ledger.constitution releaseId hs hb councilSigs
      now s.mesh
    (r.1.map fun _ => (), { s with mesh := r.2 })
  | .rebuild releaseId vaultId =>
    let r := RebuildRelease.execute w.sha256 releaseId vaultId s.mesh
    (r.1.map fun _ => (), { s with mesh := r.2 })
  | .cosign localNode releaseId now economyWrite =>
    CosignRelease.execute w localNode releaseId now economyWrite s
  | .activate releaseId checkedAt activatedAt economyWrite =>
    ActivateRelease.execute w releaseId checkedAt activatedAt economyWrite s

def step (w : ReleaseWiring) (s : ReleaseNode) (op : ReleaseOp) : ReleaseNode := (s.perform w op).2

def soloNode : ReleaseNode := fresh .solo soloEconomy soloLedger

end ReleaseNode

/-- Candidates stand under their own ids. -/
def ReleaseMeshState.Keyed (m : ReleaseMeshState) : Prop :=
  ∀ id c, m.candidates.lookup id = some c → c.id = id

/-- The blobs a call publishes, whatever it answers. -/
def ReleaseOp.published (sha256 : List UInt8 → Digest) :
    ReleaseOp → ReleaseMeshState → ReleaseMeshState
  | .propose _ source _ _, m => ProposeRelease.publish sha256 source m
  | _, m => m

/-- What a call can leave of the store. -/
inductive MeshStep (sha256 : List UInt8 → Digest) (constitution : Constitution)
    (m : ReleaseMeshState) : ReleaseOp → ReleaseMeshState → Prop
  | refused (op : ReleaseOp) : MeshStep sha256 constitution m op (op.published sha256 m)
  | proposed (id : String) (source : List UInt8) (councilSigs : SortedSet String) (now : U64)
      (hNew : m.candidates.lookup id = none)
      (hQuorum : m.policy.councilQuorum ≤ councilSigs.size) (hId : strTrim id ≠ "")
      (hSigs : councilSigs.size ≠ 0) :
      MeshStep sha256 constitution m (.propose id source councilSigs now)
        ((ProposeRelease.publish sha256 source m).setCandidate id
          (.proposed id (.fromBytes sha256 source) (labRebuildBinaryHash sha256 source)
            constitution.hash councilSigs now))
  | proposedWithHashes (id : String) (hs hb : ContentHash) (councilSigs : SortedSet String)
      (now : U64) (hNew : m.candidates.lookup id = none)
      (hQuorum : m.policy.councilQuorum ≤ councilSigs.size) (hId : strTrim id ≠ "")
      (hSigs : councilSigs.size ≠ 0) :
      MeshStep sha256 constitution m (.proposeWithHashes id hs hb councilSigs now)
        (m.setCandidate id (.proposed id hs hb constitution.hash councilSigs now))
  | rebuilt (id : String) (vaultId : NodeId) (c : ReleaseCandidate) (source : List UInt8)
      (hLookup : m.candidates.lookup id = some c) (hOpen : ¬ c.phase.Closed)
      (hBlob : m.blobs.lookup c.hs.text = some source)
      (hHs : ContentHash.fromBytes sha256 source = c.hs)
      (hHb : labRebuildBinaryHash sha256 source = c.hb) :
      MeshStep sha256 constitution m (.rebuild id vaultId)
        (m.setCandidate id (c.withRebuild vaultId.text c.hb))
  | cosigned (localNode : NodeId) (id : String) (now : U64) (economyWrite : Outcome)
      (c : ReleaseCandidate) (hLookup : m.candidates.lookup id = some c)
      (hOpen : ¬ c.phase.Closed)
      (hPredicates : c.predicatesOk m.policy now constitution.hash = .ok ()) :
      MeshStep sha256 constitution m (.cosign localNode id now economyWrite)
        (m.setCandidate id (c.withCosign localNode.text))
  | activated (id : String) (checkedAt activatedAt : U64) (economyWrite : Outcome)
      (c : ReleaseCandidate) (hLookup : m.candidates.lookup id = some c)
      (hPredicates : c.predicatesOk m.policy checkedAt constitution.hash = .ok ())
      (hQuorum : m.policy.vaultCosignQuorum ≤ c.cosigns.size) :
      MeshStep sha256 constitution m (.activate id checkedAt activatedAt economyWrite)
        ((m.setCandidate id c.activated).putAllowlist
          (ActivateRelease.entry constitution activatedAt c))

namespace ReleaseNode

variable (w : ReleaseWiring) (s : ReleaseNode)

theorem cosign_mesh (localNode : NodeId) (releaseId : String) (now : U64)
    (economyWrite : Outcome) :
    (s.step w (.cosign localNode releaseId now economyWrite)).mesh =
      (CosignRelease.store s.ledger.constitution localNode releaseId now s.mesh).2 := by
  show (CosignRelease.execute w localNode releaseId now economyWrite s).2.mesh = _
  unfold CosignRelease.execute
  split
  · rename_i hEq
    rw [hEq]
  · rename_i hEq
    rw [reward_mesh, hEq]

theorem activate_mesh (releaseId : String) (checkedAt activatedAt : U64)
    (economyWrite : Outcome) :
    (s.step w (.activate releaseId checkedAt activatedAt economyWrite)).mesh =
      (ActivateRelease.store s.ledger.constitution releaseId checkedAt activatedAt s.mesh).2 := by
  show (ActivateRelease.execute w releaseId checkedAt activatedAt economyWrite s).2.mesh = _
  unfold ActivateRelease.execute
  split
  · rename_i hEq
    rw [hEq]
  · rename_i hEq
    rw [reward_mesh, hEq]

/-- A call adds entries to the ledger, and changes nothing else of it. -/
theorem step_ledger (op : ReleaseOp) :
    ∃ entries, (s.step w op).ledger = { s.ledger with entries } := by
  cases op with
  | propose id source councilSigs now => exact ⟨s.ledger.entries, rfl⟩
  | proposeWithHashes id hs hb councilSigs now => exact ⟨s.ledger.entries, rfl⟩
  | rebuild id vaultId => exact ⟨s.ledger.entries, rfl⟩
  -- a cosign or an activation may enter its reward
  | cosign localNode id now economyWrite =>
    show ∃ entries, (CosignRelease.execute w localNode id now economyWrite s).2.ledger = _
    unfold CosignRelease.execute
    split
    · exact ⟨s.ledger.entries, rfl⟩
    · rename_i mesh _
      exact reward_ledger w economyWrite .releaseCosign [localNode] id { s with mesh }
  | activate id checkedAt activatedAt economyWrite =>
    show ∃ entries,
      (ActivateRelease.execute w id checkedAt activatedAt economyWrite s).2.ledger = _
    unfold ActivateRelease.execute
    split
    · exact ⟨s.ledger.entries, rfl⟩
    · rename_i candidate _ mesh _
      exact reward_ledger w economyWrite .releaseActivate (ActivateRelease.cosigners candidate) id
        { s with mesh }

/-- No call changes the constitution. -/
theorem step_constitution (op : ReleaseOp) :
    (s.step w op).ledger.constitution = s.ledger.constitution := by
  obtain ⟨entries, hLedger⟩ := step_ledger w s op
  rw [hLedger]

/-- No call changes the epoch. -/
theorem step_epoch (op : ReleaseOp) : (s.step w op).ledger.epoch = s.ledger.epoch := by
  obtain ⟨entries, hLedger⟩ := step_ledger w s op
  rw [hLedger]

/-- What any call leaves of the store. -/
theorem step_mesh (hKeyed : s.mesh.Keyed) (op : ReleaseOp) :
    MeshStep w.sha256 s.ledger.constitution s.mesh op (s.step w op).mesh := by
  cases op with
  | propose id source councilSigs now =>
    show MeshStep _ _ _ _ (ProposeRelease.enter s.ledger.constitution id _ _ councilSigs now
      (ProposeRelease.publish w.sha256 source s.mesh)).2
    rcases ProposeRelease.enter_cases s.ledger.constitution id (.fromBytes w.sha256 source)
      (labRebuildBinaryHash w.sha256 source) councilSigs now
      (ProposeRelease.publish w.sha256 source s.mesh) with
      ⟨e, hEq⟩ | ⟨c, rfl, hQuorum, hNew, hId, hSigs, hEq⟩
    · rw [hEq]
      exact .refused _
    · rw [hEq]
      exact .proposed id source councilSigs now hNew hQuorum hId hSigs
  | proposeWithHashes id hs hb councilSigs now =>
    show MeshStep _ _ _ _ (ProposeRelease.executeWithHashes s.ledger.constitution id hs hb
      councilSigs now s.mesh).2
    unfold ProposeRelease.executeWithHashes
    -- the hashes are looked at before the council
    split
    · exact .refused (.proposeWithHashes id hs hb councilSigs now)
    · rcases ProposeRelease.enter_cases s.ledger.constitution id hs hb councilSigs now s.mesh with
        ⟨e, hEq⟩ | ⟨c, rfl, hQuorum, hNew, hId, hSigs, hEq⟩
      · rw [hEq]
        exact .refused (.proposeWithHashes id hs hb councilSigs now)
      · rw [hEq]
        exact .proposedWithHashes id hs hb councilSigs now hNew hQuorum hId hSigs
  | rebuild id vaultId =>
    show MeshStep _ _ _ _ (RebuildRelease.execute w.sha256 id vaultId s.mesh).2
    rcases RebuildRelease.execute_cases w.sha256 id vaultId s.mesh (hKeyed id) with
      ⟨e, hEq⟩ | ⟨c, source, hLookup, hOpen, hBlob, hHs, hHb, hEq⟩
    · rw [hEq]
      exact .refused (.rebuild id vaultId)
    · rw [hEq]
      exact .rebuilt id vaultId c source hLookup hOpen hBlob hHs hHb
  | cosign localNode id now economyWrite =>
    -- the reward and its write do not reach the store
    rw [cosign_mesh]
    rcases CosignRelease.store_cases s.ledger.constitution localNode id now s.mesh (hKeyed id) with
      ⟨e, hEq⟩ | ⟨c, hLookup, hOpen, hPredicates, hEq⟩
    · rw [hEq]
      exact .refused (.cosign localNode id now economyWrite)
    · rw [hEq]
      exact .cosigned localNode id now economyWrite c hLookup hOpen hPredicates
  | activate id checkedAt activatedAt economyWrite =>
    rw [activate_mesh]
    rcases ActivateRelease.store_cases s.ledger.constitution id checkedAt activatedAt s.mesh
      (hKeyed id) with ⟨e, hEq⟩ | ⟨c, hLookup, hPredicates, hQuorum, hEq⟩
    · rw [hEq]
      exact .refused (.activate id checkedAt activatedAt economyWrite)
    · rw [hEq]
      exact .activated id checkedAt activatedAt economyWrite c hLookup hPredicates hQuorum

end ReleaseNode

end KeroseneVault
