import KeroseneVault.Http.HybridGate
import KeroseneVault.Release.Evidence
import KeroseneVault.Rotation.VoteMesh

/-!
# The release routes

The release routes of `dispatch_legacy`. Both roles may call them, and none looks
at who the caller is: `/release/rebuild/` records the vault that the path names,
and `/release/propose/` counts the names of the path as council signatures.
Beside the node stands a record of the rebuild requests that were accepted.

* `ReleaseRoute`, `releaseRoute` — what a path asks for, or its refusal;
* `ReleaseGate.step` — one request;
* `Authentic` — each rebuild is of a vault of the active set that submitted it
  itself, and each signature of a council member that signed;
* `NamesItself` — a request that would be counted names its own caller, or
  members that signed.

Main result: `authentic_iff` — the evidence stays authentic exactly when every
request names itself.
-/

namespace KeroseneVault

/-! ## Paths -/

/-- The names of a list with commas, without blanks around them. -/
def councilNames (csv : List Char) : SortedSet String :=
  .ofKeys (((csv.splitOn ',').map fun name => strTrim (String.ofList name)).filter (· ≠ ""))

/-- What a path asks for. -/
inductive ReleaseRoute where
  | proposeTampered (id sourceLabel evilHb : String) (council : SortedSet String)
  | propose (id sourceLabel : String) (council : SortedSet String)
  | rebuild (id : String) (vault : NodeId)
  | cosign (id : String)
  | activate (id : String)

/-- `path.starts_with(route)`. -/
def hasRoute (route path : String) : Bool := route.toList.isPrefixOf path.toList

/-- The rest of a path after the route, `trim_start_matches`. -/
def pathRest (route path : String) : List Char :=
  trimStartMatches route.toList path.length path.toList

/-- `dispatch_legacy` of a `POST` to the release routes, up to the use case. -/
def releaseRoute (labEndpointsEnabled : Bool) (path : String) : Except Refusal ReleaseRoute :=
  if strLen path > 512 then .error (.text 414 "request rejected: path too long")
  else if strContains path ".." then .error (.text 400 "request rejected: path traversal")
  else if hasRoute "/release/propose-tampered/" path then
    if !labEndpointsEnabled then
      .error (.text 403 "lab flag forbidden outside lab: propose-tampered")
    else
      let segs := splitN '/' 4 (pathRest "/release/propose-tampered/" path)
      let id := segs.getD 0 []
      let sourceLabel := segs.getD 1 []
      let evilHb := segs.getD 2 []
      let councilCsv := segs.getD 3 []
      if id = [] ∨ sourceLabel = [] ∨ evilHb = [] ∨ councilCsv = [] then
        .error (.text 400
          "usage /release/propose-tampered/\x7bid\x7d/\x7bsource\x7d/\x7bevil_hb\x7d/\x7bcouncil\x7d")
      else .ok (.proposeTampered (String.ofList id) (String.ofList sourceLabel)
        (String.ofList evilHb) (councilNames councilCsv))
  else if hasRoute "/release/propose/" path then
    let segs := splitN '/' 3 (pathRest "/release/propose/" path)
    let id := segs.getD 0 []
    let sourceLabel := segs.getD 1 []
    let councilCsv := segs.getD 2 []
    if id = [] ∨ sourceLabel = [] ∨ councilCsv = [] then
      .error (.text 400 "usage /release/propose/\x7bid\x7d/\x7bsource_label\x7d/\x7bcouncil_csv\x7d")
    else .ok (.propose (String.ofList id) (String.ofList sourceLabel) (councilNames councilCsv))
  else if hasRoute "/release/rebuild/" path then
    let segs := splitN '/' 2 (pathRest "/release/rebuild/" path)
    let id := segs.getD 0 []
    let vaultId := segs.getD 1 []
    match NodeId.new (String.ofList vaultId) with
    | .error e => .error (.domain 400 e)
    | .ok vault => .ok (.rebuild (String.ofList id) vault)
  else if hasRoute "/release/cosign/" path then
    .ok (.cosign (String.ofList (pathRest "/release/cosign/" path)))
  else if hasRoute "/release/activate/" path then
    .ok (.activate (String.ofList (pathRest "/release/activate/" path)))
  else .error (.text 404 "not found")

/-! ## The node -/

structure ReleaseGateConfig where
  nodeId : NodeId
  labEndpointsEnabled : Bool
  wiring : ReleaseWiring

/-- A `POST`: what the middleware's token, rate and certificate checks say, the
principal it found, the path, and what the environment supplies. -/
structure ReleaseRequest where
  admission : Except Refusal Unit
  principal : MeshPrincipal
  path : String
  now : U64
  activatedAt : U64
  economyWrite : Outcome

/-- A rebuild request that was accepted, and who sent it. -/
structure ReleaseSubmission where
  releaseId : String
  vaultId : NodeId
  caller : MeshPrincipal

/-- The vault itself sent it. -/
def ReleaseSubmission.Own (e : ReleaseSubmission) : Prop :=
  e.caller.role = .vault ∧ e.caller.nodeId = e.vaultId.text

structure ReleaseGate where
  node : ReleaseNode
  submissions : List ReleaseSubmission

namespace ReleaseGate

variable (cfg : ReleaseGateConfig)

/-- The route of a request. The middleware lets both roles through to `/release/`. -/
def route (r : ReleaseRequest) : Except Refusal ReleaseRoute :=
  match r.admission with
  | .error refusal => .error refusal
  | .ok () => releaseRoute cfg.labEndpointsEnabled r.path

/-- The use case of a route. -/
def perform (r : ReleaseRequest) (s : ReleaseNode) : ReleaseRoute → Outcome × ReleaseNode
  | .proposeTampered id sourceLabel evilHb council =>
    let hs := ContentHash.fromBytes cfg.wiring.sha256 (textBytes sourceLabel)
    let s := { s with mesh := s.mesh.putBlob hs (textBytes sourceLabel) }
    match ContentHash.parse evilHb with
    | .error e => (.error e, s)
    | .ok hb => s.perform cfg.wiring (.proposeWithHashes id hs hb council r.now)
  | .propose id sourceLabel council =>
    s.perform cfg.wiring (.propose id (textBytes sourceLabel) council r.now)
  | .rebuild id vault => s.perform cfg.wiring (.rebuild id vault)
  | .cosign id => s.perform cfg.wiring (.cosign cfg.nodeId id r.now r.economyWrite)
  | .activate id =>
    s.perform cfg.wiring (.activate id r.now r.activatedAt r.economyWrite)

/-- The submission of an accepted request. -/
def submission (r : ReleaseRequest) : ReleaseRoute → Option ReleaseSubmission
  | .rebuild id vault => some ⟨id, vault, r.principal⟩
  | _ => none

def step (s : ReleaseGate) (r : ReleaseRequest) : ReleaseGate :=
  match route cfg r with
  | .error _ => s
  | .ok route =>
    match perform cfg r s.node route with
    | (.error _, node) => { s with node }
    | (.ok (), node) => ⟨node, (submission r route).toList ++ s.submissions⟩

/-- A node with an empty store. -/
def start (policy : ReleasePolicy) (economy : EconomyPools) (ledger : GovernanceLedger) :
    ReleaseGate :=
  ⟨.fresh policy economy ledger, []⟩

/-! ## Authentic evidence -/

section Authentic

variable (members : List String) (signed : String → String → Bool)

/-- The name is that of a council member who signed the release. -/
def Genuine (id name : String) : Prop := name ∈ members ∧ signed id name = true

/-- Each rebuild is of a vault of the active set that submitted it itself, and
each council signature of a member that signed. -/
structure AuthenticAs (activeSet : List NodeId) (submissions : List ReleaseSubmission)
    (id : String) (c : ReleaseCandidate) : Prop where
  rebuilds : ∀ vault ∈ c.rebuilds.keys, ⟨vault⟩ ∈ activeSet ∧
    ∃ e ∈ submissions, e.releaseId = id ∧ e.vaultId = ⟨vault⟩ ∧ e.Own
  council : ∀ name ∈ c.councilSigs.keys, Genuine members signed id name

/-- The evidence of every candidate. -/
def Authentic (s : ReleaseGate) : Prop :=
  ∀ id c, s.node.mesh.candidates.lookup id = some c →
    AuthenticAs members signed s.node.ledger.epoch.activeSet s.submissions id c

/-- A proposal under the id with these signatures enters a candidate. -/
def Enters (m : ReleaseMeshState) (id : String) (council : SortedSet String) : Prop :=
  m.policy.councilQuorum ≤ council.size ∧ m.candidates.lookup id = none ∧ strTrim id ≠ "" ∧
    council.size ≠ 0

/-- The candidate is open, and its stored source comes to its hashes. -/
def Rebuilds (m : ReleaseMeshState) (c : ReleaseCandidate) : Prop :=
  ¬ c.phase.Closed ∧ ∃ source, m.blobs.lookup c.hs.text = some source ∧
    ContentHash.fromBytes cfg.wiring.sha256 source = c.hs ∧
    labRebuildBinaryHash cfg.wiring.sha256 source = c.hb

/-- A rebuild that would be counted names its caller, a vault of the active set,
and a proposal that would be entered names members that signed. -/
def NamesItself (s : ReleaseGate) (r : ReleaseRequest) : Prop :=
  match route cfg r with
  | .ok (.rebuild id vault) => ∀ c, s.node.mesh.candidates.lookup id = some c →
    Rebuilds cfg s.node.mesh c → vault.text ∉ c.rebuilds.keys →
      vault ∈ s.node.ledger.epoch.activeSet ∧ r.principal.role = .vault ∧
        r.principal.nodeId = vault.text
  | .ok (.propose id _ council) => Enters s.node.mesh id council →
    ∀ name ∈ council.keys, Genuine members signed id name
  | .ok (.proposeTampered id _ evilHb council) => (∃ hb, ContentHash.parse evilHb = .ok hb) →
    Enters s.node.mesh id council → ∀ name ∈ council.keys, Genuine members signed id name
  | _ => True

end Authentic

/-! ## One request -/

section Step

variable {cfg} {members : List String} {signed : String → String → Bool} {s s' : ReleaseGate}

/-- Submissions are of vaults whose rebuild is in the candidate. -/
structure Logged (s : ReleaseGate) : Prop where
  keyed : s.node.mesh.Keyed
  recorded : ∀ e ∈ s.submissions, ∃ c,
    s.node.mesh.candidates.lookup e.releaseId = some c ∧ e.vaultId.text ∈ c.rebuilds.keys

theorem AuthenticAs.mono {activeSet : List NodeId} {submissions later : List ReleaseSubmission}
    {id : String} {c : ReleaseCandidate} (hSub : submissions ⊆ later)
    (h : AuthenticAs members signed activeSet submissions id c) :
    AuthenticAs members signed activeSet later id c := by
  refine ⟨fun vault hVault => ?_, h.council⟩
  obtain ⟨hActive, e, he, hOwn⟩ := h.rebuilds vault hVault
  exact ⟨hActive, e, hSub he, hOwn⟩

/-- The same evidence is as authentic as before. -/
theorem authentic_of_same (h : Authentic members signed s)
    (hEpoch : s'.node.ledger.epoch = s.node.ledger.epoch) (hSub : s.submissions ⊆ s'.submissions)
    (hCandidates : ∀ id c, s'.node.mesh.candidates.lookup id = some c →
      ∃ d, s.node.mesh.candidates.lookup id = some d ∧ d.rebuilds = c.rebuilds ∧
        d.councilSigs = c.councilSigs) :
    Authentic members signed s' := by
  intro id c hLookup
  obtain ⟨d, hBefore, hRebuilds, hCouncil⟩ := hCandidates id c hLookup
  obtain ⟨hOwn, hGenuine⟩ := (h id d hBefore).mono hSub
  rw [hEpoch]
  exact ⟨hRebuilds ▸ hOwn, hCouncil ▸ hGenuine⟩

/-- Where one candidate is set, it is the one that matters. -/
theorem authentic_set_iff (h : Authentic members signed s)
    (hEpoch : s'.node.ledger.epoch = s.node.ledger.epoch) (hSub : s.submissions ⊆ s'.submissions)
    {id : String} {d : ReleaseCandidate}
    (hCandidates : s'.node.mesh.candidates = s.node.mesh.candidates.insert id d) :
    Authentic members signed s' ↔
      AuthenticAs members signed s.node.ledger.epoch.activeSet s'.submissions id d := by
  constructor
  · intro hAfter
    have hLookup : s'.node.mesh.candidates.lookup id = some d := by
      rw [hCandidates]
      exact SortedMap.lookup_insert_self ..
    exact hEpoch ▸ hAfter id d hLookup
  · -- the other candidates are as they were, and submissions are only added
    intro hNew j c hLookup
    rw [hEpoch]
    rw [hCandidates, SortedMap.lookup_insert] at hLookup
    split at hLookup
    · rename_i hj
      obtain rfl := Option.some.inj hLookup
      exact hj ▸ hNew
    · exact (h j c hLookup).mono hSub

theorem not_enters {constitution : Constitution} {hs hb : ContentHash} {now : U64}
    {m : ReleaseMeshState} {id : String} {council : SortedSet String} (h : ¬ Enters m id council) :
    ∃ e, ProposeRelease.enter constitution id hs hb council now m = (.error e, m) := by
  rcases ProposeRelease.enter_cases constitution id hs hb council now m with
    hRefused | ⟨c, -, hQuorum, hNew, hId, hSigs, -⟩
  · exact hRefused
  · exact absurd ⟨hQuorum, hNew, hId, hSigs⟩ h

theorem not_rebuilds {m : ReleaseMeshState} (hKeyed : m.Keyed) {id : String} {vault : NodeId}
    (h : ∀ c, m.candidates.lookup id = some c → ¬ Rebuilds cfg m c) :
    ∃ e, RebuildRelease.execute cfg.wiring.sha256 id vault m = (.error e, m) := by
  rcases RebuildRelease.execute_cases cfg.wiring.sha256 id vault m (hKeyed id) with
    hRefused | ⟨c, source, hLookup, hOpen, hBlob, hHs, hHb, -⟩
  · exact hRefused
  · exact absurd ⟨hOpen, source, hBlob, hHs, hHb⟩ (h c hLookup)

variable {r : ReleaseRequest}

theorem step_node {route : ReleaseRoute} (hRoute : ReleaseGate.route cfg r = .ok route) :
    (s.step cfg r).node = (perform cfg r s.node route).2 := by
  unfold step
  rw [hRoute]
  dsimp only
  split
  · rename_i hEq
    rw [hEq]
  · rename_i hEq
    rw [hEq]

theorem step_submissions {route : ReleaseRoute} (hRoute : ReleaseGate.route cfg r = .ok route) :
    (s.step cfg r).submissions = s.submissions ∨
    (perform cfg r s.node route).1 = .ok () ∧
      (s.step cfg r).submissions = (submission r route).toList ++ s.submissions := by
  unfold step
  rw [hRoute]
  dsimp only
  split
  · exact .inl rfl
  · rename_i hEq
    rw [hEq]
    exact .inr ⟨rfl, rfl⟩

theorem step_submissions_of_ok {route : ReleaseRoute} (hRoute : ReleaseGate.route cfg r = .ok route)
    (hOk : (perform cfg r s.node route).1 = .ok ()) :
    (s.step cfg r).submissions = (submission r route).toList ++ s.submissions := by
  unfold step
  rw [hRoute]
  dsimp only
  split
  · rename_i hEq
    rw [hEq] at hOk
    cases hOk
  · rfl

theorem subset_step (s : ReleaseGate) (r : ReleaseRequest) :
    s.submissions ⊆ (s.step cfg r).submissions := by
  cases hRoute : ReleaseGate.route cfg r with
  | error refusal =>
    unfold step
    rw [hRoute]
    exact List.Subset.refl _
  | ok route =>
    rcases step_submissions (s := s) hRoute with hSame | ⟨-, hMore⟩
    · rw [hSame]
      exact List.Subset.refl _
    · rw [hMore]
      exact List.subset_append_right _ _

/-- A proposal keeps the evidence authentic exactly when it is not entered, or its
names are of members that signed. -/
theorem authentic_enter_iff (h : Authentic members signed s)
    (hEpoch : s'.node.ledger.epoch = s.node.ledger.epoch) (hSub : s.submissions ⊆ s'.submissions)
    {constitution : Constitution} {id : String} {hs hb : ContentHash} {council : SortedSet String}
    {now : U64} {m : ReleaseMeshState} (hCandidates : m.candidates = s.node.mesh.candidates)
    (hPolicy : m.policy = s.node.mesh.policy)
    (hMesh : s'.node.mesh = (ProposeRelease.enter constitution id hs hb council now m).2) :
    Authentic members signed s' ↔ (Enters s.node.mesh id council →
      ∀ name ∈ council.keys, Genuine members signed id name) := by
  -- a proposal that does not enter leaves the evidence as it was
  by_cases hEnters : Enters s.node.mesh id council
  · -- the new candidate has no rebuilds, so that only its council counts
    have ⟨hQuorum, hNew, hId, hSigs⟩ := hEnters
    rw [ProposeRelease.enter_of constitution hs hb now (hPolicy ▸ hQuorum) hId hSigs
      (hCandidates ▸ hNew)] at hMesh
    have hSet : s'.node.mesh.candidates = s.node.mesh.candidates.insert id
        (.proposed id hs hb constitution.hash council now) := by
      rw [hMesh, ← hCandidates]
      rfl
    rw [authentic_set_iff h hEpoch hSub hSet]
    refine ⟨fun hNewest _ => hNewest.council, fun hGenuine => ⟨?_, hGenuine hEnters⟩⟩
    intro vault hVault
    cases hVault
  · -- a refused proposal leaves the candidates
    have hNot : ¬ Enters m id council := by
      unfold Enters
      rw [hCandidates, hPolicy]
      exact hEnters
    obtain ⟨e, hRefused⟩ := @not_enters constitution hs hb now _ _ _ hNot
    refine iff_of_true (authentic_of_same h hEpoch hSub fun j c hLookup => ?_)
      fun hYes => absurd hYes hEnters
    rw [hMesh, hRefused, hCandidates] at hLookup
    exact ⟨c, hLookup, rfl, rfl⟩

theorem rebuild_epoch {id : String} {vault : NodeId}
    (hRoute : ReleaseGate.route cfg r = .ok (.rebuild id vault)) :
    (s.step cfg r).node.ledger.epoch = s.node.ledger.epoch := by
  rw [step_node hRoute]
  exact ReleaseNode.step_epoch cfg.wiring s.node (.rebuild id vault)

/-- A rebuild that is counted leaves the candidates authentic where its vault is an active
member's, and the caller is it, or it was counted before. -/
theorem authentic_counted_iff (hLogged : Logged s) (h : Authentic members signed s) {id : String}
    {vault : NodeId} (hRoute : ReleaseGate.route cfg r = .ok (.rebuild id vault))
    {c : ReleaseCandidate} (hLookup : s.node.mesh.candidates.lookup id = some c)
    (hCounts : Rebuilds cfg s.node.mesh c) :
    Authentic members signed (s.step cfg r) ↔
      (vault.text ∉ c.rebuilds.keys → vault ∈ s.node.ledger.epoch.activeSet ∧
        r.principal.role = .vault ∧ r.principal.nodeId = vault.text) := by
  obtain ⟨hOpen, source, hBlob, hHs, hHb⟩ := hCounts
  have hNode := step_node (s := s) hRoute
  have hEpoch := rebuild_epoch (s := s) hRoute
  have hExecute := @RebuildRelease.execute_of cfg.wiring.sha256 id vault _ _ _ hLookup
    (hLogged.keyed id c hLookup) hOpen hBlob hHs hHb
  -- one rebuild more, of the vault that the path names
  have hMesh : (s.step cfg r).node.mesh =
      s.node.mesh.setCandidate id (c.withRebuild vault.text c.hb) := by
    rw [hNode]
    exact congrArg Prod.snd hExecute
  have hSubmissions : (s.step cfg r).submissions = ⟨id, vault, r.principal⟩ :: s.submissions :=
    step_submissions_of_ok hRoute (congrArg (fun e => e.1.map fun _ => ()) hExecute)
  rw [authentic_set_iff h hEpoch (subset_step s r) (congrArg ReleaseMeshState.candidates hMesh),
    hSubmissions]
  constructor
  · rintro ⟨hRebuilds, -⟩ hNew
    obtain ⟨hActive, e, he, hRelease, hVault, hRole, hCaller⟩ :=
      hRebuilds vault.text (SortedMap.mem_keys_insert.mpr (.inl rfl))
    rcases List.mem_cons.mp he with rfl | hBefore
    · exact ⟨hActive, hRole, hCaller⟩
    · -- an earlier submission would be in the candidate
      obtain ⟨d, hEarlier, hRecorded⟩ := hLogged.recorded e hBefore
      rw [hRelease] at hEarlier
      obtain rfl := Option.some.inj (hLookup.symm.trans hEarlier)
      rw [hVault] at hRecorded
      exact absurd hRecorded hNew
  · intro hOwn
    have hBefore := (h id c hLookup).mono
      (List.subset_cons_self ⟨id, vault, r.principal⟩ s.submissions)
    refine ⟨fun v hv => ?_, hBefore.council⟩
    by_cases hOld : v ∈ c.rebuilds.keys
    · exact hBefore.rebuilds v hOld
    · obtain rfl := (SortedMap.mem_keys_insert.mp hv).resolve_right hOld
      obtain ⟨hActive, hRole, hCaller⟩ := hOwn hOld
      exact ⟨hActive, _, List.mem_cons_self .., rfl, rfl, hRole, hCaller⟩

/-- A rebuild keeps the evidence authentic exactly when it is not counted, or its
vault is in the active set and sent it. -/
theorem authentic_rebuild_iff (hLogged : Logged s) (h : Authentic members signed s) {id : String}
    {vault : NodeId} (hRoute : ReleaseGate.route cfg r = .ok (.rebuild id vault)) :
    Authentic members signed (s.step cfg r) ↔
      ∀ c, s.node.mesh.candidates.lookup id = some c → Rebuilds cfg s.node.mesh c →
        vault.text ∉ c.rebuilds.keys → vault ∈ s.node.ledger.epoch.activeSet ∧
          r.principal.role = .vault ∧ r.principal.nodeId = vault.text := by
  by_cases hCounted : ∃ c, s.node.mesh.candidates.lookup id = some c ∧ Rebuilds cfg s.node.mesh c
  · obtain ⟨c, hLookup, hCounts⟩ := hCounted
    rw [authentic_counted_iff hLogged h hRoute hLookup hCounts]
    refine ⟨fun hOwn d hFound _ => ?_, fun hAll => hAll c hLookup hCounts⟩
    obtain rfl := Option.some.inj (hLookup.symm.trans hFound)
    exact hOwn
  · -- what is not counted changes no candidate
    have hNone (c : ReleaseCandidate) (hLookup : s.node.mesh.candidates.lookup id = some c) :
        ¬ Rebuilds cfg s.node.mesh c := fun hRebuilds => hCounted ⟨c, hLookup, hRebuilds⟩
    have hNode := step_node (s := s) hRoute
    have hEpoch := rebuild_epoch (s := s) hRoute
    obtain ⟨e, hRefused⟩ := @not_rebuilds cfg _ hLogged.keyed _ vault hNone
    have hMesh : (s.step cfg r).node.mesh = s.node.mesh := by
      rw [hNode]
      exact congrArg Prod.snd hRefused
    refine iff_of_true (authentic_of_same h hEpoch (subset_step s r) fun j c hLookup => ?_)
      fun c hLookup hRebuilds => absurd hRebuilds (hNone c hLookup)
    rw [hMesh] at hLookup
    exact ⟨c, hLookup, rfl, rfl⟩

/-- A call that adds no evidence that counts keeps it authentic. -/
theorem authentic_perform (hLogged : Logged s) (h : Authentic members signed s) {op : ReleaseOp}
    (hOp : op.Uncounted)
    (hNode : s'.node = s.node.step cfg.wiring op) (hSub : s.submissions ⊆ s'.submissions) :
    Authentic members signed s' := by
  have hEpoch : s'.node.ledger.epoch = s.node.ledger.epoch := by
    rw [hNode, ReleaseNode.step_epoch]
  refine authentic_of_same h hEpoch hSub fun j c hLookup => ?_
  rw [hNode] at hLookup
  exact (ReleaseNode.step_mesh cfg.wiring s.node hLogged.keyed op).uncounted hOp hLookup

/-- One request keeps the evidence authentic exactly when it names itself. -/
theorem authentic_step_iff (hLogged : Logged s) (h : Authentic members signed s) :
    Authentic members signed (s.step cfg r) ↔ NamesItself cfg members signed s r := by
  unfold NamesItself
  cases hRoute : ReleaseGate.route cfg r with
  | error refusal =>
    have hStep : s.step cfg r = s := by
      unfold step
      rw [hRoute]
    rw [hStep]
    exact iff_of_true h trivial
  | ok route =>
    have hNode := step_node (s := s) hRoute
    have hSub : s.submissions ⊆ (s.step cfg r).submissions := subset_step s r
    match route with
    | .propose id sourceLabel council =>
      refine authentic_enter_iff h ?_ hSub (m := ProposeRelease.publish cfg.wiring.sha256
        (textBytes sourceLabel) s.node.mesh) rfl rfl (congrArg ReleaseNode.mesh hNode)
      rw [hNode]
      rfl
    | .proposeTampered id sourceLabel evilHb council =>
      cases hParse : ContentHash.parse evilHb with
      | error e =>
        have hCandidates : (s.step cfg r).node.mesh.candidates = s.node.mesh.candidates := by
          rw [hNode, perform, hParse]
          rfl
        have hEpoch : (s.step cfg r).node.ledger.epoch = s.node.ledger.epoch := by
          rw [hNode, perform, hParse]
        refine iff_of_true (authentic_of_same h hEpoch hSub fun j c hLookup => ?_)
          fun ⟨hb, hOk⟩ => ?_
        · rw [hCandidates] at hLookup
          exact ⟨c, hLookup, rfl, rfl⟩
        · exact absurd (hParse.symm.trans hOk) nofun
      | ok hb =>
        -- the blob was just put, so that only the proposal can be refused
        have hBlob : (s.node.mesh.putBlob (.fromBytes cfg.wiring.sha256 (textBytes sourceLabel))
            (textBytes sourceLabel)).getBlob
              (.fromBytes cfg.wiring.sha256 (textBytes sourceLabel)) =
            .ok (textBytes sourceLabel) :=
          ReleaseMeshState.getBlob_ok.mpr
            ((ReleaseMeshState.lookup_putBlob _).trans (if_pos rfl))
        have hMesh : (s.step cfg r).node.mesh = (ProposeRelease.enter
            s.node.ledger.constitution id (.fromBytes cfg.wiring.sha256 (textBytes sourceLabel)) hb
            council r.now (s.node.mesh.putBlob
              (.fromBytes cfg.wiring.sha256 (textBytes sourceLabel))
              (textBytes sourceLabel))).2 := by
          rw [hNode, perform, hParse]
          show (ProposeRelease.executeWithHashes ..).2 = _
          unfold ProposeRelease.executeWithHashes
          rw [hBlob]
        have hEpoch : (s.step cfg r).node.ledger.epoch = s.node.ledger.epoch := by
          rw [hNode, perform, hParse]
          rfl
        rw [authentic_enter_iff (m := s.node.mesh.putBlob
          (.fromBytes cfg.wiring.sha256 (textBytes sourceLabel)) (textBytes sourceLabel))
          h hEpoch hSub rfl rfl hMesh]
        exact ⟨fun hGenuine _ => hGenuine, fun hGenuine => hGenuine ⟨hb, hParse⟩⟩
    | .rebuild id vault => exact authentic_rebuild_iff hLogged h hRoute
    | .cosign id =>
      exact iff_of_true (@authentic_perform cfg _ _ _ _ hLogged h
        (.cosign cfg.nodeId id r.now r.economyWrite) trivial hNode hSub) trivial
    | .activate id =>
      exact iff_of_true (@authentic_perform cfg _ _ _ _ hLogged h
        (.activate id r.now r.activatedAt r.economyWrite) trivial hNode hSub) trivial

/-- What a request leaves of a candidate. -/
theorem grows_perform (hKeyed : s.node.mesh.Keyed) (route : ReleaseRoute) :
    (perform cfg r s.node route).2.mesh.Keyed ∧
      ∀ j c, s.node.mesh.candidates.lookup j = some c →
        ∃ d, (perform cfg r s.node route).2.mesh.candidates.lookup j = some d ∧ c.Grown d := by
  -- a blob of the lab's is put first, and changes no candidate
  have hCall (t : ReleaseNode) (hSame : t.mesh.candidates = s.node.mesh.candidates)
      (op : ReleaseOp) : (t.step cfg.wiring op).mesh.Keyed ∧
        ∀ j c, s.node.mesh.candidates.lookup j = some c →
          ∃ d, (t.step cfg.wiring op).mesh.candidates.lookup j = some d ∧ c.Grown d := by
    have ht : t.mesh.Keyed := fun id c hLookup => hKeyed id c (hSame ▸ hLookup)
    have hStep := ReleaseNode.step_mesh cfg.wiring t ht op
    exact ⟨hStep.keyed ht, fun j c hLookup => hStep.grows (hSame ▸ hLookup)⟩
  cases route with
  | proposeTampered id sourceLabel evilHb council =>
    cases hParse : ContentHash.parse evilHb with
    | error e =>
      rw [perform, hParse]
      exact ⟨hKeyed, fun j c hLookup => ⟨c, hLookup, .refl c⟩⟩
    | ok hb =>
      rw [perform, hParse]
      have hPut := hCall { s.node with
        mesh := s.node.mesh.putBlob (.fromBytes cfg.wiring.sha256 (textBytes sourceLabel))
          (textBytes sourceLabel) } rfl
      exact hPut (.proposeWithHashes id (.fromBytes cfg.wiring.sha256 (textBytes sourceLabel)) hb
        council r.now)
  | propose id sourceLabel council => exact hCall s.node rfl _
  | rebuild id vault => exact hCall s.node rfl _
  | cosign id => exact hCall s.node rfl _
  | activate id => exact hCall s.node rfl _

/-- An accepted rebuild is in the candidate. -/
theorem recorded_rebuild (hKeyed : s.node.mesh.Keyed) {id : String} {vault : NodeId}
    (hOk : (perform cfg r s.node (.rebuild id vault)).1 = .ok ()) :
    ∃ c, (perform cfg r s.node (.rebuild id vault)).2.mesh.candidates.lookup id = some c ∧
      vault.text ∈ c.rebuilds.keys := by
  have hResult : (RebuildRelease.execute cfg.wiring.sha256 id vault s.node.mesh).1.map
      (fun _ => ()) = .ok () := hOk
  show ∃ c, (RebuildRelease.execute cfg.wiring.sha256 id vault s.node.mesh).2.candidates.lookup id =
    some c ∧ _
  rcases RebuildRelease.execute_cases cfg.wiring.sha256 id vault s.node.mesh (hKeyed id) with
    ⟨e, hEq⟩ | ⟨c, -, -, -, -, -, -, hEq⟩
  · rw [hEq] at hResult
    cases hResult
  · rw [hEq]
    exact ⟨_, SortedMap.lookup_insert_self .., SortedMap.mem_keys_insert.mpr (.inl rfl)⟩

/-- Each request leaves a record of what it did. -/
theorem Logged.step (hLogged : Logged s) (r : ReleaseRequest) : Logged (s.step cfg r) := by
  cases hRoute : ReleaseGate.route cfg r with
  | error refusal =>
    unfold ReleaseGate.step
    rw [hRoute]
    exact hLogged
  | ok route =>
    have hNode := step_node (s := s) hRoute
    obtain ⟨hKeyed, hGrows⟩ := @grows_perform cfg _ r hLogged.keyed route
    -- a rebuild that was submitted before stays recorded
    have hOld : ∀ e ∈ s.submissions, ∃ c,
        (s.step cfg r).node.mesh.candidates.lookup e.releaseId = some c ∧
          e.vaultId.text ∈ c.rebuilds.keys := by
      intro e he
      obtain ⟨c, hLookup, hRecorded⟩ := hLogged.recorded e he
      obtain ⟨d, hLater, hGrown⟩ := hGrows _ c hLookup
      exact ⟨d, hNode ▸ hLater, hGrown.rebuilds _ hRecorded⟩
    refine ⟨hNode ▸ hKeyed, fun e he => ?_⟩
    rcases step_submissions (s := s) hRoute with hSame | ⟨hOk, hMore⟩
    · exact hOld e (hSame ▸ he)
    · rw [hMore, List.mem_append] at he
      rcases he with hNew | hBefore
      · -- only a rebuild is a submission
        cases route with
        | rebuild id vault =>
          obtain rfl := List.mem_singleton.mp hNew
          rw [hNode]
          exact recorded_rebuild hLogged.keyed hOk
        | _ => cases hNew
      · exact hOld e hBefore

end Step

theorem logged_start (policy : ReleasePolicy) (economy : EconomyPools)
    (ledger : GovernanceLedger) : Logged (start policy economy ledger) :=
  ⟨fun _ _ hLookup => (by cases hLookup), fun _ he => (by cases he)⟩

/--
**Authentic evidence.** Over the requests of any callers, the evidence of every
candidate stays authentic exactly when each request that would be counted names
the vault that sent it, or members that signed.
-/
theorem authentic_iff (cfg : ReleaseGateConfig) (members : List String)
    (signed : String → String → Bool) (policy : ReleasePolicy) (economy : EconomyPools)
    (ledger : GovernanceLedger) (requests : List ReleaseRequest) :
    Runs.EveryState (step cfg) (Authentic members signed) (start policy economy ledger) requests ↔
      Runs.EveryStep (step cfg) (NamesItself cfg members signed) (start policy economy ledger)
        requests :=
  Runs.everyState_iff_everyStep (J := Logged) (fun _ r hLogged => hLogged.step r)
    (fun _ _ hLogged h => authentic_step_iff hLogged h) (logged_start policy economy ledger)
    (fun _ _ hLookup => (by cases hLookup)) requests

/-! ### One caller that names three vaults -/

def soloGate : ReleaseGateConfig :=
  { nodeId := ⟨"v1"⟩, labEndpointsEnabled := false, wiring := soloWiring }

/-- A request of the vault `v1`. -/
def soloRequest (path : String) : ReleaseRequest :=
  { admission := .ok (), principal := ⟨.vault, "v1", false⟩, path, now := toU64 0,
    activatedAt := toU64 0, economyWrite := .ok () }

theorem authentic_fails :
    ¬ ∀ requests, Runs.EveryState (step soloGate) (Authentic ["alice"] fun _ _ => true)
      (start .solo soloEconomy soloLedger) requests := by
  intro h
  have hLast := (h [soloRequest "/release/propose/r1/one/alice",
    soloRequest "/release/rebuild/r1/nobody"]).last
  have hCounted : ∃ c ∈ (Runs.run (step soloGate) (start .solo soloEconomy soloLedger)
      [soloRequest "/release/propose/r1/one/alice",
        soloRequest "/release/rebuild/r1/nobody"]).node.mesh.candidates.lookup "r1",
      "nobody" ∈ c.rebuilds.keys := by decide +kernel
  obtain ⟨c, hLookup, hRebuilt⟩ := hCounted
  exact absurd ((hLast "r1" c hLookup).rebuilds "nobody" hRebuilt).1 (by decide +kernel)

end ReleaseGate

end KeroseneVault
