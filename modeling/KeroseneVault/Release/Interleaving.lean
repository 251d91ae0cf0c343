import KeroseneVault.Lib.Results
import KeroseneVault.Lib.Threads
import KeroseneVault.Release.Evidence

/-!
# Interleaved executions

`RebuildRelease`, `CosignRelease` and `ActivateRelease` read a candidate, edit
their copy and save it whole, each in a port call of its own. Between the read
and the save another execution can save the same candidate; its evidence, or its
activation, is then lost.

A turn is one port call of an execution. The policy, the constitution and the
blobs are not written by any of the three, so that reading them is part of the
turn that uses them; the governance hook does not reach the store, so that its
outcome comes with the turn.

Each port call takes the lock of the store and gives it back, and nothing remembers what was
read. The invariant for executions that are under way says of what they hold that the stored
candidate has at least that: as long as nobody saves over a candidate that has changed
since, a save is an edit of what is there. The condition is read at the save, by comparing
what is stored with what the execution had read, and the source has no such comparison.

* `EvidenceCall`, `EvidenceThread`, `EvidenceThread.turn` — the executions;
* `Kept` — what an execution that answered Ok added is in the stored candidate;
* `NeverReopens` — a listed candidate stays listed;
* `SavesCurrent` — what is saved over is the candidate the execution read.

Main results:

* `alone_rebuild`, `alone_cosign`, `alone_activate`, `uninterrupted` — without others, an
  execution is that of the use case;
* `evidenceKept_of_savesCurrent` — executions that save what they read lose nothing.
-/

namespace KeroseneVault

/-! ## Executions -/

inductive EvidenceCall where
  | rebuild (releaseId : String) (vaultId : NodeId)
  | cosign (localNode : NodeId) (releaseId : String)
  | activate (releaseId : String)

namespace EvidenceCall

def releaseId : EvidenceCall → String
  | .rebuild id _ => id
  | .cosign _ id => id
  | .activate id => id

/-- What the call makes of the copy it read, and lists once that is saved. -/
def edit (w : ReleaseWiring) (constitution : Constitution) (checkedAt activatedAt : U64)
    (m : ReleaseMeshState) (c : ReleaseCandidate) :
    EvidenceCall → Except DomainError (ReleaseCandidate × Option AllowlistEntry)
  | .rebuild _ vaultId =>
    match m.getBlob c.hs with
    | .error e => .error e
    | .ok source => (RebuildRelease.rebuilt w.sha256 c source vaultId).map (·, none)
  | .cosign localNode _ =>
    (CosignRelease.cosigned m.policy constitution localNode checkedAt c).map (·, none)
  | .activate _ =>
    (ActivateRelease.admitted m.policy constitution checkedAt c).map fun _ =>
      (c.activated, some (ActivateRelease.entry constitution activatedAt c))

/-- What the call answers once everything is stored. A rebuild has no hook. -/
def answer (hook : Outcome) : EvidenceCall → Outcome
  | .rebuild .. => .ok ()
  | .cosign .. => hook
  | .activate .. => hook

/-- The candidate has what the call adds. -/
def In (c : ReleaseCandidate) : EvidenceCall → Prop
  | .rebuild _ vaultId => vaultId.text ∈ c.rebuilds.keys
  | .cosign localNode _ => localNode.text ∈ c.cosigns.keys
  | .activate _ => c.phase = .allowlisted

end EvidenceCall

/-- Where an execution stands. -/
inductive EvidenceThread where
  | idle
  | called (call : EvidenceCall)
  | holding (call : EvidenceCall) (c : ReleaseCandidate)
  | edited (call : EvidenceCall) (c d : ReleaseCandidate) (entry : Option AllowlistEntry)
  | saved (call : EvidenceCall) (entry : Option AllowlistEntry)
  | returned (call : EvidenceCall) (answer : Outcome)

/-- What the environment supplies to a turn. -/
inductive EvidenceTurn where
  | start (call : EvidenceCall)
  | next (checkedAt activatedAt : U64) (hook : Outcome)

/-- One port call. -/
def EvidenceThread.turn (w : ReleaseWiring) (constitution : Constitution) :
    EvidenceTurn → EvidenceThread → ReleaseMeshState → EvidenceThread × ReleaseMeshState
  | .start call, .idle, m => (.called call, m)
  | .start _, thread, m => (thread, m)
  | .next .., .idle, m => (.idle, m)
  | .next .., .called call, m =>
    match m.getCandidate call.releaseId with
    | .error e => (.returned call (.error e), m)
    | .ok c => (.holding call c, m)
  | .next checkedAt activatedAt _, .holding call c, m =>
    match call.edit w constitution checkedAt activatedAt m c with
    | .error e => (.returned call (.error e), m)
    | .ok (d, entry) => (.edited call c d entry, m)
  | .next .., .edited call _ d entry, m =>
    match m.saveCandidate d with
    | (.error e, m) => (.returned call (.error e), m)
    | (.ok (), m) => (.saved call entry, m)
  | .next .., .saved call (some entry), m => (.saved call none, m.putAllowlist entry)
  | .next _ _ hook, .saved call none, m => (.returned call (call.answer hook), m)
  | .next .., .returned call answer, m => (.returned call answer, m)

/-! ### An execution without others -/

namespace EvidenceThread

section Alone

variable (w : ReleaseWiring) (constitution : Constitution) (m : ReleaseMeshState)
  (checkedAt activatedAt : U64) (hook : Outcome)

/-- An execution after `n` turns, with the same clock and the same hook in each. -/
def execution (n : Nat) (call : EvidenceCall) : EvidenceThread × ReleaseMeshState :=
  Threads.alone (turn w constitution) (.called call, m)
    (List.replicate n (.next checkedAt activatedAt hook))

/-- A rebuild that runs alone is the use case. -/
theorem alone_rebuild (id : String) (vaultId : NodeId) :
    execution w constitution m checkedAt activatedAt hook 4 (.rebuild id vaultId) =
      (.returned (.rebuild id vaultId)
        ((RebuildRelease.execute w.sha256 id vaultId m).1.map fun _ => ()),
        (RebuildRelease.execute w.sha256 id vaultId m).2) := by
  unfold execution RebuildRelease.execute
  simp only [List.replicate, Threads.alone, turn, EvidenceCall.releaseId]
  cases hGet : m.getCandidate id with
  | error e => rfl
  | ok c =>
    simp only [EvidenceCall.edit]
    cases hBlob : m.getBlob c.hs with
    | error e => rfl
    | ok source =>
      dsimp only
      cases hRebuilt : RebuildRelease.rebuilt w.sha256 c source vaultId with
      | error e => rfl
      | ok d =>
        simp only [Except.map]
        rcases m.saveCandidate d with ⟨e | u, m'⟩
        · rfl
        · rfl

theorem alone_cosign (localNode : NodeId) (id : String) :
    execution w constitution m checkedAt activatedAt hook 4 (.cosign localNode id) =
      (.returned (.cosign localNode id)
        ((CosignRelease.store constitution localNode id checkedAt m).1.bind fun _ => hook),
        (CosignRelease.store constitution localNode id checkedAt m).2) := by
  unfold execution CosignRelease.store
  simp only [List.replicate, Threads.alone, turn, EvidenceCall.releaseId]
  cases hGet : m.getCandidate id with
  | error e => rfl
  | ok c =>
    simp only [EvidenceCall.edit]
    cases hCosigned : CosignRelease.cosigned m.policy constitution localNode checkedAt c with
    | error e => rfl
    | ok d =>
      simp only [Except.map]
      rcases m.saveCandidate d with ⟨e | u, m'⟩
      · rfl
      · rfl

theorem alone_activate (id : String) :
    execution w constitution m checkedAt activatedAt hook 5 (.activate id) =
      (.returned (.activate id)
        ((ActivateRelease.store constitution id checkedAt activatedAt m).1.bind fun _ => hook),
        (ActivateRelease.store constitution id checkedAt activatedAt m).2) := by
  unfold execution ActivateRelease.store
  simp only [List.replicate, Threads.alone, turn, EvidenceCall.releaseId]
  cases hGet : m.getCandidate id with
  | error e => rfl
  | ok c =>
    simp only [EvidenceCall.edit]
    cases hAdmitted : ActivateRelease.admitted m.policy constitution checkedAt c with
    | error e => rfl
    | ok u =>
      simp only [Except.map]
      rcases m.saveCandidate c.activated with ⟨e | u, m'⟩
      · rfl
      · rfl

end Alone

end EvidenceThread

/-! ## What an interleaving keeps -/

/-- Executions on a store. -/
abbrev SharedMesh := Threads.State ReleaseMeshState EvidenceThread

namespace SharedMesh

variable (w : ReleaseWiring) (constitution : Constitution)

def step : SharedMesh → Nat × EvidenceTurn → SharedMesh :=
  Threads.step (EvidenceThread.turn w constitution)

/-- No execution has begun. -/
def start (m : ReleaseMeshState) : SharedMesh := { store := m, threads := fun _ => .idle }

/-- The turns of one execution that is not interrupted. -/
theorem uninterrupted (s : SharedMesh) (n turns : Nat) {call : EvidenceCall}
    (checkedAt activatedAt : U64) (hook : Outcome) (h : s.threads n = .called call) :
    let after := Runs.run (step w constitution) s
      (List.replicate turns (n, .next checkedAt activatedAt hook))
    (after.threads n, after.store) =
      EvidenceThread.execution w constitution s.store checkedAt activatedAt hook turns call := by
  have hRun := Threads.run_alone (EvidenceThread.turn w constitution) s n
    (List.replicate turns (.next checkedAt activatedAt hook))
  rw [List.map_replicate, h] at hRun
  exact hRun

/-- What a rebuild or a cosign that answered Ok added is in the stored candidate. -/
def Kept (s : SharedMesh) : Prop :=
  ∀ n call, s.threads n = .returned call (.ok ()) → (∀ id, call ≠ .activate id) →
    ∃ c, s.store.candidates.lookup call.releaseId = some c ∧ call.In c

/-- A candidate that is listed stays listed. -/
def NeverReopens (s : SharedMesh) (a : Nat × EvidenceTurn) : Prop :=
  ∀ id c, s.store.candidates.lookup id = some c → c.phase = .allowlisted →
    ∃ d, (s.step w constitution a).store.candidates.lookup id = some d ∧ d.phase = .allowlisted

/-- Over a run of turns. -/
def EvidenceKept (m : ReleaseMeshState) (turns : List (Nat × EvidenceTurn)) : Prop :=
  Runs.EveryState (step w constitution) Kept (start m) turns ∧
    Runs.EveryStep (step w constitution) (NeverReopens w constitution) (start m) turns

/-- Where the turn saves a candidate, the stored one is still that which the
execution read. -/
def Current (m : ReleaseMeshState) : EvidenceTurn → EvidenceThread → Prop
  | .next .., .edited call c _ _ => m.candidates.lookup call.releaseId = some c
  | _, _ => True

instance decidableCurrent (m : ReleaseMeshState) : ∀ t thread, Decidable (Current m t thread)
  | .next .., .edited call c _ _ =>
    inferInstanceAs (Decidable (m.candidates.lookup call.releaseId = some c))
  | .next .., .idle => isTrue trivial
  | .next .., .called _ => isTrue trivial
  | .next .., .holding .. => isTrue trivial
  | .next .., .saved .. => isTrue trivial
  | .next .., .returned .. => isTrue trivial
  | .start _, _ => isTrue trivial

def SavesCurrent (s : SharedMesh) (a : Nat × EvidenceTurn) : Prop :=
  Current s.store a.2 (s.threads a.1)

instance decidableSavesCurrent (s : SharedMesh) (a : Nat × EvidenceTurn) :
    Decidable (s.SavesCurrent a) :=
  inferInstanceAs (Decidable (Current ..))

/-! ### One turn -/

/-- Each candidate is there later, grown. -/
def Grows (m m' : ReleaseMeshState) : Prop :=
  ∀ id c, m.candidates.lookup id = some c → ∃ d, m'.candidates.lookup id = some d ∧ c.Grown d

/-- What the copies of an execution are, and what is stored once it saved. -/
def Stands (m : ReleaseMeshState) : EvidenceThread → Prop
  | .holding call c => c.id = call.releaseId
  | .edited call c d _ => d.id = call.releaseId ∧ c.Grown d ∧ call.In d
  | .saved call _ => ∃ c, m.candidates.lookup call.releaseId = some c ∧ call.In c
  | .returned call (.ok ()) => ∃ c, m.candidates.lookup call.releaseId = some c ∧ call.In c
  | _ => True

variable {w constitution} {m m' : ReleaseMeshState} {c d : ReleaseCandidate} {call : EvidenceCall}

theorem Grows.refl (m : ReleaseMeshState) : Grows m m := fun _ c h => ⟨c, h, .refl c⟩

theorem in_of_grown (hGrown : c.Grown d) (h : call.In c) : call.In d := by
  cases call with
  | rebuild id vaultId => exact hGrown.rebuilds _ h
  | cosign localNode id => exact hGrown.cosigns _ h
  | activate id => exact hGrown.phase h

theorem stands_of_grows {thread : EvidenceThread} (hGrows : Grows m m') (h : Stands m thread) :
    Stands m' thread := by
  match thread with
  | .idle => trivial
  | .called call => trivial
  | .holding call c => exact h
  | .edited call c d entry => exact h
  | .saved call entry =>
    obtain ⟨c, hLookup, hIn⟩ := h
    obtain ⟨d, hLater, hGrown⟩ := hGrows _ c hLookup
    exact ⟨d, hLater, in_of_grown hGrown hIn⟩
  | .returned call (.error e) => trivial
  | .returned call (.ok ()) =>
    obtain ⟨c, hLookup, hIn⟩ := h
    obtain ⟨d, hLater, hGrown⟩ := hGrows _ c hLookup
    exact ⟨d, hLater, in_of_grown hGrown hIn⟩

/-- An edit grows the copy by what the call adds. -/
theorem edit_ok {checkedAt activatedAt : U64} {entry : Option AllowlistEntry}
    (h : call.edit w constitution checkedAt activatedAt m c = .ok (d, entry)) :
    d.id = c.id ∧ c.Grown d ∧ call.In d := by
  cases call with
  | rebuild id vaultId =>
    unfold EvidenceCall.edit at h
    dsimp only at h
    -- a rebuild needs the source of its candidate
    cases hBlob : m.getBlob c.hs with
    | error e =>
      rw [hBlob] at h
      cases h
    | ok source =>
      rw [hBlob] at h
      obtain ⟨e, hRebuilt, hEq⟩ := Results.map_eq_ok.mp h
      obtain ⟨rfl, -⟩ := Prod.mk.inj hEq
      obtain ⟨-, -, -, rfl⟩ := RebuildRelease.rebuilt_ok hRebuilt
      exact ⟨rfl, .withRebuild, SortedMap.mem_keys_insert.mpr (.inl rfl)⟩
  | cosign localNode id =>
    obtain ⟨e, hCosigned, hEq⟩ := Results.map_eq_ok.mp h
    obtain ⟨rfl, -⟩ := Prod.mk.inj hEq
    obtain ⟨-, hOpen, rfl⟩ := CosignRelease.cosigned_ok hCosigned
    exact ⟨rfl, .withCosign hOpen, SortedSet.mem_add.mpr (.inl rfl)⟩
  | activate id =>
    obtain ⟨u, -, hEq⟩ := Results.map_eq_ok.mp h
    obtain ⟨rfl, -⟩ := Prod.mk.inj hEq
    exact ⟨rfl, .activated, rfl⟩

/-- A turn that saves what it read leaves its own part in place, and every candidate grown. -/
theorem turn_stands (hKeyed : m.Keyed) {thread : EvidenceThread} (h : Stands m thread)
    (t : EvidenceTurn) (hCurrent : Current m t thread) :
    (EvidenceThread.turn w constitution t thread m).2.Keyed ∧
      Stands (EvidenceThread.turn w constitution t thread m).2
        (EvidenceThread.turn w constitution t thread m).1 ∧
      Grows m (EvidenceThread.turn w constitution t thread m).2 := by
  match t, thread with
  | .start call, .idle => exact ⟨hKeyed, trivial, .refl m⟩
  | .start _, .called call => exact ⟨hKeyed, h, .refl m⟩
  | .start _, .holding call c => exact ⟨hKeyed, h, .refl m⟩
  | .start _, .edited call c d entry => exact ⟨hKeyed, h, .refl m⟩
  | .start _, .saved call entry => exact ⟨hKeyed, h, .refl m⟩
  | .start _, .returned call answer => exact ⟨hKeyed, h, .refl m⟩
  | .next .., .idle => exact ⟨hKeyed, trivial, .refl m⟩
  | .next .., .called call =>
    unfold EvidenceThread.turn
    dsimp only
    cases hGet : m.getCandidate call.releaseId with
    | error e => exact ⟨hKeyed, trivial, .refl m⟩
    | ok c => exact ⟨hKeyed, hKeyed _ c (ReleaseMeshState.getCandidate_ok.mp hGet), .refl m⟩
  | .next checkedAt activatedAt _, .holding call c =>
    unfold EvidenceThread.turn
    dsimp only
    cases hEdit : call.edit w constitution checkedAt activatedAt m c with
    | error e => exact ⟨hKeyed, trivial, .refl m⟩
    | ok r =>
      obtain ⟨hId, hGrown, hIn⟩ := edit_ok hEdit
      exact ⟨hKeyed, ⟨hId.trans h, hGrown, hIn⟩, .refl m⟩
  | .next .., .edited call c d entry =>
    obtain ⟨hId, hGrown, hIn⟩ := h
    unfold EvidenceThread.turn
    dsimp only
    -- what it overwrites is what it read, so nothing that others wrote is lost
    have hLookup : m.candidates.lookup call.releaseId = some c := hCurrent
    rw [ReleaseMeshState.saveCandidate_of_lookup d hLookup hId]
    refine ⟨MeshStep.keyed_setCandidate hKeyed hId, ⟨d, SortedMap.lookup_insert_self .., hIn⟩, ?_⟩
    intro id old hOld
    refine MeshStep.grows_setCandidate (fun current hFound => ?_) hOld
    obtain rfl := Option.some.inj (hLookup.symm.trans hFound)
    exact hGrown
  | .next .., .saved call (some entry) => exact ⟨hKeyed, h, .refl m⟩
  | .next _ _ hook, .saved call none =>
    -- the hook is called after the save, and its error ends the call only
    refine ⟨hKeyed, ?_, .refl m⟩
    unfold EvidenceThread.turn
    dsimp only
    cases call.answer hook with
    | error e => trivial
    | ok u => exact h
  | .next .., .returned call answer => exact ⟨hKeyed, h, .refl m⟩

/-! ### Runs -/

/-- The store and the executions are in order. -/
abbrev Sound (s : SharedMesh) : Prop := Threads.Holds ReleaseMeshState.Keyed Stands s

theorem sound_start (hKeyed : m.Keyed) : Sound (start m) := ⟨hKeyed, fun _ => trivial⟩

theorem Sound.step {s : SharedMesh} {a : Nat × EvidenceTurn} (h : Sound s)
    (hCurrent : SavesCurrent s a) : Sound (s.step w constitution a) :=
  Threads.Holds.step (L := Stands) stands_of_grows h
    (turn_stands h.store (h.threads a.1) a.2 hCurrent)

theorem Sound.kept {s : SharedMesh} (h : Sound s) : Kept s := by
  intro n call hReturned _
  have hStands := h.threads n
  rw [hReturned] at hStands
  exact hStands

theorem Sound.neverReopens {s : SharedMesh} {a : Nat × EvidenceTurn} (h : Sound s)
    (hCurrent : SavesCurrent s a) : NeverReopens w constitution s a := by
  intro id c hLookup hPhase
  obtain ⟨-, -, hGrows⟩ := @turn_stands w constitution _ h.store _
    (h.threads a.1) a.2 hCurrent
  obtain ⟨d, hLater, hGrown⟩ := hGrows id c hLookup
  exact ⟨d, hLater, hGrown.phase hPhase⟩

theorem evidenceKept_of_keyed (hKeyed : m.Keyed) {turns : List (Nat × EvidenceTurn)}
    (h : Runs.EveryStep (step w constitution) SavesCurrent (start m) turns) :
    EvidenceKept w constitution m turns := by
  have hStep (s : SharedMesh) (a : Nat × EvidenceTurn) (hSound : Sound s)
      (hCurrent : SavesCurrent s a) : Sound (s.step w constitution a) := hSound.step hCurrent
  have hSound := Runs.EveryState.of_everyStep hStep (sound_start hKeyed) h
  refine ⟨hSound.mono fun s hs => hs.kept, ?_⟩
  exact Runs.EveryStep.of_everyState (fun s a hs _ hCurrent => hs.neverReopens hCurrent) hSound h

/--
**No lost evidence.** On any store that calls lead to, interleaved executions
that each save over the candidate they read lose no rebuild and no cosign that
answered Ok, and open no candidate that is listed.
-/
theorem evidenceKept_of_savesCurrent (w : ReleaseWiring) (policy : ReleasePolicy)
    (economy : EconomyPools) (ledger : GovernanceLedger) (ops : List ReleaseOp)
    (turns : List (Nat × EvidenceTurn))
    (h : Runs.EveryStep (step w ledger.constitution) SavesCurrent
      (start (Runs.run (ReleaseNode.step w) (.fresh policy economy ledger) ops).mesh) turns) :
    EvidenceKept w ledger.constitution
      (Runs.run (ReleaseNode.step w) (.fresh policy economy ledger) ops).mesh turns :=
  evidenceKept_of_keyed (ReleaseNode.keyed_run w policy economy ledger ops) h

/-! ### Two rebuilds of one candidate -/

def proposedOps : List ReleaseOp :=
  [.propose "r1" (textBytes "one") (.ofKeys ["alice"]) (toU64 0)]

def nextAt (now : Nat) : EvidenceTurn := .next (toU64 now) (toU64 now) (.ok ())

def rebuildBy (vault : String) : EvidenceTurn := .start (.rebuild "r1" ⟨vault⟩)

theorem evidenceKept_inTurn :
    EvidenceKept soloWiring soloConstitution
      (Runs.run (ReleaseNode.step soloWiring) ReleaseNode.soloNode proposedOps).mesh
      [(0, rebuildBy "v1"), (1, rebuildBy "v2"), (0, nextAt 1), (0, nextAt 2), (0, nextAt 3),
        (1, nextAt 4), (0, nextAt 5), (1, nextAt 6), (1, nextAt 7), (1, nextAt 8)] :=
  evidenceKept_of_savesCurrent soloWiring .solo soloEconomy soloLedger proposedOps _
    (by decide +kernel)

/-- Both read the candidate before either saves it. -/
def overlappingTurns : List (Nat × EvidenceTurn) :=
  [(0, rebuildBy "v1"), (1, rebuildBy "v2"), (0, nextAt 1), (1, nextAt 2), (0, nextAt 3),
    (1, nextAt 4), (0, nextAt 5), (0, nextAt 6), (1, nextAt 7)]

theorem evidenceKept_fails :
    ¬ EvidenceKept soloWiring soloConstitution
      (Runs.run (ReleaseNode.step soloWiring) ReleaseNode.soloNode proposedOps).mesh
      overlappingTurns := by
  rintro ⟨hKept, -⟩
  obtain ⟨c, hLookup, hIn⟩ := hKept.last 0 (.rebuild "r1" ⟨"v1"⟩) rfl nofun
  have hLost : ∀ c ∈ (Runs.run (step soloWiring soloConstitution) (start
      (Runs.run (ReleaseNode.step soloWiring) ReleaseNode.soloNode proposedOps).mesh)
      overlappingTurns).store.candidates.lookup "r1", "v1" ∉ c.rebuilds.keys := by
    decide +kernel
  exact hLost c hLookup hIn

end SharedMesh

end KeroseneVault
