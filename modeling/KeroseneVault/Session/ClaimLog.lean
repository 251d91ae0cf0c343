import KeroseneVault.Lib.Runs
import KeroseneVault.Session.DurableStore

/-!
# What the session log gives back

One anti-nonce store over its life: claims, prepares of peers, look-ups and restarts on
the same log file. An append may break off at any byte of its line; the next one goes on
right there, so that a line may be glued together from several ids, and a restart reads
what it finds. Where an append broke off within a character, the file is no text any more:
the restart fails, and there is no store from then on.

Beside the store stand the claims that returned Ok, the ids that were claimed or
prepared, those burned since the last restart, and the log as that restart found it.

The life of one node is enough to see what a file costs. Within a life of the process the
set of burned ids decides, and no claim is granted twice; what a restart makes of the file
is compared with what was claimed and prepared, in both directions, since an id that is lost
can be claimed again and an id that was never used must not be refused. `Harmless` is a
condition on a claim and on the file it is made on, or on the file that a restart finds.

* `ClaimLog.step` — one call, or a restart;
* `ClaimsOnce` — no id is claimed twice, and none is burned that was not claimed
  or prepared;
* `Harmless` — when a claim, or a restart, keeps that.

Main results:

* `claimsOnce_claimSession_iff`, `claimsOnce_reopen_iff` — a claim, and a restart, keep
  the first exactly when they meet the second;
* `claimsOnce_iff` — a life keeps it exactly when each of its steps does.
-/

namespace KeroseneVault

open LineLog

/-- A store, the claims that returned Ok (the newest first), the ids that were claimed or
prepared, those burned since the last restart, and the log that it found. There is no
store once a restart has failed: what it read is still there, and no later one reads it
either. -/
structure ClaimLog where
  store : Option (DurableStore LogFile)
  claims : List String
  known : Finset String
  fresh : Finset String
  found : LogFile

inductive ClaimCall where
  | claimSession (disk : TearingDisk) (sessionId : String)
  | prepare (disk : TearingDisk) (sessionId : String)
  | prepareSoft (now : Nat) (sessionId : String)
  | isConsumed (now : Nat) (sessionId : String)
  | reopen

namespace ClaimLog

open DurableStore

/-- `append_id` on the file. -/
def append (disk : TearingDisk) : String → LogFile → Outcome × LogFile :=
  appendFile "anti-nonce" disk

/-- One call on the store. -/
def call (s : ClaimLog) (l : DurableStore LogFile) : ClaimCall → ClaimLog
  | .claimSession disk sessionId =>
    let answer := l.claimSession (append disk) sessionId
    match answer.1 with
    | .error _ => { s with store := some answer.2 }
    | .ok () => { s with
        store := some answer.2
        claims := sessionId :: s.claims
        known := insert sessionId s.known
        fresh := insert sessionId s.fresh }
  | .prepare disk sessionId =>
    let answer := l.prepare (append disk) sessionId
    match answer.1 with
    | .error _ => { s with store := some answer.2 }
    | .ok seen => { s with
        store := some answer.2
        known := insert sessionId s.known
        fresh := if seen then s.fresh else insert sessionId s.fresh }
  | .prepareSoft now sessionId => { s with
      store := some (l.prepareSoft now sessionId).2
      known := insert sessionId s.known }
  | .isConsumed now sessionId => { s with store := some (l.isConsumed now sessionId).2 }
  | .reopen => { s with store := (openFile l.log).toOption, fresh := ∅, found := l.log }

def step (s : ClaimLog) (c : ClaimCall) : ClaimLog :=
  match s.store with
  | none => s
  | some l => s.call l c

/-- A store on a log file that does not exist yet. -/
def start : ClaimLog := ⟨(openFile .empty).toOption, [], ∅, ∅, .empty⟩

/-- No id is claimed with Ok twice, and no id is burned that was not claimed or
prepared. -/
structure ClaimsOnce (s : ClaimLog) : Prop where
  once : s.claims.Nodup
  genuine : ∀ l, s.store = some l → l.inner ⊆ s.known

/-- The id is one line, not empty and without blanks at its ends. -/
def Plain (sessionId : String) : Prop := Survives keepSessionLine sessionId.toList

instance (sessionId : String) : Decidable (Plain sessionId) :=
  inferInstanceAs (Decidable (Survives keepSessionLine sessionId.toList))

/-- Every line of the record is blank, or one of these ids between blanks. -/
def ReadsOnly (ids : Finset String) (e : List Char) : Prop :=
  ∀ line ∈ lines (e ++ ['\n']), trim line = [] ∨ String.ofList (trim line) ∈ ids

/-- A claim whose line the disk takes is not of an id that was claimed before the last
restart and not burned since, unless the id is plain and stood alone in the log that the
restart found. At a restart that does not fail, the records read only as ids that were
claimed or prepared. -/
def Harmless (s : ClaimLog) : ClaimCall → Prop
  | .claimSession disk sessionId => s.store.isSome = true → disk = .ok →
    sessionId ∈ s.claims → sessionId ∉ s.fresh →
      Plain sessionId ∧ s.found.StandsAlone sessionId.toList
  | .reopen => ∀ l, s.store = some l → l.log.readable = true →
    ∀ e ∈ l.log.entries, ReadsOnly s.known e
  | _ => True

/-! ## What a life keeps -/

/-- What is burned is what was burned since the last restart, and what that one read. -/
def Tracked (s : ClaimLog) : Prop :=
  ∀ l, s.store = some l → ∀ x, x ∈ l.inner ↔ x ∈ s.fresh ∨ x ∈ loadFile s.found

/-- A restart reads an id back exactly when it is plain and stands alone. -/
theorem mem_loadFile_iff_plain {file : LogFile} {sessionId : String} :
    sessionId ∈ loadFile file ↔ Plain sessionId ∧ file.StandsAlone sessionId.toList := by
  rw [mem_loadFile, LogFile.mem_load_iff_alone rfl]
  rfl

/-- A record reads only as these ids exactly when all a restart makes of it are
among them. -/
theorem readsOnly_iff {ids : Finset String} {e : List Char} :
    ReadsOnly ids e ↔ ∀ x : String, x.toList ∈ readBack keepSessionLine e → x ∈ ids := by
  constructor
  · intro h x hx
    obtain ⟨hMem, hKeep⟩ := List.mem_filter.mp hx
    obtain ⟨line, hLine, hEq⟩ := List.mem_map.mp hMem
    rcases h line hLine with hBlank | hIn
    · rw [← hEq, hBlank] at hKeep
      simp [keepSessionLine] at hKeep
    · rwa [hEq, String.ofList_toList] at hIn
  · intro h line hLine
    by_cases hBlank : trim line = []
    · exact .inl hBlank
    refine .inr (h _ ?_)
    rw [String.toList_ofList]
    refine List.mem_filter.mpr ⟨List.mem_map_of_mem hLine, ?_⟩
    simp [keepSessionLine, hBlank]

/-- A call that is no restart: it leaves the burned ids, or burns one. -/
inductive Move (s : ClaimLog) (l : DurableStore LogFile) (s' : ClaimLog) : Prop where
  | stays (l' : DurableStore LogFile) (hStore : s'.store = some l') (hInner : l'.inner = l.inner)
      (hClaims : s'.claims = s.claims) (hFresh : s'.fresh = s.fresh) (hFound : s'.found = s.found)
      (hKnown : s.known ⊆ s'.known)
  | burns (id : String) (l' : DurableStore LogFile) (hStore : s'.store = some l')
      (hInner : l'.inner = insert id l.inner)
      (hClaims : s'.claims = s.claims ∨ s'.claims = id :: s.claims)
      (hFresh : s'.fresh = insert id s.fresh) (hFound : s'.found = s.found)
      (hKnown : s'.known = insert id s.known)

theorem move_prepare (s : ClaimLog) (l : DurableStore LogFile) (disk : TearingDisk)
    (sessionId : String) : Move s l (s.call l (.prepare disk sessionId)) := by
  have hEffect := l.prepare_effect (append disk) sessionId
  unfold call
  dsimp only
  generalize l.prepare (append disk) sessionId = answer at hEffect
  cases hEffect with
  | seen hSeen => exact .stays l rfl rfl rfl rfl rfl (Finset.subset_insert ..)
  | fails hFree hAppend => exact .stays _ rfl rfl rfl rfl rfl subset_rfl
  | burns hFree hAppend => exact .burns sessionId _ rfl rfl (.inl rfl) rfl rfl rfl

theorem move_claimSession (s : ClaimLog) (l : DurableStore LogFile) (disk : TearingDisk)
    (sessionId : String) : Move s l (s.call l (.claimSession disk sessionId)) := by
  have hEffect := l.prepare_effect (append disk) sessionId
  unfold call DurableStore.claimSession
  dsimp only
  generalize l.prepare (append disk) sessionId = answer at hEffect
  cases hEffect with
  | seen hSeen => exact .stays l rfl rfl rfl rfl rfl subset_rfl
  | fails hFree hAppend => exact .stays _ rfl rfl rfl rfl rfl subset_rfl
  | burns hFree hAppend => exact .burns sessionId _ rfl rfl (.inr rfl) rfl rfl rfl

/-- Every call but a restart is a move. -/
theorem call_cases (s : ClaimLog) (l : DurableStore LogFile) (c : ClaimCall) :
    c = .reopen ∨ Move s l (s.call l c) := by
  cases c with
  | reopen => exact .inl rfl
  | claimSession disk sessionId => exact .inr (s.move_claimSession l disk sessionId)
  | prepare disk sessionId => exact .inr (s.move_prepare l disk sessionId)
  | prepareSoft now sessionId =>
    -- soft prepares are in memory only
    exact .inr (.stays _ rfl (l.prepareSoft_quiet now sessionId).1 rfl rfl rfl
      (Finset.subset_insert ..))
  | isConsumed now sessionId =>
    exact .inr (.stays _ rfl (l.isConsumed_quiet now sessionId).1 rfl rfl rfl subset_rfl)

theorem Tracked.move {s s' : ClaimLog} {l : DurableStore LogFile} (h : Tracked s)
    (hStore : s.store = some l) (hMove : Move s l s') : Tracked s' := by
  rcases hMove with ⟨l', hNext, hInner, -, hFresh, hFound, -⟩ |
    ⟨id, l', hNext, hInner, -, hFresh, hFound, -⟩
  · intro m hm x
    obtain rfl := Option.some.inj (hNext.symm.trans hm)
    rw [hInner, hFresh, hFound]
    exact h l hStore x
  · intro m hm x
    obtain rfl := Option.some.inj (hNext.symm.trans hm)
    rw [hInner, hFresh, hFound, Finset.mem_insert, Finset.mem_insert, h l hStore x, or_assoc]

theorem Tracked.step {s : ClaimLog} (h : Tracked s) (c : ClaimCall) : Tracked (s.step c) := by
  unfold ClaimLog.step
  cases hStore : s.store with
  | none => exact h
  | some l =>
    dsimp only
    rcases s.call_cases l c with rfl | hMove
    · -- a restart has burned what it read, and nothing since
      intro m hm x
      have hOpen : (openFile l.log).toOption = some m := hm
      unfold openFile at hOpen
      split at hOpen
      · obtain rfl := Option.some.inj hOpen
        exact (or_iff_right (Finset.notMem_empty x)).symm
      · cases hOpen
    · exact h.move hStore hMove

theorem ClaimsOnce.genuine_move {s s' : ClaimLog} {l : DurableStore LogFile} (h : ClaimsOnce s)
    (hStore : s.store = some l) (hMove : Move s l s') :
    ∀ l', s'.store = some l' → l'.inner ⊆ s'.known := by
  have hOld := h.genuine l hStore
  rcases hMove with ⟨l', hNext, hInner, -, -, -, hKnown⟩ |
    ⟨id, l', hNext, hInner, -, -, -, hKnown⟩
  · intro m hm
    obtain rfl := Option.some.inj (hNext.symm.trans hm)
    rw [hInner]
    exact hOld.trans hKnown
  · intro m hm
    obtain rfl := Option.some.inj (hNext.symm.trans hm)
    rw [hInner, hKnown]
    exact Finset.insert_subset_insert id hOld

/-- **A restart** burns no stranger exactly when the records read back. -/
theorem claimsOnce_reopen_iff {s : ClaimLog} {l : DurableStore LogFile} (h : ClaimsOnce s)
    (hStore : s.store = some l) : ClaimsOnce (s.call l .reopen) ↔ s.Harmless .reopen := by
  have hOpen : (s.call l .reopen).store = if l.log.readable = true then
      some ⟨loadFile l.log, ∅, l.log⟩ else none := by
    show (openFile l.log).toOption = _
    unfold openFile
    split <;> rfl
  -- a restart keeps it where each claimed id stands alone on a line, and each line is known
  constructor
  · intro hNext m hm hText e he
    obtain rfl := Option.some.inj (hStore.symm.trans hm)
    rw [if_pos hText] at hOpen
    refine readsOnly_iff.mpr fun x hx => hNext.genuine _ hOpen (mem_loadFile.mpr ?_)
    exact (LogFile.mem_load_iff rfl).mpr ⟨e, he, hx⟩
  · intro hReads
    refine ⟨h.once, fun m hm x hx => ?_⟩
    rw [hOpen] at hm
    split at hm
    · rename_i hText
      obtain rfl := Option.some.inj hm
      obtain ⟨e, he, hRead⟩ := (LogFile.mem_load_iff rfl).mp (mem_loadFile.mp hx)
      exact readsOnly_iff.mp (hReads l hStore hText e he) x hRead
    · cases hm

/-- A local claim returns Ok for an id that is not burned, when the disk takes
its line. -/
theorem claimSession_ok_iff {disk : TearingDisk} {sessionId : String}
    {l : DurableStore LogFile} :
    (l.claimSession (append disk) sessionId).1 = .ok () ↔ disk = .ok ∧ sessionId ∉ l.inner := by
  unfold DurableStore.claimSession DurableStore.prepare
  by_cases hSeen : sessionId ∈ l.inner
  · simp [hSeen]
  · rw [if_neg hSeen]
    cases disk with
    | ok => simp [append, appendFile, hSeen]
    | _ => simp [append, appendFile]

/-- **A claim** claims no id again exactly when it is harmless. -/
theorem claimsOnce_claimSession_iff {s : ClaimLog} {l : DurableStore LogFile}
    (hTracked : Tracked s) (h : ClaimsOnce s) (hStore : s.store = some l) (disk : TearingDisk)
    (sessionId : String) :
    ClaimsOnce (s.call l (.claimSession disk sessionId)) ↔
      s.Harmless (.claimSession disk sessionId) := by
  have hGenuine := h.genuine_move hStore (s.move_claimSession l disk sessionId)
  have hBurned := hTracked l hStore sessionId
  rw [mem_loadFile_iff_plain] at hBurned
  by_cases hOk : disk = .ok ∧ sessionId ∉ l.inner
  · have hAnswer : (l.claimSession (append disk) sessionId).1 = .ok () :=
      claimSession_ok_iff.mpr hOk
    have hClaims : (s.call l (.claimSession disk sessionId)).claims = sessionId :: s.claims := by
      unfold call
      simp only [hAnswer]
    constructor
    · rintro ⟨hOnce, -⟩ - - hClaimed -
      rw [hClaims, List.nodup_cons] at hOnce
      exact absurd hClaimed hOnce.1
    · intro hHarmless
      refine ⟨?_, hGenuine⟩
      rw [hClaims, List.nodup_cons]
      refine ⟨fun hClaimed => hOk.2 (hBurned.mpr ?_), h.once⟩
      -- an id that is not burned was not burned since, so the restart read it
      by_cases hFresh : sessionId ∈ s.fresh
      · exact .inl hFresh
      · exact .inr (hHarmless (by rw [hStore]; rfl) hOk.1 hClaimed hFresh)
  · have hClaims : (s.call l (.claimSession disk sessionId)).claims = s.claims := by
      unfold call
      cases hAnswer : (l.claimSession (append disk) sessionId).1 with
      | error e => simp only [hAnswer]
      | ok u => exact absurd (claimSession_ok_iff.mp hAnswer) hOk
    refine iff_of_true ⟨hClaims ▸ h.once, hGenuine⟩ fun _ hDisk _ hFresh => ?_
    have hInner : sessionId ∈ l.inner := by
      by_contra hFree
      exact hOk ⟨hDisk, hFree⟩
    exact (hBurned.mp hInner).resolve_left hFresh

/-- One step keeps the claims apart exactly when it is harmless. -/
theorem claimsOnce_step_iff {s : ClaimLog} (hTracked : Tracked s) (h : ClaimsOnce s)
    (c : ClaimCall) : ClaimsOnce (s.step c) ↔ s.Harmless c := by
  unfold step
  -- without a store a call does nothing
  cases hStore : s.store with
  | none =>
    refine iff_of_true h ?_
    cases c with
    | claimSession disk sessionId =>
      intro hSome
      rw [hStore] at hSome
      cases hSome
    | reopen =>
      intro m hm
      rw [hStore] at hm
      cases hm
    | _ => trivial
  | some l =>
    dsimp only
    cases c with
    | claimSession disk sessionId =>
      exact claimsOnce_claimSession_iff hTracked h hStore disk sessionId
    | reopen => exact claimsOnce_reopen_iff h hStore
    | prepare disk sessionId =>
      refine iff_of_true ⟨?_, h.genuine_move hStore (s.move_prepare l disk sessionId)⟩ trivial
      unfold call
      dsimp only
      split
      · exact h.once
      · exact h.once
    | prepareSoft now sessionId =>
      have hMove := (s.call_cases l (.prepareSoft now sessionId)).resolve_left (by simp)
      exact iff_of_true ⟨h.once, h.genuine_move hStore hMove⟩ trivial
    | isConsumed now sessionId =>
      have hMove := (s.call_cases l (.isConsumed now sessionId)).resolve_left (by simp)
      exact iff_of_true ⟨h.once, h.genuine_move hStore hMove⟩ trivial

theorem tracked_start : Tracked start := by
  intro l hl x
  obtain rfl := Option.some.inj (show some _ = some l from hl)
  exact (or_iff_right (Finset.notMem_empty x)).symm

theorem claimsOnce_start : ClaimsOnce start := by
  refine ⟨List.nodup_nil, fun l hl x hx => ?_⟩
  obtain rfl := Option.some.inj (show some _ = some l from hl)
  exact absurd hx (Finset.notMem_empty x)

/--
**The session log.** Through any claims, prepares and restarts, on a disk that may break
any append off, no session id is claimed with Ok twice and none is burned that was not
claimed or prepared, exactly when every claim and every restart is harmless.
-/
theorem claimsOnce_iff (calls : List ClaimCall) :
    Runs.EveryState step ClaimsOnce start calls ↔ Runs.EveryStep step Harmless start calls := by
  refine Runs.everyState_iff_everyStep (J := Tracked) (fun s c h => h.step c)
    (fun s c hTracked h => ?_) tracked_start claimsOnce_start calls
  exact claimsOnce_step_iff hTracked h c

/-- A session id with a blank in front is claimed with Ok before a restart and
after it. -/
theorem claimsOnce_fails : ¬ ∀ calls, Runs.EveryState step ClaimsOnce start calls := by
  intro h
  have hLast := (h [.claimSession .ok " session-1", .reopen, .claimSession .ok " session-1"]).last
  exact absurd hLast.once (by decide +kernel)

end ClaimLog

end KeroseneVault
