import KeroseneVault.Domain.Basic
import KeroseneVault.Lib.Disk
import KeroseneVault.Lib.Threads

/-!
# Concurrent atomic writes

`atomic_write_fsync` writes a temporary file, syncs it, renames it over the path
and syncs the directory. The temporary file of a path has one name, so that two
calls on the path write one file.

A turn is one call of the operating system; a write takes as many bytes as it
likes. `with_extension` and the directory of the path are the same for all calls.

A single call of this kind is as good as the renaming of a file: a crash leaves the old
content or the new. What two calls at once do is another matter, as the temporary file is
theirs in common, and the one that opens it truncates what the other has written. The
invariant is about who writes to it: at most one call, what it has written is a first part
of its own data, and what is at the path was whole and synced when it got there.

* `WriteCall`, `WriteCall.turn` — a call, as far as it has come;
* `Replaced` — the disk, what was renamed to the path, and what the calls that
  answered Ok have promised of it;
* `Whole` — the path holds all of what one call wrote, or what it held before, and
  nothing older than what a call that answered Ok wrote;
* `Uncontended` — no call opens the temporary file that another one is writing.

Main results:

* `ReplaceKept.step` — an uncontended turn keeps the invariant, whatever fails in it;
* `whole_of_uncontended` — so the path is whole along every uncontended run.
-/

namespace KeroseneVault

/-- The path, and the path with the extension `tmp`. -/
inductive FileName where
  | path
  | tmp
  deriving DecidableEq

/-- Where a call of `atomic_write_fsync` stands. `place` counts the renames before its own. -/
inductive WriteCall where
  | idle
  | entered (data : List UInt8)
  | opening (data : List UInt8)
  | writing (data : List UInt8) (file written : ℕ)
  | syncing (data : List UInt8) (file : ℕ)
  | moving (data : List UInt8)
  | openingParent (place : ℕ)
  | syncingParent (place : ℕ)
  | returned (answer : Outcome)
  deriving DecidableEq

/-- `step` carries what the operating system answers: an error, or how many bytes it took. -/
inductive WriteInput where
  | start (data : List UInt8)
  | step (result : Except String ℕ)

/-- The disk, and what the path is to hold: first what it held, then what each rename put
there. What stands before `floor` is no longer to be found. -/
structure Replaced where
  disk : FileDisk FileName
  history : List (Option (List UInt8))
  floor : ℕ

/-- `fsync_parent` has a directory to sync: the path is more than a file name. -/
def HasParent (parent : Option String) : Prop := ∃ dir, parent = some dir ∧ dir ≠ ""

instance decidableHasParent (parent : Option String) : Decidable (HasParent parent) :=
  decidable_of_iff (parent.getD "" ≠ "") <| by
    cases parent <;> simp [HasParent]

namespace WriteCall

/-- A call that fails. -/
def failed (text : String) : WriteCall := .returned (.error (.shareStoreForbidden text))

/-- The rest of `write_all`, or the sync. -/
def afterWrite (data : List UInt8) (file written : ℕ) : WriteCall :=
  if written < data.length then .writing data file written else .syncing data file

/-- One call of the operating system. -/
def turn (parent : Option String) : WriteInput → WriteCall → Replaced → WriteCall × Replaced
  | .start data, .idle, s => (.entered data, s)
  | .start data, .returned _, s => (.entered data, s)
  | .start _, call, s => (call, s)
  | .step result, .entered data, s =>
    match parent, result with
    | some dir, .error e => (.failed s!"mkdir {dir}: {e}", s)
    | _, _ => (.opening data, s)
  | .step (.error e), .opening _, s => (.failed s!"open tmp with O_NOFOLLOW: {e}", s)
  | .step (.ok _), .opening data, s =>
    let (file, disk) := s.disk.openTruncate .tmp
    (.afterWrite data file 0, { s with disk })
  | .step (.error e), .writing .., s => (.failed s!"write tmp: {e}", s)
  | .step (.ok 0), .writing .., s => (.failed "write tmp: failed to write whole buffer", s)
  | .step (.ok count), .writing data file written, s =>
    let piece := (data.drop written).take count
    (.afterWrite data file (written + count),
      { s with disk := s.disk.write file written piece })
  | .step (.error e), .syncing .., s => (.failed s!"fsync tmp: {e}", s)
  | .step (.ok _), .syncing data file, s => (.moving data, { s with disk := s.disk.sync file })
  | .step (.error e), .moving _, s => (.failed s!"rename: {e}", s)
  | .step (.ok _), .moving data, s =>
    match s.disk.rename .tmp .path with
    | none => (.failed "rename: No such file or directory (os error 2)", s)
    | some disk =>
      (.openingParent s.history.length, { s with disk, history := s.history ++ [some data] })
  | .step result, .openingParent place, s =>
    if HasParent parent then
      let dir := parent.getD ""
      match result with
      | .error e => (.failed s!"open parent {dir}: {e}", s)
      | .ok _ => (.syncingParent place, s)
    else (.returned (.ok ()), { s with floor := max s.floor place })
  | .step (.error e), .syncingParent _, s => (.failed s!"fsync parent: {e}", s)
  | .step (.ok _), .syncingParent place, s =>
    (.returned (.ok ()), { s with disk := s.disk.syncDir, floor := max s.floor place })
  | .step _, call, s => (call, s)

/-- The call has opened the temporary file, and has neither renamed it nor failed. -/
def Writes : WriteCall → Prop
  | .writing .. | .syncing .. | .moving _ => True
  | _ => False

instance decidableWrites (call : WriteCall) : Decidable call.Writes := by
  cases call <;> first | exact isTrue trivial | exact isFalse id

end WriteCall

/-! ## Runs -/

abbrev ReplacedState := Threads.State Replaced WriteCall

inductive ReplaceAction where
  | turn (n : ℕ) (input : WriteInput)
  /-- The machine stops and comes up again without the calls. -/
  | crash (k : ℕ) (garbage : ℕ → List UInt8)

def ReplaceAction.step (parent : Option String) (s : ReplacedState) :
    ReplaceAction → ReplacedState
  | .turn n input => Threads.step (WriteCall.turn parent) s (n, input)
  | .crash k garbage =>
    { store := { s.store with disk := s.store.disk.crash k garbage }, threads := fun _ => .idle }

/-- A disk after the machine came up. -/
structure RestingDisk extends FileDisk FileName where
  synced : earlier = []
  clean : ∀ i, dirty i = false
  named : ∀ name i, dir name = some i → i < fresh
  apart : ∀ i, dir .path = some i → dir .tmp ≠ some i

/-- No call has started, and the path holds what it holds. -/
def ReplacedState.start (d : RestingDisk) : ReplacedState :=
  { store := { disk := d.toFileDisk, history := [d.toFileDisk.read .path], floor := 0 }
    threads := fun _ => .idle }

/-- The path holds what stands at some place from `floor` on. -/
def Replaced.Allows (s : Replaced) (content : Option (List UInt8)) : Prop :=
  ∃ k, s.floor ≤ k ∧ s.history[k]? = some content

/-- The path holds all of what one call wrote, or what it held at first; and if a call answered
Ok, what it wrote or what a call that renamed after it did. -/
def Whole (s : ReplacedState) : Prop := s.store.Allows (s.store.disk.read .path)

/-- No call opens the temporary file while another is writing it, and there is no crash where
no directory is synced. -/
def Uncontended (parent : Option String) (s : ReplacedState) : ReplaceAction → Prop
  | .turn n (.step _) => ∀ data, s.threads n = .opening data → ∀ m, ¬ (s.threads m).Writes
  | .turn _ (.start _) => True
  | .crash .. => HasParent parent

/-! ## The invariant -/

/-- What the disk has of a call. -/
def WriteCall.Fits (s : Replaced) : WriteCall → Prop
  | .writing data file written =>
    s.disk.dir .tmp = some file ∧ s.disk.bytes file = data.take written ∧ written ≤ data.length
  | .syncing data file => s.disk.dir .tmp = some file ∧ s.disk.bytes file = data
  | .moving data =>
    ∃ file, s.disk.dir .tmp = some file ∧ s.disk.bytes file = data ∧ s.disk.dirty file = false
  | .openingParent place | .syncingParent place =>
    ∃ k, place ≤ k ∧ s.history[k]? = some (s.disk.read .path)
  | _ => True

/-- The path is whole in every directory that may be found, one call at most writes the
temporary file, and every call has on the disk what it has done. -/
structure ReplaceKept (parent : Option String) (s : ReplacedState) : Prop where
  settled : FileDisk.Settled (decide (HasParent parent)) .path .tmp s.store.Allows s.store.disk
  single : ∀ n m, (s.threads n).Writes → (s.threads m).Writes → n = m
  fits : ∀ n, (s.threads n).Fits s.store

section Steps

variable {parent : Option String} {s : ReplacedState} {n : ℕ}

theorem ReplaceKept.whole (h : ReplaceKept parent s) : Whole s := h.settled.read

theorem ReplaceKept.start (d : RestingDisk) : ReplaceKept parent (.start d) :=
  ⟨.of_synced d.synced d.clean d.named d.apart ⟨0, Nat.le_refl 0, rfl⟩, fun _ _ hn => hn.elim,
    fun _ => trivial⟩

/-- A call that does not write the temporary file relies on what is at the path, and on the
renames that there were. -/
theorem WriteCall.Fits.rely {call : WriteCall} {t t' : Replaced} (h : call.Fits t)
    (hIdle : ¬ call.Writes)
    (hRead : ∀ place : ℕ, (∃ k, place ≤ k ∧ t.history[k]? = some (t.disk.read .path)) →
      ∃ k, place ≤ k ∧ t'.history[k]? = some (t'.disk.read .path)) : call.Fits t' := by
  cases call with
  | writing | syncing | moving => exact absurd trivial hIdle
  | openingParent place => exact hRead place h
  | syncingParent place => exact hRead place h
  | idle | entered | opening | returned => trivial

/-- A turn that leaves the files, the directory and the renames leaves what the disk has of
every call. -/
theorem WriteCall.Fits.same {call : WriteCall} {t t' : Replaced} (h : call.Fits t)
    (hDir : t'.disk.dir = t.disk.dir) (hBytes : t'.disk.bytes = t.disk.bytes)
    (hDirty : t'.disk.dirty = t.disk.dirty) (hHistory : t'.history = t.history) :
    call.Fits t' := by
  unfold WriteCall.Fits FileDisk.read at h ⊢
  rwa [hDir, hBytes, hDirty, hHistory]

/-- A turn keeps the invariant where it keeps the parts of its call and of the others. -/
theorem ReplaceKept.turn {input : WriteInput} {call' : WriteCall} {t' : Replaced}
    (h : ReplaceKept parent s) (hTurn : WriteCall.turn parent input (s.threads n) s.store = (call', t'))
    (hSettled : FileDisk.Settled (decide (HasParent parent)) .path .tmp t'.Allows t'.disk)
    (hFits : call'.Fits t') (hOthers : ∀ m, m ≠ n → (s.threads m).Fits t')
    (hWrites : call'.Writes → ∀ m, m ≠ n → ¬ (s.threads m).Writes) :
    ReplaceKept parent (Threads.step (WriteCall.turn parent) s (n, input)) := by
  have hStore : (Threads.step (WriteCall.turn parent) s (n, input)).store = t' := by
    rw [Threads.step_store, hTurn]
  have hSelf : (Threads.step (WriteCall.turn parent) s (n, input)).threads n = call' := by
    rw [Threads.step_threads_self, hTurn]
  have hNe {m : ℕ} (hm : m ≠ n) :
      (Threads.step (WriteCall.turn parent) s (n, input)).threads m = s.threads m :=
    Threads.step_threads_ne _ s n input hm
  -- what the disk holds, that one call writes at most, and each call with what it relies on
  refine ⟨hStore ▸ hSettled, fun a b ha hb => ?_, fun m => ?_⟩
  · -- one of the two that write may be the one whose turn it was
    by_cases hA : a = n
    · by_cases hB : b = n
      · rw [hA, hB]
      · rw [hA, hSelf] at ha
        rw [hNe hB] at hb
        exact absurd hb (hWrites ha b hB)
    · rw [hNe hA] at ha
      by_cases hB : b = n
      · rw [hB, hSelf] at hb
        exact absurd ha (hWrites hb a hA)
      · rw [hNe hB] at hb
        exact h.single a b ha hb
  · rw [hStore]
    by_cases hm : m = n
    · rw [hm, hSelf]
      exact hFits
    · rw [hNe hm]
      exact hOthers m hm

/-- A turn that only answers, or that has done nothing to the disk yet. -/
theorem ReplaceKept.turn_same {input : WriteInput} {call' : WriteCall}
    (h : ReplaceKept parent s)
    (hTurn : WriteCall.turn parent input (s.threads n) s.store = (call', s.store))
    (hFits : call'.Fits s.store) (hIdle : ¬ call'.Writes) :
    ReplaceKept parent (Threads.step (WriteCall.turn parent) s (n, input)) :=
  h.turn hTurn h.settled hFits (fun m _ => h.fits m) fun hWrites => absurd hWrites hIdle

/-- A call that fails leaves the disk. -/
theorem ReplaceKept.fails {input : WriteInput} {text : String} (h : ReplaceKept parent s)
    (hTurn : WriteCall.turn parent input (s.threads n) s.store = (.failed text, s.store)) :
    ReplaceKept parent (Threads.step (WriteCall.turn parent) s (n, input)) :=
  h.turn_same hTurn trivial id

theorem ReplaceKept.unchanged {input : WriteInput} (h : ReplaceKept parent s)
    (hTurn : WriteCall.turn parent input (s.threads n) s.store = (s.threads n, s.store)) :
    ReplaceKept parent (Threads.step (WriteCall.turn parent) s (n, input)) :=
  h.turn hTurn h.settled (h.fits n) (fun m _ => h.fits m)
    fun hWrites m hm hOther => hm (h.single m n hOther hWrites)

/-- A call that writes is the only one. -/
theorem ReplaceKept.others (h : ReplaceKept parent s) (hWrites : (s.threads n).Writes) :
    ∀ m, m ≠ n → ¬ (s.threads m).Writes :=
  fun m hm hOther => hm (h.single m n hOther hWrites)

/-- A turn of the call that writes, which changes nothing at the path. -/
theorem ReplaceKept.turn_tmp {input : WriteInput} {call' : WriteCall}
    {disk : FileDisk FileName} (h : ReplaceKept parent s) (hOthers : ∀ m, m ≠ n → ¬ (s.threads m).Writes)
    (hTurn : WriteCall.turn parent input (s.threads n) s.store = (call', { s.store with disk }))
    (hSettled : FileDisk.Settled (decide (HasParent parent)) .path .tmp s.store.Allows disk)
    (hRead : disk.read .path = s.store.disk.read .path)
    (hFits : call'.Fits { s.store with disk }) :
    ReplaceKept parent (Threads.step (WriteCall.turn parent) s (n, input)) := by
  refine h.turn hTurn hSettled hFits (fun m hm => ?_) fun _ => hOthers
  refine (h.fits m).rely (hOthers m hm) fun place hPlace => ?_
  show ∃ k, place ≤ k ∧ s.store.history[k]? = some (disk.read .path)
  rwa [hRead]

/-- What is left of a write, or the sync. -/
theorem WriteCall.fits_afterWrite {t : Replaced} {data : List UInt8} {file written : ℕ}
    (hDir : t.disk.dir .tmp = some file) (hBytes : t.disk.bytes file = data.take written) :
    (WriteCall.afterWrite data file written).Fits t := by
  unfold WriteCall.afterWrite
  split
  · rename_i hLess
    exact ⟨hDir, hBytes, le_of_lt hLess⟩
  · rename_i hAll
    refine ⟨hDir, ?_⟩
    rw [hBytes, List.take_of_length_le (not_lt.mp hAll)]

theorem ReplaceKept.opened {data : List UInt8} {count : ℕ} (h : ReplaceKept parent s)
    (hCall : s.threads n = .opening data) (hFree : ∀ m, ¬ (s.threads m).Writes) :
    ReplaceKept parent (Threads.step (WriteCall.turn parent) s (n, .step (.ok count))) := by
  obtain ⟨hSettled, hRead⟩ := h.settled.openTruncate (nofun : FileName.path ≠ .tmp)
  obtain ⟨hDir, hBytes⟩ := s.store.disk.openTruncate_opened .tmp
  refine h.turn_tmp (fun m _ => hFree m) (by rw [hCall]; rfl) hSettled hRead ?_
  exact WriteCall.fits_afterWrite hDir (by rw [List.take_zero]; exact hBytes)

theorem ReplaceKept.wrote {data : List UInt8} {file written count : ℕ} (h : ReplaceKept parent s)
    (hCall : s.threads n = .writing data file written) :
    ReplaceKept parent (Threads.step (WriteCall.turn parent) s (n, .step (.ok (count + 1)))) := by
  obtain ⟨hDir, hBytes, hWritten⟩ : (WriteCall.writing data file written).Fits s.store :=
    hCall ▸ h.fits n
  have hOthers := h.others (n := n) (by rw [hCall]; trivial)
  obtain ⟨hSettled, hRead⟩ := h.settled.write hDir written ((data.drop written).take (count + 1))
  refine h.turn_tmp hOthers (by rw [hCall]; rfl) hSettled hRead ?_
  refine WriteCall.fits_afterWrite hDir ?_
  show (s.store.disk.write file written _).bytes file = _
  rw [FileDisk.write_bytes_self, hBytes, FileDisk.splice_take hWritten]

theorem ReplaceKept.syncedFile {data : List UInt8} {file count : ℕ} (h : ReplaceKept parent s)
    (hCall : s.threads n = .syncing data file) :
    ReplaceKept parent (Threads.step (WriteCall.turn parent) s (n, .step (.ok count))) := by
  obtain ⟨hDir, hBytes⟩ : (WriteCall.syncing data file).Fits s.store := hCall ▸ h.fits n
  have hOthers := h.others (n := n) (by rw [hCall]; trivial)
  have hTurn : WriteCall.turn parent (.step (.ok count)) (s.threads n) s.store =
      (.moving data, { s.store with disk := s.store.disk.sync file }) := by
    rw [hCall]
    rfl
  exact h.turn_tmp hOthers hTurn (h.settled.sync file) rfl
    ⟨file, hDir, hBytes, FileDisk.sync_dirty_self ..⟩

/-- What the path was allowed to hold it still is after one more rename, and the data of that. -/
theorem Replaced.Allows.renamed {t : Replaced} {content : Option (List UInt8)} (h : t.Allows content)
    (data : List UInt8) (disk : FileDisk FileName) :
    Replaced.Allows { t with disk, history := t.history ++ [some data] } content := by
  obtain ⟨k, hFloor, hk⟩ := h
  exact ⟨k, hFloor, List.getElem?_append_left (List.getElem?_eq_some_iff.mp hk).1 ▸ hk⟩

/-- A call renames the temporary file over the path. -/
theorem ReplaceKept.renamed {data : List UInt8} {count : ℕ} (h : ReplaceKept parent s)
    (hCall : s.threads n = .moving data) :
    ReplaceKept parent (Threads.step (WriteCall.turn parent) s (n, .step (.ok count))) := by
  obtain ⟨file, hDir, hBytes, hClean⟩ : (WriteCall.moving data).Fits s.store := hCall ▸ h.fits n
  have hOthers := h.others (n := n) (by rw [hCall]; trivial)
  -- the data comes last in the history
  have hLast : (s.store.history ++ [some data])[s.store.history.length]? = some (some data) :=
    List.getElem?_concat_length
  have hBelow {place : ℕ} (hPlace : ∃ k, place ≤ k ∧
      s.store.history[k]? = some (s.store.disk.read .path)) : place ≤ s.store.history.length := by
    obtain ⟨k, hk, hFound⟩ := hPlace
    exact le_trans hk (le_of_lt (List.getElem?_eq_some_iff.mp hFound).1)
  have hAllows : FileDisk.Settled (decide (HasParent parent)) .path .tmp
      (Replaced.Allows { s.store with history := s.store.history ++ [some data] })
      s.store.disk := h.settled.mono fun _ hx => hx.renamed data s.store.disk
  obtain ⟨disk, hRename, hSettled, hRead⟩ := hAllows.rename (nofun : FileName.path ≠ .tmp) hDir
    hClean ⟨s.store.history.length, hBelow h.settled.read, by rw [hBytes]; exact hLast⟩
  rw [hBytes] at hRead
  have hTurn : WriteCall.turn parent (.step (.ok count)) (s.threads n) s.store =
      (.openingParent s.store.history.length,
        { s.store with disk, history := s.store.history ++ [some data] }) := by
    rw [hCall]
    simp only [WriteCall.turn, hRename]
  refine h.turn hTurn hSettled ⟨s.store.history.length, le_refl _, ?_⟩ (fun m hm => ?_) nofun
  · show (s.store.history ++ [some data])[_]? = some (disk.read .path)
    rw [hRead, hLast]
  · refine (h.fits m).rely (hOthers m hm) fun place hPlace => ?_
    refine ⟨s.store.history.length, hBelow hPlace, ?_⟩
    show (s.store.history ++ [some data])[_]? = some (disk.read .path)
    rw [hRead, hLast]

/-- What the path holds is allowed still, once a call that renamed before it answers Ok. -/
theorem Replaced.allows_max {t : Replaced} {place : ℕ} (h : t.Allows (t.disk.read .path))
    (hPlace : ∃ k, place ≤ k ∧ t.history[k]? = some (t.disk.read .path)) (disk : FileDisk FileName) :
    Replaced.Allows { t with disk, floor := max t.floor place } (t.disk.read .path) := by
  rcases le_total t.floor place with hLe | hLe
  · obtain ⟨k, hk, hFound⟩ := hPlace
    exact ⟨k, (max_eq_right hLe).symm ▸ hk, hFound⟩
  · obtain ⟨k, hk, hFound⟩ := h
    exact ⟨k, (max_eq_left hLe).symm ▸ hk, hFound⟩

theorem ReplaceKept.answered {place count : ℕ} (h : ReplaceKept parent s)
    (hCall : s.threads n = .syncingParent place) :
    ReplaceKept parent (Threads.step (WriteCall.turn parent) s (n, .step (.ok count))) := by
  have hPlace : (WriteCall.syncingParent place).Fits s.store := hCall ▸ h.fits n
  have hTurn : WriteCall.turn parent (.step (.ok count)) (s.threads n) s.store =
      (.returned (.ok ()), { s.store with
        disk := s.store.disk.syncDir, floor := max s.store.floor place }) := by
    rw [hCall]
    rfl
  refine h.turn hTurn (h.settled.syncDir (Replaced.allows_max h.settled.read hPlace _)) trivial
    (fun m _ => ?_) nofun
  exact (h.fits m).same rfl rfl rfl rfl

theorem ReplaceKept.withoutParent {place : ℕ} {result : Except String ℕ} (h : ReplaceKept parent s)
    (hCall : s.threads n = .openingParent place) (hParent : ¬ HasParent parent) :
    ReplaceKept parent (Threads.step (WriteCall.turn parent) s (n, .step result)) := by
  have hPlace : (WriteCall.openingParent place).Fits s.store := hCall ▸ h.fits n
  have hTurn : WriteCall.turn parent (.step result) (s.threads n) s.store =
      (.returned (.ok ()), { s.store with floor := max s.store.floor place }) := by
    rw [hCall]
    unfold WriteCall.turn
    exact if_neg hParent
  refine h.turn hTurn (h.settled.of_read (fun dir hDir => ?_)
    (Replaced.allows_max h.settled.read hPlace _)) trivial (fun m _ => ?_) nofun
  · rw [decide_eq_false hParent] at hDir
    exact List.mem_singleton.mp hDir
  · exact (h.fits m).same rfl rfl rfl rfl

theorem ReplaceKept.crashed (h : ReplaceKept parent s) (hParent : HasParent parent) (k : ℕ)
    (garbage : ℕ → List UInt8) : ReplaceKept parent ((ReplaceAction.crash k garbage).step parent s) := by
  have hSettled := h.settled
  rw [decide_eq_true hParent] at hSettled
  refine ⟨?_, fun _ _ hn => hn.elim, fun _ => trivial⟩
  rw [decide_eq_true hParent]
  exact hSettled.crash k garbage

/-- An uncontended action keeps the invariant, whatever fails in it. -/
theorem ReplaceKept.step (a : ReplaceAction) (h : ReplaceKept parent s)
    (hAction : Uncontended parent s a) : ReplaceKept parent (a.step parent s) := by
  cases a with
  | crash k garbage => exact h.crashed hAction k garbage
  | turn n input =>
    show ReplaceKept parent (Threads.step (WriteCall.turn parent) s (n, input))
    cases input with
    | start data =>
      -- a call starts where none is under way, and is left alone elsewhere
      have hStarts (hIdle : WriteCall.turn parent (.start data) (s.threads n) s.store =
          (.entered data, s.store)) :
          ReplaceKept parent (Threads.step (WriteCall.turn parent) s (n, .start data)) :=
        h.turn_same hIdle trivial id
      cases hCall : s.threads n with
      | idle => exact hStarts (by rw [hCall]; rfl)
      | returned answer => exact hStarts (by rw [hCall]; rfl)
      | _ => exact h.unchanged (by rw [hCall]; rfl)
    | step result =>
      cases hCall : s.threads n with
      | idle => exact h.unchanged (by rw [hCall]; cases result <;> rfl)
      | returned answer => exact h.unchanged (by rw [hCall]; cases result <;> rfl)
      | entered data =>
        -- without a parent there is nothing to create, whatever the result of it
        have hOpens (hTurn : WriteCall.turn parent (.step result) (s.threads n) s.store =
            (.opening data, s.store)) :
            ReplaceKept parent (Threads.step (WriteCall.turn parent) s (n, .step result)) :=
          h.turn_same hTurn trivial id
        cases result with
        | ok count => exact hOpens (by rw [hCall]; cases parent <;> rfl)
        | error e =>
          cases hDir : parent with
          | none => exact hDir ▸ hOpens (by rw [hCall, hDir]; rfl)
          | some dir => exact hDir ▸ h.fails (by rw [hCall, hDir]; rfl)
      | opening data =>
        cases result with
        | error e => exact h.fails (by rw [hCall]; rfl)
        | ok count => exact h.opened hCall (hAction data hCall)
      | writing data file written =>
        cases result with
        | error e => exact h.fails (by rw [hCall]; rfl)
        | ok count =>
          -- no byte written is an error, as `write_all` has it
          cases count with
          | zero => exact h.fails (by rw [hCall]; rfl)
          | succ count => exact h.wrote hCall
      | syncing data file =>
        cases result with
        | error e => exact h.fails (by rw [hCall]; rfl)
        | ok count => exact h.syncedFile hCall
      | moving data =>
        cases result with
        | error e => exact h.fails (by rw [hCall]; rfl)
        | ok count => exact h.renamed hCall
      | openingParent place =>
        by_cases hParent : HasParent parent
        · cases result with
          | error e => exact h.fails (by rw [hCall]; exact if_pos hParent)
          | ok count =>
            have hPlace : (WriteCall.openingParent place).Fits s.store := hCall ▸ h.fits n
            have hTurn : WriteCall.turn parent (.step (.ok count)) (s.threads n) s.store =
                (.syncingParent place, s.store) := by
              rw [hCall]
              exact if_pos hParent
            exact h.turn_same hTurn hPlace id
        · exact h.withoutParent hCall hParent
      | syncingParent place =>
        cases result with
        | error e => exact h.fails (by rw [hCall]; rfl)
        | ok count => exact h.answered hCall

end Steps

/-! ## Runs of calls -/

/-- Along every run in which no call opens the temporary file of another, the path is whole in
every state, whatever fails, and whatever a crash leaves. -/
theorem whole_of_uncontended (parent : Option String) (d : RestingDisk)
    (actions : List ReplaceAction)
    (h : Runs.EveryStep (ReplaceAction.step parent) (Uncontended parent) (.start d) actions) :
    Runs.EveryState (ReplaceAction.step parent) Whole (.start d) actions :=
  (Runs.EveryState.of_everyStep (fun _ a hKept hAction => hKept.step a hAction)
    (ReplaceKept.start d) h).mono fun _ hKept => hKept.whole

/-- A directory without files. -/
def emptyDisk : RestingDisk :=
  { dir := fun _ => none, bytes := fun _ => [], dirty := fun _ => false, earlier := [], fresh := 0
    synced := rfl, clean := fun _ => rfl, named := nofun, apart := nofun }

/-- The turn of a call in which nothing fails, and a write takes two bytes. -/
def going (n : ℕ) : ReplaceAction := .turn n (.step (.ok 2))

/-- Two calls, of which the second opens once the first has renamed, and a crash after that. -/
theorem whole_of_uncontended_two :
    Runs.EveryState (ReplaceAction.step (some "data")) Whole (.start emptyDisk)
      [.turn 0 (.start [1, 2]), .turn 1 (.start [3, 4]), going 0, going 1, going 0, going 0, going 0,
        going 0, going 1, going 1, .crash 1 fun _ => [7]] := by
  apply whole_of_uncontended
  have hParent : HasParent (some "data") := by decide
  refine ⟨trivial, trivial, nofun, nofun, fun data _ m => ?_, nofun, nofun, nofun, fun data _ m => ?_,
    nofun, hParent, trivial⟩
  · match m with
    | 0 => decide
    | 1 => decide
    | m + 2 => exact id
  · match m with
    | 0 => decide
    | 1 => decide
    | m + 2 => exact id

/-- Two calls, of which the second opens the temporary file before the first renames it. -/
def tornRun : List ReplaceAction :=
  [.turn 0 (.start [1, 2]), .turn 1 (.start [3, 4]), going 0, going 1, going 0, going 0, going 0,
    going 1, going 0]

/-- The path then holds an empty file, which neither of them wrote. -/
theorem whole_of_uncontended_fails :
    ¬ Runs.EveryState (ReplaceAction.step (some "data")) Whole (.start emptyDisk) tornRun := by
  intro h
  obtain ⟨k, -, hk⟩ := h.last
  have hMem := List.mem_of_getElem? hk
  revert hMem
  decide

end KeroseneVault
