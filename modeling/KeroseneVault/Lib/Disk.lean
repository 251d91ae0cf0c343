import Mathlib.Data.List.Basic
import Mathlib.Logic.Function.Basic

/-!
# A directory on a disk

Files with their bytes, and the directory that names them. What is written reaches
the disk when the file is synced, and what is renamed when the directory is. A
crash leaves the directory as it was at some moment since it was last synced, and
any bytes in a file that was not.

* `FileDisk` — the files, the directory, and the directory as it was;
* `openTruncate`, `write`, `sync`, `rename`, `syncDir`, `crash` — the calls;
* `reach` — the directories that may be found, after a crash or without one;
* `Settled` — under one name stands what is allowed, in each directory that may be
  found, and what is written under another name does not change it;
* `asSynced` — the disk as if each write had been synced.

Main results:

* `Settled.openTruncate`, `Settled.write`, `Settled.sync`, `Settled.rename`,
  `Settled.renameAway`, `Settled.syncDir`, `Settled.crash` — it is kept;
* `Settled.crash_asSynced` — so it is where nothing is synced, if garbage is allowed;
* `splice_take` — a piece written after the pieces before it.
-/

/-- The file that each name stands for. -/
abbrev Dir (ν : Type*) := ν → Option ℕ

/-- Files are numbered, and those from `fresh` on are not made yet. -/
structure FileDisk (ν : Type*) where
  dir : Dir ν
  bytes : ℕ → List UInt8
  /-- Written since it was last synced. -/
  dirty : ℕ → Bool
  /-- The directory as it was since it was last synced. -/
  earlier : List (Dir ν)
  fresh : ℕ

namespace FileDisk

variable {ν : Type*}

/-- What is read under a name. -/
def read (d : FileDisk ν) (name : ν) : Option (List UInt8) := (d.dir name).map d.bytes

/-! ## Calls -/

def setBytes (d : FileDisk ν) (i : ℕ) (bytes : List UInt8) : FileDisk ν :=
  { d with bytes := Function.update d.bytes i bytes, dirty := Function.update d.dirty i true }

def setDir (d : FileDisk ν) (dir : Dir ν) : FileDisk ν := { d with dir, earlier := d.dir :: d.earlier }

/-- A new file under the name. -/
def create [DecidableEq ν] (d : FileDisk ν) (name : ν) : FileDisk ν :=
  { (d.setDir (Function.update d.dir name (some d.fresh))).setBytes d.fresh [] with
    fresh := d.fresh + 1 }

/-- The file under the name, emptied, or a new one. -/
def openTruncate [DecidableEq ν] (d : FileDisk ν) (name : ν) : ℕ × FileDisk ν :=
  match d.dir name with
  | some i => (i, d.setBytes i [])
  | none => (d.fresh, d.create name)

/-- Bytes put into others at an offset, with zeros where there were none. -/
def splice (old : List UInt8) (offset : ℕ) (data : List UInt8) : List UInt8 :=
  old.take offset ++ List.replicate (offset - old.length) 0 ++ data ++
    old.drop (offset + data.length)

def write (d : FileDisk ν) (i offset : ℕ) (data : List UInt8) : FileDisk ν :=
  d.setBytes i (splice (d.bytes i) offset data)

def sync (d : FileDisk ν) (i : ℕ) : FileDisk ν := { d with dirty := Function.update d.dirty i false }

/-- The file under `src`, if there is one, under `dst`. -/
def rename [DecidableEq ν] (d : FileDisk ν) (src dst : ν) : Option (FileDisk ν) :=
  match d.dir src with
  | some i => some (d.setDir (Function.update (Function.update d.dir src none) dst (some i)))
  | none => none

def syncDir (d : FileDisk ν) : FileDisk ν := { d with earlier := [] }

/-- The directory as it is, and as it was since it was last synced. -/
def survivors (d : FileDisk ν) : List (Dir ν) := d.dir :: d.earlier

/-- What a crash leaves: the directory at `k`, and `garbage` in the files that were not synced. -/
def crash (d : FileDisk ν) (k : ℕ) (garbage : ℕ → List UInt8) : FileDisk ν :=
  { dir := (d.survivors[k]?).getD d.dir
    bytes := fun i => if d.dirty i then garbage i else d.bytes i
    dirty := fun _ => false
    earlier := []
    fresh := d.fresh }

section Calls

variable (d : FileDisk ν) (i j : ℕ) (name : ν)

@[simp] theorem setBytes_dir (bytes : List UInt8) : (d.setBytes i bytes).dir = d.dir := rfl

@[simp] theorem setBytes_bytes_self (bytes : List UInt8) :
    (d.setBytes i bytes).bytes i = bytes := Function.update_self ..

theorem setBytes_bytes_ne {i j : ℕ} (h : j ≠ i) (bytes : List UInt8) :
    (d.setBytes i bytes).bytes j = d.bytes j := Function.update_of_ne h ..

theorem setBytes_dirty_ne {i j : ℕ} (h : j ≠ i) (bytes : List UInt8) :
    (d.setBytes i bytes).dirty j = d.dirty j := Function.update_of_ne h ..

@[simp] theorem write_dir (offset : ℕ) (data : List UInt8) : (d.write i offset data).dir = d.dir :=
  rfl

@[simp] theorem write_bytes_self (offset : ℕ) (data : List UInt8) :
    (d.write i offset data).bytes i = splice (d.bytes i) offset data := setBytes_bytes_self ..

@[simp] theorem sync_dir : (d.sync i).dir = d.dir := rfl

@[simp] theorem sync_bytes : (d.sync i).bytes = d.bytes := rfl

@[simp] theorem sync_dirty_self : (d.sync i).dirty i = false := Function.update_self ..

@[simp] theorem syncDir_dir : d.syncDir.dir = d.dir := rfl

@[simp] theorem read_sync : (d.sync i).read name = d.read name := rfl

@[simp] theorem read_syncDir : d.syncDir.read name = d.read name := rfl

/-- An opened file stands under its name and is empty. -/
theorem openTruncate_opened [DecidableEq ν] :
    (d.openTruncate name).2.dir name = some (d.openTruncate name).1 ∧
      (d.openTruncate name).2.bytes (d.openTruncate name).1 = [] := by
  unfold openTruncate
  cases hFile : d.dir name with
  | some i => exact ⟨hFile, setBytes_bytes_self ..⟩
  | none =>
    refine ⟨?_, setBytes_bytes_self ..⟩
    show Function.update d.dir name (some d.fresh) name = some d.fresh
    exact Function.update_self ..

end Calls

/-- A piece of the data, written after those before it. -/
theorem splice_take {data : List UInt8} {k : ℕ} (hk : k ≤ data.length) (n : ℕ) :
    splice (data.take k) k ((data.drop k).take n) = data.take (k + n) := by
  have hDrop : (data.take k).drop (k + ((data.drop k).take n).length) = [] := by
    rw [List.drop_eq_nil_iff, List.length_take]
    omega
  have hPad : k - (data.take k).length = 0 := by
    rw [List.length_take]
    omega
  rw [splice, hDrop, hPad, List.take_take, Nat.min_self, List.append_nil, List.replicate_zero,
    List.append_nil, List.take_add]

/-! ## What may be found -/

/-- The directories that may be found: the directory, and, where there are crashes, those
that survive one. -/
def reach (crashes : Bool) (d : FileDisk ν) : List (Dir ν) :=
  if crashes then d.survivors else [d.dir]

section Reach

variable {crashes : Bool} {d : FileDisk ν} {dir : Dir ν}

theorem dir_mem_reach : d.dir ∈ d.reach crashes := by
  cases crashes with
  | true => exact List.mem_cons_self ..
  | false => exact List.mem_singleton_self _

theorem mem_reach_setDir {dir' : Dir ν} (h : dir ∈ (d.setDir dir').reach crashes) :
    dir = dir' ∨ dir ∈ d.reach crashes := by
  cases crashes with
  | true => exact List.mem_cons.mp h
  | false => exact .inl (List.mem_singleton.mp h)

theorem mem_reach_syncDir (h : dir ∈ d.syncDir.reach crashes) : dir = d.dir := by
  cases crashes with
  | true => exact List.mem_singleton.mp h
  | false => exact List.mem_singleton.mp h

theorem mem_reach_crash {k : ℕ} {garbage : ℕ → List UInt8}
    (h : dir ∈ (d.crash k garbage).reach crashes) :
    dir = (d.crash k garbage).dir ∧ dir ∈ d.reach true := by
  have hDir : dir = (d.crash k garbage).dir := by
    cases crashes with
    | true => exact List.mem_singleton.mp h
    | false => exact List.mem_singleton.mp h
  refine ⟨hDir, ?_⟩
  rw [hDir]
  show (d.survivors[k]?).getD d.dir ∈ d.survivors
  cases hFound : d.survivors[k]? with
  | none => exact List.mem_cons_self ..
  | some dir' => exact List.mem_of_getElem? hFound

end Reach

/-- In each directory that may be found, the file at `path` is synced and has what `P` allows,
and it is not the file at `tmp`, there or in the directory as it is. -/
structure Settled (crashes : Bool) (path tmp : ν) (P : Option (List UInt8) → Prop) (d : FileDisk ν) :
    Prop where
  named : ∀ dir ∈ d.reach crashes, ∀ name i, dir name = some i → i < d.fresh
  clean : ∀ dir ∈ d.reach crashes, ∀ i, dir path = some i → d.dirty i = false
  holds : ∀ dir ∈ d.reach crashes, P ((dir path).map d.bytes)
  apart : ∀ dir ∈ d.reach crashes, ∀ i, dir path = some i →
    dir tmp ≠ some i ∧ d.dir tmp ≠ some i

namespace Settled

variable {crashes : Bool} {path tmp : ν} {P Q : Option (List UInt8) → Prop} {d : FileDisk ν} {i : ℕ}

theorem mono (h : Settled crashes path tmp P d) (hPQ : ∀ x, P x → Q x) :
    Settled crashes path tmp Q d :=
  { h with holds := fun dir hDir => hPQ _ (h.holds dir hDir) }

/-- A disk on which all is synced. -/
theorem of_synced (hSynced : d.earlier = []) (hClean : ∀ i, d.dirty i = false)
    (hNamed : ∀ name i, d.dir name = some i → i < d.fresh)
    (hApart : ∀ i, d.dir path = some i → d.dir tmp ≠ some i) (hP : P (d.read path)) :
    Settled crashes path tmp P d := by
  have hReach : ∀ dir ∈ d.reach crashes, dir = d.dir := by
    intro dir hDir
    unfold FileDisk.reach FileDisk.survivors at hDir
    rw [hSynced] at hDir
    split at hDir
    · exact List.mem_singleton.mp hDir
    · exact List.mem_singleton.mp hDir
  refine ⟨fun dir hDir => ?_, fun _ _ i _ => hClean i, fun dir hDir => ?_, fun dir hDir i hi => ?_⟩
  · rw [hReach dir hDir]
    exact hNamed
  · rw [hReach dir hDir]
    exact hP
  · rw [hReach dir hDir] at hi ⊢
    exact ⟨hApart i hi, hApart i hi⟩

/-- What is read has what is allowed. -/
theorem read (h : Settled crashes path tmp P d) : P (d.read path) := h.holds d.dir dir_mem_reach

/-- No file that is at `path` is a new one. -/
theorem ne_fresh (h : Settled crashes path tmp P d) {dir : Dir ν} (hDir : dir ∈ d.reach crashes)
    (hPath : dir path = some i) : i ≠ d.fresh := Nat.ne_of_lt (h.named dir hDir path i hPath)

/-- Files that are at `path` nowhere can be written. -/
theorem setBytes (h : Settled crashes path tmp P d)
    (hOther : ∀ dir ∈ d.reach crashes, dir path ≠ some i) (bytes : List UInt8) :
    Settled crashes path tmp P (d.setBytes i bytes) := by
  refine ⟨h.named, fun dir hDir j hPath => ?_, fun dir hDir => ?_, h.apart⟩
  -- in no directory does the path name the file that changes
  · have hNe : j ≠ i := by
      rintro rfl
      exact hOther dir hDir hPath
    rw [setBytes_dirty_ne d hNe]
    exact h.clean dir hDir j hPath
  · -- the file that changes is not the one at the path
    have hHolds := h.holds dir hDir
    cases hPath : dir path with
    | none =>
      rw [hPath] at hHolds
      exact hHolds
    | some j =>
      have hNe : j ≠ i := by
        rintro rfl
        exact hOther dir hDir hPath
      rw [hPath] at hHolds
      rwa [Option.map_some, setBytes_bytes_ne d hNe]

/-- The file at `tmp` is at `path` nowhere. -/
theorem not_path (h : Settled crashes path tmp P d) (hTmp : d.dir tmp = some i) :
    ∀ dir ∈ d.reach crashes, dir path ≠ some i :=
  fun dir hDir hPath => (h.apart dir hDir i hPath).2 hTmp

theorem read_setBytes (hOther : d.dir path ≠ some i) (bytes : List UInt8) :
    (d.setBytes i bytes).read path = d.read path := by
  unfold FileDisk.read
  cases hPath : d.dir path with
  | none =>
    rw [setBytes_dir, hPath]
    rfl
  | some j =>
    have hNe : j ≠ i := by
      rintro rfl
      exact hOther hPath
    rw [setBytes_dir, hPath, Option.map_some, Option.map_some, setBytes_bytes_ne d hNe]

/-- Another directory, whose `path` is as it was. -/
theorem setDir (h : Settled crashes path tmp P d) {dir' : Dir ν}
    (hNamed : ∀ name i, dir' name = some i → i < d.fresh)
    (hPath : dir' path = d.dir path)
    (hTmp : ∀ dir ∈ d.reach crashes, ∀ i, dir path = some i → dir' tmp ≠ some i) :
    Settled crashes path tmp P (d.setDir dir') := by
  -- each part for the new directory, whose path has the same file, and for those of before
  refine ⟨fun dir hDir => ?_, fun dir hDir => ?_, fun dir hDir => ?_, fun dir hDir => ?_⟩
  · rcases mem_reach_setDir hDir with rfl | hOld
    · exact hNamed
    · exact h.named dir hOld
  · rcases mem_reach_setDir hDir with rfl | hOld
    · rw [hPath]
      exact h.clean d.dir dir_mem_reach
    · exact h.clean dir hOld
  · rcases mem_reach_setDir hDir with rfl | hOld
    · rw [hPath]
      exact h.holds d.dir dir_mem_reach
    · exact h.holds dir hOld
  · -- the name at the side may have had the path's file in a directory of before
    rcases mem_reach_setDir hDir with rfl | hOld
    · intro i hi
      rw [hPath] at hi
      exact ⟨hTmp d.dir dir_mem_reach i hi, hTmp d.dir dir_mem_reach i hi⟩
    · exact fun i hi => ⟨(h.apart dir hOld i hi).1, hTmp dir hOld i hi⟩

theorem fresh_le (h : Settled crashes path tmp P d) {n : ℕ} (hn : d.fresh ≤ n) :
    Settled crashes path tmp P { d with fresh := n } :=
  ⟨fun dir hDir name i hi => Nat.lt_of_lt_of_le (h.named dir hDir name i hi) hn, h.clean, h.holds,
    h.apart⟩

/-- A new file under `tmp`. -/
theorem create [DecidableEq ν] (h : Settled crashes path tmp P d) (hNe : path ≠ tmp) :
    Settled crashes path tmp P (d.create tmp) := by
  -- the number is taken, then the file is named, then it is emptied
  have hTaken : Settled crashes path tmp P { d with fresh := d.fresh + 1 } :=
    h.fresh_le (Nat.le_succ _)
  have hDir : Settled crashes path tmp P ({ d with fresh := d.fresh + 1 }.setDir
      (Function.update d.dir tmp (some d.fresh))) := by
    refine hTaken.setDir (fun name i hi => ?_) (Function.update_of_ne hNe ..)
      fun dir hReach i hi => ?_
    · by_cases hName : name = tmp
      · subst hName
        rw [Function.update_self, Option.some.injEq] at hi
        subst hi
        exact Nat.lt_succ_self _
      · rw [Function.update_of_ne hName] at hi
        exact Nat.lt_succ_of_lt (h.named d.dir dir_mem_reach name i hi)
    · rw [Function.update_self]
      exact fun hEq => h.ne_fresh hReach hi (Option.some.inj hEq).symm
  refine hDir.setBytes (fun dir hReach hPath => ?_) []
  rcases mem_reach_setDir hReach with rfl | hOld
  · rw [Function.update_of_ne hNe] at hPath
    exact h.ne_fresh dir_mem_reach hPath rfl
  · exact h.ne_fresh hOld hPath rfl

/-- Opening `tmp` changes nothing at `path`. -/
theorem openTruncate [DecidableEq ν] (h : Settled crashes path tmp P d) (hNe : path ≠ tmp) :
    Settled crashes path tmp P (d.openTruncate tmp).2 ∧
      (d.openTruncate tmp).2.read path = d.read path := by
  unfold FileDisk.openTruncate
  cases hTmp : d.dir tmp with
  | some i =>
    exact ⟨h.setBytes (h.not_path hTmp) [],
      read_setBytes (h.not_path hTmp d.dir dir_mem_reach) []⟩
  | none =>
    refine ⟨h.create hNe, ?_⟩
    have hDir : (d.create tmp).dir path = d.dir path := Function.update_of_ne hNe ..
    unfold FileDisk.read
    rw [hDir]
    cases hPath : d.dir path with
    | none => rfl
    | some j =>
      exact congrArg some (Function.update_of_ne (h.ne_fresh dir_mem_reach hPath) ..)

/-- Writing to the file at `tmp` changes nothing at `path`. -/
theorem write (h : Settled crashes path tmp P d) (hTmp : d.dir tmp = some i) (offset : ℕ)
    (data : List UInt8) :
    Settled crashes path tmp P (d.write i offset data) ∧
      (d.write i offset data).read path = d.read path :=
  ⟨h.setBytes (h.not_path hTmp) _, read_setBytes (h.not_path hTmp d.dir dir_mem_reach) _⟩

theorem sync (h : Settled crashes path tmp P d) (i : ℕ) :
    Settled crashes path tmp P (d.sync i) := by
  refine ⟨h.named, fun dir hDir j hPath => ?_, h.holds, h.apart⟩
  by_cases hj : j = i
  · subst hj
    exact sync_dirty_self ..
  · show Function.update d.dirty i false j = false
    rw [Function.update_of_ne hj]
    exact h.clean dir hDir j hPath

/-- The file at `tmp`, once it is synced and has what is allowed, can take the place of that
at `path`. -/
theorem rename [DecidableEq ν] (h : Settled crashes path tmp P d) (hNe : path ≠ tmp)
    (hTmp : d.dir tmp = some i) (hClean : d.dirty i = false) (hP : P (some (d.bytes i))) :
    ∃ d', d.rename tmp path = some d' ∧ Settled crashes path tmp P d' ∧
      d'.read path = some (d.bytes i) := by
  have hRename : d.rename tmp path = some
      (d.setDir (Function.update (Function.update d.dir tmp none) path (some i))) := by
    unfold FileDisk.rename
    rw [hTmp]
  -- the file moves: the path has it, and the name at the side has none
  have hAtPath : Function.update (Function.update d.dir tmp none) path (some i) path = some i :=
    Function.update_self ..
  have hAtTmp : Function.update (Function.update d.dir tmp none) path (some i) tmp = none := by
    rw [Function.update_of_ne hNe.symm, Function.update_self]
  refine ⟨_, hRename, ⟨fun dir hDir => ?_, fun dir hDir => ?_, fun dir hDir => ?_,
    fun dir hDir => ?_⟩, ?_⟩
  · rcases mem_reach_setDir hDir with rfl | hOld
    · intro name j hj
      by_cases hPath : name = path
      · subst hPath
        rw [hAtPath, Option.some.injEq] at hj
        subst hj
        exact h.named d.dir dir_mem_reach tmp i hTmp
      · by_cases hName : name = tmp
        · subst hName
          rw [hAtTmp] at hj
          cases hj
        · rw [Function.update_of_ne hPath, Function.update_of_ne hName] at hj
          exact h.named d.dir dir_mem_reach name j hj
    · exact h.named dir hOld
  · rcases mem_reach_setDir hDir with rfl | hOld
    · intro j hj
      rw [hAtPath, Option.some.injEq] at hj
      subst hj
      exact hClean
    · exact h.clean dir hOld
  · rcases mem_reach_setDir hDir with rfl | hOld
    · rw [hAtPath]
      exact hP
    · exact h.holds dir hOld
  · -- the file at the path was synced before it moved
    intro j hj
    -- nothing is under the name at the side any more
    have hNone : (d.setDir (Function.update (Function.update d.dir tmp none) path (some i))).dir
        tmp ≠ some j := by
      show Function.update (Function.update d.dir tmp none) path (some i) tmp ≠ some j
      rw [hAtTmp]
      exact nofun
    rcases mem_reach_setDir hDir with rfl | hOld
    · exact ⟨hNone, hNone⟩
    · exact ⟨(h.apart dir hOld j hj).1, hNone⟩
  · show (Function.update (Function.update d.dir tmp none) path (some i) path).map d.bytes = _
    rw [hAtPath]
    rfl

/-- The file at the path can go to a third name, where none may be found at the path. -/
theorem renameAway [DecidableEq ν] {other : ν} (h : Settled crashes path tmp P d) (hNe : path ≠ tmp)
    (hPath : path ≠ other) (hTmp : tmp ≠ other) (hNone : P none) {d' : FileDisk ν}
    (hRename : d.rename path other = some d') :
    Settled crashes path tmp P d' ∧ d'.dir path = none ∧ d'.dir tmp = d.dir tmp := by
  unfold FileDisk.rename at hRename
  cases hFile : d.dir path with
  | none =>
    rw [hFile] at hRename
    cases hRename
  | some i =>
    rw [hFile] at hRename
    obtain rfl := Option.some.inj hRename
    -- after the move the path names nothing, and the temporary name what it named before
    have hAtPath : Function.update (Function.update d.dir path none) other (some i) path =
        none := by
      rw [Function.update_of_ne hPath, Function.update_self]
    have hAtTmp : Function.update (Function.update d.dir path none) other (some i) tmp =
        d.dir tmp := by
      rw [Function.update_of_ne hTmp, Function.update_of_ne hNe.symm]
    refine ⟨⟨fun dir hDir => ?_, fun dir hDir => ?_, fun dir hDir => ?_, fun dir hDir => ?_⟩,
      hAtPath, hAtTmp⟩
    · rcases mem_reach_setDir hDir with rfl | hOld
      · intro name j hj
        by_cases hOther : name = other
        · subst hOther
          rw [Function.update_self, Option.some.injEq] at hj
          subst hj
          exact h.named d.dir dir_mem_reach path i hFile
        · rw [Function.update_of_ne hOther] at hj
          by_cases hName : name = path
          · subst hName
            rw [Function.update_self] at hj
            cases hj
          · rw [Function.update_of_ne hName] at hj
            exact h.named d.dir dir_mem_reach name j hj
      · exact h.named dir hOld
    · rcases mem_reach_setDir hDir with rfl | hOld
      · intro j hj
        rw [hAtPath] at hj
        cases hj
      · exact h.clean dir hOld
    · rcases mem_reach_setDir hDir with rfl | hOld
      · rw [hAtPath]
        exact hNone
      · exact h.holds dir hOld
    · -- a file that was at the path is not the one at the side, which stays
      intro j hj
      rcases mem_reach_setDir hDir with rfl | hOld
      · rw [hAtPath] at hj
        cases hj
      · refine ⟨(h.apart dir hOld j hj).1, ?_⟩
        show Function.update (Function.update d.dir path none) other (some i) tmp ≠ some j
        rw [hAtTmp]
        exact (h.apart dir hOld j hj).2

/-- Where only the directory as it is may be found, what is read decides. -/
theorem of_read (h : Settled crashes path tmp P d) (hReach : ∀ dir ∈ d.reach crashes, dir = d.dir)
    (hQ : Q (d.read path)) : Settled crashes path tmp Q d := by
  refine { h with holds := fun dir hDir => ?_ }
  rw [hReach dir hDir]
  exact hQ

/-- Once the directory is synced, only the directory as it is may be found. -/
theorem syncDir (h : Settled crashes path tmp P d) (hQ : Q (d.read path)) :
    Settled crashes path tmp Q d.syncDir := by
  have hOld {dir : Dir ν} (hDir : dir ∈ d.syncDir.reach crashes) : dir ∈ d.reach crashes := by
    rw [mem_reach_syncDir hDir]
    exact dir_mem_reach
  have hSettled : Settled crashes path tmp P d.syncDir :=
    ⟨fun dir hDir => h.named dir (hOld hDir), fun dir hDir => h.clean dir (hOld hDir),
      fun dir hDir => h.holds dir (hOld hDir), fun dir hDir => h.apart dir (hOld hDir)⟩
  exact hSettled.of_read (fun _ hDir => mem_reach_syncDir hDir) hQ

/-- A crash leaves what is allowed. -/
theorem crash (h : Settled true path tmp P d) (k : ℕ) (garbage : ℕ → List UInt8) :
    Settled true path tmp P (d.crash k garbage) := by
  refine ⟨fun dir hDir => ?_, fun _ _ _ _ => rfl, fun dir hDir => ?_, fun dir hDir i hi => ?_⟩
  · exact h.named dir (mem_reach_crash hDir).2
  · have hOld := (mem_reach_crash hDir).2
    have hHolds := h.holds dir hOld
    cases hPath : dir path with
    | none =>
      rw [hPath] at hHolds
      exact hHolds
    | some i =>
      rw [hPath] at hHolds
      -- the file was synced, so it is not among those with garbage
      have hKept : (d.crash k garbage).bytes i = d.bytes i := by
        show (if d.dirty i then garbage i else d.bytes i) = d.bytes i
        rw [h.clean dir hOld i hPath]
        rfl
      rwa [Option.map_some, hKept]
  · obtain ⟨hDir, hOld⟩ := mem_reach_crash hDir
    rw [← hDir]
    exact ⟨(h.apart dir hOld i hi).1, (h.apart dir hOld i hi).1⟩

end Settled

/-! ## Files that are not synced -/

/-- The disk as if each write had been synced. -/
def asSynced (d : FileDisk ν) : FileDisk ν := { d with dirty := fun _ => false }

section AsSynced

variable {d : FileDisk ν} {i : ℕ}

@[simp] theorem asSynced_dir : d.asSynced.dir = d.dir := rfl

@[simp] theorem asSynced_bytes : d.asSynced.bytes = d.bytes := rfl

@[simp] theorem read_asSynced (name : ν) : d.asSynced.read name = d.read name := rfl

theorem asSynced_setBytes (bytes : List UInt8) :
    (d.setBytes i bytes).asSynced = (d.asSynced.setBytes i bytes).sync i := by
  have hDirty : (fun _ => false) = Function.update (Function.update (fun _ : ℕ => false) i true) i
      false := by
    rw [Function.update_idem]
    exact (Function.update_eq_self i _).symm
  show FileDisk.mk d.dir (Function.update d.bytes i bytes) (fun _ => false) d.earlier d.fresh = _
  rw [hDirty]
  rfl

theorem asSynced_openTruncate [DecidableEq ν] (name : ν) :
    (d.openTruncate name).1 = (d.asSynced.openTruncate name).1 ∧
      (d.openTruncate name).2.asSynced =
        (d.asSynced.openTruncate name).2.sync (d.openTruncate name).1 := by
  unfold openTruncate
  rw [asSynced_dir]
  cases d.dir name with
  | some i => exact ⟨rfl, asSynced_setBytes []⟩
  | none =>
    refine ⟨rfl, ?_⟩
    have hNew := asSynced_setBytes (d := d.setDir (Function.update d.dir name (some d.fresh)))
      (i := d.fresh) []
    exact congrArg (fun e : FileDisk ν => { e with fresh := d.fresh + 1 }) hNew

theorem asSynced_write (offset : ℕ) (data : List UInt8) :
    (d.write i offset data).asSynced = (d.asSynced.write i offset data).sync i :=
  asSynced_setBytes _

theorem asSynced_rename [DecidableEq ν] {src dst : ν} {d' : FileDisk ν}
    (h : d.asSynced.rename src dst = some d') :
    ∃ moved, d.rename src dst = some moved ∧ moved.asSynced = d' := by
  unfold rename at h ⊢
  rw [asSynced_dir] at h
  cases hFile : d.dir src with
  | none =>
    rw [hFile] at h
    cases h
  | some i =>
    rw [hFile] at h
    exact ⟨_, rfl, Option.some.inj h⟩

end AsSynced

/-- What a crash leaves where files were not synced is allowed, if garbage is. -/
theorem Settled.crash_asSynced {path tmp : ν} {P : Option (List UInt8) → Prop} {d : FileDisk ν}
    (h : Settled true path tmp P d.asSynced) (k : ℕ) {garbage : ℕ → List UInt8}
    (hGarbage : ∀ i, P (some (garbage i))) :
    Settled true path tmp P (d.crash k garbage).asSynced := by
  have hCrash := h.crash k garbage
  refine ⟨hCrash.named, fun _ _ _ _ => rfl, fun dir hDir => ?_, hCrash.apart⟩
  have hHolds := hCrash.holds dir hDir
  cases hPath : dir path with
  | none =>
    rw [hPath] at hHolds
    exact hHolds
  | some i =>
    rw [hPath] at hHolds
    -- the file was synced, or it has garbage in it
    show P (some (if d.dirty i then garbage i else d.bytes i))
    split
    · exact hGarbage i
    · exact hHolds

end FileDisk
