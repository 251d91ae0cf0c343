import KeroseneVault.Identity.KeyFile

/-!
# Rotating an identity

`rotate_identity` renames the key file to an archive, makes a new key pair, writes it to
a temporary file, and renames that to the path of the key file. Between the two renames
there is no key file, and a daemon that starts then makes a key pair of its own.

A turn is one call of the operating system or of the key generation, and between any two
of them the process may stop, or the machine where its crashes are counted.

* `RotateCall`, `IdentityDaemon.rotate` — a call, as far as it has come;
* `RotateAction` — a turn, or a stop of the process or of the machine;
* `Recoverable` — after a restart the old or the new key pair is loaded, and after an
  error the one that the daemon signs with;
* `EndsIntact` — where a call ends, a file that can be read stands at the path.

Main results:

* `RotateKept.step` — the file at the path is never torn, whatever fails;
* `rotation_iff` — a run is recoverable in all its states exactly if its calls end intact.
-/

namespace KeroseneVault

/-- Where a call of `rotate_identity` stands. -/
inductive RotateCall (C : IdentityCrypto) where
  | entered
  | archiving
  | cleaning
  | generating
  | sealing (kp : HybridKeyPair C)
  | opening (kp : HybridKeyPair C) (blob : List UInt8)
  | writing (kp : HybridKeyPair C) (blob : List UInt8) (file written : ℕ)
  | syncing (kp : HybridKeyPair C) (blob : List UInt8) (file : ℕ)
  | moving (kp : HybridKeyPair C) (blob : List UInt8)
  | openingParent (kp : HybridKeyPair C)
  | syncingParent (kp : HybridKeyPair C)
  | returned (answer : Except IdentityError (HybridKeyPair C))
  | stopped

/-- What a turn meets with: whether the metadata of the key file can be read, the clock, the
answer of the operating system, the archives that are old and can be removed, and new keys. -/
structure RotateEnv (C : IdentityCrypto) where
  visible : Bool
  nowSecs : ℕ
  os : Except String ℕ
  aged : String → Bool
  source : KeySource C

/-- The daemon in a call, and the key pair that the call has made. -/
structure Rotation (C : IdentityCrypto) extends IdentityNode C where
  call : RotateCall C
  new : Option (HybridKeyPair C)

namespace Rotation

variable {C : IdentityCrypto} (s : Rotation C)

def goes (call : RotateCall C) : Rotation C := { s with call }

def goesWith (files : FileDisk String) (call : RotateCall C) : Rotation C :=
  { s with disk := s.disk.withFiles files, call }

def fails (e : IdentityError) : Rotation C := s.goes (.returned (.error e))

/-- The call answers Ok, and the daemon signs with the new key pair. -/
def answers (kp : HybridKeyPair C) : Rotation C :=
  { s with identity := some kp, call := .returned (.ok kp) }

@[simp] theorem goes_call (call : RotateCall C) : (s.goes call).call = call := rfl

@[simp] theorem goesWith_call (files : FileDisk String) (call : RotateCall C) :
    (s.goesWith files call).call = call := rfl

@[simp] theorem fails_call (e : IdentityError) : (s.fails e).call = .returned (.error e) := rfl

@[simp] theorem fails_disk (e : IdentityError) : (s.fails e).disk = s.disk := rfl

@[simp] theorem answers_call (kp : HybridKeyPair C) : (s.answers kp).call = .returned (.ok kp) :=
  rfl

@[simp] theorem answers_disk (kp : HybridKeyPair C) : (s.answers kp).disk = s.disk := rfl

end Rotation

/-- The rest of `write_all`, or the sync. -/
def RotateCall.afterWrite {C : IdentityCrypto} (kp : HybridKeyPair C) (blob : List UInt8)
    (file written : ℕ) : RotateCall C :=
  if written < blob.length then .writing kp blob file written else .syncing kp blob file

/-- The directory without the archives that are old. No archive has a name that ends so. -/
def withoutOldArchives (aged : String → Bool) (dir : Dir String) : Dir String := fun name =>
  if "identity-".toList <+: name.toList ∧ ".old.".toList <:+ name.toList ∧ aged name then none
  else dir name

namespace IdentityDaemon

variable {C : IdentityCrypto} (D : IdentityDaemon)

/-- A turn of `rotate_identity`. -/
def rotate (env : RotateEnv C) (s : Rotation C) : Rotation C :=
  match s.call with
  | .entered =>
    -- `exists` is false also where the metadata cannot be read
    if env.visible && (s.disk.dir D.identityPath).isSome then s.goes .archiving
    else s.goes .generating
  | .archiving =>
    match env.os with
    | .error e => s.fails (.rotationFailed s!"archive old identity: {e}")
    | .ok _ =>
      -- the key file is gone from its path before there is another
      match s.disk.rename D.identityPath (D.archivePath env.nowSecs) with
      | none => s.fails (.rotationFailed
          "archive old identity: No such file or directory (os error 2)")
      | some files => s.goesWith files .cleaning
  -- a directory that cannot be listed is passed over
  | .cleaning =>
    match env.os with
    | .error _ => s.goes .generating
    | .ok _ => s.goesWith (s.disk.setDir (withoutOldArchives env.aged s.disk.dir)) .generating
  | .generating =>
    match D.generate env.source with
    | .error e => s.fails e
    | .ok kp => { s with call := .sealing kp, new := some kp }
  | .sealing kp =>
    match sealIdentity C D.passphrase env.source.salt env.source.nonce kp with
    | .error e => s.fails e
    | .ok blob => s.goes (.opening kp blob)
  | .opening kp blob =>
    match env.os with
    | .error e => s.fails (.internalError s!"open tmp with O_NOFOLLOW: {e}")
    | .ok _ =>
      let (file, disk) := s.disk.openTruncate D.tmpPath
      { s with disk, call := .afterWrite kp blob file 0 }
  | .writing kp blob file written =>
    match env.os with
    | .error e => s.fails (.internalError s!"write tmp: {e}")
    | .ok 0 => s.fails (.internalError "write tmp: failed to write whole buffer")
    | .ok count =>
      let piece := (blob.drop written).take count
      s.goesWith (s.disk.write file written piece) (.afterWrite kp blob file (written + count))
  | .syncing kp blob file =>
    match env.os with
    | .error e => s.fails (.internalError s!"fsync tmp: {e}")
    | .ok _ => s.goesWith (s.disk.sync file) (.moving kp blob)
  | .moving kp _ =>
    match env.os with
    | .error e => s.fails (.internalError s!"rename: {e}")
    | .ok _ =>
      match s.disk.rename D.tmpPath D.identityPath with
      | none => s.fails (.internalError "rename: No such file or directory (os error 2)")
      | some files => s.goesWith files (.openingParent kp)
  -- what goes wrong with the parent directory is not looked at
  | .openingParent kp =>
    match env.os with
    | .error _ => s.answers kp
    | .ok _ => s.goes (.syncingParent kp)
  | .syncingParent kp =>
    match env.os with
    | .error _ => s.answers kp
    | .ok _ => (s.goesWith s.disk.syncDir (.syncingParent kp)).answers kp
  | .returned _ | .stopped => s

end IdentityDaemon

/-! ## Runs -/

/-- Where `crashes` is set, the machine may stop besides the process. -/
inductive RotateAction (C : IdentityCrypto) (crashes : Bool) where
  | turn (env : RotateEnv C)
  | stop
  | crash (counted : crashes = true) (k : ℕ) (garbage : ℕ → List UInt8)

/-- What is left of the daemon when its process is gone. -/
def Rotation.stops {C : IdentityCrypto} (s : Rotation C) : Rotation C :=
  { s with identity := none, call := .stopped }

def RotateAction.step {C : IdentityCrypto} {crashes : Bool} (D : IdentityDaemon) (s : Rotation C) :
    RotateAction C crashes → Rotation C
  | .turn env => D.rotate env s
  | .stop => s.stops
  | .crash _ k garbage => (s.goesWith (s.disk.crash k garbage) .stopped).stops

/-- A key pair in the key file, which can be read, and of which the daemon signs with none
other. -/
structure StoredIdentity (C : IdentityCrypto) (D : IdentityDaemon) (crashes : Bool) where
  disk : IdentityDisk
  old : HybridKeyPair C
  blob : List UInt8
  identity : Option (HybridKeyPair C)
  settled : FileDisk.Settled crashes D.identityPath D.tmpPath (· = some blob) disk.toFileDisk
  intact : D.Intact disk
  opens : openBlob C D.passphrase blob = .ok old
  signs : ∀ id, identity = some id → id = old

def StoredIdentity.start {C : IdentityCrypto} {D : IdentityDaemon} {crashes : Bool}
    (stored : StoredIdentity C D crashes) : Rotation C :=
  { disk := stored.disk, identity := stored.identity, call := .entered, new := none }

/-- The call is over, or the process is. -/
def RotateCall.Rests {C : IdentityCrypto} : RotateCall C → Prop
  | .returned _ | .stopped => True
  | _ => False

section Property

variable {C : IdentityCrypto} (D : IdentityDaemon)

/-- After a restart the old key pair is loaded or the new one, and after an error the one that
the daemon signs with, whatever a third would be made of. -/
structure Recoverable (old : HybridKeyPair C) (s : Rotation C) : Prop where
  loads : ∃ id, (id = old ∨ s.new = some id) ∧ ∀ source, D.loadIdentity C source s.disk = .ok id
  agrees : ∀ e, s.call = .returned (.error e) → ∀ id, s.identity = some id →
    ∀ source, D.loadIdentity C source s.disk = .ok id

def RecoverableAtRest (old : HybridKeyPair C) (s : Rotation C) : Prop :=
  s.call.Rests → Recoverable D old s

/-- The call fails at this turn, or has nothing left to do. -/
def RotateCall.Ends (env : RotateEnv C) : RotateCall C → Prop
  | .generating => ∃ e, env.source.keys = .error e
  | .sealing kp => ∃ e, sealIdentity C D.passphrase env.source.salt env.source.nonce kp = .error e
  | .archiving | .opening .. | .syncing .. | .moving .. | .openingParent _ => ∃ e, env.os = .error e
  | .writing .. => (∃ e, env.os = .error e) ∨ env.os = .ok 0
  | .syncingParent _ => True
  | _ => False

/-- Where the call ends or is stopped, a file that can be read stands at the path, in the
directory that a crash leaves where there is one. -/
def EndsIntact {crashes : Bool} (s : Rotation C) : RotateAction C crashes → Prop
  | .turn env => s.call.Ends D env → D.Intact s.disk
  | .stop => D.Intact s.disk
  | .crash _ k garbage => D.Intact (s.disk.withFiles (s.disk.crash k garbage))

end Property

/-! ## The invariant -/

section Invariant

variable {C : IdentityCrypto} (D : IdentityDaemon) (crashes : Bool) (old : HybridKeyPair C)

/-- The blob is of the key pair. -/
def IsSealed (kp : HybridKeyPair C) (blob : List UInt8) : Prop :=
  ∃ salt nonce, sealIdentity C D.passphrase salt nonce kp = .ok blob

/-- What may be at the path: a file that opens to the old key pair or to the new one, if it is
not too large. -/
def OldOrNew (new : Option (HybridKeyPair C)) (content : Option (List UInt8)) : Prop :=
  ∀ blob, content = some blob → blob.length ≤ maxIdentityFileSize →
    ∃ id, (id = old ∨ new = some id) ∧ openBlob C D.passphrase blob = .ok id

/-- Nothing has been renamed to the path. -/
def RotateCall.Unmoved : RotateCall C → Prop
  | .openingParent _ | .syncingParent _ | .returned (.ok _) | .stopped => False
  | _ => True

/-- What the daemon and its disk have of the call. -/
def RotateCall.Fits (s : Rotation C) : RotateCall C → Prop
  | .entered | .cleaning | .generating => s.new = none
  | .archiving => s.new = none ∧ (s.disk.dir D.identityPath).isSome
  | .sealing kp => s.new = some kp
  | .opening kp blob => s.new = some kp ∧ IsSealed D kp blob
  | .writing kp blob file written => (s.new = some kp ∧ IsSealed D kp blob) ∧
      s.disk.dir D.tmpPath = some file ∧ s.disk.bytes file = blob.take written ∧
        written ≤ blob.length
  | .syncing kp blob file => (s.new = some kp ∧ IsSealed D kp blob) ∧
      s.disk.dir D.tmpPath = some file ∧ s.disk.bytes file = blob
  | .moving kp blob => (s.new = some kp ∧ IsSealed D kp blob) ∧
      ∃ file, s.disk.dir D.tmpPath = some file ∧ s.disk.bytes file = blob ∧
        s.disk.dirty file = false
  | _ => True

/-- The path has the old file or the new one in every directory that may be found, or none; the
old one, if any, until the new one is renamed; and the daemon signs with no other than the old
key pair until then. -/
structure RotateKept (s : Rotation C) : Prop where
  settled : FileDisk.Settled crashes D.identityPath D.tmpPath (OldOrNew D old s.new)
    s.disk.toFileDisk
  before : s.call.Unmoved → OldOrNew D old none (s.disk.read D.identityPath)
  signs : s.call.Unmoved → ∀ id, s.identity = some id → id = old
  fits : s.call.Fits D s

end Invariant

section Steps

variable {C : IdentityCrypto} {D : IdentityDaemon} {crashes : Bool} {old : HybridKeyPair C}
  {s : Rotation C}

theorem identityPath_ne_tmpPath : D.identityPath ≠ D.tmpPath := by
  intro h
  have hChars := congrArg String.toList h
  simp [IdentityDaemon.identityPath, IdentityDaemon.tmpPath, String.toList_append] at hChars

theorem archivePath_ne (nowSecs : ℕ) :
    D.identityPath ≠ D.archivePath nowSecs ∧ D.tmpPath ≠ D.archivePath nowSecs := by
  constructor
  · intro h
    have hChars := congrArg String.toList h
    simp [IdentityDaemon.identityPath, IdentityDaemon.archivePath, String.toList_append] at hChars
  · intro h
    have hChars := congrArg String.toList h
    simp [IdentityDaemon.tmpPath, IdentityDaemon.archivePath, String.toList_append] at hChars

/-- The names of the key file and of the temporary file are not removed. -/
theorem withoutOldArchives_append {aged : String → Bool} {dir : Dir String}
    {front extension : String} {c : Char} (hLast : extension.toList.getLast? = some c)
    (hc : c ≠ '.') :
    withoutOldArchives aged dir (front ++ extension) = dir (front ++ extension) := by
  refine if_neg fun hRemoved => hc ?_
  obtain ⟨rest, hRest⟩ := hRemoved.2.1
  have hEnd := congrArg List.getLast? hRest
  rw [String.toList_append, List.getLast?_append, List.getLast?_append, hLast] at hEnd
  exact (Option.some.inj hEnd).symm

/-- What may be at the path without a new key pair may be with one. -/
theorem OldOrNew.mono {new : Option (HybridKeyPair C)} {content : Option (List UInt8)}
    (h : OldOrNew D old none content) : OldOrNew D old new content := by
  intro blob hContent hSize
  obtain ⟨id, hId, hOpen⟩ := h blob hContent hSize
  exact ⟨id, .inl (hId.resolve_right nofun), hOpen⟩

theorem oldOrNew_none {new : Option (HybridKeyPair C)} : OldOrNew D old new none := nofun

/-- A turn that leaves the key pairs, and what is read at the path. -/
theorem RotateKept.goesOn (h : RotateKept D crashes old s) {d : IdentityDisk}
    {call' : RotateCall C}
    (hSettled : FileDisk.Settled crashes D.identityPath D.tmpPath (OldOrNew D old s.new)
      d.toFileDisk)
    (hUnmoved : call'.Unmoved → s.call.Unmoved ∧
      OldOrNew D old none (d.read D.identityPath))
    (hFits : call'.Fits D { s with disk := d, call := call' }) :
    RotateKept D crashes old { s with disk := d, call := call' } :=
  ⟨hSettled, fun hCall => (hUnmoved hCall).2, fun hCall => h.signs (hUnmoved hCall).1, hFits⟩

/-- A turn that only goes on to what is next. -/
theorem RotateKept.goes (h : RotateKept D crashes old s) {call' : RotateCall C}
    (hUnmoved : call'.Unmoved → s.call.Unmoved) (hFits : call'.Fits D (s.goes call')) :
    RotateKept D crashes old (s.goes call') :=
  h.goesOn h.settled (fun hCall => ⟨hUnmoved hCall, h.before (hUnmoved hCall)⟩) hFits

theorem RotateKept.fails (h : RotateKept D crashes old s) (hUnmoved : s.call.Unmoved)
    (e : IdentityError) : RotateKept D crashes old (s.fails e) :=
  h.goes (fun _ => hUnmoved) trivial

theorem RotateKept.answers (h : RotateKept D crashes old s) (kp : HybridKeyPair C) :
    RotateKept D crashes old (s.answers kp) :=
  ⟨h.settled, nofun, nofun, trivial⟩

/-- A turn at the temporary file. -/
theorem RotateKept.goesOnTmp (h : RotateKept D crashes old s) {d : IdentityDisk}
    {call' : RotateCall C} (hUnmoved : s.call.Unmoved)
    (hTmp : FileDisk.Settled crashes D.identityPath D.tmpPath (OldOrNew D old s.new)
      d.toFileDisk ∧ d.read D.identityPath = s.disk.read D.identityPath)
    (hFits : call'.Fits D { s with disk := d, call := call' }) :
    RotateKept D crashes old { s with disk := d, call := call' } :=
  h.goesOn hTmp.1 (fun _ => ⟨hUnmoved, hTmp.2 ▸ h.before hUnmoved⟩) hFits

theorem fits_afterWrite {kp : HybridKeyPair C} {blob : List UInt8} {file written : ℕ}
    (hNew : s.new = some kp ∧ IsSealed D kp blob) (hDir : s.disk.dir D.tmpPath = some file)
    (hBytes : s.disk.bytes file = blob.take written) :
    (RotateCall.afterWrite kp blob file written).Fits D s := by
  unfold RotateCall.afterWrite
  split
  · rename_i hLess
    exact ⟨hNew, hDir, hBytes, le_of_lt hLess⟩
  · rename_i hAll
    refine ⟨hNew, hDir, ?_⟩
    rw [hBytes, List.take_of_length_le (not_lt.mp hAll)]

section Turns

variable {env : RotateEnv C}

/-- The rename to the archive takes the old file from the path. -/
theorem RotateKept.archived (h : RotateKept D crashes old s) (hCall : s.call = .archiving) :
    RotateKept D crashes old (D.rotate env s) := by
  obtain ⟨hNew, -⟩ : RotateCall.archiving.Fits D s := hCall ▸ h.fits
  have hUnmoved : s.call.Unmoved := by rw [hCall]; trivial
  simp only [IdentityDaemon.rotate, hCall]
  cases env.os with
  | error e => exact h.fails hUnmoved _
  | ok count =>
    dsimp only
    cases hRename : s.disk.rename D.identityPath (D.archivePath env.nowSecs) with
    | none => exact h.fails hUnmoved _
    | some files =>
      obtain ⟨hPath, hTmp⟩ := archivePath_ne (D := D) env.nowSecs
      -- the archive has neither name, so that the path has no file after it
      obtain ⟨hSettled, hMissing, -⟩ :=
        h.settled.renameAway identityPath_ne_tmpPath hPath hTmp oldOrNew_none hRename
      refine h.goesOn (d := s.disk.withFiles files) hSettled (fun _ => ⟨hUnmoved, ?_⟩) hNew
      show OldOrNew D old none ((files.dir D.identityPath).map files.bytes)
      rw [hMissing]
      exact oldOrNew_none

/-- To remove archives does not touch the path. -/
theorem RotateKept.cleaned (h : RotateKept D crashes old s) (hCall : s.call = .cleaning) :
    RotateKept D crashes old (D.rotate env s) := by
  have hNew : RotateCall.cleaning.Fits D s := hCall ▸ h.fits
  have hUnmoved : s.call.Unmoved := by rw [hCall]; trivial
  simp only [IdentityDaemon.rotate, hCall]
  cases env.os with
  | error e => exact h.goes (fun _ => hUnmoved) hNew
  | ok count =>
    -- neither of the two names ends in a dot
    have hPath : withoutOldArchives env.aged s.disk.dir D.identityPath =
        s.disk.dir D.identityPath :=
      withoutOldArchives_append (c := 'c') rfl (by decide)
    have hTmp : withoutOldArchives env.aged s.disk.dir D.tmpPath = s.disk.dir D.tmpPath :=
      withoutOldArchives_append (c := 'p') rfl (by decide)
    have hSettled : FileDisk.Settled crashes D.identityPath D.tmpPath (OldOrNew D old s.new)
        (s.disk.toFileDisk.setDir (withoutOldArchives env.aged s.disk.dir)) := by
      refine h.settled.setDir (fun name i hi => ?_) hPath (fun dir hDir i hi => ?_)
      · -- an archive that is removed names no file, the rest is as before
        unfold withoutOldArchives at hi
        split at hi
        · cases hi
        · exact h.settled.named _ FileDisk.dir_mem_reach name i hi
      · rw [hTmp]
        exact (h.settled.apart dir hDir i hi).2
    refine h.goesOnTmp (d := s.disk.withFiles _) hUnmoved ⟨hSettled, ?_⟩ hNew
    show (withoutOldArchives env.aged s.disk.dir D.identityPath).map s.disk.bytes = _
    rw [hPath]
    rfl

theorem RotateKept.generated (h : RotateKept D crashes old s) (hCall : s.call = .generating) :
    RotateKept D crashes old (D.rotate env s) := by
  have hNew : RotateCall.generating.Fits D s := hCall ▸ h.fits
  have hUnmoved : s.call.Unmoved := by rw [hCall]; trivial
  simp only [IdentityDaemon.rotate, hCall]
  cases D.generate env.source with
  | error e => exact h.fails hUnmoved e
  | ok kp =>
    have hNone : s.new = none := hNew
    have hSettled := h.settled
    rw [hNone] at hSettled
    exact ⟨hSettled.mono fun _ hContent => hContent.mono, fun _ => h.before hUnmoved,
      fun _ => h.signs hUnmoved, rfl⟩

theorem RotateKept.sealed {kp : HybridKeyPair C} (h : RotateKept D crashes old s)
    (hCall : s.call = .sealing kp) : RotateKept D crashes old (D.rotate env s) := by
  have hNew : (RotateCall.sealing kp).Fits D s := hCall ▸ h.fits
  have hUnmoved : s.call.Unmoved := by rw [hCall]; trivial
  simp only [IdentityDaemon.rotate, hCall]
  cases hSeal : sealIdentity C D.passphrase env.source.salt env.source.nonce kp with
  | error e => exact h.fails hUnmoved e
  | ok blob => exact h.goes (fun _ => hUnmoved) ⟨hNew, _, _, hSeal⟩

theorem RotateKept.opened {kp : HybridKeyPair C} {blob : List UInt8}
    (h : RotateKept D crashes old s) (hCall : s.call = .opening kp blob) :
    RotateKept D crashes old (D.rotate env s) := by
  have hNew : (RotateCall.opening kp blob).Fits D s := hCall ▸ h.fits
  have hUnmoved : s.call.Unmoved := by rw [hCall]; trivial
  simp only [IdentityDaemon.rotate, hCall]
  cases env.os with
  | error e => exact h.fails hUnmoved _
  | ok count =>
    obtain ⟨hDir, hBytes⟩ := s.disk.toFileDisk.openTruncate_opened D.tmpPath
    refine h.goesOnTmp hUnmoved (h.settled.openTruncate identityPath_ne_tmpPath) ?_
    exact fits_afterWrite hNew hDir (by rw [List.take_zero]; exact hBytes)

theorem RotateKept.wrote {kp : HybridKeyPair C} {blob : List UInt8} {file written : ℕ}
    (h : RotateKept D crashes old s) (hCall : s.call = .writing kp blob file written) :
    RotateKept D crashes old (D.rotate env s) := by
  obtain ⟨hNew, hDir, hBytes, hWritten⟩ : (RotateCall.writing kp blob file written).Fits D s :=
    hCall ▸ h.fits
  have hUnmoved : s.call.Unmoved := by rw [hCall]; trivial
  simp only [IdentityDaemon.rotate, hCall]
  cases env.os with
  | error e => exact h.fails hUnmoved _
  | ok count =>
    -- no byte written is an error, as `write_all` has it
    cases count with
    | zero => exact h.fails hUnmoved _
    | succ count =>
      refine h.goesOnTmp (d := s.disk.withFiles _) hUnmoved (h.settled.write hDir written _) ?_
      refine fits_afterWrite hNew hDir ?_
      show (s.disk.toFileDisk.write file written _).bytes file = _
      rw [FileDisk.write_bytes_self, hBytes, FileDisk.splice_take hWritten]

theorem RotateKept.syncedFile {kp : HybridKeyPair C} {blob : List UInt8} {file : ℕ}
    (h : RotateKept D crashes old s) (hCall : s.call = .syncing kp blob file) :
    RotateKept D crashes old (D.rotate env s) := by
  obtain ⟨hNew, hDir, hBytes⟩ : (RotateCall.syncing kp blob file).Fits D s := hCall ▸ h.fits
  have hUnmoved : s.call.Unmoved := by rw [hCall]; trivial
  simp only [IdentityDaemon.rotate, hCall]
  cases env.os with
  | error e => exact h.fails hUnmoved _
  | ok count =>
    exact h.goesOnTmp (d := s.disk.withFiles _) hUnmoved ⟨h.settled.sync file, rfl⟩
      ⟨hNew, file, hDir, hBytes, FileDisk.sync_dirty_self ..⟩

/-- The second rename puts the whole new file at the path. -/
theorem RotateKept.moved {kp : HybridKeyPair C} {blob : List UInt8} (h : RotateKept D crashes old s)
    (hCall : s.call = .moving kp blob) : RotateKept D crashes old (D.rotate env s) := by
  obtain ⟨⟨hNew, salt, nonce, hSeal⟩, file, hDir, hBytes, hClean⟩ :
    (RotateCall.moving kp blob).Fits D s := hCall ▸ h.fits
  have hUnmoved : s.call.Unmoved := by rw [hCall]; trivial
  simp only [IdentityDaemon.rotate, hCall]
  cases env.os with
  | error e => exact h.fails hUnmoved _
  | ok count =>
    -- the file at the temporary path is the whole blob of the new key pair
    have hAllowed : OldOrNew D old s.new (some (s.disk.bytes file)) := by
      rw [hBytes]
      intro blob' hEq hSize
      obtain rfl := Option.some.inj hEq
      exact ⟨kp, .inr hNew, openBlob_sealIdentity hSeal hSize⟩
    obtain ⟨files, hRename, hSettled, -⟩ :=
      h.settled.rename identityPath_ne_tmpPath hDir hClean hAllowed
    rw [hRename]
    exact h.goesOn (d := s.disk.withFiles files) hSettled nofun trivial

/-- A turn keeps the invariant, whatever fails in it. -/
theorem RotateKept.rotate (h : RotateKept D crashes old s) (env : RotateEnv C) :
    RotateKept D crashes old (D.rotate env s) := by
  cases hCall : s.call with
  | entered =>
    have hNew : RotateCall.entered.Fits D s := hCall ▸ h.fits
    have hUnmoved : s.call.Unmoved := by rw [hCall]; trivial
    simp only [IdentityDaemon.rotate, hCall]
    split
    · rename_i hSeen
      rw [Bool.and_eq_true] at hSeen
      exact h.goes (fun _ => hUnmoved) ⟨hNew, hSeen.2⟩
    · exact h.goes (fun _ => hUnmoved) hNew
  | archiving => exact h.archived hCall
  | cleaning => exact h.cleaned hCall
  | generating => exact h.generated hCall
  | sealing kp => exact h.sealed hCall
  | opening kp blob => exact h.opened hCall
  | writing kp blob file written => exact h.wrote hCall
  | syncing kp blob file => exact h.syncedFile hCall
  | moving kp blob => exact h.moved hCall
  | openingParent kp =>
    simp only [IdentityDaemon.rotate, hCall]
    -- the new file is in place: errors from here on are not reported
    cases env.os with
    | error e => exact h.answers kp
    | ok count => exact h.goes nofun trivial
  | syncingParent kp =>
    simp only [IdentityDaemon.rotate, hCall]
    cases env.os with
    | error e => exact h.answers kp
    | ok count =>
      have hSynced : RotateKept D crashes old (s.goesWith s.disk.syncDir (.syncingParent kp)) :=
        h.goesOn (d := s.disk.withFiles _) (h.settled.syncDir h.settled.read) nofun trivial
      exact hSynced.answers kp
  | returned answer =>
    simp only [IdentityDaemon.rotate, hCall]
    exact h
  | stopped =>
    simp only [IdentityDaemon.rotate, hCall]
    exact h

theorem RotateKept.stops (h : RotateKept D crashes old s) : RotateKept D crashes old s.stops :=
  ⟨h.settled, nofun, nofun, trivial⟩

theorem RotateKept.step (h : RotateKept D crashes old s) (a : RotateAction C crashes) :
    RotateKept D crashes old (a.step D s) := by
  cases a with
  | turn env => exact h.rotate env
  | stop => exact h.stops
  | crash counted k garbage =>
    -- the crash is one of the run's, so that what it may find was kept
    have hCrashed : FileDisk.Settled crashes D.identityPath D.tmpPath (OldOrNew D old s.new)
        (s.disk.crash k garbage) := by
      have hSettled := h.settled
      rw [counted] at hSettled ⊢
      exact hSettled.crash k garbage
    exact ⟨hCrashed, nofun, nofun, trivial⟩

theorem RotateKept.start (stored : StoredIdentity C D crashes) :
    RotateKept D crashes stored.old stored.start := by
  have hOld : ∀ content, content = some stored.blob → OldOrNew D stored.old none content := by
    rintro _ rfl blob hBlob -
    obtain rfl := Option.some.inj hBlob
    exact ⟨stored.old, .inl rfl, stored.opens⟩
  exact ⟨stored.settled.mono hOld, fun _ => hOld _ stored.settled.read, fun _ => stored.signs, rfl⟩

/-! ### What is recovered -/

/-- No new keys. -/
def noKeys (C : IdentityCrypto) : KeySource C :=
  { keys := .error (.keyGenerationFailed ""), now := toU64 0
    salt := ⟨List.replicate 16 0, rfl⟩, nonce := ⟨List.replicate 12 0, rfl⟩ }

/-- The key pair is recovered exactly if a file that can be read stands at the path. -/
theorem RotateKept.recoverable_iff (h : RotateKept D crashes old s) :
    Recoverable D old s ↔ D.Intact s.disk := by
  constructor
  · rintro ⟨⟨id, -, hLoads⟩, -⟩
    exact D.intact_of_loadIdentity rfl (hLoads (noKeys C))
  · intro hIntact
    obtain ⟨file, hFile, hSize, -⟩ := id hIntact
    have hRead : s.disk.read D.identityPath = some (s.disk.bytes file) := by
      unfold FileDisk.read
      rw [hFile, Option.map_some]
    refine ⟨?_, fun e hCall signer hSigns source => ?_⟩
    · -- what stands at the path opens to one of the two
      obtain ⟨id, hId, hOpen⟩ := h.settled.read _ hRead hSize
      exact ⟨id, hId, fun source => D.loadIdentity_of_intact source hIntact hRead hOpen⟩
    · -- nothing was renamed to the path, and the daemon signs with the old key pair
      have hUnmoved : s.call.Unmoved := by rw [hCall]; trivial
      obtain ⟨id, hId, hOpen⟩ := h.before hUnmoved _ hRead hSize
      obtain rfl : id = old := hId.resolve_right nofun
      rw [h.signs hUnmoved signer hSigns]
      exact D.loadIdentity_of_intact source hIntact hRead hOpen

@[simp] theorem rests_returned (answer : Except IdentityError (HybridKeyPair C)) :
    (RotateCall.returned answer).Rests := trivial

@[simp] theorem not_rests_afterWrite (kp : HybridKeyPair C) (blob : List UInt8) (file written : ℕ) :
    ¬ (RotateCall.afterWrite kp blob file written).Rests := by
  unfold RotateCall.afterWrite
  split
  · exact id
  · exact id

/-- A call that was under way rests after a turn exactly if it ends at the turn. -/
theorem RotateKept.rests_rotate_iff (h : RotateKept D crashes old s) (hBusy : ¬ s.call.Rests)
    (env : RotateEnv C) : (D.rotate env s).call.Rests ↔ s.call.Ends D env := by
  cases hCall : s.call with
  | entered =>
    simp only [IdentityDaemon.rotate, hCall]
    split
    · exact Iff.rfl
    · exact Iff.rfl
  | archiving =>
    obtain ⟨-, hThere⟩ : RotateCall.archiving.Fits D s := hCall ▸ h.fits
    -- there is a file to rename
    obtain ⟨file, hFile⟩ := Option.isSome_iff_exists.mp hThere
    cases hOs : env.os <;>
      simp [IdentityDaemon.rotate, hCall, hOs, FileDisk.rename, hFile, RotateCall.Ends,
        RotateCall.Rests]
  | cleaning =>
    cases hOs : env.os <;>
      simp [IdentityDaemon.rotate, hCall, hOs, RotateCall.Ends, RotateCall.Rests]
  | generating =>
    cases hKeys : env.source.keys <;>
      simp [IdentityDaemon.rotate, IdentityDaemon.generate, hCall, hKeys, RotateCall.Ends,
        RotateCall.Rests, Except.map]
  | sealing kp =>
    cases hSeal : sealIdentity C D.passphrase env.source.salt env.source.nonce kp <;>
      simp [IdentityDaemon.rotate, hCall, hSeal, RotateCall.Ends, RotateCall.Rests]
  | opening kp blob =>
    cases hOs : env.os <;>
      simp [IdentityDaemon.rotate, hCall, hOs, RotateCall.Ends]
  | writing kp blob file written =>
    cases hOs : env.os with
    | error e => simp [IdentityDaemon.rotate, hCall, hOs, RotateCall.Ends]
    | ok count => cases count <;> simp [IdentityDaemon.rotate, hCall, hOs, RotateCall.Ends]
  | syncing kp blob file =>
    cases hOs : env.os <;>
      simp [IdentityDaemon.rotate, hCall, hOs, RotateCall.Ends, RotateCall.Rests]
  | moving kp blob =>
    obtain ⟨-, file, hFile, -⟩ : (RotateCall.moving kp blob).Fits D s := hCall ▸ h.fits
    cases hOs : env.os <;>
      simp [IdentityDaemon.rotate, hCall, hOs, FileDisk.rename, hFile, RotateCall.Ends,
        RotateCall.Rests]
  | openingParent kp =>
    cases hOs : env.os <;>
      simp [IdentityDaemon.rotate, hCall, hOs, RotateCall.Ends, RotateCall.Rests]
  | syncingParent kp =>
    cases hOs : env.os <;> simp [IdentityDaemon.rotate, hCall, hOs, RotateCall.Ends]
  | returned answer =>
    rw [hCall] at hBusy
    exact absurd trivial hBusy
  | stopped =>
    rw [hCall] at hBusy
    exact absurd trivial hBusy

/-- A turn at which the call ends changes no file and no name. -/
theorem intact_rotate {env : RotateEnv C} (h : s.call.Ends D env) :
    D.Intact (D.rotate env s).disk ↔ D.Intact s.disk := by
  -- a call ends by an error of the turn, before the turn writes
  cases hCall : s.call with
  | generating =>
    rw [hCall] at h
    obtain ⟨e, hKeys⟩ := h
    simp [IdentityDaemon.rotate, IdentityDaemon.generate, hCall, hKeys, Except.map]
  | sealing kp =>
    rw [hCall] at h
    obtain ⟨e, hSeal⟩ := h
    simp [IdentityDaemon.rotate, hCall, hSeal]
  | archiving | opening | syncing | moving | openingParent =>
    rw [hCall] at h
    obtain ⟨e, hOs⟩ := h
    simp [IdentityDaemon.rotate, hCall, hOs]
  | writing kp blob file written =>
    rw [hCall] at h
    rcases h with ⟨e, hOs⟩ | hOs
    · simp [IdentityDaemon.rotate, hCall, hOs]
    · simp [IdentityDaemon.rotate, hCall, hOs]
  | syncingParent kp =>
    -- syncing the directory leaves the names and the files
    simp only [IdentityDaemon.rotate, hCall]
    cases env.os with
    | error e => exact Iff.rfl
    | ok count => exact Iff.rfl
  | entered | cleaning | returned | stopped =>
    rw [hCall] at h
    exact h.elim

/-- A step leaves the key pair to be recovered exactly if it does not end a call without it. -/
theorem RotateKept.step_iff (h : RotateKept D crashes old s) (hSafe : RecoverableAtRest D old s)
    (a : RotateAction C crashes) :
    RecoverableAtRest D old (a.step D s) ↔ EndsIntact D s a := by
  have hNext := h.step a
  unfold RecoverableAtRest
  rw [hNext.recoverable_iff]
  cases a with
  | turn env =>
    show ((D.rotate env s).call.Rests → D.Intact (D.rotate env s).disk) ↔
      (s.call.Ends D env → D.Intact s.disk)
    -- what the condition asks is asked where the call ends, and not before
    by_cases hRests : s.call.Rests
    · -- a call that is over stays as it is
      have hSame : D.rotate env s = s ∧ ¬ s.call.Ends D env := by
        cases hCall : s.call <;> rw [hCall] at hRests <;>
          first
            | exact hRests.elim
            | exact ⟨by simp only [IdentityDaemon.rotate, hCall], id⟩
      rw [hSame.1]
      exact iff_of_true (fun _ => h.recoverable_iff.mp (hSafe hRests)) fun hEnds =>
        absurd hEnds hSame.2
    · rw [h.rests_rotate_iff hRests env]
      exact forall_congr' fun hEnds => intact_rotate hEnds
  | stop => exact ⟨fun hIntact => hIntact trivial, fun hIntact _ => hIntact⟩
  | crash counted k garbage => exact ⟨fun hIntact => hIntact trivial, fun hIntact _ => hIntact⟩

end Turns

/-- **Rotation.** From a key pair in the key file, along every run of a rotation with stops and
failures, after every stop and every answer the old or the new key pair is loaded, and after an
error the one that the daemon signs with, exactly if a file that can be read stands at the path
wherever the call ends or is stopped. -/
theorem rotation_iff (stored : StoredIdentity C D crashes)
    (actions : List (RotateAction C crashes)) :
    Runs.EveryState (RotateAction.step D) (RecoverableAtRest D stored.old) stored.start actions ↔
      Runs.EveryStep (RotateAction.step D) (EndsIntact D) stored.start actions :=
  Runs.everyState_iff_everyStep (J := RotateKept D crashes stored.old)
    (fun _ a hKept => hKept.step a) (fun _ a hKept hSafe => hKept.step_iff hSafe a)
    (RotateKept.start stored) nofun actions

end Steps

/-! ## A stop between the renames -/

/-- Primitives that tell no keys apart. -/
def plainIdentityCrypto : IdentityCrypto where
  verifyingKey secret := secret
  isPoint _ := true
  argon2 _ _ := .ok ⟨List.replicate 32 0, rfl⟩
  encrypt _ _ _ msg := some (msg ++ List.replicate 16 0)
  decrypt _ _ _ ciphertext := some (ciphertext.take (ciphertext.length - 16))
  utf8Error _ := ""
  isPoint_verifyingKey _ := rfl
  decrypt_encrypt _ _ _ msg ciphertext h := by
    obtain rfl := Option.some.inj h
    rw [List.length_append, List.length_replicate, Nat.add_sub_cancel, List.take_left]
  length_encrypt _ _ _ msg ciphertext h := by
    obtain rfl := Option.some.inj h
    rw [List.length_append, List.length_replicate]

def labDaemon : IdentityDaemon := { nodeId := "vault-1", fileId := "00", passphrase := [] }

/-- A key pair made at an instant. -/
def pairAt (now : U64) : HybridKeyPair plainIdentityCrypto where
  ed25519 := ⟨⟨List.replicate 32 0, rfl⟩, ⟨List.replicate 32 0, rfl⟩, rfl⟩
  mlDsa65 := ⟨⟨List.replicate 4032 0, List.length_replicate⟩,
    ⟨List.replicate 1952 0, List.length_replicate⟩⟩
  nodeId := "vault-1"
  createdAt := now
  expiresAt := toU64 0

def sourceAt (now : U64) : KeySource plainIdentityCrypto :=
  { noKeys plainIdentityCrypto with
    keys := .ok ((pairAt now).ed25519, (pairAt now).mlDsa65)
    now }

theorem exists_sealed (now : U64) : ∃ blob, sealIdentity plainIdentityCrypto labDaemon.passphrase
    (sourceAt now).salt (sourceAt now).nonce (pairAt now) = .ok blob := ⟨_, rfl⟩

/-- A directory with one name, and a file under it. -/
def loneFile (name : String) (bytes : List UInt8) : IdentityDisk where
  dir := Function.update (fun _ => none) name (some 0)
  bytes _ := bytes
  dirty _ := false
  earlier := []
  fresh := 1
  shared _ := false

theorem loneFile_dir_self (name : String) (bytes : List UInt8) :
    (loneFile name bytes).dir name = some 0 := by
  unfold loneFile
  dsimp only
  rw [Function.update_self]

theorem loneFile_dir_ne {name other : String} (h : other ≠ name) (bytes : List UInt8) :
    (loneFile name bytes).dir other = none := by
  unfold loneFile
  dsimp only
  rw [Function.update_of_ne h]

/-- The key pair of the instant 0, alone in the directory. -/
def storedLab (crashes : Bool) (blob : List UInt8)
    (h : sealIdentity plainIdentityCrypto labDaemon.passphrase (sourceAt (toU64 0)).salt
      (sourceAt (toU64 0)).nonce (pairAt (toU64 0)) = .ok blob) :
    StoredIdentity plainIdentityCrypto labDaemon crashes where
  disk := loneFile labDaemon.identityPath blob
  old := pairAt (toU64 0)
  blob := blob
  identity := some (pairAt (toU64 0))
  settled := by
    refine .of_synced rfl (fun _ => rfl) (fun name i hi => ?_) (fun i _ => ?_) ?_
    · by_cases hName : name = labDaemon.identityPath
      · rw [hName, loneFile_dir_self] at hi
        exact Option.some.inj hi ▸ Nat.zero_lt_one
      · rw [loneFile_dir_ne hName] at hi
        cases hi
    · rw [loneFile_dir_ne identityPath_ne_tmpPath.symm]
      exact nofun
    · unfold FileDisk.read
      rw [loneFile_dir_self]
      rfl
  intact := by
    refine ⟨0, loneFile_dir_self .., ?_, rfl⟩
    show blob.length ≤ maxIdentityFileSize
    rw [length_sealIdentity h]
    decide
  opens := openBlob_sealIdentity h (by rw [length_sealIdentity h]; decide)
  signs := by
    rintro id ⟨⟩
    rfl

/-- A turn in which nothing fails. -/
def calmTurn (crashes : Bool) : RotateAction plainIdentityCrypto crashes :=
  .turn { visible := true, nowSecs := 0, os := .ok 1, aged := fun _ => false
          source := noKeys plainIdentityCrypto }

/-- A daemon that is stopped once it has archived its key file comes up with a third key pair. -/
theorem rotation_fails :
    ¬ ∀ (C : IdentityCrypto) (D : IdentityDaemon) (crashes : Bool)
      (stored : StoredIdentity C D crashes) (actions : List (RotateAction C crashes)),
      Runs.EveryState (RotateAction.step D) (RecoverableAtRest D stored.old) stored.start
        actions := by
  intro h
  obtain ⟨blob, hSeal⟩ := exists_sealed (toU64 0)
  have hLast := (h _ _ false (storedLab false blob hSeal)
    [calmTurn false, calmTurn false, .stop]).last
  obtain ⟨⟨id, hId, hLoads⟩, -⟩ := hLast trivial
  -- two turns archive the key file, and no key pair has been made yet
  have hMissing : (Runs.run (RotateAction.step labDaemon) (storedLab false blob hSeal).start
      [calmTurn false, calmTurn false, .stop]).disk.dir labDaemon.identityPath = none := by
    simp only [Runs.run_cons, Runs.run_nil, RotateAction.step, calmTurn, IdentityDaemon.rotate,
      StoredIdentity.start, storedLab, loneFile_dir_self, Option.isSome_some, Bool.and_self,
      if_true, Rotation.goes, FileDisk.rename]
    show Function.update (Function.update (loneFile labDaemon.identityPath blob).dir
      labDaemon.identityPath none) (labDaemon.archivePath 0) (some 0) labDaemon.identityPath = none
    rw [Function.update_of_ne (archivePath_ne 0).1, Function.update_self]
  obtain rfl : id = pairAt (toU64 0) := hId.resolve_right nofun
  obtain ⟨third, hThird⟩ := exists_sealed (toU64 1)
  have hNew := labDaemon.loadIdentity_of_missing (sourceAt (toU64 1)) hMissing rfl hThird
  rw [hLoads (sourceAt (toU64 1))] at hNew
  have hSame := congrArg HybridKeyPair.createdAt (Except.ok.inj hNew)
  exact absurd hSame (by decide)

end KeroseneVault
