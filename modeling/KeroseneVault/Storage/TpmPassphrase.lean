import KeroseneVault.Dkg.SealedShares
import KeroseneVault.Dkg.ShareStore
import KeroseneVault.Storage.AtomicWrite

/-!
# The passphrase behind the TPM

At its first boot a node seals the passphrase it is configured with, and at each boot
after that it opens what it has sealed. The envelope goes to a temporary file, which is
then renamed; neither is synced. A boot may stop at any of its calls, and may be of a node
that is configured otherwise than before.

* `TpmSealAdapter`, `buildTpmSealPort` — the mock, and the adapters that refuse;
* `resolveAeadPassphrase` — read the envelope, or seal one;
* `TpmBoot.boot` — the two as `wiring.rs` has them;
* `TpmAction.step` — a boot, or a loss of power, which may leave garbage in what was not
  synced.

Main results:

* `passphrase_stays` — while the power stays, every boot that gets a passphrase from an
  envelope gets the same one, and no envelope is replaced;
* `passphrase_configured` — with losses of power, it is one that a boot was configured with.
-/

namespace KeroseneVault

/-! ## The adapters -/

/-- `TpmSealAdapter`, as it is without the `tpm` feature. -/
inductive TpmSealAdapter where
  | failClosed
  | mock
  | hwProbe
  deriving DecidableEq, Repr

namespace TpmSealAdapter

def backendKind : TpmSealAdapter → String
  | .failClosed => "fail_closed"
  | .mock => "mock"
  | .hwProbe => "hw_probe"

def magic : List UInt8 := strBytes "KVTPM001"

def version : UInt8 := 1

def modeMock : UInt8 := 1

def modeHw : UInt8 := 2

variable (C : SealCrypto)

def mockKey (policy salt : List UInt8) : List UInt8 :=
  C.sha256 (strBytes "kerosene-vault-tpm-mock-v1" ++ policy ++ salt)

/-- What stands before the ciphertext. -/
def header (salt nonce : List UInt8) : List UInt8 := magic ++ version :: modeMock :: salt ++ nonce

/-- `mock_seal`, with the salt and the nonce that it draws. -/
def mockSeal (salt : ByteBlock 16) (nonce : ByteBlock 12) (plaintext policy : List UInt8) :
    List UInt8 :=
  header salt.1 nonce.1 ++
    C.encrypt (mockKey C policy salt.1) nonce.1 (header salt.1 nonce.1) plaintext

def mockUnseal (envelope policy : List UInt8) : Except DomainError (List UInt8) :=
  if envelope.length < 38 + 16 then .error (.tpmRequired "TPM sealed envelope is too short")
  else if envelope.take 8 ≠ magic ∨ envelope.getD 8 0 ≠ version ∨ envelope.getD 9 0 ≠ modeMock then
    .error (.tpmRequired "TPM sealed envelope is invalid")
  else
    let salt := (envelope.drop 10).take 16
    match C.decrypt (mockKey C policy salt) ((envelope.drop 26).take 12) (envelope.take 38)
      (envelope.drop 38) with
    | some plain => .ok plain
    | none => .error (.tpmRequired "TPM unseal rejected by policy or ciphertext")

/-- `TpmSealPort::seal`. -/
def sealPassphrase (salt : ByteBlock 16) (nonce : ByteBlock 12) (plaintext policy : List UInt8) :
    TpmSealAdapter → Except DomainError (List UInt8)
  | .mock => .ok (mockSeal C salt nonce plaintext policy)
  | .failClosed => .error (.tpmRequired "no TPM 2.0 device is available")
  | .hwProbe => .error (.tpmRequired "TPM device detected but TSS seal support is not implemented")

/-- `TpmSealPort::unseal`. -/
def unsealPassphrase (envelope policy : List UInt8) :
    TpmSealAdapter → Except DomainError (List UInt8)
  | .mock => mockUnseal C envelope policy
  | .failClosed => .error (.tpmRequired "no TPM 2.0 device is available")
  | .hwProbe =>
    .error (.tpmRequired
      (if envelope[9]? = some modeHw then
        "TPM hardware envelope requires unimplemented TSS support"
      else "TPM device detected but TSS unseal support is not implemented"))

/-- An envelope is read as the parts that it was made of. -/
theorem mockUnseal_header {salt : ByteBlock 16} {nonce : ByteBlock 12} {ciphertext : List UInt8}
    (h : 16 ≤ ciphertext.length) (policy : List UInt8) :
    mockUnseal C (header salt.1 nonce.1 ++ ciphertext) policy =
      match C.decrypt (mockKey C policy salt.1) nonce.1 (header salt.1 nonce.1) ciphertext with
      | some plain => .ok plain
      | none => .error (.tpmRequired "TPM unseal rejected by policy or ciphertext") := by
  obtain ⟨salt, hSalt⟩ := salt
  obtain ⟨nonce, hNonce⟩ := nonce
  have hMagic : magic.length = 8 := by decide +kernel
  have hHeader : (header salt nonce).length = 38 := by
    unfold header
    simp only [List.length_append, List.length_cons, hMagic, hSalt, hNonce]
  have hBlob : header salt nonce ++ ciphertext =
      magic ++ ([version, modeMock] ++ (salt ++ (nonce ++ ciphertext))) := by
    simp [header]
  -- the fields stand at fixed offsets: eight of magic, two bytes, then salt and nonce
  have hHead : (header salt nonce ++ ciphertext).drop 10 = salt ++ (nonce ++ ciphertext) := by
    rw [hBlob, ← List.append_assoc]
    exact List.drop_left' (by simp [hMagic])
  have hNonceAt : (header salt nonce ++ ciphertext).drop 26 = nonce ++ ciphertext := by
    rw [show (26 : Nat) = 10 + 16 from rfl, ← List.drop_drop, hHead, List.drop_left' hSalt]
  have hVersion : (header salt nonce ++ ciphertext).getD 8 0 = version := by
    rw [hBlob, List.getD_eq_getElem?_getD, List.getElem?_append_right (by omega), hMagic]
    rfl
  have hMode : (header salt nonce ++ ciphertext).getD 9 0 = modeMock := by
    rw [hBlob, List.getD_eq_getElem?_getD, List.getElem?_append_right (by omega), hMagic]
    rfl
  have hMagicAt : (header salt nonce ++ ciphertext).take 8 = magic := by
    rw [hBlob]
    exact List.take_left' hMagic
  have hLength : ¬ (header salt nonce ++ ciphertext).length < 38 + 16 := by
    rw [List.length_append, hHeader]
    omega
  unfold mockUnseal
  rw [if_neg hLength, hMagicAt, hVersion, hMode, hHead, hNonceAt, List.take_left' hSalt,
    List.take_left' hNonce, List.take_left' hHeader, List.drop_left' hHeader]
  simp only [ne_eq, not_true, or_self, if_false]

/-- What was sealed opens under its policy. -/
theorem mockUnseal_mockSeal (salt : ByteBlock 16) (nonce : ByteBlock 12)
    (plaintext policy : List UInt8) :
    mockUnseal C (mockSeal C salt nonce plaintext policy) policy = .ok plaintext := by
  unfold mockSeal
  rw [mockUnseal_header C (C.encrypt_tag ..), C.decrypt_encrypt, if_pos rfl]

end TpmSealAdapter

/-- `build_tpm_seal_port` with sealing enabled, in a build without the `tpm` feature. -/
def buildTpmSealPort (production devicePresent stub refuseStub : Bool) :
    Except DomainError TpmSealAdapter :=
  if stub then
    if refuseStub || production then .error (.labFlagForbidden "VAULT_SHARE_TPM_STUB")
    else .ok .mock
  else if devicePresent then .ok .hwProbe
  else .ok .failClosed

/-! ## One boot -/

/-- How a call of the operating system ends. A process that stops in it has done its work. -/
inductive CallFate where
  | works
  | fails (e : String)
  | stops
  deriving DecidableEq

/-- How the calls of one boot end. -/
structure TpmFates where
  /-- do the metadata of the envelope come? `exists` answers false where they do not -/
  stat : Bool
  read : CallFate
  mkdir : CallFate
  openTmp : CallFate
  write : CallFate
  /-- the bytes that are written where `write` does not work -/
  written : Nat
  rename : CallFate
  deriving DecidableEq

/-- A boot of a node: what it is configured with, what it draws, and how its calls end. -/
structure TpmBoot where
  production : Bool
  devicePresent : Bool
  stub : Bool
  refuseStub : Bool
  clearPassphrase : Option String
  clearFallback : Bool
  salt : ByteBlock 16
  nonce : ByteBlock 12
  fates : TpmFates

structure ResolvedPassphrase where
  passphrase : String
  tpmBackend : String
  usedClearFallback : Bool
  deriving DecidableEq

namespace TpmBoot

/-- `policy`, of the data root of the node. -/
def policy (C : SealCrypto) (dataRoot : String) : List UInt8 :=
  C.sha256 (strBytes "kerosene-vault-tpm-passphrase-policy-v1|" ++ strBytes dataRoot)

def clear (value : Option String) : Except DomainError String :=
  match value.filter (· ≠ "") with
  | some passphrase => .ok passphrase
  | none =>
    .error (.shareStoreForbidden
      "VAULT_SHARE_PASSPHRASE is required to bootstrap TPM-sealed AEAD storage")

/-- `write_envelope`; `none` where the process stops. -/
def writeEnvelope (fates : TpmFates) (bytes : List UInt8) (d : FileDisk FileName) :
    Option Outcome × FileDisk FileName :=
  match fates.mkdir with
  | .stops => (none, d)
  | .fails e => (some (.error (.shareStoreForbidden s!"mkdir TPM passphrase root: {e}")), d)
  | .works =>
    let (file, opened) := d.openTruncate .tmp
    match fates.openTmp with
    | .stops => (none, opened)
    | .fails e => (some (.error (.shareStoreForbidden s!"write TPM envelope: {e}")), d)
    | .works =>
      let part := opened.write file 0 (bytes.take fates.written)
      match fates.write with
      | .stops => (none, part)
      | .fails e => (some (.error (.shareStoreForbidden s!"write TPM envelope: {e}")), part)
      | .works =>
        let written := opened.write file 0 bytes
        match fates.rename, written.rename .tmp .path with
        | .works, some moved => (some (.ok ()), moved)
        | .stops, some moved => (none, moved)
        | .fails e, _ => (some (.error (.shareStoreForbidden s!"rename TPM envelope: {e}")), written)
        | _, none =>
          (some (.error (.shareStoreForbidden
            "rename TPM envelope: No such file or directory (os error 2)")), written)

variable (C : SealCrypto) (policy : List UInt8)

/-- The passphrase in an envelope. -/
def readEnvelope (tpm : TpmSealAdapter) (blob : List UInt8) : Except DomainError String :=
  match tpm.unsealPassphrase C blob policy with
  | .error e => .error e
  | .ok bytes =>
    match readText bytes with
    | some passphrase => .ok passphrase
    | none => .error (.shareStoreForbidden "TPM-unsealed passphrase is not UTF-8")

/-- The last step of `resolve_aead_passphrase`: a failure may fall back to the clear
passphrase. -/
def fallBack (b : TpmBoot) (tpm : TpmSealAdapter) (resolved : Except DomainError String) :
    Except DomainError ResolvedPassphrase :=
  match resolved with
  | .ok passphrase => .ok ⟨passphrase, tpm.backendKind, false⟩
  | .error e =>
    if b.clearFallback then
      match clear b.clearPassphrase with
      | .ok passphrase => .ok ⟨passphrase, tpm.backendKind, true⟩
      | .error e => .error e
    else .error e

/-- `resolve_aead_passphrase`; `none` where the process stops. -/
def resolveAeadPassphrase (b : TpmBoot) (tpm : TpmSealAdapter) (d : FileDisk FileName) :
    Option (Except DomainError ResolvedPassphrase) × FileDisk FileName :=
  match if b.fates.stat then d.read .path else none with
  | some blob =>
    match b.fates.read with
    | .stops => (none, d)
    | .fails e =>
      (some (b.fallBack tpm (.error (.shareStoreForbidden s!"read TPM envelope: {e}"))), d)
    | .works => (some (b.fallBack tpm (readEnvelope C policy tpm blob)), d)
  | none =>
    match clear b.clearPassphrase with
    | .error e => (some (.error e), d)
    | .ok value =>
      match tpm.sealPassphrase C b.salt b.nonce (textBytes value) policy with
      | .error e => (some (b.fallBack tpm (.error e)), d)
      | .ok blob =>
        match writeEnvelope b.fates blob d with
        | (none, d') => (none, d')
        | (some (.error e), d') => (some (b.fallBack tpm (.error e)), d')
        | (some (.ok ()), d') => (some (b.fallBack tpm (.ok value)), d')

/-- The two as the node calls them. -/
def boot (b : TpmBoot) (d : FileDisk FileName) :
    Option (Except DomainError ResolvedPassphrase) × FileDisk FileName :=
  match buildTpmSealPort b.production b.devicePresent b.stub b.refuseStub with
  | .error e => (some (.error e), d)
  | .ok tpm => b.resolveAeadPassphrase C policy tpm d

/-- The passphrase that a boot gets from an envelope, or puts into one. -/
def sealedPassphrase (b : TpmBoot) (d : FileDisk FileName) : Option String :=
  match (b.boot C policy d).1 with
  | some (.ok resolved) => if resolved.usedClearFallback then none else some resolved.passphrase
  | _ => none

end TpmBoot

/-- A boot, or a loss of power. -/
inductive TpmAction where
  | boot (b : TpmBoot)
  | powerLoss (k : Nat) (garbage : Nat → List UInt8)

def TpmAction.step (C : SealCrypto) (policy : List UInt8) (d : FileDisk FileName) :
    TpmAction → FileDisk FileName
  | .boot b => (b.boot C policy d).2
  | .powerLoss k garbage => d.crash k garbage

/-! ## What one boot does -/

/-- The envelope opens to the passphrase. -/
def EnvelopeOf (C : SealCrypto) (policy blob : List UInt8) (passphrase : String) : Prop :=
  ∃ bytes, TpmSealAdapter.mockUnseal C blob policy = .ok bytes ∧ readText bytes = some passphrase

namespace TpmBoot

variable {C : SealCrypto} {policy blob : List UInt8} {p q v : String} {b : TpmBoot}
  {tpm : TpmSealAdapter} {crashes : Bool} {P : Option (List UInt8) → Prop} {d : FileDisk FileName}

theorem EnvelopeOf.unique (hp : EnvelopeOf C policy blob p) (hq : EnvelopeOf C policy blob q) :
    p = q := by
  obtain ⟨bytes, hOpen, hText⟩ := hp
  obtain ⟨bytes', hOpen', hText'⟩ := hq
  obtain rfl := Except.ok.inj (hOpen.symm.trans hOpen')
  exact Option.some.inj (hText.symm.trans hText')

theorem envelopeOf_mockSeal (salt : ByteBlock 16) (nonce : ByteBlock 12) (v : String) :
    EnvelopeOf C policy (TpmSealAdapter.mockSeal C salt nonce (textBytes v) policy) v :=
  ⟨textBytes v, TpmSealAdapter.mockUnseal_mockSeal C salt nonce _ policy, readText_textBytes v⟩

theorem readEnvelope_ok (h : readEnvelope C policy tpm blob = .ok p) :
    EnvelopeOf C policy blob p := by
  unfold readEnvelope at h
  split at h
  · cases h
  · rename_i bytes hOpen
    split at h
    · rename_i passphrase hText
      obtain rfl := Except.ok.inj h
      -- only the mock opens anything
      cases tpm with
      | mock => exact ⟨bytes, hOpen, hText⟩
      | failClosed => cases hOpen
      | hwProbe => cases hOpen
    · cases h

/-- What is got from an envelope is got without falling back. -/
theorem fallBack_sealed {resolved : Except DomainError String} {r : ResolvedPassphrase}
    (h : b.fallBack tpm resolved = .ok r) (hSealed : r.usedClearFallback = false) :
    resolved = .ok r.passphrase := by
  unfold fallBack at h
  split at h
  · obtain rfl := Except.ok.inj h
    rfl
  · split at h
    · split at h
      · obtain rfl := Except.ok.inj h
        cases hSealed
      · cases h
    · cases h

/-- The writing of an envelope ends with the envelope at its path, or with the path as it was. -/
theorem writeEnvelope_spec (h : FileDisk.Settled crashes .path .tmp P d.asSynced)
    (hNew : P (some blob)) (fates : TpmFates) :
    FileDisk.Settled crashes .path .tmp P (writeEnvelope fates blob d).2.asSynced ∧
      (((writeEnvelope fates blob d).2.read .path = d.read .path ∧
          (writeEnvelope fates blob d).1 ≠ some (.ok ())) ∨
        (writeEnvelope fates blob d).2.read .path = some blob) := by
  have hNe : FileName.path ≠ .tmp := by decide
  have hStops : (none : Option Outcome) ≠ some (.ok ()) := by
    intro hOk
    cases hOk
  have hFails (e : DomainError) : (some (.error e) : Option Outcome) ≠ some (.ok ()) := by
    intro hOk
    cases hOk
  -- the temporary file, opened
  obtain ⟨hOpened, hOpenedRead⟩ := h.openTruncate hNe
  obtain ⟨hFile, hDisk⟩ := FileDisk.asSynced_openTruncate (d := d) FileName.tmp
  obtain ⟨hTmp, hEmpty⟩ := FileDisk.openTruncate_opened d FileName.tmp
  generalize hOpen : d.openTruncate .tmp = r at hDisk hTmp hEmpty hFile
  obtain ⟨file, opened⟩ := r
  dsimp only at hDisk hTmp hEmpty hFile
  have hAt : FileDisk.Settled crashes .path .tmp P opened.asSynced := by
    rw [hDisk]
    exact hOpened.sync file
  have hAtRead : opened.read .path = d.read .path := by
    rw [← FileDisk.read_asSynced, hDisk]
    exact hOpenedRead
  -- some bytes are written to it
  have hWritten (bytes : List UInt8) :
      FileDisk.Settled crashes .path .tmp P (opened.write file 0 bytes).asSynced ∧
        (opened.write file 0 bytes).read .path = d.read .path := by
    obtain ⟨hSettled, hRead⟩ := hAt.write hTmp 0 bytes
    rw [FileDisk.asSynced_write]
    exact ⟨hSettled.sync file, hRead.trans hAtRead⟩
  unfold writeEnvelope
  rw [hOpen]
  split
  · exact ⟨h, .inl ⟨rfl, hStops⟩⟩
  · exact ⟨h, .inl ⟨rfl, hFails _⟩⟩
  · dsimp only
    split
    · exact ⟨hAt, .inl ⟨hAtRead, hStops⟩⟩
    · exact ⟨h, .inl ⟨rfl, hFails _⟩⟩
    · split
      · exact ⟨(hWritten _).1, .inl ⟨(hWritten _).2, hStops⟩⟩
      · exact ⟨(hWritten _).1, .inl ⟨(hWritten _).2, hFails _⟩⟩
      · -- all of it is written, and the file is renamed
        have hBytes : (opened.write file 0 blob).bytes file = blob := by
          rw [FileDisk.write_bytes_self, hEmpty]
          simp [FileDisk.splice]
        obtain ⟨after, hAfter, hSettled, hRead⟩ := (hWritten blob).1.rename hNe hTmp rfl
          (by rw [FileDisk.asSynced_bytes, hBytes]; exact hNew)
        obtain ⟨moved, hMoved, rfl⟩ := FileDisk.asSynced_rename hAfter
        rw [FileDisk.read_asSynced, FileDisk.asSynced_bytes, hBytes] at hRead
        rw [hMoved]
        split
        · rename_i hMoved'
          obtain rfl := Option.some.inj hMoved'
          exact ⟨hSettled, .inr hRead⟩
        · rename_i hMoved'
          obtain rfl := Option.some.inj hMoved'
          exact ⟨hSettled, .inr hRead⟩
        · exact ⟨(hWritten _).1, .inl ⟨(hWritten _).2, hFails _⟩⟩
        · rename_i hNone _
          cases hNone

/-- What a boot does: it reads the envelope that it finds, or changes nothing at the path and
gets nothing from one, or seals the passphrase that it is configured with. -/
inductive Booted (C : SealCrypto) (policy : List UInt8) (b : TpmBoot) (d : FileDisk FileName) :
    Prop where
  | reads (blob : List UInt8) (found : d.read .path = some blob) (same : (b.boot C policy d).2 = d)
      (opens : ∀ p, b.sealedPassphrase C policy d = some p → EnvelopeOf C policy blob p)
  | nothing (same : (b.boot C policy d).2.read .path = d.read .path)
      (none : b.sealedPassphrase C policy d = none)
  | seals (v : String) (free : b.fates.stat = false ∨ d.read .path = none)
      (configured : clear b.clearPassphrase = .ok v)
      (written : (b.boot C policy d).2.read .path =
        some (TpmSealAdapter.mockSeal C b.salt b.nonce (textBytes v) policy))
      (answer : ∀ p, b.sealedPassphrase C policy d = some p → p = v)

/-- A passphrase from an envelope comes from an answer without a fallback. -/
theorem sealedPassphrase_eq_some (h : b.sealedPassphrase C policy d = some p) :
    ∃ r, (b.boot C policy d).1 = some (.ok r) ∧ r.usedClearFallback = false ∧
      r.passphrase = p := by
  unfold sealedPassphrase at h
  split at h
  · rename_i r hAnswer
    split at h
    · cases h
    · rename_i hClear
      exact ⟨r, hAnswer, Bool.eq_false_iff.mpr hClear, Option.some.inj h⟩
  · cases h

/-- An answer that falls back, or is an error, has nothing from an envelope. -/
theorem sealedPassphrase_of_failed {e : DomainError}
    (hAnswer : (b.boot C policy d).1 = some (b.fallBack tpm (.error e))) :
    b.sealedPassphrase C policy d = none := by
  rw [Option.eq_none_iff_forall_ne_some]
  intro p hp
  obtain ⟨r, hr, hSealed, -⟩ := sealedPassphrase_eq_some hp
  rw [hAnswer] at hr
  cases fallBack_sealed (Option.some.inj hr) hSealed

theorem sealedPassphrase_of_stopped (h : (b.boot C policy d).1 = none) :
    b.sealedPassphrase C policy d = none := by
  unfold sealedPassphrase
  rw [h]

theorem sealedPassphrase_of_error {e : DomainError}
    (h : (b.boot C policy d).1 = some (.error e)) : b.sealedPassphrase C policy d = none := by
  unfold sealedPassphrase
  rw [h]

/-- The passphrase of an answer is what the envelope gave. -/
theorem sealedPassphrase_of_resolved {resolved : Except DomainError String}
    (hAnswer : (b.boot C policy d).1 = some (b.fallBack tpm resolved))
    (hp : b.sealedPassphrase C policy d = some p) : resolved = .ok p := by
  obtain ⟨r, hr, hSealed, rfl⟩ := sealedPassphrase_eq_some hp
  rw [hAnswer] at hr
  exact fallBack_sealed (Option.some.inj hr) hSealed

theorem sealPassphrase_ok {salt : ByteBlock 16} {nonce : ByteBlock 12} {plaintext : List UInt8}
    (h : tpm.sealPassphrase C salt nonce plaintext policy = .ok blob) :
    blob = TpmSealAdapter.mockSeal C salt nonce plaintext policy := by
  cases tpm with
  | mock => exact (Except.ok.inj h).symm
  | failClosed => cases h
  | hwProbe => cases h

/-- A boot keeps the disk settled where what it may seal is allowed. -/
theorem boot_cases (h : FileDisk.Settled crashes .path .tmp P d.asSynced)
    (hNew : ∀ v, clear b.clearPassphrase = .ok v →
      P (some (TpmSealAdapter.mockSeal C b.salt b.nonce (textBytes v) policy))) :
    FileDisk.Settled crashes .path .tmp P (b.boot C policy d).2.asSynced ∧
      Booted C policy b d := by
  cases hPort : buildTpmSealPort b.production b.devicePresent b.stub b.refuseStub with
  | error e =>
    have hBoot : b.boot C policy d = (some (.error e), d) := by
      unfold boot
      rw [hPort]
    rw [hBoot]
    exact ⟨h, .nothing (by rw [hBoot]) (sealedPassphrase_of_error (by rw [hBoot]))⟩
  | ok tpm =>
    have hBoot : b.boot C policy d = b.resolveAeadPassphrase C policy tpm d := by
      unfold boot
      rw [hPort]
    unfold resolveAeadPassphrase at hBoot
    cases hFound : if b.fates.stat then d.read .path else none with
    | some blob =>
      -- the envelope is there: it is read, or the read fails
      have hRead : d.read .path = some blob := by
        split at hFound
        · exact hFound
        · cases hFound
      simp only [hFound] at hBoot
      cases hFate : b.fates.read with
      | stops =>
        simp only [hFate] at hBoot
        rw [hBoot]
        exact ⟨h, .nothing (by rw [hBoot]) (sealedPassphrase_of_stopped (by rw [hBoot]))⟩
      | fails e =>
        simp only [hFate] at hBoot
        rw [hBoot]
        exact ⟨h, .nothing (by rw [hBoot]) (sealedPassphrase_of_failed (by rw [hBoot]))⟩
      | works =>
        simp only [hFate] at hBoot
        rw [hBoot]
        exact ⟨h, .reads blob hRead (by rw [hBoot]) fun p hp =>
          readEnvelope_ok (sealedPassphrase_of_resolved (by rw [hBoot]) hp)⟩
    | none =>
      have hFree : b.fates.stat = false ∨ d.read .path = none := by
        split at hFound
        · exact .inr hFound
        · rename_i hStat
          exact .inl (Bool.eq_false_iff.mpr hStat)
      simp only [hFound] at hBoot
      cases hClear : clear b.clearPassphrase with
      | error e =>
        simp only [hClear] at hBoot
        rw [hBoot]
        exact ⟨h, .nothing (by rw [hBoot]) (sealedPassphrase_of_error (by rw [hBoot]))⟩
      | ok v =>
        simp only [hClear] at hBoot
        cases hSeal : tpm.sealPassphrase C b.salt b.nonce (textBytes v) policy with
        | error e =>
          simp only [hSeal] at hBoot
          rw [hBoot]
          exact ⟨h, .nothing (by rw [hBoot]) (sealedPassphrase_of_failed (by rw [hBoot]))⟩
        | ok blob =>
          -- an envelope is made and written
          obtain rfl := sealPassphrase_ok hSeal
          simp only [hSeal] at hBoot
          obtain ⟨hSettled, hAt⟩ := writeEnvelope_spec h (hNew v hClear) b.fates
          generalize hWrite : writeEnvelope b.fates
            (TpmSealAdapter.mockSeal C b.salt b.nonce (textBytes v) policy) d = w
              at hBoot hSettled hAt
          obtain ⟨answer, d'⟩ := w
          dsimp only at hSettled hAt
          cases answer with
          | none =>
            dsimp only at hBoot
            have hNone : b.sealedPassphrase C policy d = none :=
              sealedPassphrase_of_stopped (by rw [hBoot])
            rw [hBoot]
            refine ⟨hSettled, ?_⟩
            rcases hAt with ⟨hSame, -⟩ | hWritten
            · exact .nothing (by rw [hBoot]; exact hSame) hNone
            · refine .seals v hFree hClear (by rw [hBoot]; exact hWritten) fun p hp => ?_
              rw [hNone] at hp
              cases hp
          | some answer =>
            cases answer with
            | error e =>
              dsimp only at hBoot
              have hNone : b.sealedPassphrase C policy d = none :=
                sealedPassphrase_of_failed (by rw [hBoot])
              rw [hBoot]
              refine ⟨hSettled, ?_⟩
              rcases hAt with ⟨hSame, -⟩ | hWritten
              · exact .nothing (by rw [hBoot]; exact hSame) hNone
              · refine .seals v hFree hClear (by rw [hBoot]; exact hWritten) fun p hp => ?_
                rw [hNone] at hp
                cases hp
            | ok u =>
              dsimp only at hBoot
              rw [hBoot]
              rcases hAt with ⟨-, hNotOk⟩ | hWritten
              · exact absurd rfl hNotOk
              · refine ⟨hSettled, .seals v hFree hClear (by rw [hBoot]; exact hWritten)
                  fun p hp => ?_⟩
                have hResolved := sealedPassphrase_of_resolved (by rw [hBoot]) hp
                exact (Except.ok.inj hResolved).symm

end TpmBoot

/-! ## Lives -/

section Lives

variable (C : SealCrypto) (policy : List UInt8)

/-- What the boots of a life get from envelopes, while the power stays. -/
def passphrases (d : FileDisk FileName) (boots : List TpmBoot) : List String :=
  Runs.emits (fun d b => (TpmBoot.boot C policy b d).2) (fun d b => b.sealedPassphrase C policy d)
    d boots

/-- The disk after the boots. -/
def afterBoots (d : FileDisk FileName) (boots : List TpmBoot) : FileDisk FileName :=
  Runs.run (fun d b => (TpmBoot.boot C policy b d).2) d boots

/-- What a life may find at the path, with a passphrase that `V` allows in it. -/
def Allowed (V : String → Prop) (content : Option (List UInt8)) : Prop :=
  ∀ blob p, content = some blob → EnvelopeOf C policy blob p → V p

variable {C policy} {d : FileDisk FileName} {blob : List UInt8} {V : String → Prop}

open TpmBoot

theorem allowed_mockSeal {salt : ByteBlock 16} {nonce : ByteBlock 12} {v : String} (hV : V v) :
    Allowed C policy V (some (TpmSealAdapter.mockSeal C salt nonce (textBytes v) policy)) := by
  intro blob p hBlob hp
  obtain rfl := Option.some.inj hBlob
  rw [EnvelopeOf.unique hp (envelopeOf_mockSeal salt nonce v)]
  exact hV

/-- The path and the temporary file are apart on a disk whose power stays. -/
def Resting (d : FileDisk FileName) : Prop :=
  FileDisk.Settled false .path .tmp (fun _ => True) d.asSynced

/-- A boot of a disk whose power stays. -/
theorem boot_resting (C : SealCrypto) (policy : List UInt8)
    (h : Resting d)
    (b : TpmBoot) :
    Resting (b.boot C policy d).2 ∧ Booted C policy b d :=
  boot_cases h fun _ _ => trivial

/-- Once there is an envelope, it stays, and nothing else is got. -/
theorem passphrases_of_envelope
    (h : Resting d)
    (hFound : d.read .path = some blob) {boots : List TpmBoot}
    (hStat : ∀ b ∈ boots, b.fates.stat = true) :
    (afterBoots C policy d boots).read .path = some blob ∧
      ∀ p ∈ passphrases C policy d boots, EnvelopeOf C policy blob p := by
  -- on the boots: the first one leaves the envelope where it is
  induction boots generalizing d with
  | nil => exact ⟨hFound, nofun⟩
  | cons b boots ih =>
    obtain ⟨hb, hStat⟩ := List.forall_mem_cons.mp hStat
    obtain ⟨hNext, hBooted⟩ := boot_resting C policy h b
    have hStays : (b.boot C policy d).2.read .path = some blob ∧
        ∀ p, b.sealedPassphrase C policy d = some p → EnvelopeOf C policy blob p := by
      cases hBooted with
      | reads blob' found same opens =>
        obtain rfl := Option.some.inj (hFound.symm.trans found)
        exact ⟨by rw [same, hFound], opens⟩
      | nothing same none =>
        refine ⟨same.trans hFound, fun p hp => ?_⟩
        rw [none] at hp
        cases hp
      | seals v free configured written answer =>
        rw [hb, hFound] at free
        exact absurd free (by simp)
    obtain ⟨hEnd, hLater⟩ := ih hNext hStays.1 hStat
    refine ⟨hEnd, fun p hp => ?_⟩
    rcases List.mem_append.mp hp with hNow | hLate
    · exact hStays.2 p (Option.mem_toList.mp hNow)
    · exact hLater p hLate

/-- All that is got is one passphrase. -/
theorem passphrases_one (h : Resting d)
    {boots : List TpmBoot} (hStat : ∀ b ∈ boots, b.fates.stat = true) :
    ∃ q, ∀ p ∈ passphrases C policy d boots, p = q := by
  -- on the boots, up to the first that finds or leaves an envelope
  induction boots generalizing d with
  | nil => exact ⟨"", nofun⟩
  | cons b boots ih =>
    obtain ⟨hb, hRest⟩ := List.forall_mem_cons.mp hStat
    obtain ⟨hNext, hBooted⟩ := boot_resting C policy h b
    cases hBooted with
    | reads blob found same opens =>
      obtain ⟨-, hAll⟩ := passphrases_of_envelope h found hStat
      cases hList : passphrases C policy d (b :: boots) with
      | nil => exact ⟨"", nofun⟩
      | cons q rest =>
        rw [hList] at hAll
        exact ⟨q, fun p hp => EnvelopeOf.unique (hAll p hp) (hAll q List.mem_cons_self)⟩
    | nothing same none =>
      obtain ⟨q, hq⟩ := ih hNext hRest
      refine ⟨q, fun p hp => ?_⟩
      rcases List.mem_append.mp hp with hNow | hLate
      · have hSome : b.sealedPassphrase C policy d = some p := Option.mem_toList.mp hNow
        rw [none] at hSome
        cases hSome
      · exact hq p hLate
    | seals v free configured written answer =>
      obtain ⟨-, hLater⟩ := passphrases_of_envelope hNext written hRest
      refine ⟨v, fun p hp => ?_⟩
      rcases List.mem_append.mp hp with hNow | hLate
      · exact answer p (Option.mem_toList.mp hNow)
      · exact EnvelopeOf.unique (hLater p hLate) (envelopeOf_mockSeal b.salt b.nonce v)

theorem RestingDisk.settled (d : RestingDisk) {crashes : Bool} {P : Option (List UInt8) → Prop}
    (hP : P (d.toFileDisk.read .path)) :
    FileDisk.Settled crashes .path .tmp P d.toFileDisk.asSynced :=
  .of_synced d.synced (fun _ => rfl) d.named d.apart hP

/--
**One passphrase for the life of a disk.** While the power stays and the metadata of the
envelope come, all boots of a node get one passphrase from it, whatever each is configured
with, wherever each stops and whichever of its calls fail. An envelope that is once there
is never replaced, so that a torn one is not repaired: no boot gets a passphrase from it.
-/
theorem passphrase_stays (d : RestingDisk) (boots : List TpmBoot)
    (hStat : ∀ b ∈ boots, b.fates.stat = true) :
    (∀ p ∈ passphrases C policy d.toFileDisk boots,
      ∀ q ∈ passphrases C policy d.toFileDisk boots, p = q) ∧
      (∀ n blob, (afterBoots C policy d.toFileDisk (boots.take n)).read .path = some blob →
        (afterBoots C policy d.toFileDisk boots).read .path = some blob) ∧
      (∀ blob, d.toFileDisk.read .path = some blob → (∀ p, ¬ EnvelopeOf C policy blob p) →
        passphrases C policy d.toFileDisk boots = []) := by
  have hStart : Resting d.toFileDisk := d.settled trivial
  refine ⟨fun p hp q hq => ?_, fun n blob hFound => ?_, fun blob hFound hTorn => ?_⟩
  · obtain ⟨v, hv⟩ := passphrases_one hStart hStat
    rw [hv p hp, hv q hq]
  · -- the boots from there on leave it
    have hStep (d : FileDisk FileName) (b : TpmBoot) (h : Resting d) :
        Resting (b.boot C policy d).2 := (boot_resting C policy h b).1
    have hThere : Resting (afterBoots C policy d.toFileDisk (boots.take n)) :=
      Runs.run_preserves hStep hStart (boots.take n)
    have hAll : afterBoots C policy d.toFileDisk boots =
        afterBoots C policy (afterBoots C policy d.toFileDisk (boots.take n)) (boots.drop n) := by
      unfold afterBoots
      rw [← Runs.run_append, List.take_append_drop]
    rw [hAll]
    exact (passphrases_of_envelope hThere hFound
      fun b hb => hStat b (List.mem_of_mem_drop hb)).1
  · obtain ⟨-, hAll⟩ := passphrases_of_envelope hStart hFound hStat
    rw [List.eq_nil_iff_forall_not_mem]
    exact fun p hp => hTorn p (hAll p hp)

/-- What a life with losses of power keeps, where garbage opens to nothing. -/
theorem settled_life {as : List TpmAction}
    (hV : ∀ b v, TpmAction.boot b ∈ as → TpmBoot.clear b.clearPassphrase = .ok v → V v)
    (hGarbage : ∀ k garbage, TpmAction.powerLoss k garbage ∈ as →
      ∀ i p, ¬ EnvelopeOf C policy (garbage i) p)
    (h : FileDisk.Settled true .path .tmp (Allowed C policy V) d.asSynced) :
    FileDisk.Settled true .path .tmp (Allowed C policy V)
      (Runs.run (TpmAction.step C policy) d as).asSynced := by
  induction as generalizing d with
  | nil => exact h
  | cons a as ih =>
    refine ih (fun b v hb => hV b v (List.mem_cons_of_mem _ hb))
      (fun k garbage hLoss => hGarbage k garbage (List.mem_cons_of_mem _ hLoss)) ?_
    cases a with
    | boot b =>
      exact (boot_cases h fun v hv => allowed_mockSeal (hV b v List.mem_cons_self hv)).1
    | powerLoss k garbage =>
      refine h.crash_asSynced k fun i blob p hBlob hp => ?_
      obtain rfl := Option.some.inj hBlob
      exact absurd hp (hGarbage k garbage List.mem_cons_self i p)

/--
**Nothing but what was configured.** Over any life, also one in which the power is lost
between the writing of an envelope and its reaching the disk, the passphrase that a boot
gets from an envelope, or puts into one, is one that this boot or one before it was
configured with, or that the disk had at first. Garbage does not open.
-/
theorem passphrase_configured (d : RestingDisk) (as : List TpmAction)
    (hGarbage : ∀ k garbage, TpmAction.powerLoss k garbage ∈ as →
      ∀ i p, ¬ EnvelopeOf C policy (garbage i) p) (b : TpmBoot) {p : String}
    (h : b.sealedPassphrase C policy (Runs.run (TpmAction.step C policy) d.toFileDisk as) =
      some p) :
    (∃ b', TpmAction.boot b' ∈ as ++ [.boot b] ∧ b'.clearPassphrase = some p ∧ p ≠ "") ∨
      ∃ blob, d.toFileDisk.read .path = some blob ∧ EnvelopeOf C policy blob p := by
  -- the passphrases that may be found: of a configuration so far, or of the envelope at the
  -- start
  let V (v : String) : Prop :=
    (∃ b', TpmAction.boot b' ∈ as ++ [.boot b] ∧ b'.clearPassphrase = some v ∧ v ≠ "") ∨
      ∃ blob, d.toFileDisk.read .path = some blob ∧ EnvelopeOf C policy blob v
  have hV (b' : TpmBoot) (v : String) (hb : TpmAction.boot b' ∈ as ++ [.boot b])
      (hv : TpmBoot.clear b'.clearPassphrase = .ok v) : V v := by
    unfold TpmBoot.clear at hv
    split at hv
    · rename_i passphrase hFilter
      obtain rfl := Except.ok.inj hv
      obtain ⟨hSome, hNe⟩ := Option.filter_eq_some_iff.mp hFilter
      exact .inl ⟨b', hb, hSome, of_decide_eq_true hNe⟩
    · cases hv
  have hStart : FileDisk.Settled true .path .tmp (Allowed C policy V) d.toFileDisk.asSynced :=
    d.settled fun blob p hBlob hp => .inr ⟨blob, hBlob, hp⟩
  have hLife := settled_life (fun b' v hb => hV b' v (List.mem_append_left _ hb)) hGarbage hStart
  have hOwn (v : String) (hv : TpmBoot.clear b.clearPassphrase = .ok v) : V v :=
    hV b v (List.mem_append_right _ (List.mem_singleton_self _)) hv
  obtain ⟨-, hBooted⟩ := boot_cases hLife fun v hv => allowed_mockSeal (hOwn v hv)
  show V p
  cases hBooted with
  | reads blob found same opens => exact hLife.read blob p found (opens p h)
  | nothing same none =>
    rw [none] at h
    cases h
  | seals v free configured written answer =>
    rw [answer p h]
    exact hOwn v configured

end Lives

/-! ## Three boots -/

def sevens (n : Nat) : ByteBlock n := ⟨List.replicate n 7, List.length_replicate⟩

/-- A boot of a lab node with the mock, in which all goes well. -/
def labBoot (clearPassphrase : String) : TpmBoot where
  production := false
  devicePresent := false
  stub := true
  refuseStub := false
  clearPassphrase := some clearPassphrase
  clearFallback := false
  salt := sevens 16
  nonce := sevens 12
  fates := ⟨true, .works, .works, .works, .works, 0, .works⟩

/-- The process stops in the write, after three bytes. -/
def stoppedBoot (clearPassphrase : String) : TpmBoot := { labBoot clearPassphrase with
  fates := { (labBoot clearPassphrase).fates with write := .stops, written := 3 } }

def plainPolicy : List UInt8 := TpmBoot.policy SealedDisk.clearCrypto "/data"

def plainBoots : List TpmBoot := [stoppedBoot "first", labBoot "second", labBoot "third"]

/-- The stopped boot leaves no envelope, and the third boot reads that of the second. -/
theorem passphrase_stays_plain :
    passphrases SealedDisk.clearCrypto plainPolicy emptyDisk.toFileDisk plainBoots =
        ["second", "second"] ∧
      ∀ p ∈ passphrases SealedDisk.clearCrypto plainPolicy emptyDisk.toFileDisk plainBoots,
        ∀ q ∈ passphrases SealedDisk.clearCrypto plainPolicy emptyDisk.toFileDisk plainBoots,
          p = q :=
  ⟨by decide +kernel, (passphrase_stays emptyDisk plainBoots (by decide)).1⟩

/-- A boot, and a loss of power before its envelope is on the disk. -/
def lostLife : List TpmAction := [.boot (labBoot "second"), .powerLoss 1 fun _ => [7]]

/-- The next boot seals what it is configured with. -/
theorem passphrase_configured_plain :
    (labBoot "third").sealedPassphrase SealedDisk.clearCrypto plainPolicy
        (Runs.run (TpmAction.step SealedDisk.clearCrypto plainPolicy) emptyDisk.toFileDisk
          lostLife) = some "third" ∧
      ((∃ b', TpmAction.boot b' ∈ lostLife ++ [.boot (labBoot "third")] ∧
          b'.clearPassphrase = some "third" ∧ "third" ≠ "") ∨
        ∃ blob, emptyDisk.toFileDisk.read .path = some blob ∧
          EnvelopeOf SealedDisk.clearCrypto plainPolicy blob "third") := by
  have hGot : (labBoot "third").sealedPassphrase SealedDisk.clearCrypto plainPolicy
      (Runs.run (TpmAction.step SealedDisk.clearCrypto plainPolicy) emptyDisk.toFileDisk
        lostLife) = some "third" := by decide +kernel
  refine ⟨hGot, passphrase_configured emptyDisk lostLife (fun k garbage hLoss i p => ?_)
    (labBoot "third") hGot⟩
  -- one byte is too short for an envelope
  have hGarbage : garbage = fun _ => [7] := by
    rcases List.mem_cons.mp hLoss with hBoot | hLoss
    · cases hBoot
    · exact (TpmAction.powerLoss.inj (List.mem_singleton.mp hLoss)).2
  rw [hGarbage]
  rintro ⟨bytes, hOpen, -⟩
  cases hOpen

end KeroseneVault
