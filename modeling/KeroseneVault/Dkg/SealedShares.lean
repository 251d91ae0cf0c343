import KeroseneVault.Domain.Hex
import KeroseneVault.Lib.Runs
import Mathlib.Logic.Function.Basic

/-!
# Sealed shares on disk

The two stores behind `ShareStorePort`, `AeadDiskShareStore` and
`TeeSealAdapter`, down to the bytes of their files, and an attacker who copies,
moves and deletes these files but cannot decrypt them. The hash and the AEAD are
ideal: the hash has no collisions, and a ciphertext opens, under its key and
nonce, with its own associated data alone.

* `DiskShareStore` — what the two stores have in common;
* `aeadDisk`, `teeSeal` — the two stores;
* `SealedDisk.step` — a put, or a move of the attacker;
* `BoundToIds` — what a store returns for an id was put under that id.

Main results:

* `get_put` — a put that lands is read back;
* `boundToIds_iff` — the shares stay bound to their ids exactly when no file of
  a TEE store goes to an id under which its plaintext was never put.
-/

namespace KeroseneVault

/-! ## Ideal primitives -/

/-- `n` bytes. -/
abbrev ByteBlock (n : Nat) := {bytes : List UInt8 // bytes.length = n}

inductive AttestationMode where
  | sim
  | software
  | sev
  | sgx
  deriving DecidableEq

def AttestationMode.asStr : AttestationMode → String
  | .sim => "sim"
  | .software => "software"
  | .sev => "sev"
  | .sgx => "sgx"

/-- SHA-256, Argon2id, the derived key of the platform and ChaCha20-Poly1305,
under key, nonce and associated data. -/
structure SealCrypto where
  sha256 : List UInt8 → List UInt8
  argon2 : List UInt8 → List UInt8 → Except String (List UInt8)
  hwRoot : AttestationMode → Except DomainError (List UInt8)
  encrypt : List UInt8 → List UInt8 → List UInt8 → List UInt8 → List UInt8
  decrypt : List UInt8 → List UInt8 → List UInt8 → List UInt8 → Option (List UInt8)
  sha256_injective : Function.Injective sha256
  decrypt_encrypt : ∀ key nonce aad aad' msg,
    decrypt key nonce aad' (encrypt key nonce aad msg) = if aad' = aad then some msg else none
  encrypt_tag : ∀ key nonce aad msg, 16 ≤ (encrypt key nonce aad msg).length

/-- `str::as_bytes`. -/
def strBytes (s : String) : List UInt8 := s.toByteArray.data.toList

theorem strBytes_injective : Function.Injective strBytes := by
  intro s t h
  have hData : s.toByteArray.data = t.toByteArray.data := Array.toList_inj.mp h
  exact String.toByteArray_inj.mp (ByteArray.ext hData)

/-! ## The stores -/

/-- What is particular to a store: its file names, its guards (which may ask
for an attestation), and its blobs. -/
structure DiskShareStore where
  pathFor : String → String
  mayPut : Outcome → Outcome
  mayGet : Outcome → Outcome
  readError : String
  sealBlob : String → ByteBlock 16 → ByteBlock 12 → List UInt8 → Except DomainError (List UInt8)
  openBlob : String → List UInt8 → Except DomainError (List UInt8)

/-! ### `AeadDiskShareStore` -/

section Aead

variable (C : SealCrypto) (passphrase : List UInt8)

/-- `AeadDiskShareStore::aad`. -/
def shareAad (shareId : String) : List UInt8 :=
  strBytes "kerosene-vault-share-aead-v1|" ++ strBytes shareId

/-- `AeadDiskShareStore::derive_key`. -/
def deriveKey (salt : List UInt8) : Except DomainError (List UInt8) :=
  (C.argon2 passphrase salt).mapError fun e => .shareStoreForbidden s!"argon2: {e}"

/-- The blob of a put. -/
def aeadSeal (shareId : String) (salt : ByteBlock 16) (nonce : ByteBlock 12)
    (plaintext : List UInt8) : Except DomainError (List UInt8) :=
  match deriveKey C passphrase salt.1 with
  | .error e => .error e
  | .ok key =>
    .ok (salt.1 ++ nonce.1 ++ C.encrypt key nonce.1 (shareAad shareId) plaintext)

def aeadOpen (shareId : String) (bytes : List UInt8) : Except DomainError (List UInt8) :=
  if bytes.length < 16 + 12 + 16 then .error (.shareStoreForbidden "share blob too short")
  else
    match deriveKey C passphrase (bytes.take 16) with
    | .error e => .error e
    | .ok key =>
      match C.decrypt key ((bytes.drop 16).take 12) (shareAad shareId) (bytes.drop 28) with
      | none => .error (.shareStoreForbidden "decrypt failed")
      | some plain => .ok plain

/-- `AeadDiskShareStore`. -/
def aeadDisk : DiskShareStore where
  pathFor shareId := "share-" ++ hexText (C.sha256 (strBytes shareId)) ++ ".bin"
  mayPut _ := .ok ()
  mayGet _ := .ok ()
  readError := "read share: "
  sealBlob := aeadSeal C passphrase
  openBlob := aeadOpen C passphrase

end Aead

/-! ### `TeeSealAdapter` -/

inductive SealBackend where
  | failClosed
  | stagingStub (passphrase : List UInt8)
  | hw (platform : AttestationMode)
  deriving DecidableEq

/-- `TeeSealAdapter`; of its attestation port only that it is there. -/
structure TeeSealAdapter where
  backend : SealBackend
  measurement : String
  attestation : Bool

def sealMagic : List UInt8 := strBytes "KVSEAL01"

def envelopeVersion : UInt8 := 1

def modeStagingStub : UInt8 := 1

def modeHwSev : UInt8 := 2

def modeHwSgx : UInt8 := 3

def teeUnavailable (what : String) : DomainError :=
  .teeRequired s!"TEE {what} path not available; host disk AEAD is lab-only (production fail-closed)"

/-- `TeeSealAdapter::pack_envelope`. -/
def packEnvelope (mode : UInt8) (salt nonce ciphertext : List UInt8) : List UInt8 :=
  sealMagic ++ envelopeVersion :: mode :: salt ++ nonce ++ ciphertext

/-- The parts of an envelope. -/
structure Envelope where
  mode : UInt8
  salt : List UInt8
  nonce : List UInt8
  ciphertext : List UInt8

/-- `TeeSealAdapter::parse_envelope`. -/
def parseEnvelope (blob : List UInt8) : Except DomainError Envelope :=
  if blob.length < 8 + 1 + 1 + 16 + 12 + 16 then
    .error (.shareStoreForbidden "tee seal envelope too short")
  else if blob.take 8 ≠ sealMagic then .error (.shareStoreForbidden "tee seal magic mismatch")
  else if blob.getD 8 0 ≠ envelopeVersion then
    .error (.shareStoreForbidden s!"unsupported tee seal version {blob.getD 8 0}")
  else .ok ⟨blob.getD 9 0, (blob.drop 10).take 16, (blob.drop 26).take 12, blob.drop 38⟩

namespace TeeSealAdapter

variable (C : SealCrypto) (A : TeeSealAdapter)

/-- `derive_stub_key`. -/
def deriveStubKey (passphrase salt : List UInt8) : Except DomainError (List UInt8) :=
  (C.argon2 (passphrase ++ strBytes A.measurement) salt).mapError fun e =>
    .shareStoreForbidden s!"argon2: {e}"

/-- `derive_hw_root`. -/
def deriveHwRoot (platform : AttestationMode) : Except DomainError (List UInt8) :=
  match platform with
  | .sev => C.hwRoot .sev
  | .sgx => C.hwRoot .sgx
  | _ => .error (.teeRequired "software/sim attestation cannot derive HW seal keys")

/-- `mix_seal_key`. -/
def mixSealKey (root salt : List UInt8) : List UInt8 :=
  C.sha256 (strBytes "KVSEAL01/v1/seal-key" ++ root ++ salt ++ strBytes A.measurement)

/-- `seal_envelope`: nothing of the share id goes into it. -/
def sealEnvelope (salt : ByteBlock 16) (nonce : ByteBlock 12) (plaintext : List UInt8) :
    Except DomainError (List UInt8) :=
  match A.backend with
  | .failClosed => .error (teeUnavailable "seal")
  | .stagingStub passphrase =>
    match A.deriveStubKey C passphrase salt.1 with
    | .error e => .error e
    | .ok key => .ok (packEnvelope modeStagingStub salt.1 nonce.1 (C.encrypt key nonce.1 [] plaintext))
  | .hw platform =>
    match deriveHwRoot C platform with
    | .error e => .error e
    | .ok root =>
      let mode := if platform = .sev then modeHwSev else modeHwSgx
      .ok (packEnvelope mode salt.1 nonce.1
        (C.encrypt (A.mixSealKey C root salt.1) nonce.1 [] plaintext))

/-- `aead_decrypt`. -/
def aeadDecrypt (key nonce ciphertext : List UInt8) : Except DomainError (List UInt8) :=
  match C.decrypt key nonce [] ciphertext with
  | none => .error (.shareStoreForbidden "tee decrypt failed")
  | some plain => .ok plain

/-- `unseal_envelope`. -/
def unsealEnvelope (blob : List UInt8) : Except DomainError (List UInt8) :=
  match parseEnvelope blob with
  | .error e => .error e
  | .ok env =>
    if env.mode = modeStagingStub then
      match A.backend with
      | .stagingStub passphrase =>
        match A.deriveStubKey C passphrase env.salt with
        | .error e => .error e
        | .ok key => aeadDecrypt C key env.nonce env.ciphertext
      | _ =>
        .error (.teeRequired "staging-stub envelope refused without ATTESTATION_STAGING_STUB")
    else if env.mode = modeHwSev ∨ env.mode = modeHwSgx then
      match A.backend with
      | .hw platform =>
        if platform ≠ (if env.mode = modeHwSev then .sev else .sgx) then
          .error (.shareStoreForbidden
            s!"tee seal mode {env.mode} does not match platform {platform.asStr}")
        else
          match deriveHwRoot C platform with
          | .error e => .error e
          | .ok root => aeadDecrypt C (A.mixSealKey C root env.salt) env.nonce env.ciphertext
      | _ => .error (.teeRequired "HW TEE envelope refused without tee_hw HW backend")
    else .error (.shareStoreForbidden s!"unknown tee seal mode {env.mode}")

/-- `require_attestation_ok`, with what the port answers. -/
def requireAttestationOk (attested : Outcome) : Outcome :=
  if A.attestation then attested
  else .error (.teeRequired "attestation required before TEE unseal")

/-- `TeeSealAdapter` as a store. -/
def teeSeal : DiskShareStore where
  pathFor shareId := "tee-share-" ++ hexText (C.sha256 (strBytes shareId)) ++ ".seal"
  mayPut attested :=
    match A.backend with
    | .failClosed => .error (teeUnavailable "seal")
    | .stagingStub _ => if A.attestation then A.requireAttestationOk attested else .ok ()
    | .hw _ => A.requireAttestationOk attested
  mayGet attested :=
    if A.backend = .failClosed then .error (teeUnavailable "unseal")
    else A.requireAttestationOk attested
  readError := "tee seal read: "
  sealBlob _ salt nonce plaintext := A.sealEnvelope C salt nonce plaintext
  openBlob _ blob := A.unsealEnvelope C blob

end TeeSealAdapter

/-! ## What a blob opens to -/

theorem hexText_injective : Function.Injective hexText := by
  intro a b h
  have hPairs := hexPairs_hexText a
  rw [h, hexPairs_hexText b] at hPairs
  exact (Except.ok.inj hPairs).symm

theorem affix_injective (before after : String) :
    Function.Injective fun s => before ++ s ++ after := by
  intro s t h
  have hChars := congrArg String.toList h
  simp only [String.toList_append, List.append_cancel_left_eq, List.append_cancel_right_eq] at hChars
  exact String.toList_inj.mp hChars

/-- A blob of the AEAD store opens under its own id alone. -/
theorem aeadOpen_seal (C : SealCrypto) {passphrase : List UInt8} {shareId shareId' : String}
    {salt : ByteBlock 16} {nonce : ByteBlock 12} {plaintext blob : List UInt8}
    (h : aeadSeal C passphrase shareId salt nonce plaintext = .ok blob) :
    aeadOpen C passphrase shareId' blob =
      if shareId' = shareId then .ok plaintext
      else .error (.shareStoreForbidden "decrypt failed") := by
  unfold aeadSeal at h
  cases hKey : deriveKey C passphrase salt.1 with
  | error e =>
    rw [hKey] at h
    exact absurd h (by simp)
  | ok key =>
    rw [hKey] at h
    obtain rfl := Except.ok.inj h
    have hSalt := salt.2
    have hNonce := nonce.2
    have hLength := C.encrypt_tag key nonce.1 (shareAad shareId) plaintext
    unfold aeadOpen
    rw [if_neg (by simp only [List.length_append]; omega)]
    have hTake : (salt.1 ++ nonce.1 ++ C.encrypt key nonce.1 (shareAad shareId) plaintext).take 16 =
        salt.1 := by
      rw [List.append_assoc, List.take_left' hSalt]
    have hNonceAt : ((salt.1 ++ nonce.1 ++
        C.encrypt key nonce.1 (shareAad shareId) plaintext).drop 16).take 12 = nonce.1 := by
      rw [List.append_assoc, List.drop_left' hSalt, List.take_left' hNonce]
    have hRest : (salt.1 ++ nonce.1 ++
        C.encrypt key nonce.1 (shareAad shareId) plaintext).drop 28 =
          C.encrypt key nonce.1 (shareAad shareId) plaintext :=
      List.drop_left' (by simp [hSalt, hNonce])
    rw [hTake, hNonceAt, hRest, hKey]
    dsimp only
    rw [C.decrypt_encrypt]
    -- the share id is authenticated with the blob, so another id does not open it
    have hAad : shareAad shareId' = shareAad shareId ↔ shareId' = shareId :=
      ⟨fun hEq => strBytes_injective (List.append_cancel_left hEq), fun hEq => congrArg shareAad hEq⟩
    by_cases hSame : shareId' = shareId
    · rw [if_pos (hAad.mpr hSame), if_pos hSame]
    · rw [if_neg (mt hAad.mp hSame), if_neg hSame]

/-- An envelope is read back from its bytes, if the ciphertext has room for a tag. -/
theorem parseEnvelope_pack {mode : UInt8} {salt : ByteBlock 16} {nonce : ByteBlock 12}
    {ciphertext : List UInt8} (h : 16 ≤ ciphertext.length) :
    parseEnvelope (packEnvelope mode salt.1 nonce.1 ciphertext) =
      .ok ⟨mode, salt.1, nonce.1, ciphertext⟩ := by
  obtain ⟨salt, hSalt⟩ := salt
  obtain ⟨nonce, hNonce⟩ := nonce
  have hMagic : sealMagic.length = 8 := by decide +kernel
  have hBlob : packEnvelope mode salt nonce ciphertext =
      sealMagic ++ ([envelopeVersion, mode] ++ (salt ++ (nonce ++ ciphertext))) := by
    simp [packEnvelope]
  unfold parseEnvelope
  rw [hBlob]
  -- the fields stand at fixed offsets: eight of magic, two of header, then salt and nonce
  have hHead : (sealMagic ++ ([envelopeVersion, mode] ++ (salt ++ (nonce ++ ciphertext)))).drop 10 =
      salt ++ (nonce ++ ciphertext) := by
    rw [← List.append_assoc]
    exact List.drop_left' (by simp [hMagic])
  have hNonceAt : (sealMagic ++ ([envelopeVersion, mode] ++ (salt ++ (nonce ++ ciphertext)))).drop 26 =
      nonce ++ ciphertext := by
    rw [show (26 : Nat) = 10 + 16 from rfl, ← List.drop_drop, hHead, List.drop_left' hSalt]
  have hRest : (sealMagic ++ ([envelopeVersion, mode] ++ (salt ++ (nonce ++ ciphertext)))).drop 38 =
      ciphertext := by
    rw [show (38 : Nat) = 26 + 12 from rfl, ← List.drop_drop, hNonceAt, List.drop_left' hNonce]
  have hVersion : (sealMagic ++ ([envelopeVersion, mode] ++ (salt ++ (nonce ++ ciphertext)))).getD 8 0 =
      envelopeVersion := by
    simp [List.getD_eq_getElem?_getD, hMagic]
  have hMode : (sealMagic ++ ([envelopeVersion, mode] ++ (salt ++ (nonce ++ ciphertext)))).getD 9 0 =
      mode := by
    simp [List.getD_eq_getElem?_getD, List.getElem?_append_right, hMagic]
  rw [if_neg (by
      simp only [List.length_append, hMagic, hSalt, hNonce, List.length_cons, List.length_nil]
      omega),
    if_neg (by rw [List.take_left' hMagic]; simp), hVersion, if_neg (by simp), hMode, hHead, hNonceAt,
    hRest, List.take_left' hSalt, List.take_left' hNonce]

namespace TeeSealAdapter

variable {C : SealCrypto} {A : TeeSealAdapter}

theorem aeadDecrypt_encrypt (key nonce plaintext : List UInt8) :
    aeadDecrypt C key nonce (C.encrypt key nonce [] plaintext) = .ok plaintext := by
  unfold aeadDecrypt
  rw [C.decrypt_encrypt, if_pos rfl]

/-- A blob of the TEE store opens, under whatever id it is read. -/
theorem unsealEnvelope_seal {salt : ByteBlock 16} {nonce : ByteBlock 12}
    {plaintext blob : List UInt8} (h : A.sealEnvelope C salt nonce plaintext = .ok blob) :
    A.unsealEnvelope C blob = .ok plaintext := by
  have hTag (key : List UInt8) : 16 ≤ (C.encrypt key nonce.1 [] plaintext).length :=
    C.encrypt_tag key nonce.1 [] plaintext
  unfold sealEnvelope at h
  unfold unsealEnvelope
  cases hBackend : A.backend with
  | failClosed =>
    rw [hBackend] at h
    exact absurd h (by simp)
  | stagingStub passphrase =>
    rw [hBackend] at h
    cases hKey : A.deriveStubKey C passphrase salt.1 with
    | error e =>
      simp only [hKey] at h
      exact absurd h (by simp)
    | ok key =>
      simp only [hKey] at h
      rw [← Except.ok.inj h, parseEnvelope_pack (hTag key)]
      simp only [if_true, hKey]
      exact aeadDecrypt_encrypt key nonce.1 plaintext
  | hw platform =>
    rw [hBackend] at h
    cases hRoot : deriveHwRoot C platform with
    | error e =>
      simp only [hRoot] at h
      exact absurd h (by simp)
    | ok root =>
      simp only [hRoot] at h
      rw [← Except.ok.inj h, parseEnvelope_pack (hTag _)]
      -- the root is derived on the two platforms alone
      match platform with
      | .sim => exact absurd hRoot (by simp [deriveHwRoot])
      | .software => exact absurd hRoot (by simp [deriveHwRoot])
      | .sev =>
        simp only [hRoot, modeHwSev, modeStagingStub, if_true]
        exact aeadDecrypt_encrypt _ nonce.1 plaintext
      | .sgx =>
        simp only [hRoot, modeHwSev, modeHwSgx, modeStagingStub, reduceCtorEq]
        exact aeadDecrypt_encrypt _ nonce.1 plaintext

end TeeSealAdapter

/-- Every id has a file of its own, and a blob opens to its plaintext, under its
own id at least. -/
structure DiskShareStore.Lawful (store : DiskShareStore) : Prop where
  path_injective : Function.Injective store.pathFor
  reads : ∀ {shareId salt nonce plaintext blob},
    store.sealBlob shareId salt nonce plaintext = .ok blob →
      store.openBlob shareId blob = .ok plaintext
  opens : ∀ {shareId shareId' salt nonce plaintext plaintext' blob},
    store.sealBlob shareId salt nonce plaintext = .ok blob →
      store.openBlob shareId' blob = .ok plaintext' → plaintext' = plaintext

theorem pathFor_injective (C : SealCrypto) (before after : String) :
    Function.Injective fun shareId =>
      before ++ hexText (C.sha256 (strBytes shareId)) ++ after := by
  intro s t h
  exact strBytes_injective (C.sha256_injective (hexText_injective (affix_injective before after h)))

theorem lawful_aeadDisk (C : SealCrypto) (passphrase : List UInt8) :
    (aeadDisk C passphrase).Lawful where
  path_injective := pathFor_injective C "share-" ".bin"
  reads h := (aeadOpen_seal C h).trans (if_pos rfl)
  opens := by
    intro shareId shareId' salt nonce plaintext plaintext' blob h hOpen
    have hOpen : aeadOpen C passphrase shareId' blob = .ok plaintext' := hOpen
    rw [aeadOpen_seal C h] at hOpen
    split at hOpen
    · exact (Except.ok.inj hOpen).symm
    · exact absurd hOpen (by simp)

theorem lawful_teeSeal (C : SealCrypto) (A : TeeSealAdapter) : (A.teeSeal C).Lawful where
  path_injective := pathFor_injective C "tee-share-" ".seal"
  reads h := TeeSealAdapter.unsealEnvelope_seal h
  opens := by
    intro shareId shareId' salt nonce plaintext plaintext' blob h hOpen
    have hOwn : A.unsealEnvelope C blob = .ok plaintext := TeeSealAdapter.unsealEnvelope_seal h
    exact Except.ok.inj (hOpen.symm.trans hOwn)

/-! ## The disk -/

/-- The files of the store's directory and of wherever the attacker keeps
copies, and the calls of `put_share`, the newest first. -/
structure SealedDisk where
  files : String → Option (List UInt8)
  puts : List (String × List UInt8)

/-- What surrounds one put: the attestation, the directory, the random bytes
and the write. -/
structure PutEnv where
  attested : Outcome
  mkdir : Outcome
  salt : ByteBlock 16
  nonce : ByteBlock 12
  write : DiskWrite

inductive DiskMove where
  | put (env : PutEnv) (shareId : String) (plaintext : List UInt8)
  | copy (source target : String)
  | move (source target : String)
  | delete (path : String)

namespace SealedDisk

variable (store : DiskShareStore)

/-- `put_share`. -/
def putShare (env : PutEnv) (shareId : String) (plaintext : List UInt8) (s : SealedDisk) :
    Outcome × SealedDisk :=
  let s := { s with puts := (shareId, plaintext) :: s.puts }
  match store.mayPut env.attested with
  | .error e => (.error e, s)
  | .ok () =>
    match env.mkdir with
    | .error e => (.error e, s)
    | .ok () =>
      match store.sealBlob shareId env.salt env.nonce plaintext with
      | .error e => (.error e, s)
      | .ok blob =>
        (env.write.answer,
          if env.write.lands then
            { s with files := Function.update s.files (store.pathFor shareId) (some blob) }
          else s)

/-- `get_share`. -/
def getShare (attested : Outcome) (shareId : String) (s : SealedDisk) :
    Except DomainError (List UInt8) :=
  match store.mayGet attested with
  | .error e => .error e
  | .ok () =>
    match s.files (store.pathFor shareId) with
    | none =>
      .error (.shareStoreForbidden
        (store.readError ++ "No such file or directory (os error 2)"))
    | some blob => store.openBlob shareId blob

def step (s : SealedDisk) : DiskMove → SealedDisk
  | .put env shareId plaintext => (s.putShare store env shareId plaintext).2
  | .copy source target =>
    match s.files source with
    | none => s
    | some blob => { s with files := Function.update s.files target (some blob) }
  | .move source target =>
    match s.files source with
    | none => s
    | some blob =>
      { s with files := Function.update (Function.update s.files source none) target (some blob) }
  | .delete path => { s with files := Function.update s.files path none }

/-- An empty disk. -/
def empty : SealedDisk := ⟨fun _ => none, []⟩

/-- What the store returns for an id, its guard passed, was put under that id. -/
def BoundToIds (s : SealedDisk) : Prop :=
  ∀ shareId plaintext, s.getShare store (.ok ()) shareId = .ok plaintext →
    (shareId, plaintext) ∈ s.puts

/-! ## What a disk holds -/

/-- Every file was sealed by a put of this store. -/
def Sealed (s : SealedDisk) : Prop :=
  ∀ path blob, s.files path = some blob → ∃ shareId plaintext salt nonce,
    (shareId, plaintext) ∈ s.puts ∧ store.sealBlob shareId salt nonce plaintext = .ok blob

/-- No file that opens for an id gets to its path unless its plaintext was put
under that id. -/
def Placed (s : SealedDisk) (source target : String) : Prop :=
  ∀ shareId plaintext blob, store.pathFor shareId = target → s.files source = some blob →
    store.mayGet (.ok ()) = .ok () → store.openBlob shareId blob = .ok plaintext →
    (shareId, plaintext) ∈ s.puts

variable {store}

/-- A put records its call, and writes its blob if anything. -/
theorem putShare_cases (store : DiskShareStore) (env : PutEnv) (shareId : String)
    (plaintext : List UInt8) (s : SealedDisk) :
    (s.putShare store env shareId plaintext).2.puts = (shareId, plaintext) :: s.puts ∧
      ((s.putShare store env shareId plaintext).2.files = s.files ∨
        ∃ blob, store.sealBlob shareId env.salt env.nonce plaintext = .ok blob ∧
          (s.putShare store env shareId plaintext).2.files =
            Function.update s.files (store.pathFor shareId) (some blob)) := by
  unfold putShare
  dsimp only
  split
  · exact ⟨rfl, .inl rfl⟩
  split
  · exact ⟨rfl, .inl rfl⟩
  split
  · exact ⟨rfl, .inl rfl⟩
  · rename_i blob hBlob
    split
    · exact ⟨rfl, .inr ⟨blob, hBlob, rfl⟩⟩
    · exact ⟨rfl, .inl rfl⟩

theorem getShare_ok_iff {s : SealedDisk} {attested : Outcome} {shareId : String}
    {plaintext : List UInt8} :
    s.getShare store attested shareId = .ok plaintext ↔ store.mayGet attested = .ok () ∧
      ∃ blob, s.files (store.pathFor shareId) = some blob ∧
        store.openBlob shareId blob = .ok plaintext := by
  unfold getShare
  cases store.mayGet attested with
  | error e => simp
  | ok =>
    cases s.files (store.pathFor shareId) with
    | none => simp
    | some blob => simp

theorem Sealed.puts_mono {s : SealedDisk} (h : Sealed store s) (put : String × List UInt8) :
    Sealed store { s with puts := put :: s.puts } := by
  intro path blob hFile
  obtain ⟨shareId, plaintext, salt, nonce, hPut, hSeal⟩ := h path blob hFile
  exact ⟨shareId, plaintext, salt, nonce, List.mem_cons_of_mem _ hPut, hSeal⟩

/-- Files may go, and a sealed blob may come to any path. -/
theorem Sealed.update {s : SealedDisk} (h : Sealed store s) (path : String)
    {content : Option (List UInt8)}
    (hContent : ∀ blob, content = some blob → ∃ shareId plaintext salt nonce,
      (shareId, plaintext) ∈ s.puts ∧ store.sealBlob shareId salt nonce plaintext = .ok blob) :
    Sealed store { s with files := Function.update s.files path content } := by
  intro path' blob hFile
  by_cases hPath : path' = path
  · subst hPath
    exact hContent blob (by simpa using hFile)
  · have hOld : Function.update s.files path content path' = some blob := hFile
    rw [Function.update_of_ne hPath] at hOld
    exact h path' blob hOld

/-- Whatever is moved, each file is still one that some put has sealed. -/
theorem Sealed.step {s : SealedDisk} (h : Sealed store s) (move : DiskMove) :
    Sealed store (s.step store move) := by
  match move with
  | .put env shareId plaintext =>
    obtain ⟨hPuts, hFiles⟩ := putShare_cases store env shareId plaintext s
    have hNext : s.step store (.put env shareId plaintext) =
      ⟨(s.putShare store env shareId plaintext).2.files, (shareId, plaintext) :: s.puts⟩ := by
      rw [← hPuts]
      rfl
    have hMono := h.puts_mono (shareId, plaintext)
    rw [hNext]
    rcases hFiles with hSame | ⟨blob, hSeal, hWritten⟩
    · rw [hSame]
      exact hMono
    · rw [hWritten]
      refine hMono.update _ fun blob' hBlob => ?_
      rw [← Option.some.inj hBlob]
      exact ⟨shareId, plaintext, env.salt, env.nonce, List.mem_cons_self .., hSeal⟩
  | .copy source target =>
    unfold SealedDisk.step
    dsimp only
    split
    · exact h
    · rename_i blob hBlob
      refine h.update target fun blob' hEq => ?_
      rw [← Option.some.inj hEq]
      exact h source blob hBlob
  | .move source target =>
    unfold SealedDisk.step
    dsimp only
    split
    · exact h
    · rename_i blob hBlob
      -- a move is a removal at the source and then a copy to the target
      have hGone : Sealed store { s with files := Function.update s.files source none } :=
        h.update source fun _ hNone => absurd hNone (by simp)
      refine hGone.update target fun blob' hEq => ?_
      rw [← Option.some.inj hEq]
      exact h source blob hBlob
  | .delete path => exact h.update path fun _ hNone => absurd hNone (by simp)

/-- A put that lands is read back. -/
theorem get_put (hLawful : store.Lawful) {env : PutEnv} {shareId : String}
    {plaintext : List UInt8} {s : SealedDisk} {attested : Outcome}
    (hPut : (s.putShare store env shareId plaintext).1 = .ok ())
    (hGet : store.mayGet attested = .ok ()) :
    (s.putShare store env shareId plaintext).2.getShare store attested shareId =
      .ok plaintext := by
  refine getShare_ok_iff.mpr ⟨hGet, ?_⟩
  unfold putShare at hPut ⊢
  dsimp only at hPut ⊢
  split at hPut
  · exact absurd hPut (by simp)
  split at hPut
  · exact absurd hPut (by simp)
  split at hPut
  · exact absurd hPut (by simp)
  · rename_i hMay _ hMkdir _ blob hBlob
    have hLands : env.write.lands = true := by
      have hAnswer : env.write.answer = .ok () := hPut
      rw [DiskWrite.lands, hAnswer]
      rfl
    refine ⟨blob, ?_, hLawful.reads hBlob⟩
    simp only [hLands, if_true, Function.update_self]

/-- To lose files binds no less. -/
theorem BoundToIds.lose {s s' : SealedDisk} (h : BoundToIds store s)
    (hFiles : ∀ path blob, s'.files path = some blob → s.files path = some blob)
    (hPuts : s'.puts = s.puts) : BoundToIds store s' := by
  intro shareId plaintext hGet
  obtain ⟨hMay, blob, hFile, hOpen⟩ := getShare_ok_iff.mp hGet
  rw [hPuts]
  exact h shareId plaintext (getShare_ok_iff.mpr ⟨hMay, blob, hFiles _ _ hFile, hOpen⟩)

/-- A blob that comes to a path keeps the shares bound exactly when it opens
there to what was put. -/
theorem boundToIds_update_iff {s : SealedDisk} (h : BoundToIds store s) (target : String)
    (blob : List UInt8) :
    BoundToIds store { s with files := Function.update s.files target (some blob) } ↔
      ∀ shareId plaintext, store.pathFor shareId = target → store.mayGet (.ok ()) = .ok () →
        store.openBlob shareId blob = .ok plaintext → (shareId, plaintext) ∈ s.puts := by
  constructor
  · intro hNext shareId plaintext hPath hMay hOpen
    refine hNext shareId plaintext (getShare_ok_iff.mpr ⟨hMay, blob, ?_, hOpen⟩)
    rw [hPath]
    exact Function.update_self ..
  · intro hPlaced shareId plaintext hGet
    obtain ⟨hMay, blob', hFile, hOpen⟩ := getShare_ok_iff.mp hGet
    -- the file that was changed is asked for, or another one
    by_cases hPath : store.pathFor shareId = target
    · have hBlob : Function.update s.files target (some blob) target = some blob' := hPath ▸ hFile
      rw [Function.update_self] at hBlob
      rw [← Option.some.inj hBlob] at hOpen
      exact hPlaced shareId plaintext hPath hMay hOpen
    · have hOld : Function.update s.files target (some blob) (store.pathFor shareId) =
        some blob' := hFile
      rw [Function.update_of_ne hPath] at hOld
      exact h shareId plaintext (getShare_ok_iff.mpr ⟨hMay, blob', hOld, hOpen⟩)

theorem boundToIds_delete {s : SealedDisk} (h : BoundToIds store s) (path : String) :
    BoundToIds store (s.step store (.delete path)) := by
  refine h.lose (fun path' blob hFile => ?_) rfl
  have hKept : Function.update s.files path none path' = some blob := hFile
  by_cases hSame : path' = path
  · subst hSame
    rw [Function.update_self] at hKept
    exact absurd hKept (by simp)
  · rwa [Function.update_of_ne hSame] at hKept

theorem boundToIds_copy_iff {s : SealedDisk} (h : BoundToIds store s) (source target : String) :
    BoundToIds store (s.step store (.copy source target)) ↔ Placed store s source target := by
  unfold step Placed
  dsimp only
  cases hFile : s.files source with
  | none => exact iff_of_true h fun _ _ _ _ hNone => absurd hNone (by simp)
  | some blob =>
    dsimp only
    rw [boundToIds_update_iff h]
    constructor
    · intro hAll shareId plaintext blob' hPath hBlob hMay hOpen
      exact hAll shareId plaintext hPath hMay (Option.some.inj hBlob ▸ hOpen)
    · intro hAll shareId plaintext hPath hMay hOpen
      exact hAll shareId plaintext blob hPath rfl hMay hOpen

theorem boundToIds_move_iff {s : SealedDisk} (h : BoundToIds store s) (source target : String) :
    BoundToIds store (s.step store (.move source target)) ↔ Placed store s source target := by
  rw [← boundToIds_copy_iff h]
  unfold step
  dsimp only
  cases hFile : s.files source with
  | none => exact Iff.rfl
  | some blob =>
    have hGone : BoundToIds store { s with files := Function.update s.files source none } :=
      boundToIds_delete h source
    dsimp only
    rw [boundToIds_update_iff h, boundToIds_update_iff hGone]

/-- A put keeps the shares bound. -/
theorem boundToIds_put (hLawful : store.Lawful) {s : SealedDisk} (h : BoundToIds store s)
    (env : PutEnv) (shareId : String) (plaintext : List UInt8) :
    BoundToIds store (s.step store (.put env shareId plaintext)) := by
  obtain ⟨hPuts, hFiles⟩ := putShare_cases store env shareId plaintext s
  have hNext : s.step store (.put env shareId plaintext) =
      ⟨(s.putShare store env shareId plaintext).2.files, (shareId, plaintext) :: s.puts⟩ := by
    rw [← hPuts]
    rfl
  have hMono : BoundToIds store ⟨s.files, (shareId, plaintext) :: s.puts⟩ :=
    fun shareId' plaintext' hGet => List.mem_cons_of_mem _ (h shareId' plaintext' hGet)
  rw [hNext]
  rcases hFiles with hSame | ⟨blob, hSeal, hWritten⟩
  · rw [hSame]
    exact hMono
  · rw [hWritten]
    refine (boundToIds_update_iff hMono _ blob).mpr fun shareId' plaintext' hPath _ hOpen => ?_
    rw [hLawful.path_injective hPath, hLawful.opens hSeal hOpen]
    exact List.mem_cons_self ..

end SealedDisk

/-! ## The two stores -/

/-- A store on disk, of either kind. -/
inductive ShareStoreKind where
  | aeadDisk (passphrase : List UInt8)
  | teeSeal (A : TeeSealAdapter)

def ShareStoreKind.store (C : SealCrypto) : ShareStoreKind → DiskShareStore
  | .aeadDisk passphrase => KeroseneVault.aeadDisk C passphrase
  | .teeSeal A => A.teeSeal C

theorem ShareStoreKind.lawful (C : SealCrypto) (kind : ShareStoreKind) :
    (kind.store C).Lawful := by
  match kind with
  | .aeadDisk passphrase => exact lawful_aeadDisk C passphrase
  | .teeSeal A => exact lawful_teeSeal C A

namespace SealedDisk

/-- No file of a TEE store with an attestation goes to the path of an id under
which its plaintext was never put. -/
def KeepsPlaces (C : SealCrypto) (kind : ShareStoreKind) (s : SealedDisk) (move : DiskMove) :
    Prop :=
  match kind with
  | .aeadDisk _ => True
  | .teeSeal A =>
    let stays (source target : String) : Prop :=
      ∀ shareId plaintext blob, (A.teeSeal C).pathFor shareId = target →
        s.files source = some blob → A.attestation = true →
        A.unsealEnvelope C blob = .ok plaintext → (shareId, plaintext) ∈ s.puts
    match move with
    | .copy source target => stays source target
    | .move source target => stays source target
    | _ => True

theorem mayGet_teeSeal (C : SealCrypto) (A : TeeSealAdapter) :
    (A.teeSeal C).mayGet (.ok ()) = .ok () ↔ A.backend ≠ .failClosed ∧ A.attestation = true := by
  unfold TeeSealAdapter.teeSeal TeeSealAdapter.requireAttestationOk
  by_cases hBackend : A.backend = .failClosed
  · simp [hBackend]
  · simp [hBackend]

/-- A store that is closed opens nothing. -/
theorem unsealEnvelope_failClosed {C : SealCrypto} {A : TeeSealAdapter} {blob plaintext : List UInt8}
    (h : A.unsealEnvelope C blob = .ok plaintext) : A.backend ≠ .failClosed := by
  intro hBackend
  unfold TeeSealAdapter.unsealEnvelope at h
  rw [hBackend] at h
  split at h
  · exact absurd h (by simp)
  split at h
  · exact absurd h (by simp)
  split at h
  · exact absurd h (by simp)
  · exact absurd h (by simp)

theorem placed_teeSeal_iff {C : SealCrypto} {A : TeeSealAdapter} {s : SealedDisk}
    {source target : String} :
    Placed (A.teeSeal C) s source target ↔
      ∀ shareId plaintext blob, (A.teeSeal C).pathFor shareId = target →
        s.files source = some blob → A.attestation = true →
        A.unsealEnvelope C blob = .ok plaintext → (shareId, plaintext) ∈ s.puts := by
  unfold Placed
  rw [mayGet_teeSeal]
  constructor
  · intro h shareId plaintext blob hPath hBlob hAttested hOpen
    exact h shareId plaintext blob hPath hBlob ⟨unsealEnvelope_failClosed hOpen, hAttested⟩ hOpen
  · intro h shareId plaintext blob hPath hBlob hMay hOpen
    exact h shareId plaintext blob hPath hBlob hMay.2 hOpen

/-- The associated data keeps every file of the AEAD store to its own id. -/
theorem placed_aeadDisk {C : SealCrypto} {passphrase : List UInt8} {s : SealedDisk}
    (h : Sealed (aeadDisk C passphrase) s) (source target : String) :
    Placed (aeadDisk C passphrase) s source target := by
  intro shareId plaintext blob _ hBlob _ hOpen
  obtain ⟨shareId', plaintext', salt, nonce, hPut, hSeal⟩ := h source blob hBlob
  have hOpen : aeadOpen C passphrase shareId blob = .ok plaintext := hOpen
  rw [aeadOpen_seal C hSeal] at hOpen
  split at hOpen
  · rename_i hSame
    rw [hSame, ← Except.ok.inj hOpen]
    exact hPut
  · exact absurd hOpen (by simp)

/-- Each step keeps the shares bound just where it keeps the places: always for the store under
a passphrase, and for the other as the file it moves allows. -/
theorem boundToIds_step_iff {C : SealCrypto} {kind : ShareStoreKind} {s : SealedDisk}
    (hSealed : Sealed (kind.store C) s) (h : BoundToIds (kind.store C) s) (move : DiskMove) :
    BoundToIds (kind.store C) (s.step (kind.store C) move) ↔ KeepsPlaces C kind s move := by
  have hLawful := kind.lawful C
  -- a put, a copy, a move or a delete, of either kind
  match kind, move with
  | .aeadDisk passphrase, .put env shareId plaintext =>
    exact iff_of_true (boundToIds_put hLawful h env shareId plaintext) trivial
  | .aeadDisk passphrase, .copy source target =>
    have hPlaced := placed_aeadDisk hSealed source target
    exact iff_of_true ((boundToIds_copy_iff h source target).mpr hPlaced) trivial
  | .aeadDisk passphrase, .move source target =>
    have hPlaced := placed_aeadDisk hSealed source target
    exact iff_of_true ((boundToIds_move_iff h source target).mpr hPlaced) trivial
  | .teeSeal A, .put env shareId plaintext =>
    exact iff_of_true (boundToIds_put hLawful h env shareId plaintext) trivial
  | .teeSeal A, .copy source target =>
    exact (boundToIds_copy_iff h source target).trans placed_teeSeal_iff
  | .teeSeal A, .move source target =>
    exact (boundToIds_move_iff h source target).trans placed_teeSeal_iff
  | .aeadDisk passphrase, .delete path => exact iff_of_true (boundToIds_delete h path) trivial
  | .teeSeal A, .delete path => exact iff_of_true (boundToIds_delete h path) trivial

/-- **Shares and their ids.** Through any puts and any rearrangement of the
files, what either store returns for an id was put under that id, exactly when
no file of a TEE store goes to an id under which its plaintext was never put. -/
theorem boundToIds_iff (C : SealCrypto) (kind : ShareStoreKind) (moves : List DiskMove) :
    Runs.EveryState (step (kind.store C)) (BoundToIds (kind.store C)) empty moves ↔
      Runs.EveryStep (step (kind.store C)) (KeepsPlaces C kind) empty moves := by
  refine Runs.everyState_iff_everyStep (J := Sealed (kind.store C))
    (fun s move hSealed => hSealed.step move)
    (fun s move hSealed h => boundToIds_step_iff hSealed h move) ?_ ?_ moves
  · exact fun path blob hFile => absurd hFile (by simp [empty])
  · intro shareId plaintext hGet
    obtain ⟨-, blob, hFile, -⟩ := getShare_ok_iff.mp hGet
    exact absurd hFile (by simp [empty])

/-! ## Two ids -/

/-- Associated data that can be told from what follows it. -/
def framed : List UInt8 → List UInt8
  | [] => [0]
  | b :: bytes => 1 :: b :: framed bytes

def unframe : List UInt8 → Option (List UInt8 × List UInt8)
  | 0 :: rest => some ([], rest)
  | 1 :: b :: rest => (unframe rest).map fun parts => (b :: parts.1, parts.2)
  | _ => none

theorem unframe_framed (aad rest : List UInt8) :
    unframe (framed aad ++ rest) = some (aad, rest) := by
  induction aad with
  | nil => rfl
  | cons b aad ih =>
    rw [framed, List.cons_append, List.cons_append, unframe, ih]
    rfl

/-- Primitives that keep their laws and hide nothing. -/
def clearCrypto : SealCrypto where
  sha256 bytes := bytes
  argon2 passphrase salt := .ok (passphrase ++ salt)
  hwRoot _ := .error (.teeRequired "no device")
  encrypt _ _ aad msg := framed aad ++ (List.replicate 16 0 ++ msg)
  decrypt _ _ aad ciphertext :=
    match unframe ciphertext with
    | some (aad', rest) => if aad = aad' then some (rest.drop 16) else none
    | none => none
  sha256_injective _ _ h := h
  decrypt_encrypt key nonce aad aad' msg := by
    rw [unframe_framed]
    dsimp only
    rw [List.drop_left' List.length_replicate]
  encrypt_tag key nonce aad msg := by
    rw [List.length_append, List.length_append, List.length_replicate]
    omega

/-- A staging stub with an attestation. -/
def stagingStub : TeeSealAdapter := ⟨.stagingStub (strBytes "test-pass"), "00", true⟩

def calmPut : PutEnv :=
  ⟨.ok (), .ok (), ⟨List.replicate 16 7, rfl⟩, ⟨List.replicate 12 7, rfl⟩, .done⟩

/-- The sealed share of one id, copied to the file of another, is returned for
that one. -/
theorem boundToIds_fails :
    ¬ ∀ C kind moves, Runs.EveryState (step (ShareStoreKind.store C kind))
      (BoundToIds (ShareStoreKind.store C kind)) empty moves := by
  intro h
  have hLast := (h clearCrypto (.teeSeal stagingStub)
    [.put calmPut "share-a" [1, 2, 3],
      .copy ((stagingStub.teeSeal clearCrypto).pathFor "share-a")
        ((stagingStub.teeSeal clearCrypto).pathFor "share-b")]).last
  have hPut := hLast "share-b" [1, 2, 3] (by decide +kernel)
  exact absurd hPut (by decide +kernel)

end SealedDisk

end KeroseneVault
