import KeroseneVault.Dkg.SealedShares
import KeroseneVault.Dkg.ShareStore
import KeroseneVault.Lib.Disk

/-!
# The key file of the identity daemon

`vault-identityd` keeps the hybrid key pair of a node in one file, encrypted. It is
replaced by the rename of a temporary file, and where it is missing a new pair is made.

* `IdentityCrypto` — what comes of crates outside the repository;
* `HybridKeyPair.toBytes`, `HybridKeyPair.fromBytes` — a key pair in bytes;
* `encryptBytes`, `decryptBytes` — the bytes under the passphrase;
* `IdentityDaemon`, `loadOrGenerateIdentity` — the daemon, and how it comes to its key
  pair on an operating system that does what it is asked.

Main results:

* `fromBytes_toBytes`, `openBlob_sealIdentity` — what is written is read back;
* `loadIdentity_of_file`, `loadIdentity_of_missing` — what is loaded after a restart.
-/

namespace KeroseneVault

/-- `vault_identity_core::IdentityError`, as far as a key file meets with it. -/
inductive IdentityError where
  | keyGenerationFailed (msg : String)
  | invalidKeyMaterial (msg : String)
  | rotationFailed (msg : String)
  | deserializationFailed (msg : String)
  | internalError (msg : String)
  deriving DecidableEq

/-- Ed25519, Argon2id and AES-256-GCM, and the text of an error of `String::from_utf8`. -/
structure IdentityCrypto where
  /-- `SigningKey::verifying_key`. -/
  verifyingKey : ByteBlock 32 → ByteBlock 32
  /-- `VerifyingKey::from_bytes` takes the bytes. -/
  isPoint : ByteBlock 32 → Bool
  argon2 : List UInt8 → ByteBlock 16 → Except String (ByteBlock 32)
  encrypt : ByteBlock 32 → ByteBlock 12 → List UInt8 → List UInt8 → Option (List UInt8)
  decrypt : ByteBlock 32 → ByteBlock 12 → List UInt8 → List UInt8 → Option (List UInt8)
  utf8Error : List UInt8 → String
  isPoint_verifyingKey : ∀ secret, isPoint (verifyingKey secret) = true
  decrypt_encrypt : ∀ key nonce aad msg ciphertext,
    encrypt key nonce aad msg = some ciphertext → decrypt key nonce aad ciphertext = some msg
  length_encrypt : ∀ key nonce aad msg ciphertext,
    encrypt key nonce aad msg = some ciphertext → ciphertext.length = msg.length + 16

/-! ## Key pairs -/

/-- `Ed25519Identity`, whose public key is that of its secret. -/
structure Ed25519Identity (C : IdentityCrypto) where
  secretBytes : ByteBlock 32
  publicBytes : ByteBlock 32
  isPair : C.verifyingKey secretBytes = publicBytes

/-- `MlDsa65Identity`. -/
structure MlDsa65Identity where
  secretKey : ByteBlock 4032
  publicKey : ByteBlock 1952

structure HybridKeyPair (C : IdentityCrypto) where
  ed25519 : Ed25519Identity C
  mlDsa65 : MlDsa65Identity
  nodeId : String
  createdAt : U64
  expiresAt : U64

/-- The first `n` bytes of enough. -/
def takeBlock (n : Nat) (bytes : List UInt8) (h : n ≤ bytes.length) : ByteBlock n :=
  ⟨bytes.take n, by rw [List.length_take]; omega⟩

theorem takeBlock_append {n : Nat} (block : ByteBlock n) (rest : List UInt8)
    (h : n ≤ (block.1 ++ rest).length) : takeBlock n (block.1 ++ rest) h = block :=
  Subtype.ext (List.take_left' block.2)

namespace Ed25519Identity

variable {C : IdentityCrypto}

def toBytes (id : Ed25519Identity C) : List UInt8 := id.secretBytes.1 ++ id.publicBytes.1

def fromBytes (C : IdentityCrypto) (bytes : List UInt8) :
    Except IdentityError (Ed25519Identity C) :=
  if h : bytes.length < 64 then .error (.invalidKeyMaterial "ed25519 key material too short")
  else
    let secret := takeBlock 32 bytes (by omega)
    let publicKey := takeBlock 32 (bytes.drop 32) (by rw [List.length_drop]; omega)
    if C.isPoint publicKey = false then
      .error (.invalidKeyMaterial "invalid ed25519 public key bytes")
    else if hPair : C.verifyingKey secret = publicKey then .ok ⟨secret, publicKey, hPair⟩
    else .error (.invalidKeyMaterial "ed25519 key material mismatch")

@[simp] theorem length_toBytes (id : Ed25519Identity C) : id.toBytes.length = 64 := by
  rw [toBytes, List.length_append, id.secretBytes.2, id.publicBytes.2]

theorem fromBytes_toBytes (id : Ed25519Identity C) : fromBytes C id.toBytes = .ok id := by
  have hSecret : ∀ h, takeBlock 32 id.toBytes h = id.secretBytes := fun h =>
    takeBlock_append id.secretBytes id.publicBytes.1 h
  have hPublic : ∀ h, takeBlock 32 (id.toBytes.drop 32) h = id.publicBytes := fun h => by
    refine Subtype.ext ?_
    show (id.toBytes.drop 32).take 32 = id.publicBytes.1
    rw [toBytes, List.drop_left' id.secretBytes.2, List.take_of_length_le id.publicBytes.2.le]
  have hPoint : C.isPoint id.publicBytes = true := id.isPair ▸ C.isPoint_verifyingKey id.secretBytes
  unfold fromBytes
  rw [dif_neg (by rw [length_toBytes]; omega)]
  simp only [hSecret, hPublic, hPoint, id.isPair, dite_true]
  rfl

end Ed25519Identity

namespace MlDsa65Identity

def toBytes (id : MlDsa65Identity) : List UInt8 := id.secretKey.1 ++ id.publicKey.1

def fromBytes (bytes : List UInt8) : Except IdentityError MlDsa65Identity :=
  if h : bytes.length < 4032 + 1952 then
    .error (.invalidKeyMaterial
      s!"ML-DSA-65 from_bytes: expected {4032 + 1952} bytes, got {bytes.length}")
  else .ok ⟨takeBlock 4032 bytes (by omega),
    takeBlock 1952 (bytes.drop 4032) (by rw [List.length_drop]; omega)⟩

@[simp] theorem length_toBytes (id : MlDsa65Identity) : id.toBytes.length = 5984 := by
  rw [toBytes, List.length_append, id.secretKey.2, id.publicKey.2]

theorem fromBytes_toBytes (id : MlDsa65Identity) : fromBytes id.toBytes = .ok id := by
  have hPublic : (id.toBytes.drop 4032).take 1952 = id.publicKey.1 := by
    rw [toBytes, List.drop_left' id.secretKey.2, List.take_of_length_le id.publicKey.2.le]
  unfold fromBytes
  rw [dif_neg (by rw [length_toBytes]; omega)]
  congr 1
  exact congrArg₂ mk (takeBlock_append id.secretKey id.publicKey.1 _) (Subtype.ext hPublic)

end MlDsa65Identity

namespace HybridKeyPair

variable {C : IdentityCrypto}

def toBytes (kp : HybridKeyPair C) : List UInt8 :=
  let nodeBytes := textBytes kp.nodeId
  kp.ed25519.toBytes ++ kp.mlDsa65.toBytes ++ leBytes 4 nodeBytes.length ++ nodeBytes ++
    leBytes 8 kp.createdAt.1 ++ leBytes 8 kp.expiresAt.1

def fromBytes (C : IdentityCrypto) (bytes : List UInt8) : Except IdentityError (HybridKeyPair C) :=
  if bytes.length < 64 + (4032 + 1952) + 4 then
    .error (.deserializationFailed "hybrid key material too short")
  else
    match Ed25519Identity.fromBytes C (bytes.take 64) with
    | .error e => .error e
    | .ok ed25519 =>
      match MlDsa65Identity.fromBytes ((bytes.drop 64).take (4032 + 1952)) with
      | .error e => .error e
      | .ok mlDsa65 =>
        let nameLen := leNat ((bytes.drop 6048).take 4)
        let rest := bytes.drop 6052
        if rest.length < nameLen + 16 then
          .error (.deserializationFailed "hybrid key material truncated")
        else
          match readText (rest.take nameLen) with
          | none => .error (.deserializationFailed
              s!"invalid node_id utf8: {C.utf8Error (rest.take nameLen)}")
          | some nodeId =>
            let stamps := rest.drop nameLen
            .ok ⟨ed25519, mlDsa65, nodeId, toU64 (leNat (stamps.take 8)),
              toU64 (leNat ((stamps.drop 8).take 8))⟩

theorem length_toBytes (kp : HybridKeyPair C) :
    kp.toBytes.length = 6068 + strLen kp.nodeId := by
  simp only [toBytes, List.length_append, Ed25519Identity.length_toBytes,
    MlDsa65Identity.length_toBytes, length_leBytes, length_textBytes]
  omega

theorem toU64_leNat (n : U64) : toU64 (leNat (leBytes 8 n.1)) = n := by
  have hn := n.2
  unfold u64Max at hn
  rw [leNat_leBytes (by omega)]
  exact Subtype.ext (Nat.min_eq_left n.2)

/-- What is written is read back, where the length of the node id fits a `u32`, whatever
comes after it. -/
theorem fromBytes_toBytes_append {kp : HybridKeyPair C} (h : strLen kp.nodeId < 2 ^ 32)
    (rest : List UInt8) : fromBytes C (kp.toBytes ++ rest) = .ok kp := by
  -- the parts one after another, each of which is cut off the rest at its length
  let nodeBytes := textBytes kp.nodeId
  let stamps := leBytes 8 kp.createdAt.1 ++ (leBytes 8 kp.expiresAt.1 ++ rest)
  have hParts : kp.toBytes ++ rest = kp.ed25519.toBytes ++ (kp.mlDsa65.toBytes ++
      (leBytes 4 nodeBytes.length ++ (nodeBytes ++ stamps))) := by
    simp only [toBytes, List.append_assoc, nodeBytes, stamps]
  have hAfterEd : (kp.toBytes ++ rest).drop 64 = kp.mlDsa65.toBytes ++
      (leBytes 4 nodeBytes.length ++ (nodeBytes ++ stamps)) := by
    rw [hParts, List.drop_left' kp.ed25519.length_toBytes]
  have hAfterMl : (kp.toBytes ++ rest).drop 6048 =
      leBytes 4 nodeBytes.length ++ (nodeBytes ++ stamps) := by
    rw [show 6048 = 64 + 5984 from rfl, ← List.drop_drop, hAfterEd,
      List.drop_left' kp.mlDsa65.length_toBytes]
  have hRest : (kp.toBytes ++ rest).drop 6052 = nodeBytes ++ stamps := by
    rw [show 6052 = 6048 + 4 from rfl, ← List.drop_drop, hAfterMl,
      List.drop_left' (length_leBytes 4 _)]
  have hNameLen : leNat (((kp.toBytes ++ rest).drop 6048).take 4) = nodeBytes.length := by
    rw [hAfterMl, List.take_left' (length_leBytes 4 _)]
    exact leNat_leBytes (by rw [length_textBytes]; exact h)
  have hCreated : stamps.take 8 = leBytes 8 kp.createdAt.1 := List.take_left' (length_leBytes 8 _)
  have hExpires : (stamps.drop 8).take 8 = leBytes 8 kp.expiresAt.1 := by
    rw [List.drop_left' (length_leBytes 8 _), List.take_left' (length_leBytes 8 _)]
  have hStamps : stamps.length = 16 + rest.length := by
    simp only [stamps, List.length_append, length_leBytes]
    omega
  have hEd : (kp.toBytes ++ rest).take 64 = kp.ed25519.toBytes := by
    rw [hParts, List.take_left' kp.ed25519.length_toBytes]
  have hMl : ((kp.toBytes ++ rest).drop 64).take (4032 + 1952) = kp.mlDsa65.toBytes := by
    rw [hAfterEd, List.take_left' kp.mlDsa65.length_toBytes]
  unfold fromBytes
  rw [if_neg (by rw [List.length_append, length_toBytes]; omega), hEd,
    Ed25519Identity.fromBytes_toBytes, hMl, MlDsa65Identity.fromBytes_toBytes]
  dsimp only
  rw [hNameLen, hRest, if_neg (by rw [List.length_append, hStamps]; omega),
    List.take_left' rfl, readText_textBytes]
  dsimp only
  rw [List.drop_left' rfl, hCreated, hExpires, toU64_leNat, toU64_leNat]

theorem fromBytes_toBytes {kp : HybridKeyPair C} (h : strLen kp.nodeId < 2 ^ 32) :
    fromBytes C kp.toBytes = .ok kp := by
  have hRead := fromBytes_toBytes_append h []
  rwa [List.append_nil] at hRead

end HybridKeyPair

/-! ## Under the passphrase -/

/-- `AEAD_AAD_CONTEXT`. -/
def aeadAadContext : List UInt8 := textBytes "kerosene-vault-identity-aead-v1"

/-- `MAX_IDENTITY_FILE_SIZE`. -/
def maxIdentityFileSize : Nat := 16 * 1024 * 1024

section Sealing

variable (C : IdentityCrypto) (passphrase : List UInt8)

/-- `IdentityDaemon::derive_key`. -/
def deriveIdentityKey (salt : ByteBlock 16) : Except IdentityError (ByteBlock 32) :=
  (C.argon2 passphrase salt).mapError fun e => .internalError s!"argon2: {e}"

/-- `IdentityDaemon::encrypt_bytes`, with its random bytes. -/
def encryptBytes (salt : ByteBlock 16) (nonce : ByteBlock 12) (plaintext : List UInt8) :
    Except IdentityError (List UInt8) :=
  match deriveIdentityKey C passphrase salt with
  | .error e => .error e
  | .ok key =>
    match C.encrypt key nonce aeadAadContext plaintext with
    | none => .error (.internalError "AEAD encrypt failed")
    | some ciphertext => .ok (salt.1 ++ nonce.1 ++ ciphertext)

/-- `IdentityDaemon::decrypt_bytes`. -/
def decryptBytes (blob : List UInt8) : Except IdentityError (List UInt8) :=
  if h : blob.length < 16 + 12 + 1 then
    .error (.deserializationFailed "encrypted blob too short")
  else
    let salt := takeBlock 16 blob (by omega)
    let nonce := takeBlock 12 (blob.drop 16) (by rw [List.length_drop]; omega)
    match deriveIdentityKey C passphrase salt with
    | .error e => .error e
    | .ok key =>
      match C.decrypt key nonce aeadAadContext (blob.drop 28) with
      | some plaintext => .ok plaintext
      | none => .error (.deserializationFailed "AEAD decrypt failed: wrong key or tampered data")

/-- The blob of a key pair. -/
def sealIdentity (salt : ByteBlock 16) (nonce : ByteBlock 12) (kp : HybridKeyPair C) :
    Except IdentityError (List UInt8) :=
  encryptBytes C passphrase salt nonce kp.toBytes

/-- The key pair of a blob. -/
def openBlob (blob : List UInt8) : Except IdentityError (HybridKeyPair C) :=
  match decryptBytes C passphrase blob with
  | .error e => .error e
  | .ok plaintext => HybridKeyPair.fromBytes C plaintext

end Sealing

section Opening

variable {C : IdentityCrypto} {passphrase : List UInt8} {salt : ByteBlock 16} {nonce : ByteBlock 12}

/-- The salt, the nonce, and a ciphertext under the key of the salt. -/
theorem encryptBytes_eq_ok {plaintext blob : List UInt8}
    (h : encryptBytes C passphrase salt nonce plaintext = .ok blob) :
    ∃ key ciphertext, deriveIdentityKey C passphrase salt = .ok key ∧
      C.encrypt key nonce aeadAadContext plaintext = some ciphertext ∧
      blob = salt.1 ++ nonce.1 ++ ciphertext := by
  unfold encryptBytes at h
  -- neither the key nor the ciphertext is an error
  cases hKey : deriveIdentityKey C passphrase salt with
  | error e =>
    rw [hKey] at h
    cases h
  | ok key =>
    rw [hKey] at h
    dsimp only at h
    cases hCipher : C.encrypt key nonce aeadAadContext plaintext with
    | none =>
      rw [hCipher] at h
      cases h
    | some ciphertext =>
      rw [hCipher] at h
      exact ⟨key, ciphertext, rfl, hCipher, (Except.ok.inj h).symm⟩

/-- What was encrypted under a passphrase is decrypted under it. -/
theorem decryptBytes_encryptBytes {plaintext blob : List UInt8}
    (h : encryptBytes C passphrase salt nonce plaintext = .ok blob) :
    decryptBytes C passphrase blob = .ok plaintext := by
  obtain ⟨key, ciphertext, hKey, hCipher, rfl⟩ := encryptBytes_eq_ok h
  have hSaltLen := salt.2
  have hNonceLen := nonce.2
  have hLength := C.length_encrypt _ _ _ _ _ hCipher
  -- the salt and the nonce are cut off where they were put
  have hSalt : ∀ hLen, takeBlock 16 (salt.1 ++ nonce.1 ++ ciphertext) hLen = salt := fun _ => by
    refine Subtype.ext ?_
    show (salt.1 ++ nonce.1 ++ ciphertext).take 16 = salt.1
    rw [List.append_assoc, List.take_left' hSaltLen]
  have hNonce : ∀ hLen, takeBlock 12 ((salt.1 ++ nonce.1 ++ ciphertext).drop 16) hLen = nonce :=
    fun _ => by
      refine Subtype.ext ?_
      show ((salt.1 ++ nonce.1 ++ ciphertext).drop 16).take 12 = nonce.1
      rw [List.append_assoc, List.drop_left' hSaltLen, List.take_left' hNonceLen]
  have hRest : (salt.1 ++ nonce.1 ++ ciphertext).drop 28 = ciphertext :=
    List.drop_left' (by rw [List.length_append, hSaltLen, hNonceLen])
  unfold decryptBytes
  rw [dif_neg (by simp only [List.length_append]; omega)]
  simp only [hSalt, hNonce, hRest, hKey, C.decrypt_encrypt _ _ _ _ _ hCipher]

theorem length_sealIdentity {kp : HybridKeyPair C} {blob : List UInt8}
    (h : sealIdentity C passphrase salt nonce kp = .ok blob) :
    blob.length = 6112 + strLen kp.nodeId := by
  obtain ⟨key, ciphertext, -, hCipher, rfl⟩ := encryptBytes_eq_ok h
  rw [List.length_append, List.length_append, salt.2, nonce.2,
    C.length_encrypt _ _ _ _ _ hCipher, HybridKeyPair.length_toBytes]
  omega

/-- A blob that is not too large opens to the key pair that it was made of. -/
theorem openBlob_sealIdentity {kp : HybridKeyPair C} {blob : List UInt8}
    (h : sealIdentity C passphrase salt nonce kp = .ok blob)
    (hSize : blob.length ≤ maxIdentityFileSize) : openBlob C passphrase blob = .ok kp := by
  have hLength := length_sealIdentity h
  unfold maxIdentityFileSize at hSize
  unfold openBlob
  -- the node id of so small a blob has a length of a `u32`
  rw [decryptBytes_encryptBytes h]
  exact HybridKeyPair.fromBytes_toBytes (by omega)

end Opening

/-! ## The daemon -/

/-- The store directory, and the files in it that the group or others may access. -/
structure IdentityDisk extends FileDisk String where
  shared : ℕ → Bool

/-- The files in the directory, before and after a call that changes no mode. -/
def IdentityDisk.withFiles (d : IdentityDisk) (files : FileDisk String) : IdentityDisk :=
  { d with toFileDisk := files }

/-- Opening with `truncate`, and with mode `0o600` where the file is made. -/
def IdentityDisk.openTruncate (d : IdentityDisk) (name : String) : ℕ × IdentityDisk :=
  let opened := d.toFileDisk.openTruncate name
  (opened.1,
    { toFileDisk := opened.2
      shared := if d.dir name = none then Function.update d.shared opened.1 false else d.shared })

/-- What a new key pair is made of. -/
structure KeySource (C : IdentityCrypto) where
  keys : Except IdentityError (Ed25519Identity C × MlDsa65Identity)
  now : U64
  salt : ByteBlock 16
  nonce : ByteBlock 12

structure IdentityDaemon where
  nodeId : String
  fileId : String
  passphrase : List UInt8

/-- The disk, and the key pair that the daemon signs with. -/
structure IdentityNode (C : IdentityCrypto) where
  disk : IdentityDisk
  identity : Option (HybridKeyPair C)

namespace IdentityDaemon

variable {C : IdentityCrypto} (D : IdentityDaemon)

def identityPath : String := "identity-" ++ D.fileId ++ ".enc"

/-- `with_extension("tmp")`. -/
def tmpPath : String := "identity-" ++ D.fileId ++ ".tmp"

def archivePath (nowSecs : ℕ) : String := "identity-" ++ D.fileId ++ ".old." ++ toString nowSecs

/-- `HybridKeyPair::generate`. -/
def generate (source : KeySource C) : Except IdentityError (HybridKeyPair C) :=
  source.keys.map fun (ed25519, mlDsa65) => ⟨ed25519, mlDsa65, D.nodeId, source.now, toU64 0⟩

/-- `atomic_write`, in which nothing fails. -/
def atomicWrite (d : IdentityDisk) (data : List UInt8) : IdentityDisk :=
  let (file, d) := d.openTruncate D.tmpPath
  let written := (d.write file 0 data).sync file
  d.withFiles ((written.rename D.tmpPath D.identityPath).getD written).syncDir

/-- `read_identity_blob`. -/
def readIdentityBlob (d : IdentityDisk) : Except IdentityError (List UInt8) :=
  match d.dir D.identityPath with
  | none => .error (.deserializationFailed
      "open identity: No such file or directory (os error 2)")
  | some file =>
    if maxIdentityFileSize < (d.bytes file).length then
      .error (.deserializationFailed "identity file exceeds max size")
    else if d.shared file then
      .error (.deserializationFailed "identity file has overly permissive permissions")
    else .ok (d.bytes file)

/-- `load_or_generate_identity`. -/
def loadOrGenerateIdentity (source : KeySource C) (node : IdentityNode C) :
    Except IdentityError (HybridKeyPair C) × IdentityNode C :=
  match node.identity with
  | some id => (.ok id, node)
  | none =>
    if (node.disk.dir D.identityPath).isSome then
      match D.readIdentityBlob node.disk with
      | .error e => (.error e, node)
      | .ok encrypted =>
        match openBlob C D.passphrase encrypted with
        | .error e => (.error e, node)
        | .ok kp => (.ok kp, { node with identity := some kp })
    else
      -- a file that is missing is taken for a first start
      match D.generate source with
      | .error e => (.error e, node)
      | .ok kp =>
        match sealIdentity C D.passphrase source.salt source.nonce kp with
        | .error e => (.error e, node)
        | .ok encrypted => (.ok kp, ⟨D.atomicWrite node.disk encrypted, some kp⟩)

/-- What the daemon comes to after a restart. -/
def loadIdentity (C : IdentityCrypto) (source : KeySource C) (d : IdentityDisk) :
    Except IdentityError (HybridKeyPair C) :=
  (D.loadOrGenerateIdentity source ⟨d, none⟩).1

/-- A file that can be read stands at the path. -/
def Intact (d : IdentityDisk) : Prop :=
  ∃ file, d.dir D.identityPath = some file ∧ (d.bytes file).length ≤ maxIdentityFileSize ∧
    d.shared file = false

theorem readIdentityBlob_eq_ok {d : IdentityDisk} {blob : List UInt8} :
    D.readIdentityBlob d = .ok blob ↔ D.Intact d ∧ d.read D.identityPath = some blob := by
  unfold readIdentityBlob Intact FileDisk.read
  cases d.dir D.identityPath with
  | none => simp
  | some file =>
    by_cases hSize : maxIdentityFileSize < (d.bytes file).length
    · simp [hSize]
    · cases hShared : d.shared file with
      | true => simp [hSize, hShared]
      | false => simp [hSize, hShared, not_lt.mp hSize]

/-- A key pair that is in the file is loaded, whatever another would be made of. -/
theorem loadIdentity_of_intact (source : KeySource C) {d : IdentityDisk} {blob : List UInt8}
    {kp : HybridKeyPair C} (hIntact : D.Intact d) (hRead : d.read D.identityPath = some blob)
    (hOpen : openBlob C D.passphrase blob = .ok kp) : D.loadIdentity C source d = .ok kp := by
  have hBlob := D.readIdentityBlob_eq_ok.mpr ⟨hIntact, hRead⟩
  obtain ⟨file, hFile, -⟩ := hIntact
  unfold loadIdentity loadOrGenerateIdentity
  dsimp only
  rw [hFile, Option.isSome_some, if_pos rfl, hBlob]
  dsimp only
  rw [hOpen]

/-- Where the file is missing, another key pair is made. -/
theorem loadIdentity_of_missing (source : KeySource C) {d : IdentityDisk}
    (hMissing : d.dir D.identityPath = none) {kp : HybridKeyPair C} {blob : List UInt8}
    (hNew : D.generate source = .ok kp)
    (hSeal : sealIdentity C D.passphrase source.salt source.nonce kp = .ok blob) :
    D.loadIdentity C source d = .ok kp := by
  unfold loadIdentity loadOrGenerateIdentity
  dsimp only
  rw [hMissing, Option.isSome_none, if_neg (by decide), hNew]
  dsimp only
  rw [hSeal]

/-- Without a file that can be read, and without new keys, there is no key pair. -/
theorem intact_of_loadIdentity {source : KeySource C} {d : IdentityDisk} {kp : HybridKeyPair C}
    {e : IdentityError} (hNone : source.keys = .error e)
    (h : D.loadIdentity C source d = .ok kp) : D.Intact d := by
  unfold loadIdentity loadOrGenerateIdentity generate at h
  dsimp only at h
  split at h
  · cases hBlob : D.readIdentityBlob d with
    | error e =>
      rw [hBlob] at h
      cases h
    | ok blob => exact (D.readIdentityBlob_eq_ok.mp hBlob).1
  · rw [hNone] at h
    cases h

end IdentityDaemon

end KeroseneVault
