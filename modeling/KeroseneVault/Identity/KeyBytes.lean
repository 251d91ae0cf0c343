import KeroseneVault.Domain.Intake
import KeroseneVault.Identity.Rotate

/-!
# Key pairs in bytes, slice by slice

`HybridKeyPair::from_bytes` computes the bounds of its slices from a length that it reads
from the bytes themselves. Here the decoders are written with the slices, which panic out
of bounds, and are the functions of the key file.

* `Ed25519Identity.fromSlices`, `MlDsa65Identity.fromSlices`, `HybridKeyPair.fromSlices` — the
  decoders with their slices and sums.

Main results:

* `fromSlices_eq` — no slice is out of bounds, no sum too great;
* `fromSlices_eq_ok_iff` — what is accepted begins with the bytes of the key pair.
-/

namespace KeroseneVault

-- ---------------------------------------------------------------------------
-- The decoders
-- ---------------------------------------------------------------------------

/-- `<[u8; N]>::try_from` of a slice, with the error it is mapped to. -/
def tryBlock (n : ℕ) (bytes : List UInt8) (e : IdentityError) :
    Intake IdentityError (ByteBlock n) :=
  if h : bytes.length = n then .ok ⟨bytes, h⟩ else .error e

/-- `Ed25519Identity::from_bytes`. -/
def Ed25519Identity.fromSlices (C : IdentityCrypto) (bytes : List UInt8) :
    Intake IdentityError (Ed25519Identity C) :=
  if bytes.length < 64 then .error (.invalidKeyMaterial "ed25519 key material too short")
  else (slice bytes 0 32).andThen fun secretSlice =>
    (tryBlock 32 secretSlice (.invalidKeyMaterial "invalid ed25519 secret key length")).andThen
      fun secret =>
    (slice bytes 32 64).andThen fun publicSlice =>
    (tryBlock 32 publicSlice (.invalidKeyMaterial "invalid ed25519 public key length")).andThen
      fun publicKey =>
    if C.isPoint publicKey = false then
      .error (.invalidKeyMaterial "invalid ed25519 public key bytes")
    else if hPair : C.verifyingKey secret = publicKey then .ok ⟨secret, publicKey, hPair⟩
    else .error (.invalidKeyMaterial "ed25519 key material mismatch")

/-- `MlDsa65Identity::from_bytes`, whose slices have the lengths of the keys. -/
def MlDsa65Identity.fromSlices (bytes : List UInt8) : Intake IdentityError MlDsa65Identity :=
  let tooShort : IdentityError := .invalidKeyMaterial
    s!"ML-DSA-65 from_bytes: expected {4032 + 1952} bytes, got {bytes.length}"
  if bytes.length < 4032 + 1952 then .error tooShort
  else (slice bytes 0 4032).andThen fun secretSlice =>
    (tryBlock 4032 secretSlice tooShort).andThen fun secret =>
    (slice bytes 4032 (4032 + 1952)).andThen fun publicSlice =>
    (tryBlock 1952 publicSlice tooShort).andThen fun publicKey => .ok ⟨secret, publicKey⟩

/-- `HybridKeyPair::from_bytes`. -/
def HybridKeyPair.fromSlices (C : IdentityCrypto) (bytes : List UInt8) :
    Intake IdentityError (HybridKeyPair C) :=
  let edLen := 64
  let mlLen := 4032 + 1952
  let minLen := edLen + mlLen + 4
  if bytes.length < minLen then
    .error (.deserializationFailed "hybrid key material too short")
  else (slice bytes 0 edLen).andThen fun edSlice =>
    (Ed25519Identity.fromSlices C edSlice).andThen fun ed25519 =>
    (slice bytes edLen (edLen + mlLen)).andThen fun mlSlice =>
    (MlDsa65Identity.fromSlices mlSlice).andThen fun mlDsa65 =>
    let offset := edLen + mlLen
    (slice bytes offset (offset + 4)).andThen fun lenSlice =>
    (tryBlock 4 lenSlice (.deserializationFailed "invalid node_id length")).andThen fun len =>
    let nameLen := leNat len.1
    let offset := offset + 4
    (usizeAdd offset nameLen).andThen fun nameEnd => (usizeAdd nameEnd 16).andThen fun stampsEnd =>
    if stampsEnd > bytes.length then
      .error (.deserializationFailed "hybrid key material truncated")
    else (slice bytes offset nameEnd).andThen fun name =>
      match readText name with
      | none => .error (.deserializationFailed s!"invalid node_id utf8: {C.utf8Error name}")
      | some nodeId =>
        (usizeAdd nameEnd 8).andThen fun createdEnd =>
        (slice bytes nameEnd createdEnd).andThen fun createdSlice =>
        (tryBlock 8 createdSlice (.deserializationFailed "invalid created_at")).andThen
          fun created =>
        (slice bytes createdEnd stampsEnd).andThen fun expiresSlice =>
        (tryBlock 8 expiresSlice (.deserializationFailed "invalid expires_at")).andThen
          fun expires =>
        .ok ⟨ed25519, mlDsa65, nodeId, toU64 (leNat created.1), toU64 (leNat expires.1)⟩

-- ---------------------------------------------------------------------------
-- No slice is out of bounds
-- ---------------------------------------------------------------------------

/-- A slice within bounds fills an array of its length. -/
theorem slice_tryBlock {α : Type} {bytes : List UInt8} {i j n : ℕ} (hj : j ≤ bytes.length)
    (hn : i + n = j) (e : IdentityError) (f : ByteBlock n → Intake IdentityError α) :
    ((slice bytes i j).andThen fun s => (tryBlock n s e).andThen f) =
      f (takeBlock n (bytes.drop i) (by rw [List.length_drop]; omega)) := by
  subst hn
  have hLength : ((bytes.drop i).take n).length = n :=
    List.length_take_of_le (by rw [List.length_drop]; omega)
  rw [slice_eq hj rfl, Intake.ok_andThen]
  unfold tryBlock
  rw [dif_pos hLength]
  rfl

theorem Ed25519Identity.fromSlices_eq (C : IdentityCrypto) (bytes : List UInt8) :
    Ed25519Identity.fromSlices C bytes = .ofExcept (Ed25519Identity.fromBytes C bytes) := by
  unfold Ed25519Identity.fromSlices Ed25519Identity.fromBytes
  by_cases hShort : bytes.length < 64
  · rw [if_pos hShort, dif_pos hShort]
    rfl
  · have hSecret : 32 ≤ bytes.length := by omega
    have hPublic : 64 ≤ bytes.length := by omega
    rw [if_neg hShort, dif_neg hShort, slice_tryBlock hSecret (Nat.zero_add 32),
      slice_tryBlock hPublic (show 32 + 32 = 64 from rfl)]
    simp only [List.drop_zero]
    split_ifs <;> rfl

theorem MlDsa65Identity.fromSlices_eq (bytes : List UInt8) :
    MlDsa65Identity.fromSlices bytes = .ofExcept (MlDsa65Identity.fromBytes bytes) := by
  unfold MlDsa65Identity.fromSlices MlDsa65Identity.fromBytes
  dsimp only
  by_cases hShort : bytes.length < 4032 + 1952
  · rw [if_pos hShort, dif_pos hShort]
    rfl
  · have hSecret : 4032 ≤ bytes.length := by omega
    have hPublic : 4032 + 1952 ≤ bytes.length := by omega
    rw [if_neg hShort, dif_neg hShort, slice_tryBlock hSecret (Nat.zero_add 4032),
      slice_tryBlock hPublic rfl]
    rfl

namespace HybridKeyPair

variable {C : IdentityCrypto}

/-- The decoder of the key file, with its slices: none is out of bounds. -/
theorem fromSlices_eq (bytes : List UInt8) :
    fromSlices C bytes = .ofExcept (fromBytes C bytes) := by
  unfold fromSlices fromBytes
  dsimp only
  by_cases hShort : bytes.length < 64 + (4032 + 1952) + 4
  · rw [if_pos hShort, if_pos hShort]
    rfl
  have hEdEnd : 64 ≤ bytes.length := by omega
  have hMlEnd : 64 + (4032 + 1952) ≤ bytes.length := by omega
  have hLenEnd : 64 + (4032 + 1952) + 4 ≤ bytes.length := by omega
  rw [if_neg hShort, if_neg hShort, slice_eq hEdEnd (Nat.zero_add 64), Intake.ok_andThen,
    Ed25519Identity.fromSlices_eq, Intake.ofExcept_andThen, List.drop_zero]
  cases Ed25519Identity.fromBytes C (bytes.take 64) with
  | error e => rfl
  | ok ed25519 =>
    dsimp only
    rw [slice_eq hMlEnd rfl, Intake.ok_andThen, MlDsa65Identity.fromSlices_eq,
      Intake.ofExcept_andThen]
    cases MlDsa65Identity.fromBytes ((bytes.drop 64).take (4032 + 1952)) with
    | error e => rfl
    | ok mlDsa65 =>
      dsimp only
      rw [slice_tryBlock hLenEnd rfl]
      -- the length of the name is a `u32`, so that no sum with it is too great
      have hNameLess : leNat ((bytes.drop 6048).take 4) < 2 ^ 32 :=
        leNat_lt_of_length (List.length_take_of_le (by rw [List.length_drop]; omega))
      show ((usizeAdd 6052 (leNat ((bytes.drop 6048).take 4))).andThen _) = _
      generalize leNat ((bytes.drop 6048).take 4) = nameLen at hNameLess ⊢
      rw [usizeAdd_eq (show 6052 + nameLen < 2 ^ 64 by omega), Intake.ok_andThen,
        usizeAdd_eq (show 6052 + nameLen + 16 < 2 ^ 64 by omega), Intake.ok_andThen]
      by_cases hLong : (bytes.drop 6052).length < nameLen + 16
      · have hLong' : 6052 + nameLen + 16 > bytes.length := by
          rw [List.length_drop] at hLong
          omega
        rw [if_pos hLong, if_pos hLong']
        rfl
      · have hEnd : 6052 + nameLen + 16 ≤ bytes.length := by
          rw [List.length_drop] at hLong
          omega
        have hNameEnd : 6052 + nameLen ≤ bytes.length := by omega
        have hCreatedEnd : 6052 + nameLen + 8 ≤ bytes.length := by omega
        rw [if_neg hLong, if_neg (Nat.not_lt.mpr hEnd), slice_eq hNameEnd rfl, Intake.ok_andThen]
        cases readText ((bytes.drop 6052).take nameLen) with
        | none => rfl
        | some nodeId =>
          dsimp only
          have hSum : 6052 + nameLen + 8 + 8 = 6052 + nameLen + 16 := Nat.add_assoc _ 8 8
          rw [usizeAdd_eq (show 6052 + nameLen + 8 < 2 ^ 64 by omega), Intake.ok_andThen,
            slice_tryBlock hCreatedEnd rfl, slice_tryBlock hEnd hSum, List.drop_drop,
            List.drop_drop]
          rfl

-- ---------------------------------------------------------------------------
-- What is accepted
-- ---------------------------------------------------------------------------

/-- Two parts that are all there is. -/
theorem take_append_take {bytes : List UInt8} {m n : ℕ} (h : bytes.length = m + n) :
    bytes.take m ++ (bytes.drop m).take n = bytes := by
  have hRest : (bytes.drop m).take n = bytes.drop m :=
    List.take_of_length_le (by rw [List.length_drop]; omega)
  rw [hRest, List.take_append_drop]

/-- The next part, and what comes after it. -/
theorem drop_eq_take_append (bytes : List UInt8) (i n : ℕ) :
    bytes.drop i = (bytes.drop i).take n ++ bytes.drop (i + n) := by
  rw [← List.drop_drop, List.take_append_drop]

/-- The bytes of a classical key pair are those it was read from. -/
theorem toBytes_of_ed25519 {bytes : List UInt8} (hLength : bytes.length = 64)
    {id : Ed25519Identity C} (h : Ed25519Identity.fromBytes C bytes = .ok id) :
    id.toBytes = bytes := by
  unfold Ed25519Identity.fromBytes at h
  rw [dif_neg (by omega)] at h
  dsimp only at h
  split at h
  · cases h
  split at h
  · obtain rfl := Except.ok.inj h
    exact take_append_take hLength
  · cases h

/-- So are those of the other one. -/
theorem toBytes_of_mlDsa65 {bytes : List UInt8} (hLength : bytes.length = 5984)
    {id : MlDsa65Identity} (h : MlDsa65Identity.fromBytes bytes = .ok id) :
    id.toBytes = bytes := by
  unfold MlDsa65Identity.fromBytes at h
  rw [dif_neg (by omega)] at h
  obtain rfl := Except.ok.inj h
  exact take_append_take hLength

/-- Eight bytes are the digits of the stamp they are read as. -/
theorem leBytes_toU64 {bytes : List UInt8} (hLength : bytes.length = 8) :
    leBytes 8 (toU64 (leNat bytes)).1 = bytes := by
  have hLess := leNat_lt bytes
  have hFits : leNat bytes ≤ u64Max := by
    unfold u64Max
    rw [hLength] at hLess
    omega
  have hNumber : (toU64 (leNat bytes)).1 = leNat bytes := Nat.min_eq_left hFits
  have hBytes := leBytes_leNat bytes
  rw [hLength] at hBytes
  rw [hNumber, hBytes]

/-- What is accepted begins with the bytes of the key pair. -/
theorem exists_rest_of_fromBytes {bytes : List UInt8} {kp : HybridKeyPair C}
    (h : fromBytes C bytes = .ok kp) :
    strLen kp.nodeId < 2 ^ 32 ∧ ∃ rest, bytes = kp.toBytes ++ rest := by
  unfold fromBytes at h
  split at h
  · cases h
  rename_i hLong
  split at h
  · cases h
  rename_i ed25519 hEd
  split at h
  · cases h
  rename_i mlDsa65 hMl
  dsimp only at h
  split at h
  · cases h
  rename_i hStamps
  split at h
  · cases h
  rename_i nodeId hName
  obtain rfl := Except.ok.inj h
  rw [List.length_drop] at hStamps
  have hLenLength : ((bytes.drop 6048).take 4).length = 4 :=
    List.length_take_of_le (by rw [List.length_drop]; omega)
  have hNameLess := leNat_lt_of_length hLenLength
  have hNameBytes := textBytes_of_readText hName
  -- every part is written as it was read
  have hEdBytes := toBytes_of_ed25519 (List.length_take_of_le (by omega)) hEd
  have hMlBytes := toBytes_of_mlDsa65
    (List.length_take_of_le (by rw [List.length_drop]; omega)) hMl
  have hLenBytes : leBytes 4 (leNat ((bytes.drop 6048).take 4)) = (bytes.drop 6048).take 4 := by
    have hBytes := leBytes_leNat ((bytes.drop 6048).take 4)
    rwa [hLenLength] at hBytes
  generalize leNat ((bytes.drop 6048).take 4) = nameLen at *
  have hNameLength : (textBytes nodeId).length = nameLen := by
    rw [hNameBytes]
    exact List.length_take_of_le (by rw [List.length_drop]; omega)
  rw [List.drop_drop] at *
  have hCreated : leBytes 8 (toU64 (leNat ((bytes.drop (6052 + nameLen)).take 8))).1 =
      (bytes.drop (6052 + nameLen)).take 8 :=
    leBytes_toU64 (List.length_take_of_le (by rw [List.length_drop]; omega))
  have hExpires : leBytes 8 (toU64 (leNat ((bytes.drop (6052 + nameLen + 8)).take 8))).1 =
      (bytes.drop (6052 + nameLen + 8)).take 8 :=
    leBytes_toU64 (List.length_take_of_le (by rw [List.length_drop]; omega))
  refine ⟨?_, bytes.drop (6052 + nameLen + 8 + 8), ?_⟩
  · show strLen nodeId < 2 ^ 32
    rw [← length_textBytes, hNameLength]
    exact hNameLess
  · unfold toBytes
    dsimp only
    rw [List.drop_drop, hEdBytes, hMlBytes, hNameLength, hLenBytes, hNameBytes, hCreated, hExpires]
    simp only [List.append_assoc]
    rw [← drop_eq_take_append bytes (6052 + nameLen + 8) 8,
      ← drop_eq_take_append bytes (6052 + nameLen) 8, ← drop_eq_take_append bytes 6052 nameLen,
      ← drop_eq_take_append bytes 6048 4, ← drop_eq_take_append bytes 64 5984,
      List.take_append_drop]

/-- The decoder with its slices accepts what begins with the bytes of a key pair whose id is
short enough, and nothing else. -/
theorem fromSlices_eq_ok_iff {bytes : List UInt8} {kp : HybridKeyPair C} :
    fromSlices C bytes = .ok kp ↔
      strLen kp.nodeId < 2 ^ 32 ∧ ∃ rest, bytes = kp.toBytes ++ rest := by
  rw [fromSlices_eq]
  constructor
  · intro hOk
    refine exists_rest_of_fromBytes ?_
    cases hRead : fromBytes C bytes with
    | error e =>
      rw [hRead] at hOk
      cases hOk
    | ok kp' =>
      rw [hRead] at hOk
      cases hOk
      rfl
  · rintro ⟨hShort, rest, rfl⟩
    rw [fromBytes_toBytes_append hShort]
    rfl

theorem fromSlices_ne_panicked (bytes : List UInt8) : fromSlices C bytes ≠ .panicked := by
  rw [fromSlices_eq]
  exact Intake.ofExcept_ne_panicked _

/-- **Key pairs in bytes.** What is written is read back field by field; no bytes make the
decoder panic; and it accepts the bytes of a key pair, with anything after them. -/
theorem hybrid_key_pair_canonical_up_to_rest (C : IdentityCrypto) :
    (∀ kp : HybridKeyPair C, strLen kp.nodeId < 2 ^ 32 → fromSlices C kp.toBytes = .ok kp) ∧
    (∀ bytes, fromSlices C bytes ≠ .panicked) ∧
    ∀ bytes (kp : HybridKeyPair C), fromSlices C bytes = .ok kp →
      ∃ rest, bytes = kp.toBytes ++ rest := by
  refine ⟨?_, fromSlices_ne_panicked, ?_⟩
  · intro kp hShort
    exact fromSlices_eq_ok_iff.mpr ⟨hShort, [], (List.append_nil _).symm⟩
  · intro bytes kp hOk
    exact (fromSlices_eq_ok_iff.mp hOk).2

theorem hybrid_key_pair_at_zero :
    fromSlices plainIdentityCrypto (pairAt (toU64 0)).toBytes = .ok (pairAt (toU64 0)) :=
  (hybrid_key_pair_canonical_up_to_rest plainIdentityCrypto).1 (pairAt (toU64 0)) (by decide)

/-- A byte after the bytes of a key pair is read over. -/
theorem hybrid_key_pair_trailing_byte :
    ¬ ∀ bytes (kp : HybridKeyPair plainIdentityCrypto),
      fromSlices plainIdentityCrypto bytes = .ok kp → kp.toBytes = bytes := by
  intro hCanonical
  have hShort : strLen (pairAt (toU64 0)).nodeId < 2 ^ 32 := by decide
  have hRead : fromSlices plainIdentityCrypto ((pairAt (toU64 0)).toBytes ++ [0]) =
      .ok (pairAt (toU64 0)) := fromSlices_eq_ok_iff.mpr ⟨hShort, [0], rfl⟩
  have hLengths := congrArg List.length (hCanonical _ _ hRead)
  rw [List.length_append, List.length_singleton] at hLengths
  omega

end HybridKeyPair

end KeroseneVault
