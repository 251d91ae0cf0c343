import KeroseneVault.Domain.Intake
import KeroseneVault.Http.HybridGate

/-!
# Signatures that come in

`parse_settlement_intent` copies the first 64 bytes of a signature into an array before
it compares their number with 64, and the deserializers of `IntentSignature` copy 64 and
48 bytes and compare nothing. A copy of fewer bytes panics.

A value that comes back is also more than what was written: a decoder of hexadecimal digits
takes capitals, an array of numbers stands for a text, an array may stand for an object, and
a field of another name is skipped. `Loose` names these spellings, and outside them what is
read is, up to the order of its fields, what the serializer gives for it.

The two readers come from different traits, and nothing says that they have to agree: the
request's signature is parsed by hand in the handler, the stored one by the `Deserialize` of
its type. Both go from a slice of any length to an array of a fixed one by
`copy_from_slice`, which panics where the lengths differ. So the question of each is the
same one: on which inputs does it answer, with a value or with an error, and on which does
the copy come first?

* `hybridIntake`, `settlementIntentIntake` — the signature and the intent of a request;
* `SerdeValue`, `SignatureField.read` — a JSON value, and a field read from one;
* `IntentSignature.deserialize`, `IsOutput` — a signature read from a value, and the
  values that are written of it;
* `ComesShort`, `ReachesShort`, `Loose` — the inputs that the copies or the decoders do not fit.

Main results:

* `settlementIntentIntake_panicked_iff` — requests that panic;
* `exact_iff` — values that are read exactly if they are written, and refused if not;
* `signatureIntake_iff` — both of them.
-/

namespace KeroseneVault

/-! ## Requests -/

/-- The hybrid signature of a body, with the copy of its first half. -/
def hybridIntake (cfg : HybridConfig) (requirePq : Bool) (body : SignedIntentBody)
    (intent : SettlementIntent) : Intake Refusal (Option IntentSignature) :=
  let hasSigs := body.ed25519SignatureHex.isSome || body.mlDsa65SignatureHex.isSome
  if !(hasSigs || requirePq) then .ok none
  else
    let mlSigHex := body.mlDsa65SignatureHex.getD ""
    match hexBytes (body.ed25519SignatureHex.getD "") with
    | .error e => .error (.text 400 s!"ed25519_sig hex: {e}")
    | .ok edSigBytes =>
      match if mlSigHex = "" then .ok [] else hexBytes mlSigHex with
      | .error e => .error (.text 400 s!"ml_dsa65_sig hex: {e}")
      | .ok mlSigBytes =>
        -- `copy_from_slice` wants as many bytes as the array has
        if (edSigBytes.take 64).length ≠ 64 then .panicked
        else if edSigBytes.length ≠ 64 then .error (.text 400 "ed25519_sig must be 64 bytes")
        else
          let sig : IntentSignature := {
            ed25519Signature := edSigBytes.take 64
            mlDsa65Signature := mlSigBytes
            ed25519KeyId := body.ed25519KeyId.getD ""
            mlDsaKeyId := body.mlDsaKeyId.getD ""
            canonicalHash := cfg.canonicalHash intent }
          match sig.validateStub requirePq with
          | .error e => .error (.domain 401 e)
          | .ok () => .ok (some sig)

/-- `parse_settlement_intent` of the bytes of a request, which `serde_json` decodes. -/
def settlementIntentIntake (cfg : HybridConfig)
    (decode : List UInt8 → Except String SignedIntentBody) (policy : DowngradePolicy)
    (env : HttpEnv) (raw : List UInt8) : Intake Refusal WireIntent :=
  match decode raw with
  | .error e => .error (.text 400 s!"invalid json: {e}")
  | .ok body =>
    match parseSettlementIntent cfg.toHttpConfig { env with hybridSignature := .ok none }
        body.toIntentBody with
    | .error refusal => .error refusal
    | .ok intent =>
      let requirePq := policy.requirePqSignatures && policy.hybridSignatureRequired
      (hybridIntake cfg requirePq body intent.1).andThen fun signature =>
        .ok ⟨{ intent.1 with signature := signature }, wireIntent_amount_le intent⟩

/-- A signature is there or is required, its first half has fewer than 64 bytes, and
the other half decodes. -/
def SignatureShort (requirePq : Bool) (body : SignedIntentBody) : Prop :=
  (body.ed25519SignatureHex.isSome || body.mlDsa65SignatureHex.isSome || requirePq) = true ∧
  (∃ bytes, hexBytes (body.ed25519SignatureHex.getD "") = .ok bytes ∧ bytes.length < 64) ∧
  (body.mlDsa65SignatureHex.getD "" = "" ∨
    ∃ bytes, hexBytes (body.mlDsa65SignatureHex.getD "") = .ok bytes)

/-- A request with a short signature, of which nothing that is looked at before is refused. -/
def ComesShort (cfg : HybridConfig) (decode : List UInt8 → Except String SignedIntentBody)
    (policy : DowngradePolicy) (env : HttpEnv) (raw : List UInt8) : Prop :=
  ∃ body bucket constitution intent,
    (decode raw = .ok body ∧ cfg.validateDestination body.destination = .ok () ∧
      BucketKind.parse body.bucket = .ok bucket ∧ env.constitution = .ok constitution ∧
      newWireIntent body.intentId bucket body.destination body.amountSats constitution.hash =
        .ok intent) ∧
    SignatureShort (policy.requirePqSignatures && policy.hybridSignatureRequired) body

/-- The check panics just where the first half of the signature decodes to too few bytes: their
number is compared with 64 only after the copy. The other half is kept as it is, of any length.
-/
theorem hybridIntake_panicked_iff {cfg : HybridConfig} {requirePq : Bool} {body : SignedIntentBody}
    {intent : SettlementIntent} :
    hybridIntake cfg requirePq body intent = .panicked ↔ SignatureShort requirePq body := by
  unfold hybridIntake SignatureShort
  dsimp only
  by_cases hSigs : (body.ed25519SignatureHex.isSome || body.mlDsa65SignatureHex.isSome ||
      requirePq) = true
  · rw [hSigs, if_neg (by decide)]
    cases hexBytes (body.ed25519SignatureHex.getD "") with
    | error e => simp
    | ok edSigBytes =>
      dsimp only
      -- the other half decodes, of no bytes where it is not there
      have hMl : (body.mlDsa65SignatureHex.getD "" = "" ∨
          ∃ bytes, hexBytes (body.mlDsa65SignatureHex.getD "") = .ok bytes) ↔
          ∃ bytes, (if body.mlDsa65SignatureHex.getD "" = "" then .ok [] else
            hexBytes (body.mlDsa65SignatureHex.getD "")) = .ok bytes := by
        split_ifs with hNone
        · exact iff_of_true (.inl hNone) ⟨[], rfl⟩
        · exact or_iff_right hNone
      rw [hMl]
      cases (if body.mlDsa65SignatureHex.getD "" = "" then .ok [] else
          hexBytes (body.mlDsa65SignatureHex.getD "") : Except String (List UInt8)) with
      | error e => simp
      | ok mlSigBytes =>
        dsimp only
        -- the slice of the first half panics before anything is built of it
        by_cases hShort : edSigBytes.length < 64
        · rw [if_pos (by rw [List.length_take]; omega)]
          exact iff_of_true rfl ⟨rfl, ⟨edSigBytes, rfl, hShort⟩, mlSigBytes, rfl⟩
        · rw [if_neg (by rw [List.length_take]; omega)]
          refine iff_of_false (fun hPanics => ?_) ?_
          · split at hPanics
            · cases hPanics
            split at hPanics
            · cases hPanics
            · cases hPanics
          · rintro ⟨-, ⟨bytes, hBytes, hLt⟩, -⟩
            obtain rfl := Except.ok.inj hBytes
            exact hShort hLt
  · rw [if_pos (by simpa using hSigs)]
    exact iff_of_false nofun fun h => hSigs h.1

/-- The whole intake panics just where a request gets as far as the copy and comes short there.
Whatever is refused before, for its JSON, its fields or its mode, is refused with an error. -/
theorem settlementIntentIntake_panicked_iff (cfg : HybridConfig)
    (decode : List UInt8 → Except String SignedIntentBody) (policy : DowngradePolicy)
    (env : HttpEnv) (raw : List UInt8) :
    settlementIntentIntake cfg decode policy env raw = .panicked ↔
      ComesShort cfg decode policy env raw := by
  have hThen {α β ε : Type} (x : Intake ε α) (f : α → β) :
      (x.andThen fun a => .ok (f a)) = .panicked ↔ x = .panicked := by
    cases x <;> simp [Intake.andThen]
  unfold settlementIntentIntake ComesShort parseSettlementIntent
  constructor
  · intro hPanics
    split at hPanics
    · cases hPanics
    rename_i body hDecode
    split at hPanics
    · cases hPanics
    rename_i intent hIntent
    rw [hThen, hybridIntake_panicked_iff] at hPanics
    -- the intent is there, so all before it was Ok
    split at hIntent
    · cases hIntent
    rename_i hDestination
    split at hIntent
    · cases hIntent
    rename_i bucket hBucket
    split at hIntent
    · cases hIntent
    rename_i constitution hConstitution
    split at hIntent
    · cases hIntent
    rename_i new hNew
    exact ⟨body, bucket, constitution, new,
      ⟨hDecode, hDestination, hBucket, hConstitution, hNew⟩, hPanics⟩
  · rintro ⟨body, bucket, constitution, intent,
      ⟨hDecode, hDestination, hBucket, hConstitution, hNew⟩, hShort⟩
    -- each check before the signature passes as the request says
    rw [hDecode]
    dsimp only
    rw [hDestination]
    dsimp only
    rw [hBucket]
    dsimp only
    rw [hConstitution]
    dsimp only
    rw [hNew]
    dsimp only
    rw [hThen, hybridIntake_panicked_iff]
    exact hShort

/-! ## Values -/

/-- `serde_json::Value`: an integer below zero and a float are no other numbers, the float
by its bits. -/
inductive SerdeValue where
  | null
  | bool (b : Bool)
  | posInt (n : UInt64)
  | negInt (n : Int)
  | float (bits : UInt64)
  | str (s : String)
  | arr (items : List SerdeValue)
  | obj (entries : List (String × SerdeValue))

/-- The fields of `IntentSignature`, in their order. -/
inductive SignatureField where
  | ed25519Signature
  | mlDsa65Signature
  | ed25519KeyId
  | mlDsaKeyId
  | canonicalHash
  deriving DecidableEq

namespace SignatureField

def all : List SignatureField :=
  [.ed25519Signature, .mlDsa65Signature, .ed25519KeyId, .mlDsaKeyId, .canonicalHash]

def name : SignatureField → String
  | .ed25519Signature => "ed25519_signature"
  | .mlDsa65Signature => "ml_dsa65_signature"
  | .ed25519KeyId => "ed25519_key_id"
  | .mlDsaKeyId => "ml_dsa_key_id"
  | .canonicalHash => "canonical_hash"

def ofName (key : String) : Option SignatureField := all.find? fun f => f.name == key

/-- What a field has. -/
def Value : SignatureField → Type
  | .ed25519Signature => {bytes : List UInt8 // bytes.length = 64}
  | .mlDsa65Signature => List UInt8
  | .ed25519KeyId | .mlDsaKeyId => String
  | .canonicalHash => {bytes : List UInt8 // bytes.length = 48}

/-- `hex_serde_64::deserialize` and `hex_serde_48::deserialize`, for `n` of 64 and 48. -/
def hexSerde (n : Nat) : SerdeValue → Intake Unit {bytes : List UInt8 // bytes.length = n}
  | .str s =>
    match hexBytes s with
    | .error _ => .error ()
    | .ok bytes =>
      -- the slice `[..n]` of fewer bytes panics, and of more leaves the others out
      if h : n ≤ bytes.length then .ok ⟨bytes.take n, List.length_take_of_le h⟩
      else .panicked
  | _ => .error ()

/-- A `u8`. -/
def byteOf : SerdeValue → Option UInt8
  | .posInt n => if n.toNat < 256 then some n.toUInt8 else none
  | _ => none

/-- A `Vec<u8>`. -/
def bytesOf : SerdeValue → Intake Unit (List UInt8)
  | .arr items =>
    match items.mapM byteOf with
    | some bytes => .ok bytes
    | none => .error ()
  | _ => .error ()

/-- A `String`. -/
def stringOf : SerdeValue → Intake Unit String
  | .str s => .ok s
  | _ => .error ()

/-- A field, read from a value. The texts of the errors are those of `serde`. -/
def read : (f : SignatureField) → SerdeValue → Intake Unit f.Value
  | .ed25519Signature => hexSerde 64
  | .mlDsa65Signature => bytesOf
  | .ed25519KeyId => stringOf
  | .mlDsaKeyId => stringOf
  | .canonicalHash => hexSerde 48

/-- `hex_serde_64::serialize` and `hex_serde_48::serialize`, and the other fields. -/
def write : (f : SignatureField) → f.Value → SerdeValue
  | .ed25519Signature, bytes => .str (hexText bytes.1)
  | .mlDsa65Signature, bytes => .arr (bytes.map fun b => .posInt b.toUInt64)
  | .ed25519KeyId, s => .str s
  | .mlDsaKeyId, s => .str s
  | .canonicalHash, bytes => .str (hexText bytes.1)

end SignatureField

/-- An `IntentSignature`, whose arrays have their sizes. -/
abbrev SizedSignature :=
  {sig : IntentSignature // sig.ed25519Signature.length = 64 ∧ sig.canonicalHash.length = 48}

namespace SizedSignature

def value (sig : SizedSignature) : (f : SignatureField) → f.Value
  | .ed25519Signature => ⟨sig.1.ed25519Signature, sig.2.1⟩
  | .mlDsa65Signature => sig.1.mlDsa65Signature
  | .ed25519KeyId => sig.1.ed25519KeyId
  | .mlDsaKeyId => sig.1.mlDsaKeyId
  | .canonicalHash => ⟨sig.1.canonicalHash, sig.2.2⟩

/-- The fields as `serde` writes them. -/
def entries (sig : SizedSignature) : List (String × SerdeValue) :=
  SignatureField.all.map fun f => (f.name, f.write (sig.value f))

end SizedSignature

/-- The fields that have been read. -/
abbrev SignatureSlots := (f : SignatureField) → Option f.Value

namespace SignatureSlots

def empty : SignatureSlots := fun _ => none

/-- The entries one by one. A field that comes twice is refused. -/
def visit : SignatureSlots → List (SignatureField × SerdeValue) → Intake Unit SignatureSlots
  | slots, [] => .ok slots
  | slots, (f, v) :: rest =>
    if (slots f).isSome then .error ()
    else (f.read v).andThen fun x => visit (Function.update slots f (some x)) rest

/-- A signature of fields that are all there. -/
def finish (slots : SignatureSlots) : Intake Unit SizedSignature :=
  match slots .ed25519Signature, slots .mlDsa65Signature, slots .ed25519KeyId, slots .mlDsaKeyId,
      slots .canonicalHash with
  | some ed, some ml, some edKey, some mlKey, some hash =>
    .ok ⟨⟨ed.1, ml, edKey, mlKey, hash.1⟩, ed.2, hash.2⟩
  | _, _, _, _, _ => .error ()

end SignatureSlots

/-- The entries of known fields. Others are not looked at. -/
def knownEntries (entries : List (String × SerdeValue)) : List (SignatureField × SerdeValue) :=
  entries.filterMap fun e => (SignatureField.ofName e.1).map fun f => (f, e.2)

/-- `IntentSignature::deserialize`, as `serde` derives it: of an object by the names of its
entries, of an array by their places. -/
def IntentSignature.deserialize : SerdeValue → Intake Unit SizedSignature
  | .obj entries => (SignatureSlots.visit .empty (knownEntries entries)).andThen
      SignatureSlots.finish
  | .arr items => (SignatureSlots.visit .empty (SignatureField.all.zip items)).andThen
      fun slots => if items.length = SignatureField.all.length then slots.finish else .error ()
  | _ => .error ()

/-- The value is what `serde` writes of the signature, in some order. -/
def IsOutput (v : SerdeValue) (sig : SizedSignature) : Prop :=
  ∃ entries, v = .obj entries ∧ entries.Perm sig.entries

/-- The value is read as the signature that it was written of, and refused if of none. -/
structure ReadExactly (v : SerdeValue) : Prop where
  returns : IntentSignature.deserialize v ≠ .panicked
  exact : ∀ sig, IntentSignature.deserialize v = .ok sig ↔ IsOutput v sig

/-! ### Fields that fit -/

/-- The value is the hexadecimal text of some bytes, in digits of either case. -/
def HexOf (P : Nat → Prop) (v : SerdeValue) : Prop :=
  ∃ s bytes, v = .str s ∧ hexBytes s = .ok bytes ∧ P bytes.length

namespace SignatureField

/-- The field can be read: hexadecimal text of enough bytes, an array of bytes, or a string. -/
def Readable : SignatureField → SerdeValue → Prop
  | .ed25519Signature, v => HexOf (64 ≤ ·) v
  | .mlDsa65Signature, v => ∃ bytes : List UInt8, v = .arr (bytes.map fun b => .posInt b.toUInt64)
  | .ed25519KeyId, v | .mlDsaKeyId, v => ∃ s, v = .str s
  | .canonicalHash, v => HexOf (48 ≤ ·) v

/-- Hexadecimal text of too few bytes. -/
def Short : SignatureField → SerdeValue → Prop
  | .ed25519Signature, v => HexOf (· < 64) v
  | .canonicalHash, v => HexOf (· < 48) v
  | _, _ => False

/-- The text is not the lower-case hexadecimal text of just as many bytes as the field has. -/
def Foreign : SignatureField → SerdeValue → Prop
  | .ed25519Signature, v => ∀ bytes, bytes.length = 64 → v ≠ .str (hexText bytes)
  | .canonicalHash, v => ∀ bytes, bytes.length = 48 → v ≠ .str (hexText bytes)
  | _, _ => False

/-- The five names are all there are. -/
theorem mem_all (f : SignatureField) : f ∈ all := by
  cases f <;> decide

theorem nodup_all : all.Nodup := by
  decide

/-- Fields are told apart by their names in the text. -/
theorem name_inj {f g : SignatureField} (h : f.name = g.name) : f = g := by
  cases f <;> cases g <;> first | rfl | exact absurd h (by decide)

/-- A key stands for a field just where it is the name of the field. -/
theorem ofName_eq_some {key : String} {f : SignatureField} :
    ofName key = some f ↔ key = f.name := by
  constructor
  · intro h
    unfold ofName at h
    have hKey : (f.name == key) = true :=
      List.find?_some (p := fun g : SignatureField => g.name == key) h
    exact (beq_iff_eq.mp hKey).symm
  · rintro rfl
    cases f <;> decide

/-- Of a text the length that counts is that of the bytes its digits stand for. -/
theorem hexOf_str {P : Nat → Prop} {s : String} :
    HexOf P (.str s) ↔ ∃ bytes, hexBytes s = .ok bytes ∧ P bytes.length := by
  constructor
  · rintro ⟨s', bytes, hStr, hBytes, hP⟩
    obtain rfl := SerdeValue.str.inj hStr
    exact ⟨bytes, hBytes, hP⟩
  · rintro ⟨bytes, hBytes, hP⟩
    exact ⟨s, bytes, rfl, hBytes, hP⟩

/-- The copy panics just where the digits give fewer bytes than the array has. -/
theorem hexSerde_panicked_iff {n : Nat} {v : SerdeValue} :
    hexSerde n v = .panicked ↔ HexOf (· < n) v := by
  cases v with
  | str s =>
    rw [hexOf_str, hexSerde]
    cases hexBytes s with
    | error e => simp
    | ok bytes =>
      dsimp only
      by_cases hLong : n ≤ bytes.length
      · simp [hLong]
      · simp [dif_neg hLong]
        omega
  | null | bool | posInt | negInt | float | arr | obj =>
    -- no other value is looked at as a text
    refine iff_of_false (by rintro ⟨⟩) ?_
    rintro ⟨_, _, hStr, -⟩
    cases hStr

/-- What is read is the front of the bytes: those after the array's length are dropped without
a word, since the slice is cut before the copy. -/
theorem hexSerde_eq_ok {n : Nat} {v : SerdeValue} {x : {bytes : List UInt8 // bytes.length = n}} :
    hexSerde n v = .ok x ↔
      ∃ s bytes, v = .str s ∧ hexBytes s = .ok bytes ∧ n ≤ bytes.length ∧ x.1 = bytes.take n := by
  cases v with
  | str s =>
    have hStr {P : String → Prop} : (∃ s', SerdeValue.str s = .str s' ∧ P s') ↔ P s := by simp
    simp only [exists_and_left, hStr]
    rw [hexSerde]
    cases hexBytes s with
    | error e => simp
    | ok bytes =>
      dsimp only
      by_cases hLong : n ≤ bytes.length
      · simp [hLong, Subtype.ext_iff, eq_comm]
      · simp [hLong]
  | null | bool | posInt | negInt | float | arr | obj =>
    refine iff_of_false (by rintro ⟨⟩) ?_
    rintro ⟨_, _, hStr, -⟩
    cases hStr

/-- Only a number below 256 is a byte. -/
theorem byteOf_eq_some {v : SerdeValue} {b : UInt8} :
    byteOf v = some b ↔ v = .posInt b.toUInt64 := by
  cases v with
  | posInt n =>
    rw [byteOf, SerdeValue.posInt.injEq]
    constructor
    · intro h
      split_ifs at h with hLt
      · obtain rfl := Option.some.inj h
        -- a number below 256 is not cut
        apply UInt64.toNat.inj
        simp [Nat.mod_eq_of_lt hLt]
    · rintro rfl
      rw [if_pos (by simpa using b.toNat_lt)]
      simp
  | null | bool | negInt | float | str | arr | obj => simp [byteOf]

/-- An array is read as bytes just where each of its items is one. -/
theorem mapM_byteOf_eq_some {items : List SerdeValue} {bytes : List UInt8} :
    items.mapM byteOf = some bytes ↔ items = bytes.map fun b => .posInt b.toUInt64 := by
  induction items generalizing bytes with
  | nil => cases bytes <;> simp
  | cons v items ih =>
    cases bytes with
    | nil => simp [List.mapM_cons, Option.bind_eq_some_iff]
    | cons b bytes => simp [List.mapM_cons, Option.bind_eq_some_iff, byteOf_eq_some, ih]

/-- A field of bytes is read from an array of numbers, and from nothing else. -/
theorem bytesOf_eq_ok {v : SerdeValue} {bytes : List UInt8} :
    bytesOf v = .ok bytes ↔ v = .arr (bytes.map fun b => .posInt b.toUInt64) := by
  cases v with
  | arr items =>
    rw [bytesOf, SerdeValue.arr.injEq, ← mapM_byteOf_eq_some]
    cases items.mapM byteOf <;> simp
  | null | bool | posInt | negInt | float | str | obj => simp [bytesOf]

/-- A field of text is read from a text. -/
theorem stringOf_eq_ok {v : SerdeValue} {s : String} : stringOf v = .ok s ↔ v = .str s := by
  cases v <;> simp [stringOf]

/-- A field panics just where it is one of the two copied ones and its value is short. -/
theorem read_panicked_iff (f : SignatureField) (v : SerdeValue) :
    f.read v = .panicked ↔ f.Short v := by
  have hBytes : bytesOf v ≠ .panicked := by
    cases v with
    | arr items =>
      rw [bytesOf]
      cases items.mapM byteOf <;> simp
    | null | bool | posInt | negInt | float | str | obj => simp [bytesOf]
  have hString : stringOf v ≠ .panicked := by
    cases v <;> simp [stringOf]
  -- only the two texts are sliced
  cases f with
  | ed25519Signature | canonicalHash => exact hexSerde_panicked_iff
  | mlDsa65Signature => exact iff_of_false hBytes id
  | ed25519KeyId | mlDsaKeyId => exact iff_of_false hString id

/-- It answers with bytes just where there are enough of them. -/
theorem hexSerde_ok_iff {n : Nat} {v : SerdeValue} :
    (∃ x, hexSerde n v = .ok x) ↔ HexOf (n ≤ ·) v := by
  constructor
  · rintro ⟨x, hRead⟩
    obtain ⟨s, bytes, hStr, hBytes, hLong, -⟩ := hexSerde_eq_ok.mp hRead
    exact ⟨s, bytes, hStr, hBytes, hLong⟩
  · rintro ⟨s, bytes, hStr, hBytes, hLong⟩
    have hLength : (bytes.take n).length = n := by
      rw [List.length_take]
      omega
    exact ⟨⟨bytes.take n, hLength⟩, hexSerde_eq_ok.mpr ⟨s, bytes, hStr, hBytes, hLong, rfl⟩⟩

/-- A field is read just from the values that fit its type. -/
theorem read_ok_iff (f : SignatureField) (v : SerdeValue) :
    (∃ x, f.read v = .ok x) ↔ f.Readable v := by
  cases f with
  | ed25519Signature | canonicalHash => exact hexSerde_ok_iff
  | mlDsa65Signature => exact exists_congr fun _ => bytesOf_eq_ok
  | ed25519KeyId | mlDsaKeyId => exact exists_congr fun _ => stringOf_eq_ok

/-- The digits that are written of an array are read back as it. -/
theorem hexSerde_hexText {n : Nat} (x : {bytes : List UInt8 // bytes.length = n}) :
    hexSerde n (.str (hexText x.1)) = .ok x := by
  refine hexSerde_eq_ok.mpr ⟨_, x.1, rfl, hexBytes_hexText x.1, x.2.ge, ?_⟩
  rw [List.take_of_length_le x.2.le]

/-- What is written of a field is read back. -/
theorem read_write (f : SignatureField) (x : f.Value) : f.read (f.write x) = .ok x := by
  cases f with
  | ed25519Signature | canonicalHash => exact hexSerde_hexText x
  | mlDsa65Signature => exact bytesOf_eq_ok.mpr rfl
  | ed25519KeyId | mlDsaKeyId => rfl

/-- A text that is read, and is not foreign, is the one that is written of what was read. -/
theorem write_of_hexSerde {n : Nat} {v : SerdeValue} {x : {bytes : List UInt8 // bytes.length = n}}
    (h : hexSerde n v = .ok x)
    (hOwn : ¬ ∀ bytes : List UInt8, bytes.length = n → v ≠ .str (hexText bytes)) :
    v = .str (hexText x.1) := by
  push Not at hOwn
  obtain ⟨bytes, hLength, rfl⟩ := hOwn
  rw [hexSerde_hexText ⟨bytes, hLength⟩] at h
  obtain rfl := Intake.ok.inj h
  rfl

/-- What is read of a text of the field's own is what it was written of. -/
theorem write_of_read {f : SignatureField} {v : SerdeValue} {x : f.Value} (h : f.read v = .ok x)
    (hOwn : ¬ f.Foreign v) : v = f.write x := by
  cases f with
  | ed25519Signature | canonicalHash => exact write_of_hexSerde h hOwn
  | mlDsa65Signature => exact bytesOf_eq_ok.mp h
  | ed25519KeyId | mlDsaKeyId => exact stringOf_eq_ok.mp h

/-- What a field writes is never foreign to it. -/
theorem not_foreign_write (f : SignatureField) (x : f.Value) : ¬ f.Foreign (f.write x) := by
  cases f with
  | ed25519Signature | canonicalHash => exact fun h => h x.1 x.2 rfl
  | mlDsa65Signature | ed25519KeyId | mlDsaKeyId => exact id

end SignatureField

/-! ### Entries that fit -/

/-- Entries that can all be read, of different fields. -/
structure AllRead (es : List (SignatureField × SerdeValue)) : Prop where
  nodup : (es.map Prod.fst).Nodup
  readable : ∀ e ∈ es, e.1.Readable e.2

/-- Text of too few bytes comes after entries that can be read. -/
def ReachesShort (es : List (SignatureField × SerdeValue)) : Prop :=
  ∃ before f v after, es = before ++ (f, v) :: after ∧ AllRead before ∧
    f ∉ before.map Prod.fst ∧ f.Short v

/-- The first entry is readable and comes only once, and so for the rest. -/
theorem allRead_cons {f : SignatureField} {v : SerdeValue}
    {es : List (SignatureField × SerdeValue)} :
    AllRead ((f, v) :: es) ↔ f.Readable v ∧ f ∉ es.map Prod.fst ∧ AllRead es := by
  constructor
  · rintro ⟨hNodup, hReadable⟩
    rw [List.map_cons, List.nodup_cons] at hNodup
    rw [List.forall_mem_cons] at hReadable
    exact ⟨hReadable.1, hNodup.1, hNodup.2, hReadable.2⟩
  · rintro ⟨hHead, hFresh, hNodup, hReadable⟩
    refine ⟨?_, List.forall_mem_cons.mpr ⟨hHead, hReadable⟩⟩
    rw [List.map_cons, List.nodup_cons]
    exact ⟨hFresh, hNodup⟩

namespace SignatureSlots

/-- A field that comes a second time is refused. -/
theorem visit_cons_of_isSome {slots : SignatureSlots} {f : SignatureField} (v : SerdeValue)
    (es : List (SignatureField × SerdeValue)) (h : (slots f).isSome) :
    visit slots ((f, v) :: es) = .error () := by
  rw [visit, if_pos h]

/-- A field that comes for the first time is read and kept. -/
theorem visit_cons_of_none {slots : SignatureSlots} {f : SignatureField} (v : SerdeValue)
    (es : List (SignatureField × SerdeValue)) (h : slots f = none) :
    visit slots ((f, v) :: es) =
      (f.read v).andThen fun x => visit (Function.update slots f (some x)) es := by
  rw [visit, h, if_neg (by simp)]

/-- Fields are free after an entry that were free before, without that of the entry. -/
theorem free_update_iff {slots : SignatureSlots} {f : SignatureField} {x : f.Value}
    {es : List (SignatureField × SerdeValue)} :
    (∀ e ∈ es, Function.update slots f (some x) e.1 = none) ↔
      f ∉ es.map Prod.fst ∧ ∀ e ∈ es, slots e.1 = none := by
  constructor
  · intro hFree
    have hOther : ∀ e ∈ es, e.1 ≠ f := by
      rintro ⟨g, v⟩ hMem rfl
      have h := hFree _ hMem
      rw [Function.update_self] at h
      cases h
    refine ⟨?_, fun e hMem => ?_⟩
    · rw [List.mem_map]
      rintro ⟨e, hMem, rfl⟩
      exact hOther e hMem rfl
    · rw [← hFree e hMem, Function.update_of_ne (hOther e hMem)]
  · rintro ⟨hFresh, hFree⟩ e hMem
    have hOther : e.1 ≠ f := by
      rintro rfl
      exact hFresh (List.mem_map_of_mem hMem)
    rw [Function.update_of_ne hOther, hFree e hMem]

/-- The visitor gets to the end of the entries just where each can be read and none comes
twice, neither among themselves nor with what it has already. -/
theorem exists_visit_ok_iff {slots : SignatureSlots} {es : List (SignatureField × SerdeValue)} :
    (∃ slots', visit slots es = .ok slots') ↔ AllRead es ∧ ∀ e ∈ es, slots e.1 = none := by
  -- by the entries, over any slots: a field is refused where its slot is taken
  induction es generalizing slots with
  | nil => exact iff_of_true ⟨slots, rfl⟩ ⟨⟨List.nodup_nil, nofun⟩, nofun⟩
  | cons e es ih =>
    obtain ⟨f, v⟩ := e
    rw [allRead_cons, List.forall_mem_cons, ← SignatureField.read_ok_iff]
    cases hSlot : slots f with
    | some x =>
      rw [visit_cons_of_isSome v es (by rw [hSlot]; rfl)]
      simp
    | none =>
      rw [visit_cons_of_none v es hSlot]
      cases f.read v with
      | panicked | error => simp [Intake.andThen]
      | ok x =>
        simp only [Intake.andThen, ih, free_update_iff]
        constructor
        · rintro ⟨hAllRead, hFresh, hFree⟩
          exact ⟨⟨⟨x, rfl⟩, hFresh, hAllRead⟩, trivial, hFree⟩
        · rintro ⟨⟨-, hFresh, hAllRead⟩, -, hFree⟩
          exact ⟨hAllRead, hFresh, hFree⟩

/-- So it is from the start, when it has nothing yet. -/
theorem exists_visit_empty_iff {es : List (SignatureField × SerdeValue)} :
    (∃ slots, visit empty es = .ok slots) ↔ AllRead es := by
  rw [exists_visit_ok_iff]
  exact and_iff_left fun _ _ => rfl

/-- What the fields have, once the entries are read. -/
theorem visit_ok {slots slots' : SignatureSlots} {es : List (SignatureField × SerdeValue)}
    (h : visit slots es = .ok slots') :
    (∀ e ∈ es, ∃ x, e.1.read e.2 = .ok x ∧ slots' e.1 = some x) ∧
      ∀ f, f ∉ es.map Prod.fst → slots' f = slots f := by
  -- the slot of an entry is not written again, as its field does not come again
  induction es generalizing slots with
  | nil =>
    obtain rfl := Intake.ok.inj h
    exact ⟨nofun, fun _ _ => rfl⟩
  | cons e es ih =>
    obtain ⟨f, v⟩ := e
    obtain ⟨hAllRead, hFree⟩ := exists_visit_ok_iff.mp ⟨slots', h⟩
    have hFresh := (allRead_cons.mp hAllRead).2.1
    rw [visit_cons_of_none v es (hFree (f, v) (List.mem_cons_self ..))] at h
    cases hRead : f.read v with
    | panicked | error =>
      rw [hRead] at h
      cases h
    | ok x =>
      rw [hRead] at h
      obtain ⟨hSome, hSame⟩ := ih h
      refine ⟨List.forall_mem_cons.mpr ⟨⟨x, hRead, ?_⟩, hSome⟩, fun g hOther => ?_⟩
      · rw [hSame f hFresh, Function.update_self]
      · rw [List.map_cons, List.mem_cons, not_or] at hOther
        rw [hSame g hOther.2, Function.update_of_ne hOther.1]

/-- Entries may be visited in two goes. -/
theorem visit_append (slots : SignatureSlots) (es es' : List (SignatureField × SerdeValue)) :
    visit slots (es ++ es') = (visit slots es).andThen fun slots' => visit slots' es' := by
  induction es generalizing slots with
  | nil => rfl
  | cons e es ih =>
    obtain ⟨f, v⟩ := e
    cases hSlot : slots f with
    | some x =>
      rw [List.cons_append, visit_cons_of_isSome _ _ (by rw [hSlot]; rfl),
        visit_cons_of_isSome _ _ (by rw [hSlot]; rfl)]
      rfl
    | none =>
      rw [List.cons_append, visit_cons_of_none _ _ hSlot, visit_cons_of_none _ _ hSlot]
      cases f.read v with
      | panicked | error => rfl
      | ok x => exact ih _

/-- The first entry that is not read panics, where it is text of too few bytes. -/
theorem exists_short_of_panicked {slots : SignatureSlots}
    {es : List (SignatureField × SerdeValue)} (h : visit slots es = .panicked) :
    ∃ before f v after, es = before ++ (f, v) :: after ∧
      (∃ slots', visit slots before = .ok slots') ∧ slots f = none ∧
      f ∉ before.map Prod.fst ∧ f.Short v := by
  induction es generalizing slots with
  | nil => cases h
  | cons e es ih =>
    obtain ⟨f, v⟩ := e
    cases hSlot : slots f with
    | some x =>
      rw [visit_cons_of_isSome v es (by rw [hSlot]; rfl)] at h
      cases h
    | none =>
      rw [visit_cons_of_none v es hSlot] at h
      cases hRead : f.read v with
      | error =>
        rw [hRead] at h
        cases h
      | panicked =>
        exact ⟨[], f, v, es, rfl, ⟨slots, rfl⟩, hSlot, List.not_mem_nil,
          (SignatureField.read_panicked_iff f v).mp hRead⟩
      | ok x =>
        rw [hRead] at h
        obtain ⟨before, g, w, after, rfl, ⟨slots', hBefore⟩, hFree, hFresh, hShort⟩ := ih h
        -- the field of the entry before has its slot taken
        have hOther : g ≠ f := by
          rintro rfl
          rw [Function.update_self] at hFree
          cases hFree
        rw [Function.update_of_ne hOther] at hFree
        refine ⟨(f, v) :: before, g, w, after, rfl, ⟨slots', ?_⟩, hFree, ?_, hShort⟩
        · rw [visit_cons_of_none v before hSlot, hRead]
          exact hBefore
        · rw [List.map_cons, List.mem_cons, not_or]
          exact ⟨hOther, hFresh⟩

/-- The visitor panics just where it reaches a short field: the entries before it are read, and
none of them is a repetition. -/
theorem visit_panicked_iff {es : List (SignatureField × SerdeValue)} :
    visit empty es = .panicked ↔ ReachesShort es := by
  constructor
  · intro h
    obtain ⟨before, f, v, after, rfl, hBefore, -, hFresh, hShort⟩ := exists_short_of_panicked h
    exact ⟨before, f, v, after, rfl, exists_visit_empty_iff.mp hBefore, hFresh, hShort⟩
  · rintro ⟨before, f, v, after, rfl, hAllRead, hFresh, hShort⟩
    obtain ⟨slots, hBefore⟩ := exists_visit_empty_iff.mpr hAllRead
    have hFree : slots f = none := (visit_ok hBefore).2 f hFresh
    rw [visit_append, hBefore, Intake.andThen, visit_cons_of_none v after hFree,
      (SignatureField.read_panicked_iff f v).mpr hShort, Intake.andThen]

/-- A signature is made of the slots just where all five are filled, each with its field. -/
theorem finish_eq_ok {slots : SignatureSlots} {sig : SizedSignature} :
    slots.finish = .ok sig ↔ ∀ f, slots f = some (sig.value f) := by
  unfold finish
  constructor
  · intro h
    split at h
    · rename_i hEd hMl hEdKey hMlKey hHash
      obtain rfl := Intake.ok.inj h
      rintro (_ | _ | _ | _ | _)
      exacts [hEd, hMl, hEdKey, hMlKey, hHash]
    · cases h
  · intro h
    rw [h, h, h, h, h]
    rfl

/-- A missing field is an error, not a panic. -/
theorem finish_ne_panicked (slots : SignatureSlots) : slots.finish ≠ .panicked := by
  unfold finish
  split <;> simp

/-- Of entries of all the fields, each of which is read. -/
theorem visit_finish_eq_ok {es : List (SignatureField × SerdeValue)} {sig : SizedSignature} :
    (visit empty es).andThen finish = .ok sig ↔
      ((es.map Prod.fst).Nodup ∧ ∀ f, f ∈ es.map Prod.fst) ∧
        ∀ e ∈ es, e.1.read e.2 = .ok (sig.value e.1) := by
  constructor
  · intro h
    cases hVisit : visit empty es with
    | panicked | error =>
      rw [hVisit] at h
      cases h
    | ok slots =>
      rw [hVisit] at h
      have hSlots := finish_eq_ok.mp h
      obtain ⟨hSome, hSame⟩ := visit_ok hVisit
      refine ⟨⟨(exists_visit_empty_iff.mp ⟨slots, hVisit⟩).nodup, fun f => ?_⟩, fun e hMem => ?_⟩
      · -- a field that no entry has is still none, and `finish` refuses it
        by_contra hAbsent
        have hNone := hSame f hAbsent
        rw [hSlots f] at hNone
        cases hNone
      · obtain ⟨x, hRead, hSlot⟩ := hSome e hMem
        rw [hRead, Option.some.inj (hSlot.symm.trans (hSlots e.1))]
  -- every field has an entry, which the visitor reads into its slot
  · rintro ⟨⟨hNodup, hAll⟩, hRead⟩
    have hAllRead : AllRead es :=
      ⟨hNodup, fun e hMem => (SignatureField.read_ok_iff e.1 e.2).mp ⟨_, hRead e hMem⟩⟩
    obtain ⟨slots, hVisit⟩ := exists_visit_empty_iff.mpr hAllRead
    rw [hVisit]
    refine finish_eq_ok.mpr fun f => ?_
    obtain ⟨e, hMem, rfl⟩ := List.mem_map.mp (hAll f)
    obtain ⟨x, hReadX, hSlot⟩ := (visit_ok hVisit).1 e hMem
    rw [hSlot, Intake.ok.inj (hReadX.symm.trans (hRead e hMem))]

end SignatureSlots

/-! ### Values that fit -/

/-- The fields of a value, in the order in which they are read. -/
def entriesOf : SerdeValue → List (SignatureField × SerdeValue)
  | .obj entries => knownEntries entries
  | .arr items => SignatureField.all.zip items
  | _ => []

/-- Every field is there once, and can be read. An array has no other items. -/
structure CarriesSignature (v : SerdeValue) : Prop where
  allRead : AllRead (entriesOf v)
  present : ∀ f, f ∈ (entriesOf v).map Prod.fst
  length_eq : ∀ items, v = .arr items → items.length = SignatureField.all.length

/-- A value that is not as `serde` writes it: an array, another field beside those of a
signature, or a text that is not just as many bytes in lower case. -/
def Loose (v : SerdeValue) : Prop :=
  CarriesSignature v ∧ ∀ entries, v = .obj entries →
    (∃ e ∈ entries, SignatureField.ofName e.1 = none) ∨
      ∃ e ∈ knownEntries entries, e.1.Foreign e.2

/-- The deserializer panics just where the visitor does. -/
theorem deserialize_panicked_iff (v : SerdeValue) :
    IntentSignature.deserialize v = .panicked ↔ ReachesShort (entriesOf v) := by
  have hThen (es : List (SignatureField × SerdeValue))
      (g : SignatureSlots → Intake Unit SizedSignature) (hg : ∀ slots, g slots ≠ .panicked) :
      (SignatureSlots.visit .empty es).andThen g = .panicked ↔ ReachesShort es := by
    rw [← SignatureSlots.visit_panicked_iff]
    cases SignatureSlots.visit .empty es <;> simp [Intake.andThen, hg]
  cases v with
  | obj entries => exact hThen _ _ SignatureSlots.finish_ne_panicked
  | arr items =>
    refine hThen _ _ fun slots => ?_
    split_ifs
    · exact SignatureSlots.finish_ne_panicked slots
    · nofun
  | null | bool | posInt | negInt | float | str =>
    refine iff_of_false nofun ?_
    rintro ⟨before, f, v, after, hEmpty, -⟩
    -- no other value has entries
    cases before <;> cases hEmpty

/-- A value is read as a signature just where it carries one, each field of it read from its
own entry; the order of the entries does not matter. -/
theorem deserialize_eq_ok {v : SerdeValue} {sig : SizedSignature} :
    IntentSignature.deserialize v = .ok sig ↔
      CarriesSignature v ∧ ∀ e ∈ entriesOf v, e.1.read e.2 = .ok (sig.value e.1) := by
  have hCarries : (((entriesOf v).map Prod.fst).Nodup ∧ ∀ f, f ∈ (entriesOf v).map Prod.fst) ∧
      (∀ e ∈ entriesOf v, e.1.read e.2 = .ok (sig.value e.1)) ∧
        (∀ items, v = .arr items → items.length = SignatureField.all.length) ↔
      CarriesSignature v ∧ ∀ e ∈ entriesOf v, e.1.read e.2 = .ok (sig.value e.1) := by
    constructor
    · rintro ⟨⟨hNodup, hAll⟩, hRead, hLength⟩
      have hReadable : ∀ e ∈ entriesOf v, e.1.Readable e.2 := fun e hMem =>
        (SignatureField.read_ok_iff e.1 e.2).mp ⟨_, hRead e hMem⟩
      exact ⟨⟨⟨hNodup, hReadable⟩, hAll, hLength⟩, hRead⟩
    · rintro ⟨⟨hAllRead, hAll, hLength⟩, hRead⟩
      exact ⟨⟨hAllRead.nodup, hAll⟩, hRead, hLength⟩
  rw [← hCarries, ← and_assoc]
  cases v with
  | obj entries =>
    rw [and_iff_left (by rintro _ ⟨⟩)]
    exact SignatureSlots.visit_finish_eq_ok
  | arr items =>
    -- the length of an array is looked at after its items are read
    have hArray : IntentSignature.deserialize (.arr items) = .ok sig ↔
        (SignatureSlots.visit .empty (entriesOf (.arr items))).andThen SignatureSlots.finish =
          .ok sig ∧
          items.length = SignatureField.all.length := by
      unfold IntentSignature.deserialize entriesOf
      dsimp only
      cases SignatureSlots.visit .empty (SignatureField.all.zip items) with
      | panicked | error => simp [Intake.andThen]
      | ok slots =>
        by_cases hLength : items.length = SignatureField.all.length <;>
          simp [Intake.andThen, hLength]
    rw [hArray, SignatureSlots.visit_finish_eq_ok]
    simp
  | null | bool | posInt | negInt | float | str =>
    refine iff_of_false nofun ?_
    rintro ⟨⟨⟨-, hAll⟩, -⟩, -⟩
    exact List.not_mem_nil (hAll .ed25519Signature)

/-- A value that carries a signature is read as some signature. -/
theorem exists_deserialize_ok {v : SerdeValue} (h : CarriesSignature v) :
    ∃ sig, IntentSignature.deserialize v = .ok sig := by
  -- a signature of what each field is read as
  have hValues : ∀ f : SignatureField, ∃ x : f.Value, ∀ w, (f, w) ∈ entriesOf v →
      f.read w = .ok x := by
    intro f
    obtain ⟨⟨g, w⟩, hMem, hField⟩ := List.mem_map.mp (h.present f)
    obtain rfl : g = f := hField
    obtain ⟨x, hRead⟩ := (SignatureField.read_ok_iff g w).mpr (h.allRead.readable _ hMem)
    refine ⟨x, fun w' hMem' => ?_⟩
    rw [show w' = w from (Prod.mk.inj (List.inj_on_of_nodup_map h.allRead.nodup hMem' hMem rfl)).2,
      hRead]
  choose x hRead using hValues
  let sig : SizedSignature :=
    ⟨⟨(x .ed25519Signature).1, x .mlDsa65Signature, x .ed25519KeyId, x .mlDsaKeyId,
      (x .canonicalHash).1⟩, (x .ed25519Signature).2, (x .canonicalHash).2⟩
  have hValue : ∀ f, sig.value f = x f := by
    rintro (_ | _ | _ | _ | _) <;> rfl
  refine ⟨sig, deserialize_eq_ok.mpr ⟨h, fun e hMem => ?_⟩⟩
  rw [hValue]
  exact hRead e.1 e.2 hMem

/-- The entries that count are those under the name of a field. -/
theorem mem_knownEntries {entries : List (String × SerdeValue)} {f : SignatureField}
    {v : SerdeValue} : (f, v) ∈ knownEntries entries ↔ (f.name, v) ∈ entries := by
  simp only [knownEntries, List.mem_filterMap, Option.map_eq_some_iff,
    SignatureField.ofName_eq_some]
  constructor
  · rintro ⟨⟨key, w⟩, hMem, g, hKey, hPair⟩
    obtain ⟨rfl, rfl⟩ := Prod.mk.inj hPair
    obtain rfl : key = g.name := hKey
    exact hMem
  · exact fun hMem => ⟨(f.name, v), hMem, f, rfl, rfl⟩

/-- Where every entry has such a name, none is left out. -/
theorem map_knownEntries {entries : List (String × SerdeValue)}
    (h : ∀ e ∈ entries, SignatureField.ofName e.1 ≠ none) :
    (knownEntries entries).map (fun e => (e.1.name, e.2)) = entries := by
  induction entries with
  | nil => rfl
  | cons e entries ih =>
    obtain ⟨hHead, hTail⟩ := List.forall_mem_cons.mp h
    obtain ⟨f, hField⟩ := Option.ne_none_iff_exists'.mp hHead
    have hCons : knownEntries (e :: entries) = (f, e.2) :: knownEntries entries := by
      rw [knownEntries, List.filterMap_cons_some (by rw [hField]; rfl)]
      rfl
    rw [hCons, List.map_cons, ih hTail, ← SignatureField.ofName_eq_some.mp hField]

/-- Of a written signature the entries are the five fields, in their order. -/
theorem knownEntries_entries (sig : SizedSignature) :
    knownEntries sig.entries = SignatureField.all.map fun f => (f, f.write (sig.value f)) := by
  have hName (f : SignatureField) : SignatureField.ofName f.name = some f :=
    SignatureField.ofName_eq_some.mpr rfl
  simp [knownEntries, SizedSignature.entries, List.filterMap_map, hName]

/-- What is written of a signature is read back as that signature, in any order of the fields. -/
theorem deserialize_of_isOutput {v : SerdeValue} {sig : SizedSignature} (h : IsOutput v sig) :
    IntentSignature.deserialize v = .ok sig := by
  obtain ⟨entries, rfl, hPerm⟩ := h
  have hKnown : (knownEntries entries).Perm
      (SignatureField.all.map fun f => (f, f.write (sig.value f))) := by
    rw [← knownEntries_entries]
    exact hPerm.filterMap _
  have hFields : ((knownEntries entries).map Prod.fst).Perm SignatureField.all := by
    have h := hKnown.map Prod.fst
    rwa [List.map_map, show (Prod.fst ∘ fun f : SignatureField => (f, f.write (sig.value f))) = id
      from rfl, List.map_id] at h
  refine SignatureSlots.visit_finish_eq_ok.mpr ⟨⟨?_, fun f => ?_⟩, fun e hMem => ?_⟩
  · exact hFields.nodup_iff.mpr SignatureField.nodup_all
  · exact hFields.mem_iff.mpr f.mem_all
  · obtain ⟨f, -, rfl⟩ := List.mem_map.mp (hKnown.mem_iff.mp hMem)
    exact f.read_write (sig.value f)

/-- What the serializer writes is not loose. -/
theorem not_loose_of_isOutput {v : SerdeValue} {sig : SizedSignature} (h : IsOutput v sig) :
    ¬ Loose v := by
  obtain ⟨entries, rfl, hPerm⟩ := h
  rintro ⟨-, hLoose⟩
  have hWritten : ∀ e ∈ entries, ∃ f : SignatureField, e = (f.name, f.write (sig.value f)) := by
    intro e hMem
    obtain ⟨f, -, rfl⟩ := List.mem_map.mp (hPerm.mem_iff.mp hMem)
    exact ⟨f, rfl⟩
  obtain ⟨e, hMem, hUnknown⟩ | ⟨⟨f, w⟩, hMem, hForeign⟩ := hLoose entries rfl
  · obtain ⟨f, rfl⟩ := hWritten e hMem
    rw [SignatureField.ofName_eq_some.mpr rfl] at hUnknown
    cases hUnknown
  · obtain ⟨g, hPair⟩ := hWritten _ (mem_knownEntries.mp hMem)
    obtain ⟨hName, rfl⟩ := Prod.mk.inj hPair
    obtain rfl := SignatureField.name_inj hName
    exact f.not_foreign_write _ hForeign

/-- A value that is read, and is not loose, is what the serializer writes of the signature: so
that reading gives back no two spellings of one. -/
theorem isOutput_of_deserialize {v : SerdeValue} {sig : SizedSignature}
    (h : IntentSignature.deserialize v = .ok sig) (hOwn : ¬ Loose v) : IsOutput v sig := by
  obtain ⟨hCarries, hRead⟩ := deserialize_eq_ok.mp h
  obtain ⟨entries, rfl, hLoose⟩ : ∃ entries, v = .obj entries ∧
      ¬ ((∃ e ∈ entries, SignatureField.ofName e.1 = none) ∨
        ∃ e ∈ knownEntries entries, e.1.Foreign e.2) := by
    by_contra hNone
    exact hOwn ⟨hCarries, fun entries hv => by_contra fun hNot => hNone ⟨entries, hv, hNot⟩⟩
  push Not at hLoose
  obtain ⟨hKnown, hForeign⟩ := hLoose
  refine ⟨entries, rfl, ?_⟩
  -- every entry is one of a field, as it is written of the signature
  have hWritten : entries = ((knownEntries entries).map Prod.fst).map fun f =>
      (f.name, f.write (sig.value f)) := by
    have hEach : ∀ e ∈ knownEntries entries,
        (e.1.name, e.1.write (sig.value e.1)) = (e.1.name, e.2) := fun e hMem => by
      rw [← SignatureField.write_of_read (hRead e hMem) (hForeign e hMem)]
    calc
      entries = (knownEntries entries).map fun e => (e.1.name, e.2) :=
        (map_knownEntries hKnown).symm
      _ = (knownEntries entries).map fun e => (e.1.name, e.1.write (sig.value e.1)) :=
        (List.map_congr_left hEach).symm
      _ = ((knownEntries entries).map Prod.fst).map fun f => (f.name, f.write (sig.value f)) :=
        by
          rw [List.map_map]
          rfl
  rw [hWritten]
  refine List.Perm.map _ ((List.perm_ext_iff_of_nodup hCarries.allRead.nodup
    SignatureField.nodup_all).mpr fun f => ?_)
  exact iff_of_true (hCarries.present f) f.mem_all

/-- Values are read exactly, unless text of too few bytes is reached, or all is there but
not as it is written. -/
theorem exact_iff (v : SerdeValue) : ReadExactly v ↔ ¬ ReachesShort (entriesOf v) ∧ ¬ Loose v := by
  rw [← deserialize_panicked_iff]
  constructor
  · rintro ⟨hReturns, hExact⟩
    refine ⟨hReturns, fun hLoose => ?_⟩
    obtain ⟨sig, hOk⟩ := exists_deserialize_ok hLoose.1
    exact not_loose_of_isOutput ((hExact sig).mp hOk) hLoose
  · rintro ⟨hReturns, hOwn⟩
    exact ⟨hReturns, fun sig => ⟨fun h => isOutput_of_deserialize h hOwn, deserialize_of_isOutput⟩⟩

/-- **Intake.** A request is answered unless its signature comes short, and a value is read
exactly unless a short text is reached or all is there in another form. -/
theorem signatureIntake_iff (cfg : HybridConfig)
    (decode : List UInt8 → Except String SignedIntentBody) (policy : DowngradePolicy)
    (env : HttpEnv) (raw : List UInt8) (v : SerdeValue) :
    (settlementIntentIntake cfg decode policy env raw ≠ .panicked ↔
        ¬ ComesShort cfg decode policy env raw) ∧
      (ReadExactly v ↔ ¬ ReachesShort (entriesOf v) ∧ ¬ Loose v) :=
  ⟨not_congr (settlementIntentIntake_panicked_iff cfg decode policy env raw), exact_iff v⟩

/-- A payout with a signature of one byte. -/
def oneByteBody : SignedIntentBody :=
  ⟨⟨"intent-1", "USERS", HttpNode.payee, toU64 1000⟩, some "00", none, none, none⟩

/-- The bytes of that request. -/
def oneByteRequest : List UInt8 :=
  textBytes ("\x7b\"intent_id\":\"intent-1\",\"bucket\":\"USERS\",\"destination\":\"" ++
    HttpNode.payee ++ "\",\"amount_sats\":1000,\"ed25519_signature_hex\":\"00\"\x7d")

/-- What the decoder makes of them. -/
def decodeOneByte (raw : List UInt8) : Except String SignedIntentBody :=
  if raw = oneByteRequest then .ok oneByteBody else .error "expected value at line 1 column 1"

/-- A payout with a signature of one byte panics, as does the empty text for a signature. -/
theorem signatureIntake_fails :
    ¬ (∀ cfg decode policy env raw, settlementIntentIntake cfg decode policy env raw ≠ .panicked) ∧
      ¬ ∀ v, ReadExactly v := by
  constructor
  · intro hReturns
    have hShort : ComesShort HybridNode.labConfig decodeOneByte ⟨true, true⟩
        HttpNode.calmEnv oneByteRequest := by
      refine ⟨oneByteBody, .users, ⟨"constitution-1", ⟨4000, 3000, 3000⟩⟩,
        ⟨⟨"intent-1", .users, HttpNode.payee, 1000, "constitution-1", none⟩, by decide⟩,
        ⟨if_pos rfl, ?_, ?_, rfl, ?_⟩, rfl, ⟨[0], ?_, by decide⟩, .inl rfl⟩ <;> decide +kernel
    exact hReturns _ _ _ _ _ ((settlementIntentIntake_panicked_iff _ _ _ _ _).mpr hShort)
  · intro hExact
    have hShort : ReachesShort (entriesOf (.obj [("ed25519_signature", .str "")])) :=
      ⟨[], .ed25519Signature, .str "", [], rfl, ⟨List.nodup_nil, nofun⟩, List.not_mem_nil,
        "", [], rfl, by decide +kernel, by decide⟩
    exact (hExact _).returns ((deserialize_panicked_iff _).mpr hShort)

end KeroseneVault
