import KeroseneVault.Dkg.Frost
import KeroseneVault.Domain.Hex
import KeroseneVault.Lib.Results
import KeroseneVault.Lib.SortedMap

/-!
# The share store and the Taproot keyset in it

`ShareStorePort` on disk: a put writes a temporary file, renames it and syncs
the directory, so a record is never half written, but a put can fail after its
rename. `persist_tr_shares` puts the records of a keyset one by one and
`load_tr_shares` reads them back.

* `putAll` — the puts of a list of records, up to the first that fails;
* `KeysetNames.records`, `KeysetNames.load` — the records of a Taproot keyset, in the order
  of their puts, and the keyset a store has, under the names of the keyset;
* `trRecords`, `loadTrShares` and `trChannelsRecords`, `loadTrChannelsShares` — those of the
  USERS and of the CHANNELS keyset;
* `Reads` — what the records of a store read to.

Main results:

* `putAll_store` — the puts leave the store with the records that were written;
* `loadTrShares_iff` — the loader returns what the records read to;
* `loadTrShares_of_onDisk` — a store with the records of a keyset loads it.
-/

namespace KeroseneVault

/-! ## Records -/

/-- The records of a `ShareStorePort`. -/
abbrev ShareStore := Table String (List UInt8)

/-- What becomes of one put: the record is written, or an error comes before or
after the rename. -/
inductive PutAnswer where
  | stored
  | failed (e : DomainError) (renamed : Bool)

/-- What the disk does with a put of these bytes under this share id. -/
abbrev ShareDisk := String → List UInt8 → PutAnswer

def putShare (disk : ShareDisk) (store : ShareStore) (shareId : String) (bytes : List UInt8) :
    Outcome × ShareStore :=
  match disk shareId bytes with
  | .stored => (.ok (), store.insert shareId bytes)
  | .failed e renamed => (.error e, if renamed then store.insert shareId bytes else store)

def getShare (store : ShareStore) (shareId : String) : Except DomainError (List UInt8) :=
  match store.lookup shareId with
  | none => .error (.shareStoreForbidden "read share: No such file or directory (os error 2)")
  | some bytes => .ok bytes

/-- A record to put: its share id, and its serialization where that succeeds. -/
abbrev ShareRecord := String × Except DomainError (List UInt8)

/-- Each record is serialized and put; the first error ends it. -/
def putAll (disk : ShareDisk) (store : ShareStore) : List ShareRecord → Outcome × ShareStore
  | [] => (.ok (), store)
  | (_, .error e) :: _ => (.error e, store)
  | (shareId, .ok bytes) :: rest =>
    match putShare disk store shareId bytes with
    | (.error e, store) => (.error e, store)
    | (.ok (), store) => putAll disk store rest

/-- The records that puts in this order leave written. -/
def written (disk : ShareDisk) : List ShareRecord → List (String × List UInt8)
  | [] => []
  | (_, .error _) :: _ => []
  | (shareId, .ok bytes) :: rest =>
    match disk shareId bytes with
    | .stored => (shareId, bytes) :: written disk rest
    | .failed _ renamed => if renamed then [(shareId, bytes)] else []

theorem putAll_store (disk : ShareDisk) (store : ShareStore) (records : List ShareRecord) :
    (putAll disk store records).2 = store.insertAll (written disk records) := by
  induction records generalizing store with
  | nil => rfl
  | cons record rest ih =>
    obtain ⟨shareId, serialized⟩ := record
    cases serialized with
    | error e => rfl
    | ok bytes =>
      unfold putAll written putShare
      cases hAnswer : disk shareId bytes with
      | stored => exact ih _
      | failed e renamed =>
        cases renamed with
        | false => rfl
        | true => rfl

/-- What puts answer does not depend on what the store has. -/
theorem putAll_outcome (disk : ShareDisk) (store store' : ShareStore)
    (records : List ShareRecord) :
    (putAll disk store records).1 = (putAll disk store' records).1 := by
  induction records generalizing store store' with
  | nil => rfl
  | cons record rest ih =>
    obtain ⟨shareId, serialized⟩ := record
    cases serialized with
    | error e => rfl
    | ok bytes =>
      unfold putAll putShare
      cases disk shareId bytes with
      | stored => exact ih _ _
      | failed e renamed => rfl

/-- The records of a list that serializes. -/
def serialized (entries : List (String × List UInt8)) : List ShareRecord :=
  entries.map fun e => (e.1, .ok e.2)

@[simp] theorem serialized_cons (entry : String × List UInt8)
    (rest : List (String × List UInt8)) :
    serialized (entry :: rest) = (entry.1, .ok entry.2) :: serialized rest := rfl

theorem exists_serialized {records : List ShareRecord}
    (h : ∀ record ∈ records, ∃ bytes, record.2 = .ok bytes) :
    ∃ entries, records = serialized entries := by
  induction records with
  | nil => exact ⟨[], rfl⟩
  | cons record rest ih =>
    rw [List.forall_mem_cons] at h
    obtain ⟨⟨bytes, hBytes⟩, hRest⟩ := h
    obtain ⟨entries, rfl⟩ := ih hRest
    exact ⟨(record.1, bytes) :: entries, by rw [serialized_cons, ← hBytes]⟩

/-- What is written is the first few of the records. -/
theorem serialized_written_initial (disk : ShareDisk) (records : List ShareRecord) :
    serialized (written disk records) <+: records := by
  induction records with
  | nil => exact List.prefix_rfl
  | cons record rest ih =>
    obtain ⟨name, r⟩ := record
    cases r with
    | error e => exact List.nil_prefix
    | ok bytes =>
      unfold written
      cases disk name bytes with
      | stored => exact List.prefix_cons_inj _ |>.mpr ih
      | failed e renamed =>
        cases renamed with
        | false => exact List.nil_prefix
        | true => exact ⟨rest, rfl⟩

/-- Puts that all go through leave all records written. -/
theorem serialized_written_of_ok {disk : ShareDisk} {store : ShareStore} {records : List ShareRecord}
    (h : (putAll disk store records).1 = .ok ()) : serialized (written disk records) = records := by
  induction records generalizing store with
  | nil => rfl
  | cons record rest ih =>
    obtain ⟨name, r⟩ := record
    cases r with
    | error e => cases h
    | ok bytes =>
      unfold putAll putShare at h
      unfold written
      cases hAnswer : disk name bytes with
      | failed e renamed =>
        rw [hAnswer] at h
        cases h
      | stored =>
        rw [hAnswer] at h
        rw [serialized_cons, ih h]

/-- Puts go through where each record serializes and the disk takes it. -/
theorem putAll_ok_iff {disk : ShareDisk} {store : ShareStore} {records : List ShareRecord} :
    (putAll disk store records).1 = .ok () ↔
      ∀ record ∈ records, ∃ bytes, record.2 = .ok bytes ∧ disk record.1 bytes = .stored := by
  induction records generalizing store with
  | nil => simp [putAll]
  | cons record rest ih =>
    obtain ⟨shareId, r⟩ := record
    rw [List.forall_mem_cons]
    cases r with
    | error e => simp [putAll]
    | ok bytes =>
      unfold putAll putShare
      cases hAnswer : disk shareId bytes with
      | failed e renamed => simp [hAnswer]
      | stored => simp [hAnswer, ih]

/-- A disk that takes all puts takes records that serialize. -/
theorem putAll_ok {disk : ShareDisk} (hDisk : ∀ shareId bytes, disk shareId bytes = .stored)
    (store : ShareStore) (entries : List (String × List UInt8)) :
    putAll disk store (serialized entries) = (.ok (), store.insertAll entries) := by
  induction entries generalizing store with
  | nil => rfl
  | cons entry rest ih =>
    rw [serialized_cons, putAll, putShare, hDisk]
    exact ih _

/-! ## Texts -/

/-- `String::from_utf8`. -/
def readText (bytes : List UInt8) : Option String := String.fromUTF8? ⟨bytes.toArray⟩

theorem readText_textBytes (s : String) : readText (textBytes s) = some s := by
  simp [readText, textBytes, String.fromUTF8?, s.isValidUTF8]
  rfl

theorem textBytes_of_readText {bytes : List UInt8} {s : String} (h : readText bytes = some s) :
    textBytes s = bytes := by
  unfold readText String.fromUTF8? at h
  split at h
  · obtain rfl := Option.some.inj h
    rfl
  · cases h

/-- The digits of `str::parse::<usize>`. -/
def parseDigits (ds : List Char) : Option UInt64 :=
  if ds ≠ [] ∧ ds.all Char.isDigit ∧ Nat.ofDigitChars 10 ds 0 < 2 ^ 64 then
    some (UInt64.ofNat (Nat.ofDigitChars 10 ds 0))
  else none

/-- `str::parse::<usize>`, which takes one sign. -/
def parseUsize (s : String) : Option UInt64 :=
  match s.toList with
  | '+' :: ds => parseDigits ds
  | ds => parseDigits ds

/-! ## The Taproot keyset -/

section TrShares

variable {F : FrostDkg}

/-- `FrostTrShareState`. -/
structure TrShareState (F : FrostDkg) where
  keyPackages : SortedMap F.Identifier F.KeyPackage
  pubkeyPackage : F.PublicKeyPackage
  minSigners : UInt64

def idHex (id : F.Identifier) : String := F.hexEncode (F.identifierBytes id)

/-- The share ids of a keyset, and the texts of its errors. No id of a key is one of the others. -/
structure KeysetNames where
  keyPrefix : String
  pubkeyId : String
  rosterId : String
  minId : String
  keySerialize : String
  pubkeySerialize : String
  rosterUtf8 : String
  minCorrupt : String
  pubkeyDeserialize : String
  rosterHex : String
  identifierDeserialize : String
  keyDeserialize : String
  rosterEmpty : String
  ids_nodup : [pubkeyId, rosterId, minId].Nodup
  key_apart : ∀ name ∈ [pubkeyId, rosterId, minId], ¬ keyPrefix.toList <+: name.toList

/-- `ok_or` with a `ShareStoreForbidden`. -/
def orForbidden {α : Type} (what : String) : Option α → Except DomainError α
  | some a => .ok a
  | none => .error (.shareStoreForbidden what)

namespace KeysetNames

variable (k : KeysetNames)

def keyId (idHex : String) : String := k.keyPrefix ++ idHex

/-- The records of a keyset, in the order of their puts. -/
def records (st : TrShareState F) : List ShareRecord :=
  st.keyPackages.entries.map (fun e =>
    (k.keyId (idHex e.1), mapErr k.keySerialize (F.keyBytes e.2))) ++
  [(k.pubkeyId, mapErr k.pubkeySerialize (F.pubkeyBytes st.pubkeyPackage)),
    (k.rosterId,
      .ok (textBytes (String.intercalate "," (st.keyPackages.entries.map fun e => idHex e.1)))),
    (k.minId, .ok (textBytes (toString st.minSigners.toNat)))]

def persist (disk : ShareDisk) (store : ShareStore) (st : TrShareState F) : Outcome × ShareStore :=
  putAll disk store (k.records st)

/-- One round of the loop of the loader. -/
def loadKey (F : FrostDkg) (store : ShareStore) (idHex : String) :
    Except DomainError (F.Identifier × F.KeyPackage) := do
  let idBytes ← (F.hexDecode idHex).mapError fun e =>
    .shareStoreForbidden (k.rosterHex ++ e)
  let id ← mapErr k.identifierDeserialize (F.readIdentifier idBytes)
  let kpBytes ← getShare store (k.keyId idHex)
  let kp ← mapErr k.keyDeserialize (F.readKey kpBytes)
  .ok (id, kp)

def load (F : FrostDkg) (store : ShareStore) : Except DomainError (TrShareState F) := do
  let rosterRaw ← getShare store k.rosterId
  let roster ← orForbidden k.rosterUtf8 (readText rosterRaw)
  let minRaw ← getShare store k.minId
  let minSigners ← orForbidden k.minCorrupt
    ((readText minRaw).bind fun s => parseUsize (strTrim s))
  let pkBytes ← getShare store k.pubkeyId
  let pubkeyPackage ← mapErr k.pubkeyDeserialize (F.readPubkey pkBytes)
  let idHexes := (roster.toList.splitOn ',').filter (· ≠ [])
  let entries ← (idHexes.map String.ofList).mapM (k.loadKey F store)
  let keyPackages := SortedMap.ofList entries
  if keyPackages.entries.isEmpty then .error (.shareStoreForbidden k.rosterEmpty)
  else .ok { keyPackages, pubkeyPackage, minSigners }

end KeysetNames

/-! ### USERS -/

def trKeyShareId (idHex : String) : String := "frost-tr-dkg-id-" ++ idHex

def trPubkeyShareId : String := "frost-tr-dkg-pubkey"

def trRosterShareId : String := "frost-tr-roster"

def trMinShareId : String := "frost-tr-min-signers"

/-- The records of a keyset, in the order `persist_tr_shares` puts them. -/
def trRecords (st : TrShareState F) : List ShareRecord :=
  st.keyPackages.entries.map (fun e =>
    (trKeyShareId (idHex e.1), mapErr "tr key package serialize" (F.keyBytes e.2))) ++
  [(trPubkeyShareId, mapErr "tr pubkey package serialize" (F.pubkeyBytes st.pubkeyPackage)),
    (trRosterShareId,
      .ok (textBytes (String.intercalate "," (st.keyPackages.entries.map fun e => idHex e.1)))),
    (trMinShareId, .ok (textBytes (toString st.minSigners.toNat)))]

def persistTrShares (disk : ShareDisk) (store : ShareStore) (st : TrShareState F) :
    Outcome × ShareStore :=
  putAll disk store (trRecords st)

/-- One round of the loop of `load_tr_shares`. -/
def loadTrKey (F : FrostDkg) (store : ShareStore) (idHex : String) :
    Except DomainError (F.Identifier × F.KeyPackage) := do
  let idBytes ← (F.hexDecode idHex).mapError fun e =>
    .shareStoreForbidden s!"frost-tr roster id hex: {e}"
  let id ← mapErr "tr identifier deserialize" (F.readIdentifier idBytes)
  let kpBytes ← getShare store (trKeyShareId idHex)
  let kp ← mapErr "tr key package deserialize" (F.readKey kpBytes)
  .ok (id, kp)

def loadTrShares (F : FrostDkg) (store : ShareStore) : Except DomainError (TrShareState F) := do
  let rosterRaw ← getShare store trRosterShareId
  let roster ← orForbidden "frost-tr roster is not utf8" (readText rosterRaw)
  let minRaw ← getShare store trMinShareId
  let minSigners ← orForbidden "frost-tr min_signers corrupt"
    ((readText minRaw).bind fun s => parseUsize (strTrim s))
  let pkBytes ← getShare store trPubkeyShareId
  let pubkeyPackage ← mapErr "tr pubkey package deserialize" (F.readPubkey pkBytes)
  let idHexes := (roster.toList.splitOn ',').filter (· ≠ [])
  let entries ← (idHexes.map String.ofList).mapM (loadTrKey F store)
  let keyPackages := SortedMap.ofList entries
  if keyPackages.entries.isEmpty then
    .error (.shareStoreForbidden "frost-tr roster empty")
  else .ok { keyPackages, pubkeyPackage, minSigners }

/-- The names of `persist_tr_shares` and `load_tr_shares`. -/
def trNames : KeysetNames where
  keyPrefix := "frost-tr-dkg-id-"
  pubkeyId := trPubkeyShareId
  rosterId := trRosterShareId
  minId := trMinShareId
  keySerialize := "tr key package serialize"
  pubkeySerialize := "tr pubkey package serialize"
  rosterUtf8 := "frost-tr roster is not utf8"
  minCorrupt := "frost-tr min_signers corrupt"
  pubkeyDeserialize := "tr pubkey package deserialize"
  rosterHex := "frost-tr roster id hex: "
  identifierDeserialize := "tr identifier deserialize"
  keyDeserialize := "tr key package deserialize"
  rosterEmpty := "frost-tr roster empty"
  ids_nodup := by decide
  key_apart := by decide

theorem loadTrShares_eq (store : ShareStore) : loadTrShares F store = trNames.load F store := rfl

/-! ### CHANNELS -/

def trChannelsKeyShareId (idHex : String) : String := "frost-tr-channels-dkg-id-" ++ idHex

def trChannelsPubkeyShareId : String := "frost-tr-channels-dkg-pubkey"

def trChannelsRosterShareId : String := "frost-tr-channels-roster"

def trChannelsMinShareId : String := "frost-tr-channels-min-signers"

/-- The records of a CHANNELS keyset, in the order
`persist_tr_channels_shares` puts them. -/
def trChannelsRecords (st : TrShareState F) : List ShareRecord :=
  st.keyPackages.entries.map (fun e =>
    (trChannelsKeyShareId (idHex e.1), mapErr "tr-ch key package serialize" (F.keyBytes e.2))) ++
  [(trChannelsPubkeyShareId,
      mapErr "tr-ch pubkey package serialize" (F.pubkeyBytes st.pubkeyPackage)),
    (trChannelsRosterShareId,
      .ok (textBytes (String.intercalate "," (st.keyPackages.entries.map fun e => idHex e.1)))),
    (trChannelsMinShareId, .ok (textBytes (toString st.minSigners.toNat)))]

/-- The names of `persist_tr_channels_shares` and `load_tr_channels_shares`. -/
def trChannelsNames : KeysetNames where
  keyPrefix := "frost-tr-channels-dkg-id-"
  pubkeyId := trChannelsPubkeyShareId
  rosterId := trChannelsRosterShareId
  minId := trChannelsMinShareId
  keySerialize := "tr-ch key package serialize"
  pubkeySerialize := "tr-ch pubkey package serialize"
  rosterUtf8 := "frost-tr-channels roster is not utf8"
  minCorrupt := "frost-tr-channels min_signers corrupt"
  pubkeyDeserialize := "tr-ch pubkey package deserialize"
  rosterHex := "frost-tr-channels roster id hex: "
  identifierDeserialize := "tr-ch identifier deserialize"
  keyDeserialize := "tr-ch key package deserialize"
  rosterEmpty := "frost-tr-channels roster empty"
  ids_nodup := by decide
  key_apart := by decide

def persistTrChannelsShares (disk : ShareDisk) (store : ShareStore) (st : TrShareState F) :
    Outcome × ShareStore :=
  putAll disk store (trChannelsRecords st)

def loadTrChannelsShares (F : FrostDkg) (store : ShareStore) :
    Except DomainError (TrShareState F) :=
  trChannelsNames.load F store

/-! ## What the loader makes of a stored keyset -/

/-- What the share records rely on: encodings decode, and the hexadecimal text
of an identifier is not empty and has no comma in it. -/
structure FrostDkg.Codec (F : FrostDkg) : Prop where
  hex : ∀ bytes, F.hexDecode (F.hexEncode bytes) = .ok bytes
  hexComma : ∀ bytes, ',' ∉ (F.hexEncode bytes).toList
  hexEmpty : ∀ id, F.hexEncode (F.identifierBytes id) ≠ ""
  identifier : ∀ id, F.readIdentifier (F.identifierBytes id) = .ok id
  key : ∀ kp bytes, F.keyBytes kp = .ok bytes → F.readKey bytes = .ok kp
  pubkey : ∀ pk bytes, F.pubkeyBytes pk = .ok bytes → F.readPubkey bytes = .ok pk

/-- The store has the records of the keyset under these names. -/
def KeysetNames.OnDisk (k : KeysetNames) (store : ShareStore) (st : TrShareState F) : Prop :=
  ∀ record ∈ k.records st, ∃ bytes, record.2 = .ok bytes ∧ store.lookup record.1 = some bytes

/-- The store has the records of the keyset. -/
def OnDisk (store : ShareStore) (st : TrShareState F) : Prop :=
  ∀ record ∈ trRecords st, ∃ bytes, record.2 = .ok bytes ∧ store.lookup record.1 = some bytes

theorem isWhitespace_digit {c : Char} (h : c.isDigit = true) : LineLog.isWhitespace c = false := by
  simp only [Char.isDigit, ge_iff_le, Bool.and_eq_true, decide_eq_true_eq] at h
  have hLow : 48 ≤ c.toNat := h.1
  have hHigh : c.toNat ≤ 57 := h.2
  unfold LineLog.isWhitespace
  simp only [Bool.or_eq_false_iff, Bool.and_eq_false_iff, decide_eq_false_iff_not, beq_eq_false_iff_ne]
  omega

/-- A decimal reads back. -/
theorem parseUsize_toString (n : UInt64) : parseUsize (strTrim (toString n.toNat)) = some n := by
  have hList : (toString n.toNat).toList = Nat.toDigits 10 n.toNat := Nat.toList_repr
  have hDigits : ∀ c ∈ Nat.toDigits 10 n.toNat, c.isDigit = true := fun c hc =>
    Nat.isDigit_of_mem_toDigits (by omega) (by omega) hc
  have hTrim : (strTrim (toString n.toNat)).toList = Nat.toDigits 10 n.toNat := by
    rw [strTrim, hList, String.toList_ofList]
    exact LineLog.trim_eq_self fun c hc => isWhitespace_digit (hDigits c hc)
  have hNe : Nat.toDigits 10 n.toNat ≠ [] := Nat.toDigits_ne_nil
  have hParse : parseDigits (Nat.toDigits 10 n.toNat) = some n := by
    rw [parseDigits, Nat.ofDigitChars_ten_toDigits, if_pos ⟨hNe, List.all_eq_true.mpr hDigits,
      n.toNat_lt⟩, UInt64.ofNat_toNat]
  rw [parseUsize, hTrim]
  cases hCase : Nat.toDigits 10 n.toNat with
  | nil => exact absurd hCase hNe
  | cons c cs =>
    -- a digit is not the sign
    have hPlus : c ≠ '+' := by
      rintro rfl
      have hBad := hDigits '+' (by rw [hCase]; exact List.mem_cons_self ..)
      simp at hBad
    rw [hCase] at hParse
    split
    · rename_i hEq
      exact absurd (List.cons.inj hEq).1 hPlus
    · exact hParse

/-- The names of a roster record read back. -/
theorem splitOn_idHexes (hCodec : F.Codec) {ids : List F.Identifier} (hNe : ids ≠ []) :
    ((String.intercalate "," (ids.map idHex)).toList.splitOn ',').filter (· ≠ []) =
      ids.map fun id => (idHex id).toList := by
  have hSplit : (String.intercalate "," (ids.map idHex)).toList.splitOn ',' =
      ids.map fun id => (idHex id).toList := by
    rw [String.toList_intercalate, List.map_map]
    refine List.splitOn_intercalate ',' (fun l hl => ?_) (by simpa using hNe)
    obtain ⟨id, -, rfl⟩ := List.mem_map.mp hl
    exact hCodec.hexComma _
  rw [hSplit, List.filter_eq_self]
  intro l hl
  obtain ⟨id, -, rfl⟩ := List.mem_map.mp hl
  have hText : idHex id ≠ "" := hCodec.hexEmpty id
  simpa using hText

/-! ## What the loader reads -/

/-- The roster record of these identifiers. -/
def rosterBytes (ids : List F.Identifier) : List UInt8 :=
  textBytes (String.intercalate "," (ids.map idHex))

/-- The keyset is what the store's records under these names read to, with these identifiers
on the roster. -/
structure KeysetNames.Reads (k : KeysetNames) (store : ShareStore) (ids : List F.Identifier)
    (st : TrShareState F) : Prop where
  ids : st.keyPackages.entries.map Prod.fst = ids
  keys : ∀ e ∈ st.keyPackages.entries, ∃ bytes,
    store.lookup (k.keyId (idHex e.1)) = some bytes ∧ F.readKey bytes = .ok e.2
  pubkey : ∃ bytes, store.lookup k.pubkeyId = some bytes ∧
    F.readPubkey bytes = .ok st.pubkeyPackage
  minSigners : ∃ bytes, store.lookup k.minId = some bytes ∧
    ((readText bytes).bind fun s => parseUsize (strTrim s)) = some st.minSigners

theorem getShare_ok {store : ShareStore} {shareId : String} {bytes : List UInt8} :
    getShare store shareId = .ok bytes ↔ store.lookup shareId = some bytes := by
  unfold getShare
  cases store.lookup shareId with
  | none => simp
  | some found => simp

theorem orForbidden_ok {α : Type} {what : String} {o : Option α} {a : α} :
    orForbidden what o = .ok a ↔ o = some a := by
  cases o with
  | none => simp [orForbidden]
  | some b => simp [orForbidden]

namespace KeysetNames

variable (k : KeysetNames)

/-- One round of the loop, for an identifier's own name. -/
theorem loadKey_ok (hCodec : F.Codec) {store : ShareStore} {id : F.Identifier}
    {entry : F.Identifier × F.KeyPackage} :
    k.loadKey F store (idHex id) = .ok entry ↔ entry.1 = id ∧ ∃ bytes,
      store.lookup (k.keyId (idHex id)) = some bytes ∧ F.readKey bytes = .ok entry.2 := by
  have hDecode : F.hexDecode (idHex id) = .ok (F.identifierBytes id) := hCodec.hex _
  have hId : mapErr k.identifierDeserialize (F.readIdentifier (F.identifierBytes id)) =
      .ok id := mapErr_ok.mpr (hCodec.identifier id)
  unfold loadKey
  rw [hDecode]
  show ((mapErr _ (F.readIdentifier (F.identifierBytes id))) >>= _) = .ok entry ↔ _
  rw [hId]
  show (getShare store (k.keyId (idHex id)) >>= _) = .ok entry ↔ _
  rw [Results.bind_eq_ok]
  constructor
  · rintro ⟨bytes, hBytes, hRest⟩
    obtain ⟨kp, hKey, hEntry⟩ := Results.bind_eq_ok.mp hRest
    obtain rfl : (id, kp) = entry := Except.ok.inj hEntry
    exact ⟨rfl, bytes, getShare_ok.mp hBytes, mapErr_ok.mp hKey⟩
  · rintro ⟨rfl, bytes, hLookup, hKey⟩
    exact ⟨bytes, getShare_ok.mpr hLookup, Results.bind_eq_ok.mpr ⟨_, mapErr_ok.mpr hKey, rfl⟩⟩

/-- The loop over a roster of identifiers reads their keys, in their order. -/
theorem mapM_loadKey_ok (hCodec : F.Codec) {store : ShareStore} {ids : List F.Identifier}
    {entries : List (F.Identifier × F.KeyPackage)} :
    (ids.map idHex).mapM (k.loadKey F store) = .ok entries ↔
      entries.map Prod.fst = ids ∧ ∀ e ∈ entries, ∃ bytes,
        store.lookup (k.keyId (idHex e.1)) = some bytes ∧ F.readKey bytes = .ok e.2 := by
  rw [Results.mapM_eq_ok, List.forall₂_map_left_iff]
  constructor
  · intro h
    induction h with
    | nil => exact ⟨rfl, by simp⟩
    | cons hKey _ ih =>
      obtain ⟨hFirst, hBytes⟩ := (k.loadKey_ok hCodec).mp hKey
      refine ⟨by rw [List.map_cons, hFirst, ih.1], ?_⟩
      rw [List.forall_mem_cons, hFirst]
      exact ⟨hBytes, ih.2⟩
  · rintro ⟨rfl, hKeys⟩
    rw [List.forall₂_map_left_iff, List.forall₂_same]
    exact fun e he => (k.loadKey_ok hCodec).mpr ⟨rfl, hKeys e he⟩

/-- Under the roster of a keyset the loader returns what the records read to. -/
theorem load_iff (hCodec : F.Codec) {store : ShareStore} {ids : List F.Identifier}
    (hNe : ids ≠ []) (hSorted : ids.Pairwise (· < ·))
    (hRoster : store.lookup k.rosterId = some (rosterBytes ids)) {st : TrShareState F} :
    k.load F store = .ok st ↔ k.Reads store ids st := by
  have hText : readText (rosterBytes ids) = some (String.intercalate "," (ids.map idHex)) :=
    readText_textBytes _
  have hNames : ((String.intercalate "," (ids.map idHex)).toList.splitOn ',').filter (· ≠ []) =
      ids.map fun id => (idHex id).toList := splitOn_idHexes hCodec hNe
  have hLoop : (ids.map fun id => (idHex id).toList).map String.ofList = ids.map idHex := by
    rw [List.map_map]
    exact List.map_congr_left fun id _ => String.ofList_toList
  constructor
  · intro h
    obtain ⟨raw, hRaw, h⟩ := Results.bind_eq_ok.mp h
    obtain rfl : rosterBytes ids = raw := Option.some.inj (hRoster.symm.trans (getShare_ok.mp hRaw))
    obtain ⟨text, hRead, h⟩ := Results.bind_eq_ok.mp h
    obtain rfl := Option.some.inj (hText.symm.trans (orForbidden_ok.mp hRead))
    obtain ⟨minRaw, hMinRaw, h⟩ := Results.bind_eq_ok.mp h
    obtain ⟨minSigners, hMin, h⟩ := Results.bind_eq_ok.mp h
    obtain ⟨pkBytes, hPkBytes, h⟩ := Results.bind_eq_ok.mp h
    obtain ⟨pk, hPk, h⟩ := Results.bind_eq_ok.mp h
    obtain ⟨entries, hEntries, h⟩ := Results.bind_eq_ok.mp h
    rw [hNames, hLoop, k.mapM_loadKey_ok hCodec] at hEntries
    obtain ⟨hIds, hKeys⟩ := hEntries
    -- the identifiers come sorted, so the map has the entries as they came
    have hMap : SortedMap.ofList entries = ⟨entries, hIds ▸ hSorted⟩ :=
      SortedMap.ofList_entries ⟨entries, hIds ▸ hSorted⟩
    rw [hMap] at h
    dsimp only at h
    split at h
    · cases h
    · cases Except.ok.inj h
      exact ⟨hIds, hKeys, ⟨pkBytes, getShare_ok.mp hPkBytes, mapErr_ok.mp hPk⟩,
        ⟨minRaw, getShare_ok.mp hMinRaw, orForbidden_ok.mp hMin⟩⟩
  · rintro ⟨hIds, hKeys, ⟨pkBytes, hPkBytes, hPk⟩, ⟨minRaw, hMinRaw, hMin⟩⟩
    refine Results.bind_eq_ok.mpr ⟨_, getShare_ok.mpr hRoster, ?_⟩
    refine Results.bind_eq_ok.mpr ⟨_, orForbidden_ok.mpr hText, ?_⟩
    refine Results.bind_eq_ok.mpr ⟨_, getShare_ok.mpr hMinRaw, ?_⟩
    refine Results.bind_eq_ok.mpr ⟨_, orForbidden_ok.mpr hMin, ?_⟩
    refine Results.bind_eq_ok.mpr ⟨_, getShare_ok.mpr hPkBytes, ?_⟩
    refine Results.bind_eq_ok.mpr ⟨_, mapErr_ok.mpr hPk, ?_⟩
    refine Results.bind_eq_ok.mpr ⟨st.keyPackages.entries, ?_, ?_⟩
    · rw [hNames, hLoop]
      exact (k.mapM_loadKey_ok hCodec).mpr ⟨hIds, hKeys⟩
    · have hEntries : st.keyPackages.entries ≠ [] := by
        intro hNil
        rw [hNil] at hIds
        exact hNe hIds.symm
      rw [SortedMap.ofList_entries, if_neg (by simpa using hEntries)]

/-- A store that has the records of a keyset loads that keyset. -/
theorem load_of_onDisk (hCodec : F.Codec) {store : ShareStore} {st : TrShareState F}
    (h : k.OnDisk store st) (hNe : st.keyPackages.entries ≠ []) :
    k.load F store = .ok st := by
  have hRoster : (k.rosterId, .ok (rosterBytes (st.keyPackages.entries.map Prod.fst))) ∈
      k.records st := by
    rw [rosterBytes, List.map_map]
    simp [records, Function.comp_def]
  obtain ⟨rosterRaw, hRosterRaw, hRosterLookup⟩ := h _ hRoster
  cases Except.ok.inj hRosterRaw
  have hIds : st.keyPackages.entries.map Prod.fst ≠ [] := by simpa using hNe
  refine (k.load_iff hCodec hIds st.keyPackages.sorted hRosterLookup).mpr ?_
  -- each record reads to what it was made of
  refine ⟨rfl, fun e he => ?_, ?_, ?_⟩
  · obtain ⟨bytes, hBytes, hLookup⟩ := h _ (List.mem_append_left _ (List.mem_map_of_mem he))
    exact ⟨bytes, hLookup, hCodec.key e.2 bytes (mapErr_ok.mp hBytes)⟩
  · obtain ⟨bytes, hBytes, hLookup⟩ := h (k.pubkeyId,
      mapErr k.pubkeySerialize (F.pubkeyBytes st.pubkeyPackage)) (by simp [records])
    exact ⟨bytes, hLookup, hCodec.pubkey _ _ (mapErr_ok.mp hBytes)⟩
  · obtain ⟨bytes, hBytes, hLookup⟩ := h (k.minId,
      .ok (textBytes (toString st.minSigners.toNat))) (by simp [records])
    cases Except.ok.inj hBytes
    exact ⟨_, hLookup, by rw [readText_textBytes, Option.bind_some, parseUsize_toString]⟩

end KeysetNames

/-- The keyset is what the store's records read to, with these identifiers on
the roster. -/
structure Reads (store : ShareStore) (ids : List F.Identifier) (st : TrShareState F) : Prop where
  ids : st.keyPackages.entries.map Prod.fst = ids
  keys : ∀ e ∈ st.keyPackages.entries, ∃ bytes,
    store.lookup (trKeyShareId (idHex e.1)) = some bytes ∧ F.readKey bytes = .ok e.2
  pubkey : ∃ bytes, store.lookup trPubkeyShareId = some bytes ∧
    F.readPubkey bytes = .ok st.pubkeyPackage
  minSigners : ∃ bytes, store.lookup trMinShareId = some bytes ∧
    ((readText bytes).bind fun s => parseUsize (strTrim s)) = some st.minSigners

/-- **The loader.** Under the roster of a keyset it returns what the records
read to. -/
theorem loadTrShares_iff (hCodec : F.Codec) {store : ShareStore} {ids : List F.Identifier}
    (hNe : ids ≠ []) (hSorted : ids.Pairwise (· < ·))
    (hRoster : store.lookup trRosterShareId = some (rosterBytes ids)) {st : TrShareState F} :
    loadTrShares F store = .ok st ↔ Reads store ids st := by
  rw [loadTrShares_eq, trNames.load_iff hCodec hNe hSorted hRoster]
  exact ⟨fun h => ⟨h.ids, h.keys, h.pubkey, h.minSigners⟩,
    fun h => ⟨h.ids, h.keys, h.pubkey, h.minSigners⟩⟩

/-- **Loading.** A store that has the records of a keyset loads that keyset. -/
theorem loadTrShares_of_onDisk (hCodec : F.Codec) {store : ShareStore} {st : TrShareState F}
    (h : OnDisk store st) (hNe : st.keyPackages.entries ≠ []) :
    loadTrShares F store = .ok st := by
  rw [loadTrShares_eq]
  exact trNames.load_of_onDisk hCodec h hNe

end TrShares

end KeroseneVault
