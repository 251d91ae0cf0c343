import KeroseneVault.Dkg.SmallFrost

/-!
# A Taproot keyset through a crash

`persist_tr_shares` puts the records of a keyset one by one over those of
another; `load_tr_shares` is led by the roster record and reads the rest by
name. A process that stops in between leaves the first few records.

* `putNames` — the records that a run of puts gets to;
* `Changed` — the records in which two keysets differ;
* `Readable` — a store the loader takes.

Main results:

* `Readable.persist` — wherever the puts stop, the store stays readable;
* `persistTrShares_crash_iff` — when the loader then finds the old keyset or the
  new one, whole.
-/

namespace KeroseneVault

variable {F : FrostDkg}

/-! ## The names of the records -/

theorem idHex_injective (hCodec : F.Codec) {a b : F.Identifier} (h : idHex a = idHex b) : a = b := by
  have hBytes : F.identifierBytes a = F.identifierBytes b := by
    have hHex := hCodec.hex (F.identifierBytes a)
    rw [show F.hexEncode (F.identifierBytes a) = F.hexEncode (F.identifierBytes b) from h,
      hCodec.hex] at hHex
    exact (Except.ok.inj hHex).symm
  have hRead := hCodec.identifier a
  rw [hBytes, hCodec.identifier] at hRead
  exact (Except.ok.inj hRead).symm

namespace KeysetNames

variable (k : KeysetNames)

theorem keyId_injective {a b : String} (h : k.keyId a = k.keyId b) : a = b := by
  have hLists := congrArg String.toList h
  rw [keyId, keyId, String.toList_append, String.toList_append] at hLists
  exact String.toList_inj.mp (List.append_cancel_left hLists)

/-- The names of keys begin apart from the other names. -/
theorem keyId_ne (idHex : String) {name : String} (h : name ∈ [k.pubkeyId, k.rosterId, k.minId]) :
    k.keyId idHex ≠ name := by
  rintro rfl
  refine k.key_apart _ h ?_
  rw [keyId, String.toList_append]
  exact List.prefix_append ..

theorem map_fst_records (st : TrShareState F) :
    (k.records st).map Prod.fst = (st.keyPackages.entries.map fun e => k.keyId (idHex e.1)) ++
      [k.pubkeyId, k.rosterId, k.minId] := by
  rw [records, List.map_append, List.map_map]
  rfl

/-- The records of a keyset have names of their own. -/
theorem records_nodup (hCodec : F.Codec) (st : TrShareState F) :
    ((k.records st).map Prod.fst).Nodup := by
  rw [map_fst_records, List.nodup_append]
  refine ⟨?_, k.ids_nodup, ?_⟩
  · have hKeys : (st.keyPackages.entries.map fun e => k.keyId (idHex e.1)) =
        (st.keyPackages.entries.map Prod.fst).map fun id => k.keyId (idHex id) := by
      rw [List.map_map]
      rfl
    rw [hKeys]
    have hIds : (st.keyPackages.entries.map Prod.fst).Nodup := st.keyPackages.sorted.imp ne_of_lt
    exact hIds.map fun a b h => idHex_injective hCodec (k.keyId_injective h)
  · intro a ha b hb
    obtain ⟨e, -, rfl⟩ := List.mem_map.mp ha
    exact k.keyId_ne _ hb

/-- Puts that all go through leave the records on the disk. -/
theorem onDisk_persist (hCodec : F.Codec) {disk : ShareDisk} {store : ShareStore}
    {st : TrShareState F} (h : (k.persist disk store st).1 = .ok ()) :
    k.OnDisk (k.persist disk store st).2 st := by
  -- all the records were written, each under a name of its own
  have hWritten := serialized_written_of_ok h
  have hNodup : ((written disk (k.records st)).map Prod.fst).Nodup := by
    have hNames := k.records_nodup hCodec st
    rw [← hWritten, serialized, List.map_map] at hNames
    exact hNames
  intro record hRecord
  rw [← hWritten, serialized] at hRecord
  obtain ⟨entry, hEntry, rfl⟩ := List.mem_map.mp hRecord
  refine ⟨entry.2, rfl, ?_⟩
  rw [persist, putAll_store]
  exact Table.lookup_insertAll_of_mem hNodup hEntry

end KeysetNames

theorem trKeyShareId_injective {a b : String} (h : trKeyShareId a = trKeyShareId b) : a = b :=
  trNames.keyId_injective h

theorem trKeyShareId_ne (idHex : String) {name : String}
    (h : name ∈ [trPubkeyShareId, trRosterShareId, trMinShareId]) : trKeyShareId idHex ≠ name :=
  trNames.keyId_ne idHex h

theorem map_fst_trRecords (st : TrShareState F) :
    (trRecords st).map Prod.fst = (st.keyPackages.entries.map fun e => trKeyShareId (idHex e.1)) ++
      [trPubkeyShareId, trRosterShareId, trMinShareId] := trNames.map_fst_records st

theorem trRecords_nodup (hCodec : F.Codec) (st : TrShareState F) :
    ((trRecords st).map Prod.fst).Nodup := trNames.records_nodup hCodec st

/-- What a record of a keyset is. -/
theorem mem_trRecords {st : TrShareState F} {record : ShareRecord} :
    record ∈ trRecords st ↔
      (∃ e ∈ st.keyPackages.entries,
        record = (trKeyShareId (idHex e.1), mapErr "tr key package serialize" (F.keyBytes e.2))) ∨
      record = (trPubkeyShareId,
        mapErr "tr pubkey package serialize" (F.pubkeyBytes st.pubkeyPackage)) ∨
      record = (trRosterShareId,
        .ok (textBytes (String.intercalate "," (st.keyPackages.entries.map fun e => idHex e.1)))) ∨
      record = (trMinShareId, .ok (textBytes (toString st.minSigners.toNat))) := by
  rw [trRecords, List.mem_append, List.mem_map]
  simp only [List.mem_cons, List.not_mem_nil, or_false, eq_comm]

/-- A keyset has one record of a name. -/
theorem trRecords_unique (hCodec : F.Codec) {st : TrShareState F} {name : String}
    {r r' : Except DomainError (List UInt8)} (h : (name, r) ∈ trRecords st)
    (h' : (name, r') ∈ trRecords st) : r = r' := by
  have hEq := List.inj_on_of_nodup_map (trRecords_nodup hCodec st) h h' rfl
  exact (Prod.mk.inj hEq).2

theorem pubkey_mem_trRecords (st : TrShareState F) :
    (trPubkeyShareId, mapErr "tr pubkey package serialize" (F.pubkeyBytes st.pubkeyPackage)) ∈
      trRecords st := mem_trRecords.mpr (.inr (.inl rfl))

theorem roster_mem_trRecords (st : TrShareState F) :
    (trRosterShareId, .ok (rosterBytes (st.keyPackages.entries.map Prod.fst))) ∈ trRecords st := by
  rw [rosterBytes, List.map_map]
  exact mem_trRecords.mpr (.inr (.inr (.inl rfl)))

theorem min_mem_trRecords (st : TrShareState F) :
    (trMinShareId, .ok (textBytes (toString st.minSigners.toNat))) ∈ trRecords st :=
  mem_trRecords.mpr (.inr (.inr (.inr rfl)))

/-- The record of a key's name is that key's. -/
theorem key_of_mem_trRecords (hCodec : F.Codec) {st : TrShareState F} {id : F.Identifier}
    {r : Except DomainError (List UInt8)} (h : (trKeyShareId (idHex id), r) ∈ trRecords st) :
    ∃ kp, (id, kp) ∈ st.keyPackages.entries ∧
      r = mapErr "tr key package serialize" (F.keyBytes kp) := by
  rcases mem_trRecords.mp h with ⟨e, he, hEq⟩ | hEq | hEq | hEq
  · obtain ⟨hName, rfl⟩ := Prod.mk.inj hEq
    obtain rfl := idHex_injective hCodec (trKeyShareId_injective hName)
    exact ⟨e.2, he, rfl⟩
  all_goals exact absurd (congrArg Prod.fst hEq) (trKeyShareId_ne _ (by simp))

/-- Rosters of different identifiers are different records. -/
theorem rosterBytes_injective (hCodec : F.Codec) {ids ids' : List F.Identifier} (hNe : ids ≠ [])
    (hNe' : ids' ≠ []) (h : rosterBytes ids = rosterBytes ids') : ids = ids' := by
  have hText : String.intercalate "," (ids.map idHex) = String.intercalate "," (ids'.map idHex) := by
    have hRead := congrArg readText h
    rw [rosterBytes, rosterBytes, readText_textBytes, readText_textBytes] at hRead
    exact Option.some.inj hRead
  have hSplit := splitOn_idHexes hCodec hNe
  rw [hText, splitOn_idHexes hCodec hNe'] at hSplit
  have hInj : Function.Injective fun id : F.Identifier => (idHex id).toList := fun a b hEq =>
    idHex_injective hCodec (String.toList_inj.mp hEq)
  exact (hInj.list_map hSplit).symm

/-! ## What the puts get to -/

/-- The names of the records that puts leave written. -/
def putNames (disk : ShareDisk) (st : TrShareState F) : List String :=
  (written disk (trRecords st)).map Prod.fst

theorem putNames_initial (disk : ShareDisk) (st : TrShareState F) :
    putNames disk st <+: (trRecords st).map Prod.fst := by
  have hMap := (serialized_written_initial disk (trRecords st)).map Prod.fst
  rwa [serialized, List.map_map] at hMap

theorem putNames_nodup (hCodec : F.Codec) (disk : ShareDisk) (st : TrShareState F) :
    (putNames disk st).Nodup := (putNames_initial disk st).sublist.nodup (trRecords_nodup hCodec st)

/-- A record that was put has the bytes of the new keyset. -/
theorem lookup_persist_of_mem (hCodec : F.Codec) (disk : ShareDisk) (store : ShareStore)
    {st : TrShareState F} {name : String} (h : name ∈ putNames disk st) :
    ∃ bytes, (name, .ok bytes) ∈ trRecords st ∧
      (persistTrShares disk store st).2.lookup name = some bytes := by
  obtain ⟨entry, hEntry, rfl⟩ := List.mem_map.mp h
  refine ⟨entry.2, ?_, ?_⟩
  · exact (serialized_written_initial disk (trRecords st)).mem (List.mem_map.mpr ⟨entry, hEntry, rfl⟩)
  · rw [persistTrShares, putAll_store]
    exact Table.lookup_insertAll_of_mem (putNames_nodup hCodec disk st) hEntry

/-- A record that was not put stays. -/
theorem lookup_persist_of_notMem (disk : ShareDisk) (store : ShareStore) {st : TrShareState F}
    {name : String} (h : name ∉ putNames disk st) :
    (persistTrShares disk store st).2.lookup name = store.lookup name := by
  rw [persistTrShares, putAll_store]
  exact Table.lookup_insertAll_of_notMem h

/-- The roster comes after the keys and the group key. -/
theorem mem_putNames_of_roster (disk : ShareDisk) (st : TrShareState F)
    (h : trRosterShareId ∈ putNames disk st) :
    trPubkeyShareId ∈ putNames disk st ∧
      ∀ e ∈ st.keyPackages.entries, trKeyShareId (idHex e.1) ∈ putNames disk st := by
  have hPrefix := putNames_initial disk st
  let before := (st.keyPackages.entries.map fun e => trKeyShareId (idHex e.1)) ++ [trPubkeyShareId]
  have hNames : (trRecords st).map Prod.fst = before ++ [trRosterShareId, trMinShareId] := by
    rw [map_fst_trRecords, List.append_assoc]
    rfl
  rw [hNames] at hPrefix
  have hNot : trRosterShareId ∉ before := by
    rw [List.mem_append, not_or]
    refine ⟨fun hKey => ?_, by decide⟩
    obtain ⟨e, -, hEq⟩ := List.mem_map.mp hKey
    exact trKeyShareId_ne _ (by decide) hEq
  -- what has the roster in it is longer than what comes before the roster
  have hBefore : before <+: putNames disk st := by
    rcases List.prefix_or_prefix_of_prefix hPrefix (List.prefix_append before _) with hLe | hGe
    · exact absurd (hLe.mem h) hNot
    · exact hGe
  refine ⟨hBefore.mem (List.mem_append_right _ (List.mem_singleton.mpr rfl)), fun e he => ?_⟩
  exact hBefore.mem (List.mem_append_left _ (List.mem_map.mpr ⟨e, he, rfl⟩))

/-! ## The old keyset or the new one -/

/-- Both keysets have a record of this name, and not the same one. -/
def Changed (old new : TrShareState F) (name : String) : Prop :=
  ∃ r r', (name, r) ∈ trRecords old ∧ (name, r') ∈ trRecords new ∧ r ≠ r'

/-- Where a store that loads a keyset has a record of another keyset, the two
keysets agree in it. -/
theorem Reads.same_record (hCodec : F.Codec) {store : ShareStore} {st st' : TrShareState F}
    (h : Reads store (st.keyPackages.entries.map Prod.fst) st)
    (hRoster : store.lookup trRosterShareId =
      some (rosterBytes (st.keyPackages.entries.map Prod.fst)))
    {name : String} {r : Except DomainError (List UInt8)} {bytes : List UInt8}
    (hRecord : (name, r) ∈ trRecords st) (hOther : (name, .ok bytes) ∈ trRecords st')
    (hLookup : store.lookup name = some bytes) : r = .ok bytes := by
  rcases mem_trRecords.mp hRecord with ⟨e, he, hEq⟩ | hEq | hEq | hEq
  · obtain ⟨rfl, rfl⟩ := Prod.mk.inj hEq
    obtain ⟨kp, -, hBytes⟩ := key_of_mem_trRecords hCodec hOther
    obtain ⟨found, hFound, hRead⟩ := h.keys e he
    obtain rfl := Option.some.inj (hLookup.symm.trans hFound)
    -- the bytes are those of the other's key, and read to this one's
    have hKey : F.readKey bytes = .ok kp := hCodec.key _ _ (mapErr_ok.mp hBytes.symm)
    obtain rfl := Except.ok.inj (hKey.symm.trans hRead)
    exact hBytes.symm
  · obtain ⟨rfl, rfl⟩ := Prod.mk.inj hEq
    have hBytes := trRecords_unique hCodec hOther (pubkey_mem_trRecords st')
    obtain ⟨found, hFound, hRead⟩ := h.pubkey
    obtain rfl := Option.some.inj (hLookup.symm.trans hFound)
    have hPubkey : F.readPubkey bytes = .ok st'.pubkeyPackage :=
      hCodec.pubkey _ _ (mapErr_ok.mp hBytes.symm)
    rw [Except.ok.inj (hRead.symm.trans hPubkey)]
    exact hBytes.symm
  · obtain ⟨rfl, rfl⟩ := Prod.mk.inj hEq
    rw [rosterBytes, List.map_map] at hRoster
    exact congrArg Except.ok (Option.some.inj (hRoster.symm.trans hLookup))
  · obtain ⟨rfl, rfl⟩ := Prod.mk.inj hEq
    have hBytes := Except.ok.inj (trRecords_unique hCodec hOther (min_mem_trRecords st'))
    obtain ⟨found, hFound, hRead⟩ := h.minSigners
    obtain rfl := Option.some.inj (hLookup.symm.trans hFound)
    rw [hBytes, readText_textBytes, Option.bind_some, parseUsize_toString] at hRead
    rw [hBytes, Option.some.inj hRead]

/-- The roster record is one of these identifiers, in their order. -/
structure RosterOnDisk (store : ShareStore) (ids : List F.Identifier) : Prop where
  ne : ids ≠ []
  sorted : ids.Pairwise (· < ·)
  lookup : store.lookup trRosterShareId = some (rosterBytes ids)

theorem OnDisk.roster {store : ShareStore} {st : TrShareState F} (h : OnDisk store st)
    (hNe : st.keyPackages.entries ≠ []) :
    RosterOnDisk store (st.keyPackages.entries.map Prod.fst) := by
  obtain ⟨bytes, hBytes, hLookup⟩ := h _ (roster_mem_trRecords st)
  cases Except.ok.inj hBytes
  exact ⟨by simpa using hNe, st.keyPackages.sorted, hLookup⟩

/-- Puts leave the old roster or the new one. -/
theorem RosterOnDisk.persist (hCodec : F.Codec) {store : ShareStore} {ids : List F.Identifier}
    (h : RosterOnDisk store ids) (disk : ShareDisk) {st : TrShareState F}
    (hNe : st.keyPackages.entries ≠ []) :
    (trRosterShareId ∉ putNames disk st ∧ RosterOnDisk (persistTrShares disk store st).2 ids) ∨
      trRosterShareId ∈ putNames disk st ∧
        RosterOnDisk (persistTrShares disk store st).2 (st.keyPackages.entries.map Prod.fst) := by
  by_cases hPut : trRosterShareId ∈ putNames disk st
  · obtain ⟨bytes, hBytes, hLookup⟩ := lookup_persist_of_mem hCodec disk store hPut
    cases Except.ok.inj (trRecords_unique hCodec hBytes (roster_mem_trRecords st))
    exact .inr ⟨hPut, by simpa using hNe, st.keyPackages.sorted, hLookup⟩
  · exact .inl ⟨hPut, h.ne, h.sorted, (lookup_persist_of_notMem disk store hPut).trans h.lookup⟩

/-- Puts that all go through get to every record. -/
theorem mem_putNames_of_ok {disk : ShareDisk} {store : ShareStore} {st : TrShareState F}
    (h : (persistTrShares disk store st).1 = .ok ()) {name : String}
    {r : Except DomainError (List UInt8)} (hRecord : (name, r) ∈ trRecords st) :
    name ∈ putNames disk st := by
  rw [← serialized_written_of_ok h] at hRecord
  obtain ⟨entry, hEntry, hEq⟩ := List.mem_map.mp hRecord
  exact (Prod.mk.inj hEq).1 ▸ List.mem_map_of_mem hEntry

theorem onDisk_persist (hCodec : F.Codec) {disk : ShareDisk} {store : ShareStore}
    {st : TrShareState F} (h : (persistTrShares disk store st).1 = .ok ()) :
    OnDisk (persistTrShares disk store st).2 st := trNames.onDisk_persist hCodec h

/-- A keyset that loads agrees with what the store has of another. -/
theorem RosterOnDisk.same_record (hCodec : F.Codec) {store : ShareStore}
    {ids : List F.Identifier} (h : RosterOnDisk store ids) {st st' : TrShareState F}
    (hLoad : loadTrShares F store = .ok st) {name : String}
    {r : Except DomainError (List UInt8)} {bytes : List UInt8} (hRecord : (name, r) ∈ trRecords st)
    (hOther : (name, .ok bytes) ∈ trRecords st') (hLookup : store.lookup name = some bytes) :
    r = .ok bytes := by
  have hReads := (loadTrShares_iff hCodec h.ne h.sorted h.lookup).mp hLoad
  obtain rfl := hReads.ids
  exact hReads.same_record hCodec h.lookup hRecord hOther hLookup

theorem onDisk_persist_old (hCodec : F.Codec) {store : ShareStore} {old new : TrShareState F}
    (hOld : OnDisk store old) {disk : ShareDisk}
    (hNone : ∀ name, Changed old new name → name ∉ putNames disk new) :
    OnDisk (persistTrShares disk store new).2 old := by
  rintro ⟨name, r⟩ hRecord
  obtain ⟨bytes, hBytes, hLookup⟩ := hOld _ hRecord
  refine ⟨bytes, hBytes, ?_⟩
  by_cases hPut : name ∈ putNames disk new
  · obtain ⟨bytes', hRecord', hLookup'⟩ := lookup_persist_of_mem hCodec disk store hPut
    -- what was put here is what was there
    have hSame : r = .ok bytes' := by
      by_contra hNe
      exact hNone name ⟨r, _, hRecord, hRecord', hNe⟩ hPut
    rw [Except.ok.inj (hBytes.symm.trans hSame)]
    exact hLookup'
  · exact (lookup_persist_of_notMem disk store hPut).trans hLookup

/-- Where the puts got to all records that differ, the new keyset is there. -/
theorem onDisk_persist_new (hCodec : F.Codec) {store : ShareStore} {old new : TrShareState F}
    (hOld : OnDisk store old) (hOldNe : old.keyPackages.entries ≠ [])
    (hNewNe : new.keyPackages.entries ≠ []) {disk : ShareDisk}
    (hAll : ∀ name, Changed old new name → name ∈ putNames disk new) :
    OnDisk (persistTrShares disk store new).2 new := by
  rintro ⟨name, r'⟩ hRecord
  by_cases hPut : name ∈ putNames disk new
  · obtain ⟨bytes, hRecord', hLookup⟩ := lookup_persist_of_mem hCodec disk store hPut
    exact ⟨bytes, trRecords_unique hCodec hRecord hRecord', hLookup⟩
  -- a record that was not put is one the old keyset has alike
  have hOf : ∀ r, (name, r) ∈ trRecords old →
      ∃ bytes, r' = .ok bytes ∧ (persistTrShares disk store new).2.lookup name = some bytes := by
    intro r hRecordOld
    have hSame : r = r' := by
      by_contra hNe
      exact hPut (hAll name ⟨r, r', hRecordOld, hRecord, hNe⟩)
    obtain ⟨bytes, hBytes, hLookup⟩ := hOld _ hRecordOld
    exact ⟨bytes, hSame ▸ hBytes, (lookup_persist_of_notMem disk store hPut).trans hLookup⟩
  rcases mem_trRecords.mp hRecord with ⟨e, he, hEq⟩ | hEq | hEq | hEq
  · obtain ⟨rfl, rfl⟩ := Prod.mk.inj hEq
    by_cases hIds : old.keyPackages.entries.map Prod.fst = new.keyPackages.entries.map Prod.fst
    · have hMem : e.1 ∈ old.keyPackages.entries.map Prod.fst := hIds ▸ List.mem_map_of_mem he
      obtain ⟨d, hd, hFirst⟩ := List.mem_map.mp hMem
      exact hOf _ (mem_trRecords.mpr (.inl ⟨d, hd, by rw [hFirst]⟩))
    · -- another roster: it is put, and the keys before it
      have hChanged : Changed old new trRosterShareId := by
        refine ⟨_, _, roster_mem_trRecords old, roster_mem_trRecords new, fun hEq => hIds ?_⟩
        exact rosterBytes_injective hCodec (by simpa using hOldNe) (by simpa using hNewNe)
          (Except.ok.inj hEq)
      exact absurd ((mem_putNames_of_roster disk new (hAll _ hChanged)).2 e he) hPut
  · obtain ⟨rfl, rfl⟩ := Prod.mk.inj hEq
    exact hOf _ (pubkey_mem_trRecords old)
  · obtain ⟨rfl, -⟩ := Prod.mk.inj hEq
    exact hOf _ (roster_mem_trRecords old)
  · obtain ⟨rfl, -⟩ := Prod.mk.inj hEq
    exact hOf _ (min_mem_trRecords old)

/-- **A keyset through a crash.** Wherever the puts of a new keyset over an old
one stop, the loader finds one of the two, whole, exactly when the stop is
before the first record in which they differ or after the last. -/
theorem persistTrShares_crash_iff (hCodec : F.Codec) {store : ShareStore}
    {old new : TrShareState F} (hOld : OnDisk store old) (hOldNe : old.keyPackages.entries ≠ [])
    (hNewNe : new.keyPackages.entries ≠ []) (disk : ShareDisk) :
    (loadTrShares F (persistTrShares disk store new).2 = .ok old ∨
      loadTrShares F (persistTrShares disk store new).2 = .ok new) ↔
      (∀ name, Changed old new name → name ∉ putNames disk new) ∨
        ∀ name, Changed old new name → name ∈ putNames disk new := by
  constructor
  · intro h
    -- one changed record was put and another kept: the load then mixes the two states
    by_contra hMixed
    rw [not_or, not_forall, not_forall] at hMixed
    obtain ⟨⟨a, hPut⟩, b, hKept⟩ := hMixed
    rw [Classical.not_imp, not_not] at hPut
    rw [Classical.not_imp] at hKept
    obtain ⟨⟨r, r', hROld, hRNew, hNe⟩, hPut⟩ := hPut
    obtain ⟨⟨q, q', hQOld, hQNew, hNe'⟩, hKept⟩ := hKept
    obtain ⟨ids, hRoster⟩ : ∃ ids : List F.Identifier,
        RosterOnDisk (persistTrShares disk store new).2 ids := by
      rcases (hOld.roster hOldNe).persist hCodec disk hNewNe with ⟨-, hR⟩ | ⟨-, hR⟩
      · exact ⟨_, hR⟩
      · exact ⟨_, hR⟩
    rcases h with hLoad | hLoad
    · -- the record that was put is not the old one's
      obtain ⟨bytes, hBytes, hLookup⟩ := lookup_persist_of_mem hCodec disk store hPut
      have hSame := hRoster.same_record hCodec hLoad hROld hBytes hLookup
      exact hNe (hSame.trans (trRecords_unique hCodec hBytes hRNew))
    · -- the record that was kept is not the new one's
      obtain ⟨bytes, hBytes, hLookup⟩ := hOld _ hQOld
      obtain rfl : q = .ok bytes := hBytes
      have hStill := (lookup_persist_of_notMem disk store hKept).trans hLookup
      exact hNe' (hRoster.same_record hCodec hLoad hQNew hQOld hStill).symm
  · rintro (hNone | hAll)
    · exact .inl (loadTrShares_of_onDisk hCodec (onDisk_persist_old hCodec hOld hNone) hOldNe)
    · exact .inr (loadTrShares_of_onDisk hCodec
        (onDisk_persist_new hCodec hOld hOldNe hNewNe hAll) hNewNe)

/-! ## A store that stays readable -/

/-- The loader takes the store: its roster is that of a keyset, and every record
the roster leads to reads. -/
structure Readable (F : FrostDkg) (store : ShareStore) (ids : List F.Identifier) : Prop where
  roster : RosterOnDisk store ids
  keys : ∀ id ∈ ids, ∃ bytes kp,
    store.lookup (trKeyShareId (idHex id)) = some bytes ∧ F.readKey bytes = .ok kp
  pubkey : ∃ bytes pk, store.lookup trPubkeyShareId = some bytes ∧ F.readPubkey bytes = .ok pk
  minSigners : ∃ bytes n, store.lookup trMinShareId = some bytes ∧
    ((readText bytes).bind fun s => parseUsize (strTrim s)) = some n

namespace Readable

variable {store : ShareStore} {ids : List F.Identifier}

/-- It loads, and the group key is what that record reads to. -/
theorem load (hCodec : F.Codec) (h : Readable F store ids) :
    ∃ st bytes, loadTrShares F store = .ok st ∧ store.lookup trPubkeyShareId = some bytes ∧
      F.readPubkey bytes = .ok st.pubkeyPackage := by
  obtain ⟨pkBytes, pk, hPkBytes, hPk⟩ := h.pubkey
  obtain ⟨minBytes, n, hMinBytes, hMin⟩ := h.minSigners
  choose bytes kp hLookup hRead using h.keys
  let entries := ids.attach.map fun id => (id.1, kp id.1 id.2)
  have hIds : entries.map Prod.fst = ids := by
    rw [List.map_map]
    exact List.attach_map_subtype_val ids
  refine ⟨⟨⟨entries, hIds ▸ h.roster.sorted⟩, pk, n⟩, pkBytes, ?_, hPkBytes, hPk⟩
  refine (loadTrShares_iff hCodec h.roster.ne h.roster.sorted h.roster.lookup).mpr
    ⟨hIds, fun e he => ?_, ⟨pkBytes, hPkBytes, hPk⟩, ⟨minBytes, hMinBytes, hMin⟩⟩
  obtain ⟨id, -, rfl⟩ := List.mem_map.mp he
  exact ⟨_, hLookup id.1 id.2, hRead id.1 id.2⟩

theorem of_onDisk (hCodec : F.Codec) {st : TrShareState F} (h : OnDisk store st)
    (hNe : st.keyPackages.entries ≠ []) :
    Readable F store (st.keyPackages.entries.map Prod.fst) := by
  have hRoster := h.roster hNe
  have hReads := (loadTrShares_iff hCodec hRoster.ne hRoster.sorted hRoster.lookup).mp
    (loadTrShares_of_onDisk hCodec h hNe)
  obtain ⟨pkBytes, hPkBytes, hPk⟩ := hReads.pubkey
  obtain ⟨minBytes, hMinBytes, hMin⟩ := hReads.minSigners
  refine ⟨hRoster, fun id hId => ?_, ⟨pkBytes, _, hPkBytes, hPk⟩, ⟨minBytes, _, hMinBytes, hMin⟩⟩
  obtain ⟨e, he, rfl⟩ := List.mem_map.mp hId
  obtain ⟨bytes, hBytes, hKey⟩ := hReads.keys e he
  exact ⟨bytes, e.2, hBytes, hKey⟩

/-- Wherever the puts of another keyset stop, the store stays readable. -/
theorem persist (hCodec : F.Codec) (h : Readable F store ids) (disk : ShareDisk)
    {st : TrShareState F} (hNe : st.keyPackages.entries ≠ []) :
    ∃ ids', Readable F (persistTrShares disk store st).2 ids' := by
  -- a record that was put decodes by the codec, one that was not is the file from before
  have hKey : ∀ id : F.Identifier, (∃ bytes kp, store.lookup (trKeyShareId (idHex id)) = some bytes ∧
        F.readKey bytes = .ok kp) ∨ trKeyShareId (idHex id) ∈ putNames disk st →
      ∃ bytes kp, (persistTrShares disk store st).2.lookup (trKeyShareId (idHex id)) = some bytes ∧
        F.readKey bytes = .ok kp := by
    intro id hOr
    by_cases hPut : trKeyShareId (idHex id) ∈ putNames disk st
    · obtain ⟨bytes, hRecord, hLookup⟩ := lookup_persist_of_mem hCodec disk store hPut
      obtain ⟨kp, -, hBytes⟩ := key_of_mem_trRecords hCodec hRecord
      exact ⟨bytes, kp, hLookup, hCodec.key _ _ (mapErr_ok.mp hBytes.symm)⟩
    · rw [lookup_persist_of_notMem disk store hPut]
      exact hOr.resolve_right hPut
  have hPubkey : ∃ bytes pk, (persistTrShares disk store st).2.lookup trPubkeyShareId = some bytes ∧
      F.readPubkey bytes = .ok pk := by
    by_cases hPut : trPubkeyShareId ∈ putNames disk st
    · obtain ⟨bytes, hRecord, hLookup⟩ := lookup_persist_of_mem hCodec disk store hPut
      have hBytes := trRecords_unique hCodec hRecord (pubkey_mem_trRecords st)
      exact ⟨bytes, _, hLookup, hCodec.pubkey _ _ (mapErr_ok.mp hBytes.symm)⟩
    · rw [lookup_persist_of_notMem disk store hPut]
      exact h.pubkey
  have hMin : ∃ bytes n, (persistTrShares disk store st).2.lookup trMinShareId = some bytes ∧
      ((readText bytes).bind fun s => parseUsize (strTrim s)) = some n := by
    by_cases hPut : trMinShareId ∈ putNames disk st
    · obtain ⟨bytes, hRecord, hLookup⟩ := lookup_persist_of_mem hCodec disk store hPut
      obtain rfl := Except.ok.inj (trRecords_unique hCodec hRecord (min_mem_trRecords st))
      exact ⟨_, st.minSigners, hLookup, by
        rw [readText_textBytes, Option.bind_some, parseUsize_toString]⟩
    · rw [lookup_persist_of_notMem disk store hPut]
      exact h.minSigners
  rcases h.roster.persist hCodec disk hNe with ⟨-, hRoster⟩ | ⟨hPut, hRoster⟩
  · exact ⟨ids, hRoster, fun id hId => hKey id (.inl (h.keys id hId)), hPubkey, hMin⟩
  · -- the new roster was put, and the keys on it before
    refine ⟨_, hRoster, fun id hId => ?_, hPubkey, hMin⟩
    obtain ⟨e, he, rfl⟩ := List.mem_map.mp hId
    exact hKey e.1 (.inr ((mem_putNames_of_roster disk st hPut).2 e he))

end Readable

/-! ### Two generations of a small keyset -/

/-- The keyset of two holders whose shares lie on a line through the secret `5`. -/
def lineKeyset (slope : Small) : TrShareState smallFrost.toFrostDkg where
  keyPackages := SortedMap.ofList ([1, 2].map fun x : Small =>
    (x, { identifier := x, signingShare := 5 + slope * x, verifyingShare := 5 + slope * x,
          verifyingKey := 5, minSigners := 2 }))
  pubkeyPackage := {
    verifyingShares := [1, 2].map fun x : Small => (x, 5 + slope * x)
    verifyingKey := 5
    minSigners := 2 }
  minSigners := 2

/-- The store after the first generation was persisted. -/
def lineStore : ShareStore := (persistTrShares (fun _ _ => .stored) ∅ (lineKeyset 2)).2

theorem onDisk_lineStore : OnDisk lineStore (lineKeyset 2) :=
  onDisk_persist smallFrost_codec (by decide +kernel)

theorem lineKeyset_ne {slope : Small}
    (h : (lineKeyset slope).keyPackages.entries.isEmpty = false) :
    (lineKeyset slope).keyPackages.entries ≠ [] := List.isEmpty_eq_false_iff.mp h

/-- A refresh that is persisted without a stop. -/
theorem persistTrShares_crash_iff_line :
    loadTrShares smallFrost.toFrostDkg
        (persistTrShares (fun _ _ => .stored) lineStore (lineKeyset 3)).2 = .ok (lineKeyset 2) ∨
      loadTrShares smallFrost.toFrostDkg
        (persistTrShares (fun _ _ => .stored) lineStore (lineKeyset 3)).2 = .ok (lineKeyset 3) :=
  (persistTrShares_crash_iff smallFrost_codec onDisk_lineStore (lineKeyset_ne (by decide +kernel))
    (lineKeyset_ne (by decide +kernel)) _).mpr (.inr fun _ ⟨_, _, _, hNew, _⟩ =>
      mem_putNames_of_ok (show (persistTrShares (fun _ _ => .stored) lineStore
        (lineKeyset 3)).1 = .ok () by decide +kernel) hNew)

/-- A process that stops after the put of the first key. -/
def stopAfterFirst : ShareDisk := fun shareId _ =>
  if shareId = "frost-tr-dkg-id-000001" then .stored
  else .failed (.shareStoreForbidden "stopped") false

/-- The signing shares of a keyset that was loaded. -/
def loadedShares (store : ShareStore) : List Small :=
  match loadTrShares smallFrost.toFrostDkg store with
  | .ok st => st.keyPackages.entries.map fun e =>
    ((e : Small × PolyKey Small Small).2).signingShare
  | .error _ => []

/-- After that stop the loader returns the first share of the new generation and
the second one of the old. -/
theorem persistTrShares_crash_fails : OnDisk lineStore (lineKeyset 2) ∧
    loadTrShares smallFrost.toFrostDkg (persistTrShares stopAfterFirst lineStore (lineKeyset 3)).2 ≠
      .ok (lineKeyset 2) ∧
    loadTrShares smallFrost.toFrostDkg (persistTrShares stopAfterFirst lineStore (lineKeyset 3)).2 ≠
      .ok (lineKeyset 3) := by
  have hMixed : loadedShares (persistTrShares stopAfterFirst lineStore (lineKeyset 3)).2 = [8, 9] := by
    decide +kernel
  refine ⟨onDisk_lineStore, fun hOld => ?_, fun hNew => ?_⟩
  · rw [loadedShares, hOld] at hMixed
    exact absurd hMixed (by decide +kernel)
  · rw [loadedShares, hNew] at hMixed
    exact absurd hMixed (by decide +kernel)

end KeroseneVault
