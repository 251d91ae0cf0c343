import KeroseneVault.Dkg.ReshareFreeze
import KeroseneVault.Dkg.Persist

/-!
# A reshare and the next boot

`finalize` puts the new share and the new public key package under names of
its own; `load_tr_shares`, which boot calls, reads the names that
`persist_tr_shares` puts.

* `ReadByLoader` — the records the loader may ask for;
* `SurvivesRestart` — the loader returns what a session refreshed, and not what
  was stored before.

Main results:

* `loadTrShares_congr` — the loader sees no other record;
* `loadTrShares_finalize` — a finalization changes nothing for it;
* `reshareRestart_never` — so no reshare survives a restart;
* `reshareRestart_fails` — a reshare of a small keyset.
-/

namespace KeroseneVault

/-! ## What the loader sees -/

section Loader

variable {F : FrostDkg}

/-- The loader may ask for the record of this name. -/
def ReadByLoader (name : String) : Prop :=
  name ∈ [trPubkeyShareId, trRosterShareId, trMinShareId] ∨ ∃ text, name = trKeyShareId text

/-- Stores that agree in what the loader reads are alike to it. -/
theorem loadTrShares_congr {store store' : ShareStore}
    (h : ∀ name, ReadByLoader name → store'.lookup name = store.lookup name) :
    loadTrShares F store' = loadTrShares F store := by
  have hGet : ∀ name, ReadByLoader name → getShare store' name = getShare store name := by
    intro name hName
    unfold getShare
    rw [h name hName]
  have hKey : loadTrKey F store' = loadTrKey F store := by
    funext text
    unfold loadTrKey
    rw [hGet _ (.inr ⟨text, rfl⟩)]
  unfold loadTrShares
  rw [hGet trRosterShareId (.inl (by simp)), hGet trMinShareId (.inl (by simp)),
    hGet trPubkeyShareId (.inl (by simp)), hKey]

/-- A keyset without keys does not load. -/
theorem loadTrShares_empty {store : ShareStore} {st : TrShareState F} (h : OnDisk store st)
    (hEmpty : st.keyPackages.entries = []) (loaded : TrShareState F) :
    loadTrShares F store ≠ .ok loaded := by
  intro hLoad
  obtain ⟨bytes, hBytes, hLookup⟩ := h (trRosterShareId, .ok (textBytes "")) (by
    simp [trRecords, hEmpty])
  cases Except.ok.inj hBytes
  obtain ⟨raw, hRaw, hLoad⟩ := Results.bind_eq_ok.mp hLoad
  obtain rfl := Option.some.inj (hLookup.symm.trans (getShare_ok.mp hRaw))
  obtain ⟨text, hText, hLoad⟩ := Results.bind_eq_ok.mp hLoad
  obtain rfl := Option.some.inj ((readText_textBytes "").symm.trans (orForbidden_ok.mp hText))
  obtain ⟨minRaw, -, hLoad⟩ := Results.bind_eq_ok.mp hLoad
  obtain ⟨minSigners, -, hLoad⟩ := Results.bind_eq_ok.mp hLoad
  obtain ⟨pkBytes, -, hLoad⟩ := Results.bind_eq_ok.mp hLoad
  obtain ⟨pk, -, hLoad⟩ := Results.bind_eq_ok.mp hLoad
  -- the roster splits into nothing
  obtain ⟨entries, hEntries, hLoad⟩ := Results.bind_eq_ok.mp hLoad
  cases Except.ok.inj (show Except.ok [] = Except.ok entries from hEntries)
  cases hLoad

end Loader

/-! ## Finalizations -/

variable {F : FrostRefresh}

theorem map_fst_reshareRecords (s : ReshareSessionInner F)
    (keys : F.KeyPackage × F.PublicKeyPackage) :
    (s.reshareRecords keys).map Prod.fst =
      [ReshareSessionInner.reshareKeyShareId (idHex s.localIdentifier),
        ReshareSessionInner.resharePubkeyShareId] := rfl

theorem take_reshareKeyShareId (text : String) :
    (ReshareSessionInner.reshareKeyShareId text).toList.take 11 = "frost-tr-re".toList := by
  have hLong : 11 ≤ "frost-tr-reshare-id-".toList.length := by decide
  unfold ReshareSessionInner.reshareKeyShareId
  rw [String.toList_append, List.take_append_of_le_length hLong]
  decide

/-- The names of the new records begin apart from those the loader reads. -/
theorem reshareRecords_unread (s : ReshareSessionInner F)
    (keys : F.KeyPackage × F.PublicKeyPackage) {name : String}
    (h : name ∈ (s.reshareRecords keys).map Prod.fst) : ¬ ReadByLoader name := by
  have hNew : name.toList.take 11 = "frost-tr-re".toList := by
    rw [map_fst_reshareRecords] at h
    rcases List.mem_pair.mp h with rfl | rfl
    · exact take_reshareKeyShareId _
    · decide
  rintro (hName | ⟨text, rfl⟩)
  · rcases List.mem_cons.mp hName with rfl | hName
    · exact absurd hNew (by decide)
    rcases List.mem_pair.mp hName with rfl | rfl
    · exact absurd hNew (by decide)
    · exact absurd hNew (by decide)
  · have hLong : 11 ≤ "frost-tr-dkg-id-".toList.length := by decide
    have hKey : (trKeyShareId text).toList = "frost-tr-dkg-id-".toList ++ text.toList :=
      String.toList_append
    rw [hKey, List.take_append_of_le_length hLong] at hNew
    exact absurd hNew (by decide)

/-- **A finalization** changes nothing for the loader. -/
theorem loadTrShares_finalize (hub : WireReshareHub F) (sid : String) (disk : ShareDisk)
    (store : ShareStore) :
    loadTrShares F.toFrostDkg (hub.finalize sid disk store).2.2 =
      loadTrShares F.toFrostDkg store := by
  unfold WireReshareHub.finalize
  split
  · rfl
  rename_i s hs
  split
  · rfl
  split
  · rfl
  rename_i keys hKeys
  -- whatever the puts come to, they write records of the session only
  have hUnread : loadTrShares F.toFrostDkg (putAll disk store (s.reshareRecords keys)).2 =
      loadTrShares F.toFrostDkg store := by
    refine loadTrShares_congr fun name hName => ?_
    rw [putAll_store]
    refine Table.lookup_insertAll_of_notMem fun hWritten => ?_
    refine reshareRecords_unread s keys ?_ hName
    have hPrefix := (serialized_written_initial disk (s.reshareRecords keys)).map Prod.fst
    rw [serialized, List.map_map] at hPrefix
    exact hPrefix.mem hWritten
  rcases hPuts : putAll disk store (s.reshareRecords keys) with ⟨e | u, after⟩
  · rw [hPuts] at hUnread
    exact hUnread
  · rw [hPuts] at hUnread
    exact hUnread

/-- After the session is finalized the loader returns its new key package and
public key package, and these are not those of the keyset `old`. -/
def SurvivesRestart (old : TrShareState F.toFrostDkg) (hub : WireReshareHub F) (sid : String)
    (disk : ShareDisk) (store : ShareStore) : Prop :=
  ∃ t kp pk loaded, (hub.finalize sid disk store).2.1.sessions.lookup sid = some t ∧
    t.newKeyPackage = some kp ∧ t.newPubkeyPackage = some pk ∧
    loadTrShares F.toFrostDkg (hub.finalize sid disk store).2.2 = .ok loaded ∧
    (t.localIdentifier, kp) ∈ loaded.keyPackages.entries ∧ loaded.pubkeyPackage = pk ∧
    ¬ ((t.localIdentifier, kp) ∈ old.keyPackages.entries ∧ pk = old.pubkeyPackage)

/--
**No reshare survives a restart.** Once a keyset is stored by
`persist_tr_shares`, the loader returns it after every finalization of a
reshare, whatever the session refreshed.
-/
theorem reshareRestart_never (hCodec : F.Codec) {disk₀ : ShareDisk} {store₀ : ShareStore}
    {old : TrShareState F.toFrostDkg} (hStored : (persistTrShares disk₀ store₀ old).1 = .ok ())
    (hub : WireReshareHub F) (sid : String) (disk : ShareDisk) :
    let store := (persistTrShares disk₀ store₀ old).2
    loadTrShares F.toFrostDkg (hub.finalize sid disk store).2.2 =
        loadTrShares F.toFrostDkg store ∧
      ¬ SurvivesRestart old hub sid disk store := by
  intro store
  have hSame := loadTrShares_finalize hub sid disk store
  refine ⟨hSame, ?_⟩
  rintro ⟨t, kp, pk, loaded, -, -, -, hLoad, hKey, rfl, hNot⟩
  rw [hSame] at hLoad
  have hOnDisk : OnDisk store old := onDisk_persist hCodec hStored
  by_cases hEmpty : old.keyPackages.entries = []
  · exact loadTrShares_empty hOnDisk hEmpty loaded hLoad
  · have hOld := loadTrShares_of_onDisk hCodec hOnDisk hEmpty
    obtain rfl := Except.ok.inj (hOld.symm.trans hLoad)
    exact hNot ⟨hKey, rfl⟩

/-! ### A reshare of a small keyset -/

/-- `a`'s share of a keyset, alone in its store. -/
def ownKeyset : TrShareState smallRefresh.toFrostDkg where
  keyPackages := SortedMap.empty.insert (1 : Small)
    ({ identifier := 1, signingShare := 8, verifyingShare := 8, verifyingKey := 5,
       minSigners := 2 } : PolyKey Small Small)
  pubkeyPackage := resharePubkey
  minSigners := 2

def ownKey : Option smallRefresh.KeyPackage := (ownKeyset.keyPackages.entries.map Prod.snd).head?

def ownStore : Outcome × ShareStore := persistTrShares (fun _ _ => .stored) ∅ ownKeyset

/-- `b` sends `a` its value of `4 * X`. -/
def reshareShare : ReshareRound2WireMessage where
  sessionId := "r1"
  senderNodeId := "b"
  senderIdentifier := 2
  recipientNodeId := "a"
  recipientIdentifier := 1
  transcriptHex := (reshareMessage "b" 2 4).transcriptHex
  packageHex := hexText (smallFrost.round2.bytes (4 : Small))
  envelope := none

/-- `a` has everything of `b`. -/
def reshareReady : WireReshareHub smallRefresh × ShareStore :=
  Runs.run WireReshareHub.step (.new "a", ownStore.2) [
    .start reshareRequest resharePubkey ownKey ((fun _ => 3), 1),
    .ingestRound1 (reshareMessage "b" 2 4),
    .ingestRound2 reshareShare]

theorem reshareRestart_never_small :
    let store := (persistTrShares (fun _ _ => .stored) ∅ ownKeyset).2
    loadTrShares smallRefresh.toFrostDkg
        (reshareReady.1.finalize "r1" (fun _ _ => .stored) store).2.2 =
      loadTrShares smallRefresh.toFrostDkg store ∧
    ¬ SurvivesRestart ownKeyset reshareReady.1 "r1" (fun _ _ => .stored) store :=
  reshareRestart_never smallFrost_codec (by decide +kernel) reshareReady.1 "r1" _

/-- The new signing share of the session. -/
def refreshedSigningShare (hub : WireReshareHub smallRefresh) : Option Small :=
  ((hub.sessions.lookup "r1").bind ReshareSessionInner.newKeyPackage).map
    (PolyKey.signingShare : PolyKey Small Small → Small)

/-- The session ends with the share `15`, and the loader returns the share `8`. -/
theorem reshareRestart_fails :
    ownStore.1 = .ok () ∧
    (reshareReady.1.finalize "r1" (fun _ _ => .stored) ownStore.2).1.toBool = true ∧
    ¬ SurvivesRestart ownKeyset reshareReady.1 "r1" (fun _ _ => .stored) ownStore.2 := by
  have hNew : refreshedSigningShare
      (reshareReady.1.finalize "r1" (fun _ _ => .stored) ownStore.2).2.1 = some 15 := by
    decide +kernel
  have hLoaded : loadedShares
      (reshareReady.1.finalize "r1" (fun _ _ => .stored) ownStore.2).2.2 = [8] := by
    decide +kernel
  -- what would have to be loaded is the new share, and what is loaded the old one
  refine ⟨by decide +kernel, by decide +kernel, ?_⟩
  rintro ⟨t, kp, pk, loaded, ht, hKp, -, hLoad, hKey, -, -⟩
  have hShare : (kp : PolyKey Small Small).signingShare = 15 := by
    rw [refreshedSigningShare, ht, Option.bind_some, hKp] at hNew
    exact Option.some.inj hNew
  have hMem : (kp : PolyKey Small Small).signingShare ∈ loadedShares
      (reshareReady.1.finalize "r1" (fun _ _ => .stored) ownStore.2).2.2 := by
    have hLoad' : loadTrShares smallFrost.toFrostDkg
        (reshareReady.1.finalize "r1" (fun _ _ => .stored) ownStore.2).2.2 = .ok loaded := hLoad
    rw [loadedShares, hLoad']
    exact List.mem_map.mpr ⟨_, hKey, rfl⟩
  rw [hLoaded, hShare] at hMem
  exact absurd hMem (by decide)

end KeroseneVault
