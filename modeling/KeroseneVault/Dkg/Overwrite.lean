import KeroseneVault.Dkg.Persist

/-!
# One keyset after another

Every session of a hub finalizes to the same share ids, and only a session that
is complete is not finalized again.

* `storedGroupKey` — the group key of a share store;
* `HasGroupKey` — a store with a group key;
* `DkgHub.Replaces` — a finalization that writes the record of another group
  key;

Main results:

* `perform_store_cases` — only a finalization writes to the store;
* `storedGroupKey_putAll` — the group key after the puts of a session;
* `keysetKept_iff` — once a session is finalized, a run keeps the stored group
  key exactly when none of its calls replaces it;
* `keysetKept_fails` — a second session.
-/

namespace KeroseneVault

variable {k : WireDkg} {F : FrostDkg}

/-! ## The stored group key -/

/-- The share id of the group key. -/
def WireDkg.pubkeyShareId : WireDkg → String
  | .plain => "frost-dkg-pubkey"
  | .taproot => trPubkeyShareId

/-- What `frost-dkg-pubkey` reads to, and what `load_tr_shares` returns. -/
def storedGroupKey (k : WireDkg) (F : FrostDkg) (store : ShareStore) :
    Except DomainError F.VerifyingKey :=
  match k with
  | .plain => do
    let bytes ← getShare store k.pubkeyShareId
    let pk ← mapErr "pubkey deserialize" (F.readPubkey bytes)
    .ok (F.verifyingKey pk)
  | .taproot => (loadTrShares F store).map fun st => F.verifyingKey st.pubkeyPackage

/-- The store has a group key. -/
def HasGroupKey (k : WireDkg) (F : FrostDkg) (store : ShareStore) : Prop :=
  match k with
  | .plain => ∃ bytes pk, store.lookup "frost-dkg-pubkey" = some bytes ∧ F.readPubkey bytes = .ok pk
  | .taproot => ∃ ids, Readable F store ids

/-- The group key is what its record reads to. -/
theorem HasGroupKey.storedGroupKey (hCodec : F.Codec) {store : ShareStore} (h : HasGroupKey k F store) :
    ∃ bytes pk, store.lookup k.pubkeyShareId = some bytes ∧ F.readPubkey bytes = .ok pk ∧
      storedGroupKey k F store = .ok (F.verifyingKey pk) := by
  cases k with
  | plain =>
    obtain ⟨bytes, pk, hLookup, hRead⟩ := h
    refine ⟨bytes, pk, hLookup, hRead, ?_⟩
    refine Results.bind_eq_ok.mpr ⟨bytes, getShare_ok.mpr hLookup, ?_⟩
    exact Results.bind_eq_ok.mpr ⟨pk, mapErr_ok.mpr hRead, rfl⟩
  | taproot =>
    obtain ⟨ids, hReadable⟩ := h
    obtain ⟨st, bytes, hLoad, hLookup, hRead⟩ := hReadable.load hCodec
    refine ⟨bytes, st.pubkeyPackage, hLookup, hRead, ?_⟩
    show (loadTrShares F store).map _ = _
    rw [hLoad]
    rfl

/-! ## The puts of a session -/

namespace SessionInner

variable (s : SessionInner k F) (keys : F.KeyPackage × F.PublicKeyPackage)

/-- The keyset a Taproot session persists. -/
def ownShares : TrShareState F where
  keyPackages := SortedMap.empty.insert s.localIdentifier keys.1
  pubkeyPackage := keys.2
  minSigners := UInt64.ofNat s.minSigners

theorem ownShares_ne : (s.ownShares keys).keyPackages.entries ≠ [] := List.cons_ne_nil _ _

theorem take_dkgKeyShareId (text : String) :
    ("frost-dkg-id-" ++ text).toList.take 11 = "frost-dkg-i".toList := by
  have hLong : 11 ≤ "frost-dkg-id-".toList.length := by decide
  rw [String.toList_append, List.take_append_of_le_length hLong]
  decide

/-- The records of a session have names of their own. -/
theorem round3Records_nodup (hCodec : F.Codec) : ((s.round3Records keys).map Prod.fst).Nodup := by
  cases k with
  | plain =>
    show ["frost-dkg-id-" ++ idHex s.localIdentifier, "frost-dkg-pubkey"].Nodup
    refine List.nodup_cons.mpr ⟨fun hMem => ?_, List.nodup_singleton _⟩
    have hTake := take_dkgKeyShareId (idHex s.localIdentifier)
    rw [List.mem_singleton.mp hMem] at hTake
    exact absurd hTake (by decide)
  | taproot => exact trRecords_nodup hCodec (s.ownShares keys)

/-- One of them is that of the group key. -/
theorem pubkey_mem_round3Records :
    ∃ r, (k.pubkeyShareId, r) ∈ s.round3Records keys ∧
      ∀ bytes, r = .ok bytes ↔ F.pubkeyBytes keys.2 = .ok bytes := by
  cases k with
  | plain =>
    refine ⟨mapErr "pubkey serialize" (F.pubkeyBytes keys.2), ?_, fun bytes => mapErr_ok⟩
    exact List.mem_cons_of_mem _ (List.mem_singleton.mpr rfl)
  | taproot =>
    refine ⟨mapErr "tr pubkey package serialize" (F.pubkeyBytes keys.2), ?_, fun bytes => mapErr_ok⟩
    exact pubkey_mem_trRecords (s.ownShares keys)

/-- The puts get to the record of the group key. -/
def WritesPubkey (disk : ShareDisk) : Prop :=
  k.pubkeyShareId ∈ (written disk (s.round3Records keys)).map Prod.fst

variable {s keys} {disk : ShareDisk} {store : ShareStore}

/-- The record of the group key after the puts. -/
theorem lookup_pubkey_putAll (hCodec : F.Codec) (store : ShareStore)
    (h : s.WritesPubkey keys disk) :
    ∃ bytes, F.pubkeyBytes keys.2 = .ok bytes ∧
      (putAll disk store (s.round3Records keys)).2.lookup k.pubkeyShareId = some bytes := by
  obtain ⟨entry, hEntry, hName⟩ := List.mem_map.mp h
  have hPrefix := serialized_written_initial disk (s.round3Records keys)
  have hNames : ((written disk (s.round3Records keys)).map Prod.fst).Nodup := by
    have hMap := hPrefix.map Prod.fst
    rw [serialized, List.map_map] at hMap
    exact hMap.sublist.nodup (s.round3Records_nodup keys hCodec)
  -- what was put under this name is the record of this name
  have hRecord : (entry.1, Except.ok entry.2) ∈ s.round3Records keys :=
    hPrefix.mem (List.mem_map.mpr ⟨entry, hEntry, rfl⟩)
  obtain ⟨r, hPubkey, hBytes⟩ := s.pubkey_mem_round3Records keys
  have hSame := List.inj_on_of_nodup_map (s.round3Records_nodup keys hCodec) hRecord hPubkey hName
  refine ⟨entry.2, (hBytes _).mp (Prod.mk.inj hSame).2.symm, ?_⟩
  rw [putAll_store, ← hName]
  exact Table.lookup_insertAll_of_mem hNames hEntry

theorem lookup_pubkey_putAll_of_not (h : ¬ s.WritesPubkey keys disk) :
    (putAll disk store (s.round3Records keys)).2.lookup k.pubkeyShareId =
      store.lookup k.pubkeyShareId := by
  rw [putAll_store]
  exact Table.lookup_insertAll_of_notMem h

/-- A store with a group key has one after the puts, wherever they stop. -/
theorem hasGroupKey_putAll (hCodec : F.Codec) (h : HasGroupKey k F store) (disk : ShareDisk) :
    HasGroupKey k F (putAll disk store (s.round3Records keys)).2 := by
  cases k with
  | plain =>
    by_cases hWrites : s.WritesPubkey keys disk
    · obtain ⟨bytes, hBytes, hLookup⟩ := lookup_pubkey_putAll hCodec store hWrites
      exact ⟨bytes, keys.2, hLookup, hCodec.pubkey _ _ hBytes⟩
    · obtain ⟨bytes, pk, hLookup, hRead⟩ := h
      exact ⟨bytes, pk, (lookup_pubkey_putAll_of_not hWrites).trans hLookup, hRead⟩
  | taproot =>
    obtain ⟨ids, hReadable⟩ := h
    exact hReadable.persist hCodec disk (s.ownShares_ne keys)

/-- Puts that all go through leave the store with the session's group key. -/
theorem hasGroupKey_of_putAll_ok (hCodec : F.Codec)
    (h : (putAll disk store (s.round3Records keys)).1 = .ok ()) :
    HasGroupKey k F (putAll disk store (s.round3Records keys)).2 ∧ s.WritesPubkey keys disk := by
  have hWrites : s.WritesPubkey keys disk := by
    obtain ⟨r, hPubkey, -⟩ := s.pubkey_mem_round3Records keys
    rw [← serialized_written_of_ok h] at hPubkey
    obtain ⟨entry, hEntry, hEq⟩ := List.mem_map.mp hPubkey
    exact List.mem_map.mpr ⟨entry, hEntry, (Prod.mk.inj hEq).1⟩
  refine ⟨?_, hWrites⟩
  cases k with
  | plain =>
    obtain ⟨bytes, hBytes, hLookup⟩ := lookup_pubkey_putAll hCodec store hWrites
    exact ⟨bytes, keys.2, hLookup, hCodec.pubkey _ _ hBytes⟩
  | taproot =>
    have hOnDisk : OnDisk (putAll disk store (s.round3Records keys)).2 (s.ownShares keys) :=
      onDisk_persist hCodec h
    exact ⟨_, .of_onDisk hCodec hOnDisk (s.ownShares_ne keys)⟩

/-- **The puts of a session** leave its group key where they get to that
record, and the one there was where they do not. -/
theorem storedGroupKey_putAll (hCodec : F.Codec)
    (hReady : HasGroupKey k F (putAll disk store (s.round3Records keys)).2) :
    (s.WritesPubkey keys disk →
      storedGroupKey k F (putAll disk store (s.round3Records keys)).2 =
        .ok (F.verifyingKey keys.2)) ∧
    (¬ s.WritesPubkey keys disk → HasGroupKey k F store →
      storedGroupKey k F (putAll disk store (s.round3Records keys)).2 =
        storedGroupKey k F store) := by
  obtain ⟨bytes, pk, hLookup, hRead, hKey⟩ := hReady.storedGroupKey hCodec
  constructor
  · intro hWrites
    obtain ⟨own, hOwn, hPut⟩ := lookup_pubkey_putAll hCodec store hWrites
    obtain rfl := Option.some.inj (hLookup.symm.trans hPut)
    obtain rfl := Except.ok.inj ((hCodec.pubkey _ _ hOwn).symm.trans hRead)
    exact hKey
  · intro hNot hBefore
    obtain ⟨old, oldPk, hOld, hOldRead, hOldKey⟩ := hBefore.storedGroupKey hCodec
    rw [lookup_pubkey_putAll_of_not hNot] at hLookup
    obtain rfl := Option.some.inj (hLookup.symm.trans hOld)
    obtain rfl := Except.ok.inj (hRead.symm.trans hOldRead)
    rw [hKey, hOldKey]

end SessionInner

/-! ## Later calls -/

namespace DkgHub

/-- A call on a hub with its share store. -/
def step (c : DkgHub k F × ShareStore) (call : HubCall F) : DkgHub k F × ShareStore :=
  c.1.perform c.2 call

/-- The call finalizes a session that is not complete and comes to these keys. -/
structure Finalizes (c : DkgHub k F × ShareStore) (call : HubCall F) (disk : ShareDisk)
    (s : SessionInner k F) (keys : F.KeyPackage × F.PublicKeyPackage) : Prop where
  call : ∃ sid, call = .finalizeRound3 sid disk ∧ c.1.sessions.lookup sid = some s
  phase : s.phase ≠ .complete
  keys : s.round3Keys = .ok keys

theorem Finalizes.store {c : DkgHub k F × ShareStore} {call : HubCall F} {disk : ShareDisk}
    {s : SessionInner k F} {keys : F.KeyPackage × F.PublicKeyPackage}
    (h : Finalizes c call disk s keys) :
    (step c call).2 = (putAll disk c.2 (s.round3Records keys)).2 := by
  obtain ⟨⟨sid, rfl, hs⟩, hPhase, hKeys⟩ := h
  show (c.1.finalizeRound3 sid disk c.2).2.2 = _
  unfold finalizeRound3
  rw [hs]
  dsimp only
  rw [if_neg hPhase, hKeys]
  dsimp only
  rcases putAll disk c.2 (s.round3Records keys) with ⟨e | u, after⟩
  · rfl
  · rfl

/-- Only a finalization writes to the store. -/
theorem perform_store_cases (c : DkgHub k F × ShareStore) (call : HubCall F) :
    ((step c call).2 = c.2 ∧ ∀ disk s keys, ¬ Finalizes c call disk s keys) ∨
      ∃ disk s keys, Finalizes c call disk s keys := by
  by_cases hFinal : ∃ disk s keys, Finalizes c call disk s keys
  · exact .inr hFinal
  have hNot : ∀ disk s keys, ¬ Finalizes c call disk s keys := fun disk s keys h =>
    hFinal ⟨disk, s, keys, h⟩
  -- a finalization that puts nothing is one that was refused before
  refine .inl ⟨?_, hNot⟩
  cases call with
  | finalizeRound3 sid disk =>
    show (c.1.finalizeRound3 sid disk c.2).2.2 = c.2
    unfold finalizeRound3
    split
    · rfl
    rename_i s hs
    split
    · rfl
    rename_i hPhase
    split
    · rfl
    rename_i keys hKeys
    exact absurd ⟨⟨sid, rfl, hs⟩, hPhase, hKeys⟩ (hNot disk s keys)
  | _ => rfl

/-- The call writes the record of a group key other than `key`. -/
def Replaces (key : F.VerifyingKey) (c : DkgHub k F × ShareStore) (call : HubCall F) : Prop :=
  ∃ disk s keys, Finalizes c call disk s keys ∧ s.WritesPubkey keys disk ∧
    F.verifyingKey keys.2 ≠ key

theorem hasGroupKey_step (hCodec : F.Codec) (c : DkgHub k F × ShareStore) (call : HubCall F)
    (h : HasGroupKey k F c.2) : HasGroupKey k F (step c call).2 := by
  rcases perform_store_cases c call with ⟨hSame, -⟩ | ⟨disk, s, keys, hFinal⟩
  · rw [hSame]
    exact h
  · rw [hFinal.store]
    exact SessionInner.hasGroupKey_putAll hCodec h disk

/-- A hub finalizes a session in one way. -/
theorem Finalizes.unique {c : DkgHub k F × ShareStore} {call : HubCall F} {disk disk' : ShareDisk}
    {s s' : SessionInner k F} {keys keys' : F.KeyPackage × F.PublicKeyPackage}
    (h : Finalizes c call disk s keys) (h' : Finalizes c call disk' s' keys') :
    disk = disk' ∧ s = s' ∧ keys = keys' := by
  obtain ⟨⟨sid, rfl, hs⟩, -, hKeys⟩ := h
  obtain ⟨⟨sid', hCall, hs'⟩, -, hKeys'⟩ := h'
  obtain ⟨rfl, rfl⟩ := HubCall.finalizeRound3.inj hCall
  cases Option.some.inj (hs.symm.trans hs')
  exact ⟨rfl, rfl, Except.ok.inj (hKeys.symm.trans hKeys')⟩

/-- **One call** keeps the stored group key exactly when it does not replace
it. -/
theorem storedGroupKey_step (hCodec : F.Codec) (key : F.VerifyingKey)
    (c : DkgHub k F × ShareStore) (call : HubCall F) (hReady : HasGroupKey k F c.2)
    (hKey : storedGroupKey k F c.2 = .ok key) :
    storedGroupKey k F (step c call).2 = .ok key ↔ ¬ Replaces key c call := by
  have hAfter := hasGroupKey_step hCodec c call hReady
  rcases perform_store_cases c call with ⟨hSame, hNone⟩ | ⟨disk, s, keys, hFinal⟩
  · rw [hSame]
    refine iff_of_true hKey ?_
    rintro ⟨disk, s, keys, hFinal, -⟩
    exact hNone disk s keys hFinal
  rw [hFinal.store] at hAfter ⊢
  obtain ⟨hNew, hOld⟩ := SessionInner.storedGroupKey_putAll hCodec hAfter
  -- a group key that was written is the one of the session; it is replaced just where that is
  -- another one
  constructor
  · rintro hKept ⟨disk', s', keys', hFinal', hWrites, hNe⟩
    obtain ⟨rfl, rfl, rfl⟩ := hFinal.unique hFinal'
    rw [hNew hWrites] at hKept
    exact hNe (Except.ok.inj hKept)
  · intro hNot
    by_cases hWrites : s.WritesPubkey keys disk
    · have hEq : F.verifyingKey keys.2 = key := by
        by_contra hNe
        exact hNot ⟨disk, s, keys, hFinal, hWrites, hNe⟩
      rw [hNew hWrites, hEq]
    · rw [hOld hWrites hReady, hKey]

/-- A finalization that returns Ok went through its puts. -/
theorem finalizes_of_ok {hub : DkgHub k F} {store : ShareStore} {sid : String} {disk : ShareDisk}
    {s : SessionInner k F} {status : WireDkgStatus} (hs : hub.sessions.lookup sid = some s)
    (hOpen : s.phase ≠ .complete) (hOk : (hub.finalizeRound3 sid disk store).1 = .ok status) :
    ∃ keys, Finalizes (hub, store) (.finalizeRound3 sid disk) disk s keys ∧
      (putAll disk store (s.round3Records keys)).1 = .ok () := by
  unfold finalizeRound3 at hOk
  rw [hs] at hOk
  dsimp only at hOk
  rw [if_neg hOpen] at hOk
  split at hOk
  · cases hOk
  rename_i keys hKeys
  refine ⟨keys, ⟨⟨sid, rfl, hs⟩, hOpen, hKeys⟩, ?_⟩
  rcases hPuts : putAll disk store (s.round3Records keys) with ⟨e | u, after⟩
  · rw [hPuts] at hOk
    cases hOk
  · rfl

end DkgHub

/--
**A completed keyset.** Once a session is finalized the store has its group
key, and whatever the hub is called for after that, the stored group key stays
exactly when no call finalizes another session as far as the record of another
group key.
-/
theorem keysetKept_iff (hCodec : F.Codec) {hub : DkgHub k F} {store : ShareStore} {sid : String}
    {disk : ShareDisk} {s : SessionInner k F} {status : WireDkgStatus}
    (hs : hub.sessions.lookup sid = some s) (hOpen : s.phase ≠ .complete)
    (hOk : (hub.finalizeRound3 sid disk store).1 = .ok status) :
    ∃ key, storedGroupKey k F (hub.finalizeRound3 sid disk store).2.2 = .ok key ∧
      ∀ calls, Runs.EveryState DkgHub.step (fun c => storedGroupKey k F c.2 = .ok key)
          (hub.finalizeRound3 sid disk store).2 calls ↔
        Runs.EveryStep DkgHub.step (fun c call => ¬ DkgHub.Replaces key c call)
          (hub.finalizeRound3 sid disk store).2 calls := by
  obtain ⟨keys, hFinal, hPuts⟩ := DkgHub.finalizes_of_ok hs hOpen hOk
  have hStore : (hub.finalizeRound3 sid disk store).2.2 =
      (putAll disk store (s.round3Records keys)).2 := hFinal.store
  obtain ⟨hReady, hWrites⟩ := SessionInner.hasGroupKey_of_putAll_ok hCodec hPuts
  have hKey := (SessionInner.storedGroupKey_putAll hCodec hReady).1 hWrites
  rw [← hStore] at hReady hKey
  refine ⟨F.verifyingKey keys.2, hKey, fun calls => ?_⟩
  exact Runs.everyState_iff_everyStep (fun c call => DkgHub.hasGroupKey_step hCodec c call)
    (fun c call hC hP => DkgHub.storedGroupKey_step hCodec _ c call hC hP) hReady hKey calls

/-! ### Two key generations -/

/-- `a` and `b` go through a session up to its finalization. -/
def ceremony (m : DkgMesh .taproot smallFrost.toFrostDkg) (sid : String)
    (rand : String → (Nat → Small) × Small) : DkgMesh .taproot smallFrost.toFrostDkg :=
  let started := Runs.run DkgMesh.step m
    (["a", "b"].map fun i => (i, .start ⟨sid, 2, 2, ["a", "b"]⟩ (rand i)))
  let told := Runs.run DkgMesh.step started
    (["a", "b"].flatMap fun i => started.sent1.map fun msg => (i, .ingestRound1 msg))
  let taken := Runs.run DkgMesh.step told (["a", "b"].map fun i => (i, .takeRound2Outbound sid))
  Runs.run DkgMesh.step taken
    (["a", "b"].flatMap fun i => taken.sent2.map fun msg => (i, .ingestRound2 msg))

/-- The hub of `a` after two sessions with `b`, in which `a` draws `5 + 5 * X`
and `6 + 6 * X`. -/
def twiceHub : DkgHub .taproot smallFrost.toFrostDkg :=
  (ceremony (ceremony (.init .new fun _ => ∅) "s1" fun _ => (fun _ => 5, 3)) "s2"
    fun _ => (fun _ => 6, 3)).hubs "a"

/-- `a` finalizes the first session. -/
def finalizedOnce :
    Except DomainError WireDkgStatus × DkgHub .taproot smallFrost.toFrostDkg × ShareStore :=
  twiceHub.finalizeRound3 "s1" (fun _ _ => .stored) ∅

def smallGroupKey (store : ShareStore) : Option Small :=
  (storedGroupKey .taproot smallFrost.toFrostDkg store).toOption

theorem keysetKept_iff_twice :
    ∃ key, storedGroupKey .taproot smallFrost.toFrostDkg finalizedOnce.2.2 = .ok key ∧
      ∀ calls, Runs.EveryState DkgHub.step
          (fun c => storedGroupKey .taproot smallFrost.toFrostDkg c.2 = .ok key)
          finalizedOnce.2 calls ↔
        Runs.EveryStep DkgHub.step (fun c call => ¬ DkgHub.Replaces key c call)
          finalizedOnce.2 calls := by
  have hPhase : (twiceHub.sessions.lookup "s1").map SessionInner.phase = some .round2 := by
    decide +kernel
  have hOk : finalizedOnce.1.toBool = true := by decide +kernel
  obtain ⟨s, hs, hRound2⟩ := Option.map_eq_some_iff.mp hPhase
  cases hStatus : finalizedOnce.1 with
  | error e =>
    rw [hStatus] at hOk
    cases hOk
  | ok status =>
    unfold finalizedOnce at hStatus ⊢
    have hOpen : s.phase ≠ .complete := by
      rw [hRound2]
      simp
    exact keysetKept_iff smallFrost_codec hs hOpen hStatus

/-- The second session is finalized over the first. -/
theorem keysetKept_fails :
    ∃ key, storedGroupKey .taproot smallFrost.toFrostDkg finalizedOnce.2.2 = .ok key ∧
      ¬ Runs.EveryState DkgHub.step
        (fun c => storedGroupKey .taproot smallFrost.toFrostDkg c.2 = .ok key)
        finalizedOnce.2 [.finalizeRound3 "s2" fun _ _ => .stored] := by
  have hFirst : (smallGroupKey finalizedOnce.2.2).isSome := by decide +kernel
  have hSecond : smallGroupKey (DkgHub.step finalizedOnce.2
      (.finalizeRound3 "s2" fun _ _ => .stored)).2 ≠ smallGroupKey finalizedOnce.2.2 := by
    decide +kernel
  cases hKey : storedGroupKey .taproot smallFrost.toFrostDkg finalizedOnce.2.2 with
  | error e =>
    rw [smallGroupKey, hKey] at hFirst
    cases hFirst
  | ok key =>
    refine ⟨key, rfl, fun h => hSecond ?_⟩
    have hLast := h.last
    rw [Runs.run_cons, Runs.run_nil] at hLast
    rw [smallGroupKey, smallGroupKey, hLast, hKey]

end KeroseneVault
