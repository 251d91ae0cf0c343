import KeroseneVault.Dkg.Persist

/-!
# Two Taproot keysets in one store

The USERS and the CHANNELS keyset of a node are records of one share store, under names
that differ from the tenth character on. A loader is led by the roster record of its own
keyset, so that the records of an earlier keyset that the roster leaves out are not read.

* `StoredKeyset.persist`, `StoredKeyset.load` — the two pairs of functions;
* `KeysetNames.Has` — the share ids of a keyset, for whatever identifiers;
* `KeysetCalls`, `PersistStep` — calls that persist either keyset, put by put.

Main results:

* `KeysetNames.load_congr` — a loader reads its own share ids and no others;
* `load_run_filter` — in every interleaving a keyset loads as if the other was not there;
* `storedKeysets` — and what was persisted is loaded, if it has a participant.
-/

namespace KeroseneVault

variable {F : FrostDkg}

/-! ## Share ids -/

inductive StoredKeyset where
  | users
  | channels
  deriving DecidableEq

namespace StoredKeyset

def names : StoredKeyset → KeysetNames
  | .users => trNames
  | .channels => trChannelsNames

def persist : StoredKeyset → ShareDisk → ShareStore → TrShareState F → Outcome × ShareStore
  | .users => persistTrShares
  | .channels => persistTrChannelsShares

def load (F : FrostDkg) : StoredKeyset → ShareStore → Except DomainError (TrShareState F)
  | .users => loadTrShares F
  | .channels => loadTrChannelsShares F

theorem persist_eq (k : StoredKeyset) (disk : ShareDisk) (store : ShareStore)
    (st : TrShareState F) : k.persist disk store st = k.names.persist disk store st := by
  cases k <;> rfl

theorem load_eq (k : StoredKeyset) (store : ShareStore) :
    k.load F store = k.names.load F store := by
  cases k <;> rfl

end StoredKeyset

namespace KeysetNames

variable (k : KeysetNames)

/-- A share id of the keyset. -/
def Has (name : String) : Prop :=
  name ∈ [k.pubkeyId, k.rosterId, k.minId] ∨ ∃ idHex, name = k.keyId idHex

theorem has_records {st : TrShareState F} {record : ShareRecord} (h : record ∈ k.records st) :
    k.Has record.1 := by
  have hName := List.mem_map_of_mem (f := Prod.fst) h
  rw [map_fst_records, List.mem_append] at hName
  -- the records are the key packages, then the other three
  rcases hName with hKey | hOther
  · obtain ⟨e, -, hEq⟩ := List.mem_map.mp hKey
    exact .inr ⟨_, hEq.symm⟩
  · exact .inl hOther

/-- Stores that agree on the share ids of a keyset load it alike. -/
theorem load_congr {store store' : ShareStore}
    (h : ∀ name, k.Has name → store.lookup name = store'.lookup name) :
    k.load F store = k.load F store' := by
  -- the loader asks the store for share ids of the keyset only
  have hGet {n : String} (hHas : k.Has n) : getShare store n = getShare store' n := by
    unfold getShare
    rw [h n hHas]
  have hKey : k.loadKey F store = k.loadKey F store' := by
    funext idHex
    unfold loadKey
    rw [hGet (.inr ⟨idHex, rfl⟩)]
  unfold load
  rw [hGet (.inl (by simp)), hGet (n := k.minId) (.inl (by simp)),
    hGet (n := k.pubkeyId) (.inl (by simp)), hKey]

/-- What is loaded has a participant. -/
theorem ne_nil_of_load {store : ShareStore} {st : TrShareState F} (h : k.load F store = .ok st) :
    st.keyPackages.entries ≠ [] := by
  obtain ⟨_, -, h⟩ := Results.bind_eq_ok.mp h
  obtain ⟨_, -, h⟩ := Results.bind_eq_ok.mp h
  obtain ⟨_, -, h⟩ := Results.bind_eq_ok.mp h
  obtain ⟨_, -, h⟩ := Results.bind_eq_ok.mp h
  obtain ⟨_, -, h⟩ := Results.bind_eq_ok.mp h
  obtain ⟨_, -, h⟩ := Results.bind_eq_ok.mp h
  obtain ⟨entries, -, h⟩ := Results.bind_eq_ok.mp h
  -- the loader looks at the key packages last
  dsimp only at h
  split at h
  · cases h
  · rename_i hSome
    obtain rfl := Except.ok.inj h
    exact fun hNil => hSome (by rw [hNil]; rfl)

/-- What was persisted over any store is loaded, exactly if it has a participant. -/
theorem load_persist_iff (hCodec : F.Codec) {disk : ShareDisk} {store : ShareStore}
    {st : TrShareState F} (h : (k.persist disk store st).1 = .ok ()) :
    k.load F (k.persist disk store st).2 = .ok st ↔ st.keyPackages.entries ≠ [] :=
  ⟨k.ne_nil_of_load, k.load_of_onDisk hCodec (k.onDisk_persist hCodec h)⟩

end KeysetNames

/-- Where the share ids of the two keysets part. -/
theorem prefix_of_has {k : StoredKeyset} {name : String} (h : k.names.Has name) :
    "frost-tr-c".toList <+: name.toList ↔ k = .channels := by
  rcases h with hOther | ⟨idHex, rfl⟩
  · -- the other share ids are literals
    cases k <;> revert name <;> decide
  · have hPrefix : "frost-tr-c".toList <+: (k.names.keyId idHex).toList ↔
        "frost-tr-c".toList <+: k.names.keyPrefix.toList := by
      rw [KeysetNames.keyId, String.toList_append]
      exact List.isPrefix_append_of_length (by cases k <;> decide)
    rw [hPrefix]
    cases k <;> decide

theorem StoredKeyset.eq_of_has {k k' : StoredKeyset} {name : String} (h : k.names.Has name)
    (h' : k'.names.Has name) : k = k' := by
  have hIff := (prefix_of_has h).symm.trans (prefix_of_has h')
  cases k <;> cases k' <;> simp_all

/-! ## Interleavings -/

/-- The store, and of each call that persists a keyset the records that it has not put. -/
structure KeysetCalls where
  store : ShareStore
  left : StoredKeyset → ℕ → List ShareRecord

/-- A call starts with a keyset, and drops what its number had left; or it makes its next put,
where the disk answers. -/
inductive PersistStep (F : FrostDkg) where
  | start (keyset : StoredKeyset) (call : ℕ) (st : TrShareState F)
  | put (keyset : StoredKeyset) (call : ℕ) (disk : ShareDisk)

def PersistStep.keyset : PersistStep F → StoredKeyset
  | .start k .. | .put k .. => k

/-- The next put of a call, and what it has left. An error ends it. -/
def putNext (disk : ShareDisk) (store : ShareStore) :
    List ShareRecord → ShareStore × List ShareRecord
  | [] => (store, [])
  | (_, .error _) :: _ => (store, [])
  | (shareId, .ok bytes) :: rest =>
    match putShare disk store shareId bytes with
    | (.error _, store) => (store, [])
    | (.ok (), store) => (store, rest)

section PutNext

variable {disk : ShareDisk} {store store' : ShareStore} {records : List ShareRecord}

theorem mem_of_putNext {record : ShareRecord} (h : record ∈ (putNext disk store records).2) :
    record ∈ records := by
  unfold putNext at h
  split at h
  · exact h
  · cases h
  · split at h
    · cases h
    · exact List.mem_cons_of_mem _ h

/-- A put by what the disk answers. -/
theorem putNext_ok (shareId : String) (bytes : List UInt8) (rest : List ShareRecord) :
    putNext disk store ((shareId, .ok bytes) :: rest) =
      match disk shareId bytes with
      | .stored => (store.insert shareId bytes, rest)
      | .failed _ renamed => (if renamed then store.insert shareId bytes else store, []) := by
  cases hAnswer : disk shareId bytes <;> simp [putNext, putShare, hAnswer]

/-- What is left does not depend on what the store has. -/
theorem putNext_left : (putNext disk store records).2 = (putNext disk store' records).2 := by
  rcases records with _ | ⟨⟨shareId, _ | bytes⟩, rest⟩
  · rfl
  · rfl
  · rw [putNext_ok, putNext_ok]
    cases disk shareId bytes with
    | stored => rfl
    | failed e renamed => rfl

theorem lookup_putNext_of_notMem {name : String} (h : name ∉ records.map Prod.fst) :
    (putNext disk store records).1.lookup name = store.lookup name := by
  rcases records with _ | ⟨⟨shareId, _ | bytes⟩, rest⟩
  · rfl
  · rfl
  · have hOther : name ≠ shareId := fun hEq => h (by rw [hEq]; exact List.mem_cons_self ..)
    rw [putNext_ok]
    cases disk shareId bytes with
    | stored => exact AList.lookup_insert_ne hOther
    | failed e renamed =>
      cases renamed with
      | true => exact AList.lookup_insert_ne hOther
      | false => rfl

theorem lookup_putNext_congr {name : String} (h : store.lookup name = store'.lookup name) :
    (putNext disk store records).1.lookup name = (putNext disk store' records).1.lookup name := by
  rcases records with _ | ⟨⟨shareId, _ | bytes⟩, rest⟩
  · exact h
  · exact h
  · -- the put writes one share id alike in both
    have hInsert : (store.insert shareId bytes).lookup name =
        (store'.insert shareId bytes).lookup name := by
      by_cases hName : name = shareId
      · rw [hName, AList.lookup_insert, AList.lookup_insert]
      · rw [AList.lookup_insert_ne hName, AList.lookup_insert_ne hName, h]
    rw [putNext_ok, putNext_ok]
    cases disk shareId bytes with
    | stored => exact hInsert
    | failed e renamed =>
      cases renamed with
      | true => exact hInsert
      | false => exact h

end PutNext

namespace KeysetCalls

def withLeft (s : KeysetCalls) (k : StoredKeyset) (call : ℕ) (records : List ShareRecord) :
    KeysetCalls :=
  { s with left := Function.update s.left k (Function.update (s.left k) call records) }

def step (s : KeysetCalls) : PersistStep F → KeysetCalls
  | .start k call st => s.withLeft k call (k.names.records st)
  | .put k call disk =>
    let (store, left) := putNext disk s.store (s.left k call)
    { s with store }.withLeft k call left

/-- No call has started. -/
def idle (store : ShareStore) : KeysetCalls := ⟨store, fun _ _ => []⟩

/-- Each call has records of its own keyset left. -/
def Named (s : KeysetCalls) : Prop :=
  ∀ k call, ∀ record ∈ s.left k call, k.names.Has record.1

/-- The two have the same of a keyset, in the store and of its calls. -/
structure Same (k : StoredKeyset) (s t : KeysetCalls) : Prop where
  lookup : ∀ name, k.names.Has name → s.store.lookup name = t.store.lookup name
  left : s.left k = t.left k

theorem Named.withLeft {s : KeysetCalls} (h : s.Named) {k : StoredKeyset} {call : ℕ}
    {records : List ShareRecord} (hRecords : ∀ record ∈ records, k.names.Has record.1) :
    (s.withLeft k call records).Named := by
  intro k' call'
  show ∀ record ∈ Function.update s.left k (Function.update (s.left k) call records) k' call',
    k'.names.Has record.1
  -- only the list of the one call is new
  by_cases hKeyset : k' = k
  · subst hKeyset
    rw [Function.update_self]
    by_cases hCall : call' = call
    · rw [hCall, Function.update_self]
      exact hRecords
    · rw [Function.update_of_ne hCall]
      exact h k' call'
  · rw [Function.update_of_ne hKeyset]
    exact h k' call'

theorem Named.step {s : KeysetCalls} (h : s.Named) (a : PersistStep F) : (s.step a).Named := by
  cases a with
  | start k call st => exact h.withLeft fun _ hRecord => k.names.has_records hRecord
  | put k call disk =>
    have hNext : KeysetCalls.Named { s with store := (putNext disk s.store (s.left k call)).1 } := h
    exact hNext.withLeft fun record hRecord => h k call record (mem_of_putNext hRecord)

/-- A step of a keyset does the same to what is the same of it. -/
theorem Same.step {k : StoredKeyset} {s t : KeysetCalls} (h : Same k s t) {a : PersistStep F}
    (ha : a.keyset = k) : Same k (s.step a) (t.step a) := by
  subst ha
  cases a with
  | start k call st =>
    have hLeft : s.left k = t.left k := h.left
    refine ⟨h.lookup, ?_⟩
    show Function.update s.left k _ k = Function.update t.left k _ k
    rw [Function.update_self, Function.update_self, hLeft]
  | put k call disk =>
    have hLeft : s.left k = t.left k := h.left
    refine ⟨fun name hName => ?_, ?_⟩
    · show (putNext disk s.store (s.left k call)).1.lookup name =
        (putNext disk t.store (t.left k call)).1.lookup name
      rw [hLeft]
      exact lookup_putNext_congr (h.lookup name hName)
    · show Function.update s.left k _ k = Function.update t.left k _ k
      rw [Function.update_self, Function.update_self, hLeft]
      exact congrArg _ putNext_left

/-- A step of the other keyset does nothing to this one. -/
theorem Named.same_step {k : StoredKeyset} {s : KeysetCalls} (h : s.Named) {a : PersistStep F}
    (ha : a.keyset ≠ k) : Same k (s.step a) s := by
  cases a with
  | start k' call st => exact ⟨fun _ _ => rfl, Function.update_of_ne ha.symm ..⟩
  | put k' call disk =>
    refine ⟨fun name hName => lookup_putNext_of_notMem fun hMem => ?_,
      Function.update_of_ne ha.symm ..⟩
    -- a record of the other keyset has none of the share ids of this one
    obtain ⟨record, hRecord, rfl⟩ := List.mem_map.mp hMem
    exact ha (StoredKeyset.eq_of_has (h k' call record hRecord) hName)

/-- An interleaving does to a keyset what the steps of that keyset do alone. -/
theorem Same.run {k : StoredKeyset} {s t : KeysetCalls} (hNamed : s.Named) (h : Same k s t)
    (actions : List (PersistStep F)) :
    Same k (Runs.run KeysetCalls.step s actions)
      (Runs.run KeysetCalls.step t (actions.filter (·.keyset = k))) := by
  -- a step of the other keyset is skipped on the right, where it is not there
  induction actions generalizing s t with
  | nil => exact h
  | cons a actions ih =>
    by_cases ha : a.keyset = k
    · rw [List.filter_cons_of_pos (by simpa using ha)]
      exact ih (hNamed.step a) (h.step ha)
    · rw [List.filter_cons_of_neg (by simpa using ha)]
      have hSkip := hNamed.same_step ha
      exact ih (hNamed.step a)
        ⟨fun name hName => (hSkip.lookup name hName).trans (h.lookup name hName),
          hSkip.left.trans h.left⟩

/-- In every interleaving a keyset loads as if the other was not there. -/
theorem load_run_filter (k : StoredKeyset) (store : ShareStore) (actions : List (PersistStep F)) :
    k.load F (Runs.run step (idle store) actions).store =
      k.load F (Runs.run step (idle store) (actions.filter (·.keyset = k))).store := by
  rw [k.load_eq, k.load_eq]
  have hNamed : (idle store).Named := nofun
  exact k.names.load_congr (Same.run hNamed ⟨fun _ _ => rfl, rfl⟩ actions).lookup

end KeysetCalls

/-- **Two keysets.** What was persisted of a keyset over any store is loaded, exactly if it has
a participant; and in every interleaving of calls that persist the two, each of them loads as
if the other was not there. -/
theorem storedKeysets (hCodec : F.Codec) :
    (∀ (k : StoredKeyset) (disk : ShareDisk) (store : ShareStore) (st : TrShareState F),
      (k.persist disk store st).1 = .ok () →
        (k.load F (k.persist disk store st).2 = .ok st ↔ st.keyPackages.entries ≠ [])) ∧
      ∀ (k : StoredKeyset) (store : ShareStore) (actions : List (PersistStep F)),
        k.load F (Runs.run KeysetCalls.step (.idle store) actions).store =
          k.load F (Runs.run KeysetCalls.step (.idle store)
            (actions.filter (·.keyset = k))).store := by
  refine ⟨fun k disk store st h => ?_, KeysetCalls.load_run_filter⟩
  rw [k.persist_eq] at h ⊢
  rw [k.load_eq]
  exact k.names.load_persist_iff hCodec h

/-- A refreshed keyset over its first generation, and a put of the CHANNELS keyset after it. -/
theorem storedKeysets_line :
    StoredKeyset.load smallFrost.toFrostDkg .users
        (StoredKeyset.persist .users (fun _ _ => .stored) lineStore (lineKeyset 3)).2 =
      .ok (lineKeyset 3) ∧
    StoredKeyset.load smallFrost.toFrostDkg .users (Runs.run KeysetCalls.step (.idle lineStore)
        [.start .channels 0 (lineKeyset 3), .put .channels 0 fun _ _ => .stored]).store =
      StoredKeyset.load smallFrost.toFrostDkg .users lineStore := by
  obtain ⟨hPersist, hRun⟩ := storedKeysets smallFrost_codec
  refine ⟨(hPersist .users _ _ _ (by decide +kernel)).mpr (lineKeyset_ne (by decide +kernel)), ?_⟩
  exact hRun .users lineStore
    [.start .channels 0 (lineKeyset 3), .put .channels 0 fun _ _ => .stored]

/-- A keyset without participants. -/
def emptyKeyset : TrShareState smallFrost.toFrostDkg :=
  { lineKeyset 2 with keyPackages := SortedMap.ofList [] }

/-- The keyset without participants is persisted, and refused by the loader. -/
theorem storedKeysets_fails :
    ¬ ∀ st : TrShareState smallFrost.toFrostDkg,
      (persistTrShares (fun _ _ => .stored) ∅ st).1 = .ok () →
        loadTrShares smallFrost.toFrostDkg (persistTrShares (fun _ _ => .stored) ∅ st).2 =
          .ok st := by
  intro h
  have hLoad := h emptyKeyset (by decide +kernel)
  exact trNames.ne_nil_of_load hLoad rfl

end KeroseneVault
