import KeroseneVault.Dkg.PolyRefresh
import KeroseneVault.Lib.Interpolation

/-!
# Key generation in one process

A lab node runs all participants of a key generation itself, and installs what they end
with as its Intent keyset.

* `runInProcess` — the three rounds, with the checks of thresholds and of the group key;
* `wireDistributedDkg` — the parameters of a configuration, the run, and its records;
* `KeygenTrace` — the rounds of a run that goes through, participant by participant;
* `KeygenSpec` — the documentation of the three parts.

Main results:

* `wireDistributedDkg_iff` — the boot goes through exactly where its records are stored;
* `wireDistributedDkg_complete` — what it installs is a complete keyset, whose shares are
  of one polynomial.
-/

namespace KeroseneVault

open Polynomial
open Table (Others)

/-! ## The adapter -/

/-- `FrostDistributedBundle`. -/
structure FrostDistributedBundle (F : FrostDkg) where
  keyPackages : SortedMap F.Identifier F.KeyPackage
  pubkeyPackage : F.PublicKeyPackage
  maxSigners : UInt16
  minSigners : UInt16

namespace DistributedDkgAdapter

section Adapter

variable (F : FrostRefresh)

/-- The identifiers of `1..=max_signers`. -/
def identifiers (maxSigners : UInt16) : Except DomainError (List F.Identifier) :=
  (List.range' 1 maxSigners.toNat).mapM fun i => mapErr s!"frost identifier {i}" (F.ofU16 i)

/-- One round of the loop over `part2`. The identifiers are those of distinct numbers, so a
secret that is taken out is not asked for again. -/
def round2 (secrets : Table F.Identifier F.Round1Secret)
    (packages : Table F.Identifier F.Round1Package) (id : F.Identifier) :
    Except DomainError (F.Round2Secret × Table F.Identifier F.Round2Package) :=
  match secrets.lookup id with
  | none => .error (.thresholdError "missing round1 secret")
  | some secret => mapErr "frost dkg part2" (F.part2 secret (packages.erase id))

/-- The checks of what part 3 gives to a participant. -/
def checkKeys (maxSigners minSigners : UInt16) (keys : F.KeyPackage × F.PublicKeyPackage) :
    Outcome :=
  if F.keyMinSigners keys.1 ≠ minSigners.toNat then
    .error (.thresholdError s!"DKG threshold mismatch (ToB): key_package.min_signers={
      F.keyMinSigners keys.1} expected={minSigners}")
  else
    match (F.pubkeyMinSigners keys.2).filter (· ≠ minSigners.toNat) with
    | some pkMin =>
      .error (.thresholdError
        s!"DKG threshold mismatch (ToB): pubkey.min_signers={pkMin} expected={minSigners}")
    | none =>
      if F.pubkeyMaxSigners keys.2 ≠ maxSigners.toNat then
        .error (.thresholdError s!"DKG n mismatch: pubkey.max_signers={
          F.pubkeyMaxSigners keys.2} expected={maxSigners}")
      else .ok ()

/-- One round of the loop over `part3`, up to its checks. -/
def round3 (maxSigners minSigners : UInt16) (packages : Table F.Identifier F.Round1Package)
    (secrets : Table F.Identifier F.Round2Secret)
    (inboxes : Table F.Identifier (Table F.Identifier F.Round2Package)) (id : F.Identifier) :
    Except DomainError (F.KeyPackage × F.PublicKeyPackage) :=
  match inboxes.lookup id with
  | none => .error (.thresholdError s!"missing round2 inbox for {F.identifierDebug id}")
  | some received =>
    match secrets.lookup id with
    | none => .error (.thresholdError "missing round2 secret")
    | some secret => do
      let keys ← mapErr "frost dkg part3" (F.part3 secret (packages.erase id) received)
      checkKeys F maxSigners minSigners keys
      .ok keys

/-- The rest of it: the group key is that of the first participant, and the others agree. -/
def collect (finish : F.Identifier → Except DomainError (F.KeyPackage × F.PublicKeyPackage))
    (collected : SortedMap F.Identifier F.KeyPackage × Option F.PublicKeyPackage)
    (id : F.Identifier) :
    Except DomainError (SortedMap F.Identifier F.KeyPackage × Option F.PublicKeyPackage) := do
  let (kp, pk) ← finish id
  match collected.2 with
  | none => .ok (collected.1.insert id kp, some pk)
  | some existing =>
    if F.verifyingKey existing ≠ F.verifyingKey pk then
      .error (.thresholdError "DKG participants disagree on group verifying key")
    else .ok (collected.1.insert id kp, some existing)

/-- The rounds, after the check of the parameters. -/
def runRounds (rand : F.Identifier → F.Randomness) (maxSigners minSigners : UInt16)
    (ids : List F.Identifier) : Except DomainError (FrostDistributedBundle F.toFrostDkg) := do
  let drawn ← ids.mapM fun id => mapErr "frost dkg part1"
    (F.part1 id maxSigners.toNat minSigners.toNat (rand id))
  let secrets := Table.insertAll ∅ (ids.zip (drawn.map Prod.fst))
  let packages := Table.insertAll ∅ (ids.zip (drawn.map Prod.snd))
  let sent ← ids.mapM (round2 F secrets packages)
  let secrets2 := Table.insertAll ∅ (ids.zip (sent.map Prod.fst))
  let inboxes := (ids.zip (sent.map Prod.snd)).foldl (fun m e => m.file e.1 e.2.toPairs) ∅
  let (keyPackages, pubkey) ← ids.foldlM
    (collect F (round3 F maxSigners minSigners packages secrets2 inboxes)) (.empty, none)
  match pubkey with
  | none => .error (.thresholdError "empty DKG result")
  | some pubkeyPackage => .ok { keyPackages, pubkeyPackage, maxSigners, minSigners }

/-- `run_in_process`. -/
def runInProcess (rand : F.Identifier → F.Randomness) (maxSigners minSigners : UInt16) :
    Except DomainError (FrostDistributedBundle F.toFrostDkg) :=
  if maxSigners < 2 ∨ minSigners < 2 ∨ minSigners > maxSigners then
    .error (.thresholdError s!"bad frost DKG params: max={maxSigners} min={minSigners}")
  else do
    let ids ← identifiers F maxSigners
    runRounds F rand maxSigners minSigners ids

/-- What `persist_shares` puts, in its order. -/
def bundleRecords {F : FrostDkg} (bundle : FrostDistributedBundle F) : List ShareRecord :=
  bundle.keyPackages.entries.map (fun e =>
    ("frost-dkg-id-" ++ idHex e.1, mapErr "key package serialize" (F.keyBytes e.2))) ++
  [("frost-dkg-pubkey", mapErr "pubkey package serialize" (F.pubkeyBytes bundle.pubkeyPackage))]

def persistShares {F : FrostDkg} (disk : ShareDisk) (bundle : FrostDistributedBundle F)
    (store : ShareStore) : Outcome × ShareStore :=
  putAll disk store (bundleRecords bundle)

/-- How many participants a roster of `n` comes to. -/
def participants (n : Nat) : UInt16 := max (UInt16.ofNat (min n 65535)) 2

/-- The threshold that a configuration of `t` of `n` comes to. -/
def threshold (n t : Nat) : UInt16 := min (max (UInt16.ofNat (min t 65535)) 2) (participants n)

/-- `wire_distributed_dkg`: the keyset that it installs, and what is stored. -/
def wireDistributedDkg (rand : F.Identifier → F.Randomness) (disk : ShareDisk) (n t : Nat)
    (store : ShareStore) : Except DomainError (TrShareState F.toFrostDkg) × ShareStore :=
  match runInProcess F rand (participants n) (threshold n t) with
  | .error e => (.error e, store)
  | .ok bundle =>
    match persistShares disk bundle store with
    | (.error e, stored) => (.error e, stored)
    | (.ok (), stored) =>
      (.ok { keyPackages := bundle.keyPackages
             pubkeyPackage := bundle.pubkeyPackage
             minSigners := (threshold n t).toUInt64 }, stored)

end Adapter

/-! ## The rounds of a run -/

/-- The rounds of a run that goes through, participant by participant. -/
structure KeygenTrace (F : FrostRefresh) (rand : F.Identifier → F.Randomness)
    (ids : List F.Identifier) (maxSigners minSigners : UInt16) where
  drawn : F.Identifier → F.Round1Secret × F.Round1Package
  sent : F.Identifier → F.Round2Secret × Table F.Identifier F.Round2Package
  received : F.Identifier → Table F.Identifier F.Round2Package
  made : F.Identifier → F.KeyPackage × F.PublicKeyPackage
  part1 : ∀ i ∈ ids, F.part1 i maxSigners.toNat minSigners.toNat (rand i) = .ok (drawn i)
  part2 : ∀ i ∈ ids, F.part2 (drawn i).1
    ((Table.tabulate ids fun j => (drawn j).2).erase i) = .ok (sent i)
  delivered : ∀ i ∈ ids, ∀ j, (received i).lookup j = if j ∈ ids then (sent j).2.lookup i else none
  part3 : ∀ i ∈ ids, F.part3 (sent i).1
    ((Table.tabulate ids fun j => (drawn j).2).erase i) (received i) = .ok (made i)
  checked : ∀ i ∈ ids, checkKeys F maxSigners minSigners (made i) = .ok ()

section Trace

variable {F : FrostRefresh} {rand : F.Identifier → F.Randomness} {ids : List F.Identifier}
  {maxSigners minSigners : UInt16} {bundle : FrostDistributedBundle F.toFrostDkg}

/-- Keys that pass the checks have the thresholds that were asked for. -/
theorem checkKeys_ok {keys : F.KeyPackage × F.PublicKeyPackage}
    (h : checkKeys F maxSigners minSigners keys = .ok ()) :
    F.keyMinSigners keys.1 = minSigners.toNat ∧
      (F.pubkeyMinSigners keys.2).getD minSigners.toNat = minSigners.toNat ∧
      F.pubkeyMaxSigners keys.2 = maxSigners.toNat := by
  unfold checkKeys at h
  split at h
  · cases h
  rename_i hKey
  split at h
  · cases h
  rename_i hFilter
  split at h
  · cases h
  rename_i hMax
  -- the threshold of the public package may be missing, and is then taken as the one asked for
  refine ⟨not_not.mp hKey, ?_, not_not.mp hMax⟩
  cases hMin : F.pubkeyMinSigners keys.2 with
  | none => rfl
  | some pkMin =>
    rw [hMin] at hFilter
    by_contra hGetD
    have hNe : pkMin ≠ minSigners.toNat := hGetD
    rw [Option.filter_some, if_pos (decide_eq_true hNe)] at hFilter
    cases hFilter

theorem checkKeys_of {keys : F.KeyPackage × F.PublicKeyPackage}
    (hKey : F.keyMinSigners keys.1 = minSigners.toNat)
    (hMin : (F.pubkeyMinSigners keys.2).getD minSigners.toNat = minSigners.toNat)
    (hMax : F.pubkeyMaxSigners keys.2 = maxSigners.toNat) :
    checkKeys F maxSigners minSigners keys = .ok () := by
  have hFilter : (F.pubkeyMinSigners keys.2).filter (· ≠ minSigners.toNat) = none := by
    rw [Option.filter_eq_none_iff]
    intro pkMin hSome
    rw [hSome] at hMin
    simpa using hMin
  unfold checkKeys
  rw [if_neg (not_not.mpr hKey), hFilter]
  exact if_neg (not_not.mpr hMax)

theorem round3_ok {packages : Table F.Identifier F.Round1Package}
    {secrets : Table F.Identifier F.Round2Secret}
    {inboxes : Table F.Identifier (Table F.Identifier F.Round2Package)} {id : F.Identifier}
    {keys : F.KeyPackage × F.PublicKeyPackage} :
    round3 F maxSigners minSigners packages secrets inboxes id = .ok keys ↔
      ∃ received secret, inboxes.lookup id = some received ∧ secrets.lookup id = some secret ∧
        F.part3 secret (packages.erase id) received = .ok keys ∧
        checkKeys F maxSigners minSigners keys = .ok () := by
  unfold round3
  cases hReceived : inboxes.lookup id with
  | none => simp
  | some received =>
    cases hSecret : secrets.lookup id with
    | none => simp
    | some secret =>
      dsimp only
      rw [Results.bind_eq_ok]
      constructor
      · rintro ⟨keys', hKeys, h⟩
        obtain ⟨u, hChecked, h⟩ := Results.bind_eq_ok.mp h
        obtain rfl := Except.ok.inj h
        exact ⟨received, secret, rfl, rfl, mapErr_ok.mp hKeys, hChecked⟩
      · rintro ⟨received', secret', hReceived', hSecret', hKeys, hChecked⟩
        obtain rfl := Option.some.inj hReceived'
        obtain rfl := Option.some.inj hSecret'
        exact ⟨keys, mapErr_ok.mpr hKeys, Results.bind_eq_ok.mpr ⟨(), hChecked, rfl⟩⟩

/-- What the participants of a loop are collected into. -/
theorem foldlM_collect
    {finish : F.Identifier → Except DomainError (F.KeyPackage × F.PublicKeyPackage)}
    {keys keys' : SortedMap F.Identifier F.KeyPackage} {pubkey pubkey' : Option F.PublicKeyPackage}
    (h : ids.foldlM (collect F finish) (keys, pubkey) = .ok (keys', pubkey')) :
    ∃ made, ids.mapM finish = .ok made ∧
      keys' = (ids.zip (made.map Prod.fst)).foldl (fun m e => m.insert e.1 e.2) keys ∧
      pubkey' = pubkey.or (made.head?.map Prod.snd) ∧
      ∀ pk ∈ pubkey', ∀ m ∈ made, F.verifyingKey m.2 = F.verifyingKey pk := by
  induction ids generalizing keys pubkey with
  | nil =>
    obtain ⟨rfl, rfl⟩ := Prod.mk.inj (Except.ok.inj h)
    exact ⟨[], rfl, rfl, by simp, fun _ _ _ hm => absurd hm List.not_mem_nil⟩
  | cons id ids ih =>
    rw [List.foldlM_cons] at h
    obtain ⟨next, hNext, h⟩ := Results.bind_eq_ok.mp h
    unfold collect at hNext
    obtain ⟨⟨kp, pk⟩, hFinish, hNext⟩ := Results.bind_eq_ok.mp hNext
    dsimp only at hNext
    split at hNext
    · -- the first participant: its group key is the one to agree with
      obtain rfl := Except.ok.inj hNext
      obtain ⟨made, hMade, hKeys, hPubkey, hAgree⟩ := ih h
      refine ⟨(kp, pk) :: made, ?_, hKeys, by rw [hPubkey]; rfl, ?_⟩
      · rw [List.mapM_cons, hFinish]
        exact Results.bind_eq_ok.mpr ⟨_, rfl, Results.bind_eq_ok.mpr ⟨made, hMade, rfl⟩⟩
      · intro pk' hPk' m hm
        rw [hPubkey] at hPk'
        obtain rfl := Option.some.inj hPk'
        rcases List.mem_cons.mp hm with rfl | hRest
        · rfl
        · exact hAgree _ hPubkey m hRest
    · rename_i existing
      split at hNext
      · cases hNext
      rename_i hSame
      obtain rfl := Except.ok.inj hNext
      obtain ⟨made, hMade, hKeys, hPubkey, hAgree⟩ := ih h
      refine ⟨(kp, pk) :: made, ?_, hKeys, by rw [hPubkey]; rfl, ?_⟩
      · rw [List.mapM_cons, hFinish]
        exact Results.bind_eq_ok.mpr ⟨_, rfl, Results.bind_eq_ok.mpr ⟨made, hMade, rfl⟩⟩
      · intro pk' hPk' m hm
        have hExisting := hPk'
        rw [hPubkey] at hExisting
        obtain rfl := Option.some.inj hExisting
        rcases List.mem_cons.mp hm with rfl | hRest
        · exact (not_not.mp hSame).symm
        · exact hAgree _ hPk' m hRest

/-- **The rounds of a run** that goes through. -/
theorem runRounds_ok (hNodup : ids.Nodup) (hNe : ids ≠ [])
    (h : runRounds F rand maxSigners minSigners ids = .ok bundle) :
    ∃ R : KeygenTrace F rand ids maxSigners minSigners,
      bundle.keyPackages = .ofList (ids.map fun i => (i, (R.made i).1)) ∧
        (∃ first ∈ ids, bundle.pubkeyPackage = (R.made first).2) ∧
        ∀ i ∈ ids, F.verifyingKey (R.made i).2 = F.verifyingKey bundle.pubkeyPackage := by
  obtain ⟨drawnList, hDrawn, h⟩ := Results.bind_eq_ok.mp h
  obtain ⟨drawn, rfl, hPart1⟩ := Results.exists_fun_of_mapM_ok hDrawn hNe
  obtain ⟨sentList, hSent, h⟩ := Results.bind_eq_ok.mp h
  obtain ⟨sent, rfl, hPart2⟩ := Results.exists_fun_of_mapM_ok hSent hNe
  obtain ⟨⟨keyPackages, pubkey⟩, hCollected, h⟩ := Results.bind_eq_ok.mp h
  obtain ⟨madeList, hMade, hKeys, hPubkey, hAgree⟩ := foldlM_collect hCollected
  obtain ⟨made, rfl, hPart3⟩ := Results.exists_fun_of_mapM_ok hMade hNe
  simp only [List.map_map, ← List.map_prod_left_eq_zip, List.foldl_map] at hPart2 hPart3 h hKeys
  -- each participant has the secrets it drew, and its own row of what was sent
  have hSecret : ∀ {α : Type} (f : F.Identifier → α) {i a}, i ∈ ids →
      (Table.tabulate ids f).lookup i = some a → f i = a := fun f i a hi hLookup =>
    Option.some.inj ((Table.lookup_tabulate_of_mem hNodup f hi).symm.trans hLookup)
  have hSent2 : ∀ i ∈ ids, F.part2 (drawn i).1
      ((Table.tabulate ids fun j => (drawn j).2).erase i) = .ok (sent i) := by
    intro i hi
    have hRound := hPart2 i hi
    unfold round2 at hRound
    split at hRound
    · cases hRound
    · rename_i secret hLookup
      obtain rfl := hSecret (Prod.fst ∘ drawn) hi hLookup
      exact mapErr_ok.mp hRound
  let inboxes := ids.foldl (fun m i => Table.file m i ((Prod.snd ∘ sent) i).toPairs)
    (∅ : Table F.Identifier (Table F.Identifier F.Round2Package))
  have hDelivered : ∀ i j, ((inboxes.lookup i).getD ∅).lookup j =
      if j ∈ ids then (sent j).2.lookup i else none := fun i j => by
    have hFile := Table.lookup_foldl_file (m := ∅) (k := i) (j := j) hNodup (Prod.snd ∘ sent)
      fun i' _ => rfl
    exact hFile
  have hEach : ∀ i ∈ ids, F.part3 (sent i).1
      ((Table.tabulate ids fun j => (drawn j).2).erase i) ((inboxes.lookup i).getD ∅) =
        .ok (made i) ∧ checkKeys F maxSigners minSigners (made i) = .ok () := by
    intro i hi
    obtain ⟨received, secret, hReceived, hLookup, hRun, hChecked⟩ := round3_ok.mp (hPart3 i hi)
    obtain rfl := hSecret (Prod.fst ∘ sent) hi hLookup
    have hInbox : (inboxes.lookup i).getD ∅ = received := by
      rw [show inboxes.lookup i = some received from hReceived]
      rfl
    exact ⟨by rw [hInbox]; exact hRun, hChecked⟩
  obtain ⟨first, rest, rfl⟩ := List.exists_cons_of_ne_nil hNe
  subst hPubkey
  dsimp only [List.map_cons, List.head?_cons, Option.map_some, Option.none_or] at h hAgree
  obtain rfl := Except.ok.inj h
  refine ⟨⟨drawn, sent, fun i => (inboxes.lookup i).getD ∅, made,
    fun i hi => mapErr_ok.mp (hPart1 i hi), hSent2, fun i _ => hDelivered i,
    fun i hi => (hEach i hi).1, fun i hi => (hEach i hi).2⟩, ?_, ⟨first, List.mem_cons_self, rfl⟩,
    fun i hi => ?_⟩
  · show keyPackages = _
    rw [hKeys, SortedMap.ofList, List.foldl_map]
    rfl
  · exact hAgree _ rfl (made i) (List.mem_map_of_mem hi)

end Trace

/-! ## Runs that go through -/

section Runs

variable {F : FrostRefresh} {rand : F.Identifier → F.Randomness} {ids : List F.Identifier}
  {maxSigners minSigners : UInt16} {bundle : FrostDistributedBundle F.toFrostDkg}

/-- The identifiers are those of the numbers, each of its own. -/
theorem identifiers_ok (hLaws : F.Laws) (h : identifiers F maxSigners = .ok ids) :
    ids.length = maxSigners.toNat ∧ ids.Nodup := by
  have hAll := Results.mapM_eq_ok.mp h
  have hLength : ids.length = maxSigners.toNat := by
    rw [← hAll.length_eq, List.length_range']
  refine ⟨hLength, List.nodup_iff_injective_get.mpr fun i j hEq => ?_⟩
  have hAt (k : Fin ids.length) : F.ofU16 (1 + k.1) = .ok (ids.get k) := by
    have hk : k.1 < maxSigners.toNat := hLength ▸ k.2
    have hEntry := (List.forall₂_iff_get.mp hAll).2 k.1 (by rwa [List.length_range']) k.2
    rw [mapErr_ok] at hEntry
    simpa using hEntry
  have hBound := maxSigners.toNat_lt
  have hi := i.2
  have hj := j.2
  have hSame := hLaws.identifier_injective _ _ _ (by omega) (by omega) (hAt i) (hEq ▸ hAt j)
  exact Fin.ext (by omega)

theorem runInProcess_ok (hLaws : F.Laws)
    (h : runInProcess F rand maxSigners minSigners = .ok bundle) :
    ∃ ids, identifiers F maxSigners = .ok ids ∧ ids.Nodup ∧ ids ≠ [] ∧
      runRounds F rand maxSigners minSigners ids = .ok bundle := by
  unfold runInProcess at h
  split at h
  · cases h
  rename_i hParams
  obtain ⟨ids, hIds, h⟩ := Results.bind_eq_ok.mp h
  obtain ⟨hLength, hNodup⟩ := identifiers_ok hLaws hIds
  refine ⟨ids, hIds, hNodup, fun hNil => ?_, h⟩
  rw [not_or, UInt16.lt_iff_toNat_lt] at hParams
  rw [hNil, List.length_nil] at hLength
  exact hParams.1 (by rw [← hLength]; decide)

/-- The entries of a run's keys are its participants, each with its own key. -/
theorem mem_entries (R : KeygenTrace F rand ids maxSigners minSigners)
    (hKeys : bundle.keyPackages = .ofList (ids.map fun i => (i, (R.made i).1)))
    {e : F.Identifier × F.KeyPackage} (he : e ∈ bundle.keyPackages.entries) :
    e.1 ∈ ids ∧ e.2 = (R.made e.1).1 := by
  rw [hKeys] at he
  obtain ⟨i, hi, rfl⟩ := List.mem_map.mp (SortedMap.mem_of_mem_ofList he)
  exact ⟨hi, rfl⟩

/-- There is a key for each participant. -/
theorem perm_keys (hNodup : ids.Nodup) (R : KeygenTrace F rand ids maxSigners minSigners)
    (hKeys : bundle.keyPackages = .ofList (ids.map fun i => (i, (R.made i).1))) :
    (bundle.keyPackages.entries.map Prod.fst).Perm ids := by
  have hFirst : (ids.map fun i => (i, (R.made i).1)).map Prod.fst = ids := by
    rw [List.map_map]
    exact List.map_id ids
  have hPerm := (SortedMap.perm_ofList (by rw [hFirst]; exact hNodup)).map Prod.fst
  rw [hFirst, ← hKeys] at hPerm
  exact hPerm

end Runs

end DistributedDkgAdapter

/-! ## What the parts return -/

/-- The documentation of the three parts, beside that of a refresh: part 1 draws a
polynomial and commits to it, part 2 evaluates it for each of the others, and part 3 adds
what came. What a commitment says of a value is read by `published1` and `published2`. -/
structure KeygenSpec (F : FrostRefresh) (K V : Type) [CommRing K] [AddCommGroup V]
    [Module K V] extends RefreshSpec F K V where
  published1 : F.Round1Package → K → V
  published2 : F.Round2Secret → K → V
  keygenPart1 : ∀ id maxSigners minSigners rand secret package,
    F.part1 id maxSigners minSigners rand = .ok (secret, package) →
    owner1 secret = id ∧ polynomial secret ∈ degreeLT K minSigners ∧
      ∀ x, published1 package x = (polynomial secret).eval x • generator
  keygenPart2 : ∀ secret received secret2 outbound,
    F.part2 secret received = .ok (secret2, outbound) →
    owner2 secret2 = owner1 secret ∧
      ownShare secret2 = (polynomial secret).eval (scalar (owner1 secret)) ∧
      (∀ x, published2 secret2 x = (polynomial secret).eval x • generator) ∧
      outbound.ReadsAs received.keys share fun j => (polynomial secret).eval (scalar j)
  keygenPart3 : ∀ secret received inbox kp pk, F.part3 secret received inbox = .ok (kp, pk) →
    keyIdentifier kp = owner2 secret ∧ keyVerifyingKey kp = F.verifyingKey pk ∧
      point (F.verifyingKey pk) =
        published2 secret 0 + (received.toPairs.map fun e => published1 e.2 0).sum ∧
      signingShare kp = ownShare secret + (inbox.toPairs.map fun e => share e.2).sum ∧
      ∀ j ∈ owner2 secret :: received.keys, verifyingShare pk j = some
        (published2 secret (scalar j) + (received.toPairs.map fun e => published1 e.2 (scalar j)).sum)

namespace DistributedDkgAdapter

namespace KeygenTrace

variable {F : FrostRefresh} {K V : Type} [CommRing K] [AddCommGroup V] [Module K V]
  {rand : F.Identifier → F.Randomness} {ids : List F.Identifier} {maxSigners minSigners : UInt16}
  (R : KeygenTrace F rand ids maxSigners minSigners) (S : KeygenSpec F K V)

/-- The polynomial that a participant drew. -/
def drew (i : F.Identifier) : K[X] := S.polynomial (R.drawn i).1

/-- The polynomial that the participants drew together. -/
noncomputable def group : K[X] := (ids.map (R.drew S)).sum

theorem drew_spec {i : F.Identifier} (hi : i ∈ ids) :
    S.owner1 (R.drawn i).1 = i ∧ R.drew S i ∈ degreeLT K minSigners.toNat ∧
      ∀ x, S.published1 (R.drawn i).2 x = (R.drew S i).eval x • S.generator :=
  S.keygenPart1 i maxSigners.toNat minSigners.toNat (rand i) _ _ (R.part1 i hi)

/-- The packages that a participant has of the others. -/
theorem packages_readsAs (hNodup : ids.Nodup) (i : F.Identifier) (x : K) :
    Table.ReadsAs ((Table.tabulate ids fun k => (R.drawn k).2).erase i) (ids.erase i)
      (S.published1 · x) fun k => S.published1 (R.drawn k).2 x :=
  (Table.ReadsAs.tabulate hNodup _ _).erase hNodup i

theorem degree_group : R.group S ∈ degreeLT K minSigners.toNat := by
  refine list_sum_mem fun f hf => ?_
  obtain ⟨i, hi, rfl⟩ := List.mem_map.mp hf
  exact (R.drew_spec S hi).2.1

/-- The value of what the participants drew, as one participant's and the others'. -/
theorem eval_group_split {i : F.Identifier} (hi : i ∈ ids) (x : K) :
    (R.group S).eval x =
      (R.drew S i).eval x + ((ids.erase i).map fun j => (R.drew S j).eval x).sum := by
  rw [group, eval_listSum, List.map_map, ← List.sum_map_erase _ hi]
  rfl

/-- What a participant sends to the others. -/
theorem sent_spec (hNodup : ids.Nodup) {i : F.Identifier} (hi : i ∈ ids) :
    S.owner2 (R.sent i).1 = i ∧ S.ownShare (R.sent i).1 = (R.drew S i).eval (S.scalar i) ∧
      (∀ x, S.published2 (R.sent i).1 x = (R.drew S i).eval x • S.generator) ∧
      (R.sent i).2.ReadsAs (ids.erase i) S.share fun j => (R.drew S i).eval (S.scalar j) := by
  obtain ⟨hOwner2, hOwn, hPublished, hOutbound⟩ := S.keygenPart2 _ _ _ _ (R.part2 i hi)
  have hOwner := (R.drew_spec S hi).1
  refine ⟨hOwner2.trans hOwner, by rw [hOwn, hOwner]; rfl, hPublished, fun j => ?_⟩
  have hKeys : j ∈ AList.keys ((Table.tabulate ids fun k => (R.drawn k).2).erase i) ↔
      j ∈ ids.erase i := (R.packages_readsAs S hNodup i 0).mem_keys_iff
  rw [hOutbound j]
  simp only [hKeys]
  rfl

/-- What came to a participant: a share from each of the others. -/
theorem received_readsAs (hNodup : ids.Nodup) {i : F.Identifier} (hi : i ∈ ids) :
    (R.received i).ReadsAs (ids.erase i) S.share fun j => (R.drew S j).eval (S.scalar i) :=
  Table.ReadsAs.column hNodup hi (fun _ hj => (R.sent_spec S hNodup hj).2.2.2) (R.delivered i hi)

/-- What the commitments that a participant has say of a value. -/
theorem published_sum (hNodup : ids.Nodup) {i : F.Identifier} (hi : i ∈ ids) (x : K) :
    S.published2 (R.sent i).1 x +
        ((Table.toPairs ((Table.tabulate ids fun k => (R.drawn k).2).erase i)).map
          fun e => S.published1 e.2 x).sum =
      (R.group S).eval x • S.generator := by
  have hOthers := (R.packages_readsAs S hNodup i x).perm (hNodup.erase i)
  have hValues : ((ids.erase i).map fun k => S.published1 (R.drawn k).2 x) =
      (ids.erase i).map fun j => (R.drew S j).eval x • S.generator :=
    List.map_congr_left fun j hj => (R.drew_spec S (List.mem_of_mem_erase hj)).2.2 x
  rw [hOthers.sum_eq, hValues, (R.sent_spec S hNodup hi).2.2.1 x, R.eval_group_split S hi,
    add_smul, List.sum_smul, List.map_map]
  rfl

/-- What a participant ends with: its value of what all drew, under the group's key. -/
theorem made_spec (hNodup : ids.Nodup) {i : F.Identifier} (hi : i ∈ ids) :
    S.keyIdentifier (R.made i).1 = i ∧
      S.keyVerifyingKey (R.made i).1 = F.verifyingKey (R.made i).2 ∧
      S.point (F.verifyingKey (R.made i).2) = (R.group S).eval 0 • S.generator ∧
      S.signingShare (R.made i).1 = (R.group S).eval (S.scalar i) ∧
      ∀ j ∈ ids, S.verifyingShare (R.made i).2 j =
        some ((R.group S).eval (S.scalar j) • S.generator) := by
  obtain ⟨hOwner, hOwn, -, -⟩ := R.sent_spec S hNodup hi
  obtain ⟨hIdentifier, hKey, hPoint, hShare, hVerifying⟩ := S.keygenPart3 _ _ _ _ _ (R.part3 i hi)
  refine ⟨hIdentifier.trans hOwner, hKey, ?_, ?_, fun j hj => ?_⟩
  · rw [hPoint, R.published_sum S hNodup hi]
  · have hReceived := (R.received_readsAs S hNodup hi).perm (hNodup.erase i)
    rw [hShare, hOwn, hReceived.sum_eq, R.eval_group_split S hi]
  · have hMem : j ∈ S.owner2 (R.sent i).1 ::
        AList.keys ((Table.tabulate ids fun k => (R.drawn k).2).erase i) := by
      rw [hOwner, List.mem_cons, (R.packages_readsAs S hNodup i 0).mem_keys_iff,
        hNodup.mem_erase_iff]
      by_cases hEq : j = i
      · exact .inl hEq
      · exact .inr ⟨hEq, hj⟩
    rw [hVerifying j hMem, R.published_sum S hNodup hi]

end KeygenTrace

/-! ## Runs of honest participants -/

section Completes

variable {F : FrostRefresh} {rand : F.Identifier → F.Randomness} {ids : List F.Identifier}
  {maxSigners minSigners : UInt16}

/-- What the adapter relies on beside the laws: the numbers but zero name identifiers, and
part 1 takes the parameters of every group. -/
structure Total (F : FrostDkg) : Prop where
  identifier : ∀ u, 0 < u → u < 2 ^ 16 → ∃ id, F.ofU16 u = .ok id
  part1 : ∀ id max min rand, 2 ≤ min → min ≤ max → max < 2 ^ 16 →
    ∃ drawn, F.part1 id max min rand = .ok drawn

theorem identifiers_total (hTotal : Total F.toFrostDkg) (maxSigners : UInt16) :
    ∃ ids, identifiers F maxSigners = .ok ids := by
  have hEach : ∀ u ∈ List.range' 1 maxSigners.toNat,
      ∃ id, mapErr s!"frost identifier {u}" (F.ofU16 u) = .ok id := by
    intro u hu
    obtain ⟨hLow, hHigh⟩ := List.mem_range'_1.mp hu
    have hBound := maxSigners.toNat_lt
    obtain ⟨id, hId⟩ := hTotal.identifier u (by omega) (by omega)
    exact ⟨id, mapErr_ok.mpr hId⟩
  obtain ⟨first, -⟩ := hTotal.identifier 1 (by decide) (by decide)
  have : Nonempty F.Identifier := ⟨first⟩
  choose! name hName using hEach
  refine ⟨(List.range' 1 maxSigners.toNat).map name, ?_⟩
  have hAll := Results.mapM_map_ok (g := fun u => u) (l := List.range' 1 maxSigners.toNat) hName
  rwa [List.map_id'] at hAll

/-- Participants with one group key are collected, each with its own key. -/
theorem foldlM_collect_of
    {finish : F.Identifier → Except DomainError (F.KeyPackage × F.PublicKeyPackage)}
    {made : F.Identifier → F.KeyPackage × F.PublicKeyPackage} {key : F.VerifyingKey}
    (h : ∀ i ∈ ids, finish i = .ok (made i) ∧ F.verifyingKey (made i).2 = key)
    (keys : SortedMap F.Identifier F.KeyPackage) (pubkey : Option F.PublicKeyPackage)
    (hPubkey : ∀ pk ∈ pubkey, F.verifyingKey pk = key) :
    ids.foldlM (collect F finish) (keys, pubkey) =
      .ok (ids.foldl (fun m i => m.insert i (made i).1) keys,
        pubkey.or (ids.head?.map fun i => (made i).2)) := by
  induction ids generalizing keys pubkey with
  | nil => simp [pure, Except.pure]
  | cons id ids ih =>
    obtain ⟨⟨hFinish, hKey⟩, hRest⟩ := List.forall_mem_cons.mp h
    rw [List.foldlM_cons]
    unfold collect
    rw [hFinish]
    -- the first public package is kept, and the others are to have its group key
    cases pubkey with
    | none =>
      exact ih hRest (keys.insert id (made id).1) (some (made id).2)
        fun pk hPk => Option.some.inj hPk ▸ hKey
    | some existing =>
      have hSame : ¬ F.verifyingKey existing ≠ F.verifyingKey (made id).2 := by
        rw [hPubkey existing rfl, hKey]
        exact not_not.mpr rfl
      dsimp only [bind, Except.bind]
      rw [if_neg hSame]
      exact ih hRest (keys.insert id (made id).1) (some existing) hPubkey

/-- The packages of all but one. -/
theorem others_tabulate {α : Type} (hNodup : ids.Nodup) (v : F.Identifier → α)
    (i : F.Identifier) : Others ids i v ((Table.tabulate ids v).erase i) := by
  intro j x
  by_cases hj : j = i
  · subst hj
    rw [AList.lookup_erase]
    simp
  · rw [AList.lookup_erase_ne hj]
    by_cases hMem : j ∈ ids
    · rw [Table.lookup_tabulate_of_mem hNodup v hMem]
      simp [hMem, hj, eq_comm]
    · rw [Table.lookup_tabulate_of_notMem v hMem]
      simp [hMem]

/-- Honest participants come to keys that serialize. -/
theorem runRounds_completes (hLaws : F.Laws) (hTotal : Total F.toFrostDkg) (hNodup : ids.Nodup)
    (hLength : ids.length = maxSigners.toNat) (hTwo : 2 ≤ minSigners.toNat)
    (hLe : minSigners.toNat ≤ maxSigners.toNat) :
    ∃ bundle, runRounds F rand maxSigners minSigners ids = .ok bundle ∧
      ∀ record ∈ bundleRecords bundle, ∃ bytes, record.2 = .ok bytes := by
  have hDraw (i : F.Identifier) : ∃ drawn,
      F.part1 i maxSigners.toNat minSigners.toNat (rand i) = .ok drawn :=
    hTotal.part1 i _ _ _ hTwo hLe maxSigners.toNat_lt
  choose drawn hDrawn using hDraw
  obtain ⟨G, hSecret, hPackage⟩ := hLaws.generates ids _ _ (fun i => (drawn i).1)
    (fun i => (drawn i).2) hNodup hLength hTwo hLe fun i _ => ⟨rand i, hDrawn i⟩
  -- round two: each has the packages of the others
  have hPackages (i : F.Identifier) :
      Others ids i G.package ((Table.tabulate ids fun j => (drawn j).2).erase i) := by
    rw [hPackage]
    exact others_tabulate hNodup _ i
  have hSent : ∀ i ∈ ids, ∃ outbound,
      F.part2 (drawn i).1 ((Table.tabulate ids fun j => (drawn j).2).erase i) =
        .ok (G.secret2 i, outbound) ∧ Others ids i (G.share i) outbound := by
    intro i hi
    have hPart2 := G.part2 i hi _ (hPackages i)
    rw [hSecret] at hPart2
    exact hPart2
  have : Nonempty (Table F.Identifier F.Round2Package) := ⟨∅⟩
  choose! outbound hPart2 hOutbound using hSent
  let inboxes := ids.foldl (fun m i => Table.file m i (outbound i).toPairs)
    (∅ : Table F.Identifier (Table F.Identifier F.Round2Package))
  have hInboxes (i j : F.Identifier) : ((inboxes.lookup i).getD ∅).lookup j =
      if j ∈ ids then (outbound j).lookup i else none := by
    have hFile := Table.lookup_foldl_file (m := ∅) (k := i) (j := j) hNodup outbound fun i' _ => rfl
    exact hFile
  have hInbox : ∀ i ∈ ids, Others ids i (fun j => G.share j i) ((inboxes.lookup i).getD ∅) := by
    intro i hi j x
    rw [hInboxes]
    by_cases hj : j ∈ ids
    · rw [if_pos hj, hOutbound j hj i x]
      exact ⟨fun ⟨_, hNe, hx⟩ => ⟨hj, hNe.symm, hx⟩, fun ⟨_, hNe, hx⟩ => ⟨hi, hNe.symm, hx⟩⟩
    · rw [if_neg hj]
      simp [hj]
  -- there is another participant, so the inbox is there
  have hFound : ∀ i ∈ ids, inboxes.lookup i = some ((inboxes.lookup i).getD ∅) := by
    intro i hi
    have hTwoIds : 1 < ids.length := by omega
    obtain ⟨j, hj, hNe⟩ : ∃ j ∈ ids, j ≠ i := by
      by_contra hNone
      push Not at hNone
      have hAll := List.eq_replicate_of_mem hNone
      rw [hAll] at hNodup
      have := List.nodup_replicate.mp hNodup
      omega
    have hShare := (hInbox i hi j (G.share j i)).mpr ⟨hj, hNe, rfl⟩
    cases hLookup : inboxes.lookup i with
    | none =>
      rw [hLookup] at hShare
      cases hShare
    | some inbox => rfl
  have hFinish : ∀ i ∈ ids, ∃ keys,
      round3 F maxSigners minSigners (Table.tabulate ids fun j => (drawn j).2)
        (Table.tabulate ids G.secret2) inboxes i = .ok keys ∧ F.verifyingKey keys.2 = G.key ∧
        (∃ bytes, F.keyBytes keys.1 = .ok bytes) ∧ ∃ bytes, F.pubkeyBytes keys.2 = .ok bytes := by
    intro i hi
    obtain ⟨kp, pk, kpBytes, pkBytes, hPart3, hKey, hMin, hMax, hGroup, hKpBytes, hPkBytes⟩ :=
      G.part3 i hi _ _ (hPackages i) (hInbox i hi)
    exact ⟨(kp, pk), round3_ok.mpr ⟨_, _, hFound i hi, Table.lookup_tabulate_of_mem hNodup _ hi,
      hPart3, checkKeys_of hKey hMin hMax⟩, hGroup, ⟨kpBytes, hKpBytes⟩, pkBytes, hPkBytes⟩
  have hNe : ids ≠ [] := fun hNil => by
    rw [hNil, List.length_nil] at hLength
    omega
  obtain ⟨first, hFirst⟩ := List.exists_mem_of_ne_nil ids hNe
  obtain ⟨someKeys, -⟩ := hFinish first hFirst
  have : Nonempty (F.KeyPackage × F.PublicKeyPackage) := ⟨someKeys⟩
  choose! made hMade hGroup hKeyBytes hPubkeyBytes using hFinish
  have hCollected := foldlM_collect_of (fun i hi => ⟨hMade i hi, hGroup i hi⟩) .empty none
    fun _ hNone => by cases hNone
  have hList1 := Results.mapM_map_ok (g := fun i => i) (l := ids)
    (f := fun id => mapErr "frost dkg part1"
      (F.part1 id maxSigners.toNat minSigners.toNat (rand id))) fun i _ => mapErr_ok.mpr (hDrawn i)
  have hRound2 : ∀ i ∈ ids, round2 F (Table.tabulate ids fun i => (drawn i).1)
      (Table.tabulate ids fun i => (drawn i).2) i = .ok (G.secret2 i, outbound i) := by
    intro i hi
    unfold round2
    rw [Table.lookup_tabulate_of_mem hNodup _ hi]
    exact mapErr_ok.mpr (hPart2 i hi)
  have hList2 := Results.mapM_map_ok (g := fun i => i) (l := ids) hRound2
  rw [List.map_id'] at hList1 hList2
  obtain ⟨head, rest, rfl⟩ := List.exists_cons_of_ne_nil hNe
  let keys := (head :: rest).foldl (fun m i => m.insert i (made i).1) SortedMap.empty
  refine ⟨⟨keys, (made head).2, maxSigners, minSigners⟩,
    Results.bind_eq_ok.mpr ⟨_, hList1, ?_⟩, ?_⟩
  · simp only [List.map_map, ← List.map_prod_left_eq_zip]
    refine Results.bind_eq_ok.mpr ⟨_, hList2, ?_⟩
    simp only [List.map_map, ← List.map_prod_left_eq_zip, List.foldl_map]
    exact Results.bind_eq_ok.mpr ⟨_, hCollected, rfl⟩
  · have hOfList : keys = .ofList ((head :: rest).map fun i => (i, (made i).1)) := by
      rw [SortedMap.ofList, List.foldl_map]
    unfold bundleRecords
    rw [List.forall_mem_append, List.forall_mem_singleton, List.forall_mem_map]
    constructor
    · intro e he
      rw [show (FrostDistributedBundle.mk keys (made head).2 maxSigners minSigners).keyPackages =
        keys from rfl, hOfList] at he
      obtain ⟨i, hi, rfl⟩ := List.mem_map.mp (SortedMap.mem_of_mem_ofList he)
      obtain ⟨bytes, hBytes⟩ := hKeyBytes i hi
      exact ⟨bytes, mapErr_ok.mpr hBytes⟩
    · obtain ⟨bytes, hBytes⟩ := hPubkeyBytes head List.mem_cons_self
      exact ⟨bytes, mapErr_ok.mpr hBytes⟩

end Completes

/-! ## The boot -/

section Boot

variable {F : FrostRefresh}

theorem two_le_participants (n : Nat) : 2 ≤ (participants n).toNat := by
  unfold participants
  rw [UInt16.toNat_max]
  exact le_max_right _ _

theorem two_le_threshold (n t : Nat) : 2 ≤ (threshold n t).toNat := by
  unfold threshold
  rw [UInt16.toNat_min, UInt16.toNat_max]
  exact le_min (le_max_right _ _) (two_le_participants n)

theorem threshold_le (n t : Nat) : (threshold n t).toNat ≤ (participants n).toNat := by
  unfold threshold
  rw [UInt16.toNat_min]
  exact min_le_right _ _

/-- The key generation of a boot goes through, and its records serialize. -/
theorem runInProcess_completes (hLaws : F.Laws) (hTotal : Total F.toFrostDkg)
    (rand : F.Identifier → F.Randomness) (n t : Nat) :
    ∃ bundle entries, runInProcess F rand (participants n) (threshold n t) = .ok bundle ∧
      bundle.keyPackages.entries.length = (participants n).toNat ∧
      bundleRecords bundle = serialized entries := by
  have hTwo := two_le_threshold n t
  have hLe := threshold_le n t
  obtain ⟨ids, hIds⟩ := identifiers_total hTotal (participants n)
  obtain ⟨hLength, hNodup⟩ := identifiers_ok hLaws hIds
  obtain ⟨bundle, hRounds, hBytes⟩ :
      ∃ bundle, runRounds F rand (participants n) (threshold n t) ids = .ok bundle ∧
        ∀ record ∈ bundleRecords bundle, ∃ bytes, record.2 = .ok bytes :=
    runRounds_completes hLaws hTotal hNodup hLength hTwo hLe
  obtain ⟨entries, hEntries⟩ := exists_serialized hBytes
  have hParams : ¬ (participants n < 2 ∨ threshold n t < 2 ∨ threshold n t > participants n) := by
    simp only [UInt16.lt_iff_toNat_lt, gt_iff_lt]
    have hTwo' : (2 : UInt16).toNat = 2 := rfl
    omega
  have hNe : ids ≠ [] := fun hNil => by
    rw [hNil, List.length_nil] at hLength
    omega
  obtain ⟨R, hKeys, -, -⟩ := runRounds_ok hNodup hNe hRounds
  refine ⟨bundle, entries, ?_, ?_, hEntries⟩
  · unfold runInProcess
    rw [if_neg hParams, hIds]
    exact hRounds
  · rw [← hLength, ← (perm_keys hNodup R hKeys).length_eq, List.length_map]

/-- A boot installs what the disk takes. -/
theorem wireDistributedDkg_of_stored {rand : F.Identifier → F.Randomness} {disk : ShareDisk}
    {n t : Nat} {store : ShareStore} {bundle : FrostDistributedBundle F.toFrostDkg}
    (hRun : runInProcess F rand (participants n) (threshold n t) = .ok bundle) :
    (∃ st, (wireDistributedDkg F rand disk n t store).1 = .ok st) ↔
      (persistShares disk bundle store).1 = .ok () := by
  unfold wireDistributedDkg
  rw [hRun]
  cases hPersist : persistShares disk bundle store with
  | mk answer stored =>
    cases answer with
    | error e => simp [hPersist]
    | ok u => simp [hPersist]

/--
**The boot goes through exactly where its records are stored.** Whatever the configuration
asks for, the key generation of honest participants goes through, with at least two of
them and a threshold of two to all, and its records serialize; so the boot of the node
fails only where the disk does.
-/
theorem wireDistributedDkg_iff (hLaws : F.Laws) (hTotal : Total F.toFrostDkg)
    (rand : F.Identifier → F.Randomness) (n t : Nat) :
    ∃ bundle entries, runInProcess F rand (participants n) (threshold n t) = .ok bundle ∧
      bundle.keyPackages.entries.length = (participants n).toNat ∧
      bundleRecords bundle = serialized entries ∧
      ∀ disk store, (∃ st, (wireDistributedDkg F rand disk n t store).1 = .ok st) ↔
        ∀ e ∈ entries, disk e.1 e.2 = .stored := by
  obtain ⟨bundle, entries, hRun, hSize, hEntries⟩ := runInProcess_completes hLaws hTotal rand n t
  refine ⟨bundle, entries, hRun, hSize, hEntries, fun disk store => ?_⟩
  rw [wireDistributedDkg_of_stored hRun, persistShares, putAll_ok_iff, hEntries, serialized,
    List.forall_mem_map]
  simp

/-- What a boot installs comes of a run that goes through. -/
theorem wireDistributedDkg_ok {rand : F.Identifier → F.Randomness} {disk : ShareDisk} {n t : Nat}
    {store : ShareStore} {st : TrShareState F.toFrostDkg}
    (h : (wireDistributedDkg F rand disk n t store).1 = .ok st) :
    ∃ bundle, runInProcess F rand (participants n) (threshold n t) = .ok bundle ∧
      st = ⟨bundle.keyPackages, bundle.pubkeyPackage, (threshold n t).toUInt64⟩ := by
  unfold wireDistributedDkg at h
  split at h
  · cases h
  rename_i bundle hRun
  split at h
  · cases h
  exact ⟨bundle, hRun, (Except.ok.inj h).symm⟩

/--
**What is installed is a sharing.** The keyset that a boot installs has a key for each
participant, all under one group key and of the threshold that was configured, and their
shares are the values of one polynomial below the threshold, whose value at zero is the
secret of the group key.
-/
theorem wireDistributedDkg_complete {K V : Type} [CommRing K] [AddCommGroup V] [Module K V]
    (hLaws : F.Laws) (S : KeygenSpec F K V) {rand : F.Identifier → F.Randomness}
    {disk : ShareDisk} {n t : Nat} {store : ShareStore} {st : TrShareState F.toFrostDkg}
    (h : (wireDistributedDkg F rand disk n t store).1 = .ok st) :
    SharedKeyset S.toRefreshSpec (st.keyPackages.entries.map Prod.fst) (threshold n t).toNat
        (F.verifyingKey st.pubkeyPackage) st.keyPackages st.pubkeyPackage ∧
      st.keyPackages.entries.length = (participants n).toNat ∧
      st.minSigners.toNat = (threshold n t).toNat := by
  obtain ⟨bundle, hRun, rfl⟩ := wireDistributedDkg_ok h
  obtain ⟨ids, hIds, hNodup, hNe, hRounds⟩ := runInProcess_ok hLaws hRun
  obtain ⟨R, hKeys, ⟨first, hFirst, hPubkey⟩, hAgree⟩ := runRounds_ok hNodup hNe hRounds
  obtain ⟨-, -, hPoint, -, hVerifying⟩ := R.made_spec S hNodup hFirst
  refine ⟨⟨rfl, rfl, R.group S, R.degree_group S, ?_, fun e he => ?_, fun e he => ?_⟩, ?_, rfl⟩
  · show _ = S.point (F.verifyingKey bundle.pubkeyPackage)
    rw [hPubkey, hPoint]
  · obtain ⟨hMem, hKey⟩ := mem_entries R hKeys he
    obtain ⟨hIdentifier, hGroupKey, -, hShare, -⟩ := R.made_spec S hNodup hMem
    rw [hKey]
    exact ⟨hIdentifier, hGroupKey.trans (hAgree _ hMem), (checkKeys_ok (R.checked _ hMem)).1, hShare⟩
  · obtain ⟨hMem, -⟩ := mem_entries R hKeys he
    show S.verifyingShare bundle.pubkeyPackage e.1 = _
    rw [hPubkey]
    exact hVerifying e.1 hMem
  · rw [← (identifiers_ok hLaws hIds).1, ← (perm_keys hNodup R hKeys).length_eq, List.length_map]

end Boot

end DistributedDkgAdapter

/-! ## Over committed polynomials -/

namespace PolyFrost

open PolyCommit

variable {K V : Type} [LinearOrder K] [CommRing K] [DecidableEq V] [AddCommGroup V] [Module K V]
  {P : PolyFrost K V}

/-- The crate does nothing to a finished key, as that of the plain suite. -/
structure Plain (P : PolyFrost K V) : Prop where
  postKey : ∀ key, P.postKey key = key
  postShare : ∀ key share, P.postShare key share = share

omit [LinearOrder K] in
theorem keygenPart1_ok {identifier : K} {maxSigners minSigners : Nat} {rand : (Nat → K) × K}
    {secret : PolySecret1 K} {package : PolyRound1 K V}
    (h : P.part1 identifier maxSigners minSigners rand = .ok (secret, package)) :
    secret.identifier = identifier ∧ toPolynomial secret.coefficients ∈ degreeLT K minSigners ∧
      ∀ x, evalCommit package.commitment x =
        (toPolynomial secret.coefficients).eval x • P.generator := by
  have hDrawn := (part1_ok h).2
  refine ⟨?_, ?_, fun x => ?_⟩
  · rw [hDrawn.made]
  · rw [← hDrawn.length]
    exact toPolynomial_mem_degreeLT _
  · rw [hDrawn.commitment, evalCommit_commit, eval_toPolynomial]

theorem keygenPart2_ok {secret : PolySecret1 K} {received : Table K (PolyRound1 K V)}
    {secret2 : PolySecret2 K V} {outbound : Table K K}
    (h : P.part2 secret received = .ok (secret2, outbound)) :
    secret2.identifier = secret.identifier ∧
      secret2.secretShare = (toPolynomial secret.coefficients).eval secret.identifier ∧
      (∀ x, evalCommit secret2.commitment x =
        (toPolynomial secret.coefficients).eval x • P.generator) ∧
      outbound.ReadsAs received.keys id fun j => (toPolynomial secret.coefficients).eval j := by
  unfold part2 at h
  split at h
  · cases h
  split at h
  · cases h
  split at h
  · cases Except.ok.inj h
    refine ⟨rfl, (eval_toPolynomial ..).symm, fun x => ?_, ?_⟩
    · rw [eval_toPolynomial]
      exact evalCommit_commit ..
    · -- one value for each of the packages that came
      have hRows : received.toPairs.map (fun e => (e.1, eval secret.coefficients e.1)) =
          received.keys.map fun j => (j, eval secret.coefficients j) := by
        rw [← Table.map_fst_toPairs, List.map_map]
        rfl
      simp only [eval_toPolynomial, hRows]
      exact Table.ReadsAs.tabulate received.keys_nodup (eval secret.coefficients) id
  · cases h

theorem keygenPart3_ok (hPlain : P.Plain) {secret : PolySecret2 K V}
    {received : Table K (PolyRound1 K V)} {inbox : Table K K} {kp : PolyKey K V}
    {pk : PolyPubkey K V} (h : P.part3 secret received inbox = .ok (kp, pk)) :
    kp.identifier = secret.identifier ∧ kp.verifyingKey = pk.verifyingKey ∧
      pk.verifyingKey = evalCommit secret.commitment (0 : K) +
        (received.toPairs.map fun e => evalCommit e.2.commitment (0 : K)).sum ∧
      kp.signingShare = secret.secretShare + (inbox.toPairs.map Prod.snd).sum ∧
      ∀ j ∈ secret.identifier :: received.keys, pk.verifyingShares.lookup j = some
        (evalCommit secret.commitment j +
          (received.toPairs.map fun e => evalCommit e.2.commitment j).sum) := by
  unfold part3 at h
  split at h
  · cases h
  split at h
  · cases h
  split at h
  · cases Except.ok.inj h
    refine ⟨rfl, rfl, (hPlain.postKey _).trans ?_, hPlain.postShare .., fun j hj => ?_⟩
    · unfold groupCommitment
      simp only [List.map_cons, List.map_map, List.sum_cons, evalCommit_zero]
      rfl
    · rw [List.lookup_graph _ hj]
      simp only [List.map_cons, List.map_map, List.sum_cons]
      rfl
  · cases h

/-- The parts return what their documentation says. -/
noncomputable def keygenSpec (P : PolyFrost K V) (hPlain : P.Plain) :
    KeygenSpec P.toFrostRefresh K V where
  toRefreshSpec := P.refreshSpec
  published1 := fun package : PolyRound1 K V => evalCommit package.commitment
  published2 := fun secret : PolySecret2 K V => evalCommit secret.commitment
  keygenPart1 := fun _ _ _ _ _ _ h => keygenPart1_ok (K := K) (V := V) h
  keygenPart2 := fun _ _ _ _ h => keygenPart2_ok (K := K) (V := V) h
  keygenPart3 := fun _ _ _ _ _ h => keygenPart3_ok (K := K) (V := V) hPlain h

theorem total (P : PolyFrost K V) : DistributedDkgAdapter.Total P.toFrostRefresh.toFrostDkg where
  identifier u hu _ := ⟨P.scalarOfU16 u, if_neg (by omega)⟩
  part1 id max min rand hTwo hLe hMax := by
    show ∃ drawn, P.part1 id max min rand = .ok drawn
    unfold part1
    rw [if_neg (by omega), if_neg (by omega)]
    exact ⟨_, rfl⟩

end PolyFrost

/-! ## Two of three -/

namespace DistributedDkgAdapter

theorem smallFrost_plain : smallFrost.Plain := ⟨fun _ => rfl, fun _ _ => rfl⟩

/-- The participant `i` draws `i + (i + 1) * X`. -/
def smallDraws (i : Small) : (Nat → Small) × Small := (fun n => i + n, 1)

theorem wireDistributedDkg_iff_small :
    ∃ bundle entries, runInProcess smallRefresh smallDraws (participants 3) (threshold 3 2) =
        .ok bundle ∧
      bundle.keyPackages.entries.length = (participants 3).toNat ∧
      bundleRecords bundle = serialized entries ∧
      ∀ disk store, (∃ st, (wireDistributedDkg smallRefresh smallDraws disk 3 2 store).1 =
          .ok st) ↔
        ∀ e ∈ entries, disk e.1 e.2 = .stored :=
  wireDistributedDkg_iff smallFrost.laws smallFrost.total smallDraws 3 2

/-- A boot on a disk that takes all records. -/
theorem exists_smallBoot (n t : Nat) : ∃ st,
    (wireDistributedDkg smallRefresh smallDraws (fun _ _ => .stored) n t ∅).1 = .ok st := by
  obtain ⟨bundle, entries, hRun, -, hEntries⟩ :=
    runInProcess_completes smallFrost.laws smallFrost.total smallDraws n t
  refine (wireDistributedDkg_of_stored hRun).mpr ?_
  rw [persistShares, hEntries, putAll_ok fun _ _ => rfl]

end DistributedDkgAdapter

end KeroseneVault
