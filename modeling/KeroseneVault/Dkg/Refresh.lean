import KeroseneVault.Dkg.ShareStore
import Mathlib.Algebra.Polynomial.Eval.Defs
import Mathlib.Algebra.Polynomial.Eval.Degree
import Mathlib.RingTheory.Polynomial.Basic

/-!
# Refreshing a keyset in one process

`refresh_shares_in_process` and `refresh_tr_shares_in_process`: every member
of a keyset draws a polynomial without a constant term, sends its values to the
others, and each adds what it got to its share. The two functions are one, over
two crates, with other texts (`RefreshTexts`).

* `FrostRefresh` — the crate, with the refresh routines;
* `refreshInProcess` — the function;
* `RefreshSpec` — what the routines return, by their documentation;
* `SharedKeyset` — key packages that are a sharing of the group key.

Main results:

* `refreshInProcess_ok` — what a refresh went through;
* `refreshInProcess_ids`, `refreshInProcess_key` — it keeps the members and the
  group key;
* `SharedKeyset.refresh` — **a refresh of a keyset is one of the same group key**.
-/

namespace KeroseneVault

open Polynomial

/-! ## The crate -/

/-- A `frost` crate with its `keys::refresh`, and what the reshare hub uses of
`sha3`. The secrets and packages of a refresh are of the types those of a key
generation are of. -/
structure FrostRefresh extends FrostDkg where
  verifyingKeyEq : DecidableEq VerifyingKey
  /-- `Sha3_384` -/
  sha384 : List UInt8 → List UInt8
  refreshPart1 : Identifier → Nat → Nat → Randomness →
    Except String (Round1Secret × Round1Package)
  refreshPart2 : Round1Secret → Table Identifier Round1Package →
    Except String (Round2Secret × Table Identifier Round2Package)
  refreshShares : Round2Secret → Table Identifier Round1Package →
    Table Identifier Round2Package → PublicKeyPackage → KeyPackage →
    Except String (KeyPackage × PublicKeyPackage)

instance FrostRefresh.decidableEqVerifyingKey (F : FrostRefresh) : DecidableEq F.VerifyingKey :=
  F.verifyingKeyEq

/-- Where the texts of the two functions differ. -/
structure RefreshTexts where
  tr : String
  suite : String

def intentTexts : RefreshTexts := ⟨"", "frost"⟩

def taprootTexts : RefreshTexts := ⟨"tr ", "frost-tr"⟩

/-! ## The function -/

section Refresh

variable (F : FrostRefresh) (texts : RefreshTexts)

/-- One round of the loop over `refresh_dkg_part2`. The identifiers are the keys
of a map, so a secret that is taken out is not asked for again. -/
def refreshRound2 (secrets : Table F.Identifier F.Round1Secret)
    (packages : Table F.Identifier F.Round1Package) (id : F.Identifier) :
    Except DomainError (F.Round2Secret × Table F.Identifier F.Round2Package) :=
  match secrets.lookup id with
  | none => .error (.thresholdError s!"missing {texts.tr}refresh round1 secret")
  | some secret => mapErr s!"{texts.suite} refresh part2"
      (F.refreshPart2 secret (packages.erase id))

/-- One round of the loop over `refresh_dkg_shares`. -/
def refreshRound3 (minSigners : Nat) (packages : Table F.Identifier F.Round1Package)
    (secrets : Table F.Identifier F.Round2Secret)
    (inboxes : Table F.Identifier (Table F.Identifier F.Round2Package))
    (oldKeyPackages : SortedMap F.Identifier F.KeyPackage) (oldPubkey : F.PublicKeyPackage)
    (id : F.Identifier) : Except DomainError (F.KeyPackage × F.PublicKeyPackage) :=
  match inboxes.lookup id with
  | none => .error (.thresholdError
      s!"missing {texts.tr}refresh round2 inbox for {F.identifierDebug id}")
  | some received =>
    match secrets.lookup id with
    | none => .error (.thresholdError s!"missing {texts.tr}refresh round2 secret")
    | some secret =>
      match oldKeyPackages.entries.lookup id with
      | none => .error (.thresholdError
          s!"missing old {texts.tr}key package for {F.identifierDebug id}")
      | some oldKp => do
        let (kp, pk) ← mapErr s!"{texts.suite} refresh part3"
          (F.refreshShares secret (packages.erase id) received oldPubkey oldKp)
        if F.keyMinSigners kp ≠ minSigners then
          .error (.thresholdError
            s!"{texts.tr}reshare threshold drift: got {F.keyMinSigners kp} want {minSigners}")
        else if F.verifyingKey pk ≠ F.verifyingKey oldPubkey then
          .error (.thresholdError s!"{texts.tr}reshare changed group verifying key (forbidden)")
        else .ok (kp, pk)

/-- The three rounds, after the checks of the parameters. -/
def refreshRounds (rand : F.Identifier → F.Randomness) (ids : List F.Identifier)
    (maxSigners minSigners : Nat) (oldKeyPackages : SortedMap F.Identifier F.KeyPackage)
    (oldPubkey : F.PublicKeyPackage) :
    Except DomainError (SortedMap F.Identifier F.KeyPackage × F.PublicKeyPackage) := do
  let drawn ← ids.mapM fun id => mapErr s!"{texts.suite} refresh part1"
    (F.refreshPart1 id maxSigners minSigners (rand id))
  let secrets := Table.insertAll ∅ (ids.zip (drawn.map Prod.fst))
  let packages := Table.insertAll ∅ (ids.zip (drawn.map Prod.snd))
  let sent ← ids.mapM (refreshRound2 F texts secrets packages)
  let secrets2 := Table.insertAll ∅ (ids.zip (sent.map Prod.fst))
  let inboxes := (ids.zip (sent.map Prod.snd)).foldl (fun m e => m.file e.1 e.2.toPairs) ∅
  let refreshed ← ids.mapM
    (refreshRound3 F texts minSigners packages secrets2 inboxes oldKeyPackages oldPubkey)
  match refreshed.getLast? with
  | none => .error (.thresholdError s!"{texts.tr}reshare produced no pubkey package")
  | some (_, pubkey) => .ok (.ofList (ids.zip (refreshed.map Prod.fst)), pubkey)

/-- `refresh_shares_in_process` and `refresh_tr_shares_in_process`. -/
def refreshInProcess (rand : F.Identifier → F.Randomness)
    (oldKeyPackages : SortedMap F.Identifier F.KeyPackage) (oldPubkey : F.PublicKeyPackage) :
    Except DomainError (SortedMap F.Identifier F.KeyPackage × F.PublicKeyPackage) :=
  match oldKeyPackages.entries with
  | [] => .error (.thresholdError s!"{texts.tr}reshare requires at least one key package")
  | (_, first) :: _ =>
    let ids := oldKeyPackages.entries.map Prod.fst
    -- the length is cast to a `u16`
    let maxSigners := ids.length % 2 ^ 16
    let minSigners := F.keyMinSigners first
    if maxSigners < 2 ∨ minSigners < 2 ∨ minSigners > maxSigners then
      .error (.thresholdError
        s!"bad {texts.tr}reshare params: max={maxSigners} min={minSigners}")
    else refreshRounds F texts rand ids maxSigners minSigners oldKeyPackages oldPubkey

end Refresh

/-! ## What a refresh went through -/

/-- The rounds of a refresh that returns Ok, member by member. -/
structure RefreshTrace (F : FrostRefresh) (rand : F.Identifier → F.Randomness)
    (ids : List F.Identifier) (maxSigners minSigners : Nat)
    (old : SortedMap F.Identifier F.KeyPackage) (oldPubkey : F.PublicKeyPackage) where
  drawn : F.Identifier → F.Round1Secret × F.Round1Package
  sent : F.Identifier → F.Round2Secret × Table F.Identifier F.Round2Package
  received : F.Identifier → Table F.Identifier F.Round2Package
  oldKey : F.Identifier → F.KeyPackage
  refreshed : F.Identifier → F.KeyPackage × F.PublicKeyPackage
  part1 : ∀ i ∈ ids, F.refreshPart1 i maxSigners minSigners (rand i) = .ok (drawn i)
  part2 : ∀ i ∈ ids, F.refreshPart2 (drawn i).1
    ((Table.tabulate ids fun j => (drawn j).2).erase i) = .ok (sent i)
  delivered : ∀ i ∈ ids, ∀ j, (received i).lookup j = if j ∈ ids then (sent j).2.lookup i else none
  oldKeys : ∀ i ∈ ids, (i, oldKey i) ∈ old.entries
  part3 : ∀ i ∈ ids, F.refreshShares (sent i).1
    ((Table.tabulate ids fun j => (drawn j).2).erase i) (received i) oldPubkey (oldKey i) =
    .ok (refreshed i)
  minSigners : ∀ i ∈ ids, F.keyMinSigners (refreshed i).1 = minSigners
  key : ∀ i ∈ ids, F.verifyingKey (refreshed i).2 = F.verifyingKey oldPubkey

section Trace

variable {F : FrostRefresh} {texts : RefreshTexts} {rand : F.Identifier → F.Randomness}
  {ids : List F.Identifier} {maxSigners minSigners : Nat}
  {old keys : SortedMap F.Identifier F.KeyPackage} {oldPubkey pubkey : F.PublicKeyPackage}

theorem refreshRound2_ok {secrets : Table F.Identifier F.Round1Secret}
    {packages : Table F.Identifier F.Round1Package} {id : F.Identifier}
    {sent : F.Round2Secret × Table F.Identifier F.Round2Package}
    (h : refreshRound2 F texts secrets packages id = .ok sent) :
    ∃ secret, secrets.lookup id = some secret ∧
      F.refreshPart2 secret (packages.erase id) = .ok sent := by
  unfold refreshRound2 at h
  split at h
  · cases h
  · exact ⟨_, ‹_›, mapErr_ok.mp h⟩

/-- Round 3 gives a member new keys for its old ones, and checks their thresholds. -/
theorem refreshRound3_ok {packages : Table F.Identifier F.Round1Package}
    {secrets : Table F.Identifier F.Round2Secret}
    {inboxes : Table F.Identifier (Table F.Identifier F.Round2Package)} {id : F.Identifier}
    {refreshed : F.KeyPackage × F.PublicKeyPackage}
    (h : refreshRound3 F texts minSigners packages secrets inboxes old oldPubkey id =
      .ok refreshed) :
    ∃ received secret oldKp, inboxes.lookup id = some received ∧
      secrets.lookup id = some secret ∧ (id, oldKp) ∈ old.entries ∧
      F.refreshShares secret (packages.erase id) received oldPubkey oldKp = .ok refreshed ∧
      F.keyMinSigners refreshed.1 = minSigners ∧
      F.verifyingKey refreshed.2 = F.verifyingKey oldPubkey := by
  unfold refreshRound3 at h
  split at h
  · cases h
  rename_i received hReceived
  split at h
  · cases h
  rename_i secret hSecret
  split at h
  · cases h
  rename_i oldKp hOld
  obtain ⟨⟨kp, pk⟩, hShares, h⟩ := Results.bind_eq_ok.mp h
  dsimp only at h
  split at h
  · cases h
  rename_i hMin
  split at h
  · cases h
  rename_i hKey
  cases Except.ok.inj h
  -- the old key was found under its identifier
  obtain ⟨before, after, hEntries, -⟩ := List.lookup_eq_some_iff.mp hOld
  have hMem : (id, oldKp) ∈ old.entries := by
    rw [hEntries]
    exact List.mem_append_right _ (List.mem_cons_self ..)
  exact ⟨received, secret, oldKp, hReceived, hSecret, hMem, mapErr_ok.mp hShares,
    not_not.mp hMin, not_not.mp hKey⟩

/-- **The rounds of a refresh.** -/
theorem refreshRounds_ok (hNodup : ids.Nodup) (hNe : ids ≠ [])
    (h : refreshRounds F texts rand ids maxSigners minSigners old oldPubkey =
      .ok (keys, pubkey)) :
    ∃ R : RefreshTrace F rand ids maxSigners minSigners old oldPubkey,
      keys = .ofList (ids.map fun i => (i, (R.refreshed i).1)) ∧
      ∃ last ∈ ids, pubkey = (R.refreshed last).2 := by
  obtain ⟨drawnList, hDrawn, h⟩ := Results.bind_eq_ok.mp h
  obtain ⟨drawn, rfl, hPart1⟩ := Results.exists_fun_of_mapM_ok hDrawn hNe
  obtain ⟨sentList, hSent, h⟩ := Results.bind_eq_ok.mp h
  obtain ⟨sent, rfl, hPart2⟩ := Results.exists_fun_of_mapM_ok hSent hNe
  obtain ⟨refreshedList, hRefreshed, h⟩ := Results.bind_eq_ok.mp h
  obtain ⟨refreshed, rfl, hPart3⟩ := Results.exists_fun_of_mapM_ok hRefreshed hNe
  simp only [List.map_map, ← List.map_prod_left_eq_zip, List.foldl_map] at hPart2 hPart3 h
  -- each member has the secrets it drew, and its own row of what was sent
  have hSecret : ∀ {α : Type} (f : F.Identifier → α) {i a}, i ∈ ids →
      (Table.tabulate ids f).lookup i = some a → f i = a := fun f i a hi hLookup =>
    Option.some.inj ((Table.lookup_tabulate_of_mem hNodup f hi).symm.trans hLookup)
  have hSent2 : ∀ i ∈ ids, F.refreshPart2 (drawn i).1
      ((Table.tabulate ids fun j => (drawn j).2).erase i) = .ok (sent i) := by
    intro i hi
    obtain ⟨secret, hLookup, hRun⟩ := refreshRound2_ok (hPart2 i hi)
    obtain rfl := hSecret (Prod.fst ∘ drawn) hi hLookup
    exact hRun
  let inboxes := ids.foldl (fun m i => Table.file m i ((Prod.snd ∘ sent) i).toPairs)
    (∅ : Table F.Identifier (Table F.Identifier F.Round2Package))
  have hDelivered : ∀ i j, ((inboxes.lookup i).getD ∅).lookup j =
      if j ∈ ids then (sent j).2.lookup i else none := fun i j => by
    have hFile := Table.lookup_foldl_file (m := ∅) (k := i) (j := j) hNodup (Prod.snd ∘ sent)
      fun i' _ => rfl
    exact hFile
  have hEach : ∀ i ∈ ids, ∃ oldKp, (i, oldKp) ∈ old.entries ∧ F.refreshShares (sent i).1
      ((Table.tabulate ids fun j => (drawn j).2).erase i) ((inboxes.lookup i).getD ∅) oldPubkey
      oldKp = .ok (refreshed i) ∧ F.keyMinSigners (refreshed i).1 = minSigners ∧
      F.verifyingKey (refreshed i).2 = F.verifyingKey oldPubkey := by
    intro i hi
    obtain ⟨received, secret, oldKp, hReceived, hLookup, hOld, hRun, hMin, hKey⟩ :=
      refreshRound3_ok (hPart3 i hi)
    obtain rfl := hSecret (Prod.fst ∘ sent) hi hLookup
    have hInbox : (inboxes.lookup i).getD ∅ = received := by
      rw [show inboxes.lookup i = some received from hReceived]
      rfl
    exact ⟨oldKp, hOld, by rw [hInbox]; exact hRun, hMin, hKey⟩
  obtain ⟨first, hFirst⟩ := List.exists_mem_of_ne_nil ids hNe
  obtain ⟨someKey, -⟩ := hEach first hFirst
  have : Nonempty F.KeyPackage := ⟨someKey⟩
  choose! oldKey hOld hRun hMin hKey using hEach
  refine ⟨⟨drawn, sent, fun i => (inboxes.lookup i).getD ∅, oldKey, refreshed,
    fun i hi => mapErr_ok.mp (hPart1 i hi), hSent2, fun i _ => hDelivered i, hOld, hRun, hMin,
    hKey⟩, ?_⟩
  split at h
  · cases h
  rename_i last hLast
  cases Except.ok.inj h
  obtain ⟨i, hi, hEq⟩ := List.mem_map.mp (List.mem_of_getLast? hLast)
  have hPubkey : pubkey = (refreshed i).2 := by rw [hEq]
  exact ⟨rfl, i, hi, hPubkey⟩

theorem entries_ofList {α : Type} (hSorted : ids.Pairwise (· < ·)) (v : F.Identifier → α) :
    (SortedMap.ofList (ids.map fun i => (i, v i))).entries = ids.map fun i => (i, v i) := by
  have hKeys : (ids.map fun i => (i, v i)).map Prod.fst = ids := by
    rw [List.map_map]
    exact List.map_id ids
  exact congrArg SortedMap.entries
    (SortedMap.ofList_entries ⟨ids.map fun i => (i, v i), by rwa [hKeys]⟩)

/-- **A refresh** that returns Ok went through its rounds with the threshold of
one of its keys. -/
theorem refreshInProcess_ok (h : refreshInProcess F texts rand old oldPubkey = .ok (keys, pubkey)) :
    ∃ first ∈ old.entries, ∃ maxSigners,
      ∃ R : RefreshTrace F rand (old.entries.map Prod.fst) maxSigners (F.keyMinSigners first.2)
        old oldPubkey,
      keys.entries = (old.entries.map Prod.fst).map (fun i => (i, (R.refreshed i).1)) ∧
      ∃ last ∈ old.entries.map Prod.fst, pubkey = (R.refreshed last).2 := by
  unfold refreshInProcess at h
  split at h
  · cases h
  rename_i firstId first rest hEntries
  dsimp only at h
  split at h
  · cases h
  have hNodup : (old.entries.map Prod.fst).Nodup := old.sorted.imp ne_of_lt
  have hNe : old.entries.map Prod.fst ≠ [] := by
    rw [hEntries]
    exact List.cons_ne_nil _ _
  obtain ⟨R, rfl, last, hLast, rfl⟩ := refreshRounds_ok hNodup hNe h
  exact ⟨(firstId, first), by rw [hEntries]; exact List.mem_cons_self .., _, R,
    entries_ofList old.sorted _, last, hLast, rfl⟩

/-- A refresh keeps the members. -/
theorem refreshInProcess_ids
    (h : refreshInProcess F texts rand old oldPubkey = .ok (keys, pubkey)) :
    keys.entries.map Prod.fst = old.entries.map Prod.fst := by
  obtain ⟨first, -, maxSigners, R, hKeys, -⟩ := refreshInProcess_ok h
  rw [hKeys, List.map_map]
  exact List.map_id _

/-- A refresh keeps the group key. -/
theorem refreshInProcess_key
    (h : refreshInProcess F texts rand old oldPubkey = .ok (keys, pubkey)) :
    F.verifyingKey pubkey = F.verifyingKey oldPubkey := by
  obtain ⟨first, -, maxSigners, R, -, last, hLast, rfl⟩ := refreshInProcess_ok h
  exact R.key last hLast

end Trace

/-! ## What the routines return -/

/-- The documentation of the routines, over scalars `K` and points `V`: part 1
draws a polynomial without a constant term and commits to it, part 2 evaluates
it for each of the others, and part 3 adds what came to the old share. What a
commitment of a secret or a package says of the value for a member is read by
`committed1` and `committed2`. -/
structure RefreshSpec (F : FrostRefresh) (K V : Type) [CommRing K] [AddCommGroup V]
    [Module K V] where
  generator : V
  scalar : F.Identifier → K
  point : F.VerifyingKey → V
  keyIdentifier : F.KeyPackage → F.Identifier
  keyVerifyingKey : F.KeyPackage → F.VerifyingKey
  signingShare : F.KeyPackage → K
  verifyingShare : F.PublicKeyPackage → F.Identifier → Option V
  owner1 : F.Round1Secret → F.Identifier
  owner2 : F.Round2Secret → F.Identifier
  polynomial : F.Round1Secret → K[X]
  committed1 : F.Round1Package → F.Identifier → V
  committed2 : F.Round2Secret → F.Identifier → V
  ownShare : F.Round2Secret → K
  share : F.Round2Package → K
  part1 : ∀ id maxSigners minSigners rand secret package,
    F.refreshPart1 id maxSigners minSigners rand = .ok (secret, package) →
    owner1 secret = id ∧ polynomial secret ∈ degreeLT K minSigners ∧
      (polynomial secret).eval 0 = 0 ∧
      ∀ j, committed1 package j = (polynomial secret).eval (scalar j) • generator
  part2 : ∀ secret received secret2 outbound,
    F.refreshPart2 secret received = .ok (secret2, outbound) →
    owner2 secret2 = owner1 secret ∧
      ownShare secret2 = (polynomial secret).eval (scalar (owner1 secret)) ∧
      (∀ j, committed2 secret2 j = (polynomial secret).eval (scalar j) • generator) ∧
      outbound.ReadsAs received.keys share fun j => (polynomial secret).eval (scalar j)
  part3 : ∀ secret received inbox oldPubkey oldKp kp pk,
    F.refreshShares secret received inbox oldPubkey oldKp = .ok (kp, pk) →
    keyIdentifier kp = owner2 secret ∧ keyVerifyingKey kp = F.verifyingKey pk ∧
      signingShare kp =
        signingShare oldKp + ownShare secret + (inbox.toPairs.map fun e => share e.2).sum ∧
      ∀ j ∈ owner2 secret :: received.keys, verifyingShare pk j = (verifyingShare oldPubkey j).map
        (· + (committed2 secret j + (received.toPairs.map fun e => committed1 e.2 j).sum))

/-! ## Keysets -/

section SharedKeyset

variable {F : FrostRefresh} {K V : Type} [CommRing K] [AddCommGroup V] [Module K V]

/-- The packages are those of the polynomial `f`: its constant term is the group
secret, and each member has its value of it. -/
structure SharedBy (S : RefreshSpec F K V) (f : K[X]) (minSigners : Nat)
    (keys : SortedMap F.Identifier F.KeyPackage) (pubkey : F.PublicKeyPackage) : Prop where
  degree : f ∈ degreeLT K minSigners
  secret : f.eval 0 • S.generator = S.point (F.verifyingKey pubkey)
  key : ∀ e ∈ keys.entries, S.keyIdentifier e.2 = e.1 ∧
    S.keyVerifyingKey e.2 = F.verifyingKey pubkey ∧ F.keyMinSigners e.2 = minSigners ∧
    S.signingShare e.2 = f.eval (S.scalar e.1)
  verifyingShare : ∀ e ∈ keys.entries,
    S.verifyingShare pubkey e.1 = some (f.eval (S.scalar e.1) • S.generator)

/-- A complete set of key packages, for these members, that belongs to `key`. -/
structure SharedKeyset (S : RefreshSpec F K V) (ids : List F.Identifier) (minSigners : Nat)
    (key : F.VerifyingKey) (keys : SortedMap F.Identifier F.KeyPackage)
    (pubkey : F.PublicKeyPackage) : Prop where
  ids : keys.entries.map Prod.fst = ids
  key : F.verifyingKey pubkey = key
  shared : ∃ f : K[X], SharedBy S f minSigners keys pubkey

variable {S : RefreshSpec F K V} {texts : RefreshTexts} {rand : F.Identifier → F.Randomness}
  {ids : List F.Identifier} {maxSigners minSigners : Nat}
  {old keys : SortedMap F.Identifier F.KeyPackage} {oldPubkey pubkey : F.PublicKeyPackage}

namespace RefreshTrace

variable (R : RefreshTrace F rand ids maxSigners minSigners old oldPubkey)

/-- The polynomial a member drew. -/
def drew (S : RefreshSpec F K V) (i : F.Identifier) : K[X] := S.polynomial (R.drawn i).1

/-- The polynomial the members drew together. -/
noncomputable def zero (S : RefreshSpec F K V) : K[X] := (ids.map (R.drew S)).sum

theorem drew_spec (S : RefreshSpec F K V) {i : F.Identifier} (hi : i ∈ ids) :
    S.owner1 (R.drawn i).1 = i ∧ R.drew S i ∈ degreeLT K minSigners ∧ (R.drew S i).eval 0 = 0 ∧
      ∀ j, S.committed1 (R.drawn i).2 j = (R.drew S i).eval (S.scalar j) • S.generator :=
  S.part1 i maxSigners minSigners (rand i) _ _ (R.part1 i hi)

/-- The packages a member has of the others. -/
theorem packages_readsAs (S : RefreshSpec F K V) (hNodup : ids.Nodup) (i j : F.Identifier) :
    Table.ReadsAs ((Table.tabulate ids fun k => (R.drawn k).2).erase i) (ids.erase i)
      (S.committed1 · j) fun k => S.committed1 (R.drawn k).2 j :=
  (Table.ReadsAs.tabulate hNodup _ _).erase hNodup i

theorem degree_zero (S : RefreshSpec F K V) : R.zero S ∈ degreeLT K minSigners := by
  refine list_sum_mem fun f hf => ?_
  obtain ⟨i, hi, rfl⟩ := List.mem_map.mp hf
  exact (R.drew_spec S hi).2.1

theorem eval_zero (S : RefreshSpec F K V) : (R.zero S).eval 0 = 0 := by
  rw [zero, eval_listSum, List.map_map]
  refine List.sum_eq_zero fun a ha => ?_
  obtain ⟨i, hi, rfl⟩ := List.mem_map.mp ha
  exact (R.drew_spec S hi).2.2.1

/-- The value for `x` of what the members drew, as one member's and the
others'. -/
theorem eval_zero_split (S : RefreshSpec F K V) {i : F.Identifier} (hi : i ∈ ids) (x : K) :
    (R.zero S).eval x =
      (R.drew S i).eval x + ((ids.erase i).map fun j => (R.drew S j).eval x).sum := by
  rw [zero, eval_listSum, List.map_map, ← List.sum_map_erase _ hi]
  rfl

/-- What a member sends the others. -/
theorem sent_spec (S : RefreshSpec F K V) (hNodup : ids.Nodup) {i : F.Identifier} (hi : i ∈ ids) :
    S.owner2 (R.sent i).1 = i ∧ S.ownShare (R.sent i).1 = (R.drew S i).eval (S.scalar i) ∧
      (∀ j, S.committed2 (R.sent i).1 j = (R.drew S i).eval (S.scalar j) • S.generator) ∧
      (R.sent i).2.ReadsAs (ids.erase i) S.share fun j => (R.drew S i).eval (S.scalar j) := by
  obtain ⟨hOwner2, hOwn, hCommitted, hOutbound⟩ := S.part2 _ _ _ _ (R.part2 i hi)
  have hOwner := (R.drew_spec S hi).1
  refine ⟨hOwner2.trans hOwner, by rw [hOwn, hOwner]; rfl, hCommitted, fun j => ?_⟩
  have hKeys : j ∈ AList.keys ((Table.tabulate ids fun k => (R.drawn k).2).erase i) ↔
      j ∈ ids.erase i := (R.packages_readsAs S hNodup i i).mem_keys_iff
  rw [hOutbound j]
  simp only [hKeys]
  rfl

/-- What came to a member: a share from each of the others. -/
theorem received_readsAs (S : RefreshSpec F K V) (hNodup : ids.Nodup) {i : F.Identifier}
    (hi : i ∈ ids) :
    (R.received i).ReadsAs (ids.erase i) S.share fun j => (R.drew S j).eval (S.scalar i) :=
  Table.ReadsAs.column hNodup (w := fun j i => (R.drew S j).eval (S.scalar i)) hi
    (fun _ hj => (R.sent_spec S hNodup hj).2.2.2) (R.delivered i hi)

/-- A member's share grows by its value of what the members drew. -/
theorem signingShare_refreshed (S : RefreshSpec F K V) (hNodup : ids.Nodup) {i : F.Identifier}
    (hi : i ∈ ids) :
    S.keyIdentifier (R.refreshed i).1 = i ∧
      S.keyVerifyingKey (R.refreshed i).1 = F.verifyingKey (R.refreshed i).2 ∧
      S.signingShare (R.refreshed i).1 =
        S.signingShare (R.oldKey i) + (R.zero S).eval (S.scalar i) := by
  obtain ⟨hOwner, hOwn, -, -⟩ := R.sent_spec S hNodup hi
  obtain ⟨hIdentifier, hKey, hShare, -⟩ := S.part3 _ _ _ _ _ _ _ (R.part3 i hi)
  have hInbox := ((R.received_readsAs S hNodup hi).perm (hNodup.erase i)).sum_eq
  refine ⟨hIdentifier.trans hOwner, hKey, ?_⟩
  rw [hShare, hOwn, hInbox, R.eval_zero_split S hi]
  ring

/-- The verifying share of every member grows by the same. -/
theorem verifyingShare_refreshed (S : RefreshSpec F K V) (hNodup : ids.Nodup) {i j : F.Identifier}
    (hi : i ∈ ids) (hj : j ∈ ids) :
    S.verifyingShare (R.refreshed i).2 j =
      (S.verifyingShare oldPubkey j).map (· + (R.zero S).eval (S.scalar j) • S.generator) := by
  obtain ⟨hOwner, -, hCommitted, -⟩ := R.sent_spec S hNodup hi
  obtain ⟨-, -, -, hVerifying⟩ := S.part3 _ _ _ _ _ _ _ (R.part3 i hi)
  have hPackages := R.packages_readsAs S hNodup i j
  -- the member's own commitment and those of the others
  have hMem : j ∈ S.owner2 (R.sent i).1 ::
      AList.keys ((Table.tabulate ids fun k => (R.drawn k).2).erase i) := by
    rw [hOwner, List.mem_cons, hPackages.mem_keys_iff, hNodup.mem_erase_iff]
    by_cases hEq : j = i
    · exact .inl hEq
    · exact .inr ⟨hEq, hj⟩
  have hOthers : ((ids.erase i).map fun k => S.committed1 (R.drawn k).2 j) =
      (ids.erase i).map fun k => (R.drew S k).eval (S.scalar j) • S.generator :=
    List.map_congr_left fun k hk => (R.drew_spec S (List.mem_of_mem_erase hk)).2.2.2 j
  rw [hVerifying j hMem, hCommitted j, (hPackages.perm (hNodup.erase i)).sum_eq, hOthers,
    R.eval_zero_split S hi, add_smul, List.sum_smul, List.map_map]
  rfl

end RefreshTrace

/-- **A refresh of a keyset is a keyset of the same group key**, for the same
members. -/
theorem SharedKeyset.refresh {key : F.VerifyingKey}
    (hOld : SharedKeyset S ids minSigners key old oldPubkey)
    (h : refreshInProcess F texts rand old oldPubkey = .ok (keys, pubkey)) :
    SharedKeyset S ids minSigners key keys pubkey := by
  obtain ⟨rfl, hKey, f, hShared⟩ := hOld
  have hKeep := refreshInProcess_key h
  have hIds := refreshInProcess_ids h
  obtain ⟨first, hFirst, maxSigners, R, hNew, last, hLast, rfl⟩ := refreshInProcess_ok h
  obtain rfl : F.keyMinSigners first.2 = minSigners := (hShared.key first hFirst).2.2.1
  have hNodup : (old.entries.map Prod.fst).Nodup := old.sorted.imp ne_of_lt
  have hOldKey : ∀ i ∈ old.entries.map Prod.fst, S.signingShare (R.oldKey i) = f.eval (S.scalar i) :=
    fun i hi => (hShared.key _ (R.oldKeys i hi)).2.2.2
  -- the new shares are values of the old polynomial with the sum of those drawn added
  refine ⟨hIds, hKeep.trans hKey, f + R.zero S, ?_, ?_, ?_, ?_⟩
  · exact (degreeLT K _).add_mem hShared.degree (R.degree_zero S)
  · rw [eval_add, R.eval_zero S, add_zero, hKeep, hShared.secret]
  · intro e he
    rw [hNew] at he
    obtain ⟨i, hi, rfl⟩ := List.mem_map.mp he
    obtain ⟨hIdentifier, hMemberKey, hShare⟩ := R.signingShare_refreshed S hNodup hi
    refine ⟨hIdentifier, ?_, R.minSigners i hi, ?_⟩
    · rw [hMemberKey, R.key i hi, hKeep]
    · rw [hShare, hOldKey i hi, eval_add]
  · intro e he
    rw [hNew] at he
    obtain ⟨i, hi, rfl⟩ := List.mem_map.mp he
    have hBefore := hShared.verifyingShare _ (R.oldKeys i hi)
    rw [R.verifyingShare_refreshed S hNodup hLast hi, hBefore, Option.map_some, eval_add, add_smul]

end SharedKeyset

end KeroseneVault
