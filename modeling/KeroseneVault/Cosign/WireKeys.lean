import KeroseneVault.Cosign.Availability
import KeroseneVault.Cosign.LabNode
import KeroseneVault.Cosign.TrSuite
import KeroseneVault.Dkg.Completion
import KeroseneVault.Dkg.Persist

/-!
# From the wire DKG to signatures

The members of a mesh generate a Taproot key over the wire, in any order of messages,
and their nodes restart. Each boots with the one share it stored, and the shares are
those of one key: a member that coordinates a signature gets one exactly where its peers
can be reached.

* `Ceremony.group` — the polynomial that the members of a ceremony drew together;
* `Generated` — a run of the wire DKG up to its last round;
* `bootTr` — what a node boots with;
* `Boots` — the members' nodes boot with a share each, of one key.

Main results:

* `Ceremony.part3_spec` — part 3 gives a member its value of the polynomial;
* `Generated.boots` — what the last round stores is what the nodes boot with;
* `wireDkg_signs` — **a key that was generated over the wire signs**.
-/

namespace KeroseneVault

open Polynomial
open Table (Others)

/-! ## What the members share -/

namespace Ceremony

variable {k : WireDkg} {F : FrostRefresh} {K V : Type} [CommRing K] [AddCommGroup V] [Module K V]
  (C : Ceremony k F.toFrostDkg) (S : KeygenSpec F K V)

/-- The members draw by part 1 what they bring to the ceremony. -/
def Drawn : Prop :=
  ∀ i ∈ C.ids, ∃ rand, F.part1 i C.req.maxSigners C.req.minSigners rand =
    .ok (C.generation.secret i, C.generation.package i)

/-- The polynomial that a member drew. -/
def drew (i : F.Identifier) : K[X] := S.polynomial (C.generation.secret i)

/-- The polynomial that the members drew together. -/
noncomputable def group : K[X] := (C.ids.map (C.drew S)).sum

variable {C} {i : F.Identifier}

theorem drew_spec (hDrawn : C.Drawn) (hi : i ∈ C.ids) :
    S.owner1 (C.generation.secret i) = i ∧ C.drew S i ∈ degreeLT K C.req.minSigners ∧
      ∀ x, S.published1 (C.generation.package i) x = (C.drew S i).eval x • S.generator := by
  obtain ⟨rand, hPart1⟩ := hDrawn i hi
  exact S.keygenPart1 i C.req.maxSigners C.req.minSigners rand _ _ hPart1

theorem degree_group (hDrawn : C.Drawn) : C.group S ∈ degreeLT K C.req.minSigners := by
  refine list_sum_mem fun f hf => ?_
  obtain ⟨i, hi, rfl⟩ := List.mem_map.mp hf
  exact (drew_spec S hDrawn hi).2.1

/-- The value of what the members drew, as one member's and the others'. -/
theorem eval_group_split (hi : i ∈ C.ids) (x : K) :
    (C.group S).eval x =
      (C.drew S i).eval x + ((C.ids.erase i).map fun j => (C.drew S j).eval x).sum := by
  rw [group, eval_listSum, List.map_map, ← List.sum_map_erase _ hi]
  rfl

/-- A table with the values of the others reads as these. -/
theorem readsAs_of_others {ν μ : Type} {v : F.Identifier → ν} {m : Table F.Identifier ν}
    (h : Others C.ids i v m) (f : ν → μ) :
    m.ReadsAs (C.ids.erase i) f fun j => f (v j) := by
  intro j
  have hMem : j ∈ C.ids.erase i ↔ j ≠ i ∧ j ∈ C.ids := ids_nodup.mem_erase_iff
  by_cases hj : j ∈ C.ids.erase i
  · obtain ⟨hNe, hId⟩ := hMem.mp hj
    rw [if_pos hj, (h j (v j)).mpr ⟨hId, hNe, rfl⟩]
    rfl
  · rw [if_neg hj]
    cases hFound : m.lookup j with
    | none => rfl
    | some x =>
      obtain ⟨hId, hNe, -⟩ := (h j x).mp hFound
      exact absurd (hMem.mpr ⟨hNe, hId⟩) hj

/-- What a member sends to the others, and keeps for itself. -/
theorem sent_spec (hDrawn : C.Drawn) (hi : i ∈ C.ids) :
    S.owner2 (C.generation.secret2 i) = i ∧
      S.ownShare (C.generation.secret2 i) = (C.drew S i).eval (S.scalar i) ∧
      (∀ x, S.published2 (C.generation.secret2 i) x = (C.drew S i).eval x • S.generator) ∧
      ∀ j ∈ C.ids, j ≠ i →
        S.share (C.generation.share i j) = (C.drew S i).eval (S.scalar j) := by
  -- part 2 is of what the others sent, in whatever table it came
  have hOthers : Others C.ids i C.generation.package
      ((Table.tabulate C.ids C.generation.package).erase i) := by
    intro j x
    by_cases hj : j = i
    · subst hj
      rw [AList.lookup_erase]
      simp
    · rw [AList.lookup_erase_ne hj]
      by_cases hId : j ∈ C.ids
      · rw [Table.lookup_tabulate_of_mem ids_nodup _ hId]
        simp [hId, hj, eq_comm]
      · rw [Table.lookup_tabulate_of_notMem _ hId]
        simp [hId]
  obtain ⟨outbound, hPart2, hOutbound⟩ := C.generation.part2 i hi _ hOthers
  obtain ⟨hOwner2, hOwn, hPublished, hReads⟩ := S.keygenPart2 _ _ _ _ hPart2
  have hOwner := (drew_spec S hDrawn hi).1
  refine ⟨hOwner2.trans hOwner, by rw [hOwn, hOwner]; rfl, hPublished, fun j hj hNe => ?_⟩
  have hKeys := (readsAs_of_others hOthers id).mem_keys_iff (k := j)
  have hRead := hReads j
  rw [(hOutbound j _).mpr ⟨hj, hNe, rfl⟩,
    if_pos (hKeys.mpr (ids_nodup.mem_erase_iff.mpr ⟨hNe, hj⟩))] at hRead
  exact Option.some.inj hRead

/-- **Part 3.** With the others' packages it gives a member its value of what all drew,
under the group's key. -/
theorem part3_spec (hDrawn : C.Drawn) (hi : i ∈ C.ids)
    {received : Table F.Identifier F.Round1Package}
    (hReceived : Others C.ids i C.generation.package received)
    {inbox : Table F.Identifier F.Round2Package}
    (hInbox : Others C.ids i (fun j => C.generation.share j i) inbox)
    {kp : F.KeyPackage} {pk : F.PublicKeyPackage}
    (hPart3 : F.part3 (C.generation.secret2 i) received inbox = .ok (kp, pk)) :
    S.keyIdentifier kp = i ∧ S.keyVerifyingKey kp = F.verifyingKey pk ∧
      S.point (F.verifyingKey pk) = (C.group S).eval 0 • S.generator ∧
      S.signingShare kp = (C.group S).eval (S.scalar i) := by
  obtain ⟨hOwner, hOwn, hPublished, -⟩ := sent_spec S hDrawn hi
  obtain ⟨hIdentifier, hKey, hPoint, hShare, -⟩ := S.keygenPart3 _ _ _ _ _ hPart3
  -- the group key and the share are each a sum over the members, one's own term apart
  refine ⟨hIdentifier.trans hOwner, hKey, ?_, ?_⟩
  · -- the commitments of all, at zero
    have hOthers := (readsAs_of_others hReceived (S.published1 · 0)).perm (ids_nodup.erase i)
    have hValues : ((C.ids.erase i).map fun j => S.published1 (C.generation.package j) 0) =
        (C.ids.erase i).map fun j => (C.drew S j).eval 0 • S.generator :=
      List.map_congr_left fun j hj => (drew_spec S hDrawn (List.mem_of_mem_erase hj)).2.2 0
    rw [hPoint, hOthers.sum_eq, hValues, hPublished, eval_group_split S hi, add_smul,
      List.sum_smul, List.map_map]
    rfl
  · -- a share from each of the others
    have hOthers := (readsAs_of_others hInbox S.share).perm (ids_nodup.erase i)
    have hValues : ((C.ids.erase i).map fun j => S.share (C.generation.share j i)) =
        (C.ids.erase i).map fun j => (C.drew S j).eval (S.scalar i) := by
      refine List.map_congr_left fun j hj => ?_
      obtain ⟨hNe, hId⟩ := ids_nodup.mem_erase_iff.mp hj
      exact (sent_spec S hDrawn hId).2.2.2 i hi (Ne.symm hNe)
    rw [hShare, hOwn, hOthers.sum_eq, hValues, eval_group_split S hi]

end Ceremony

/-! ## The run of the DKG -/

/-- A mesh whose members started a session, in any order, and have all that the others sent,
in any order too; none has finalized. -/
structure Generated {k : WireDkg} {F : FrostDkg} (req : DkgStartRequest)
    (rand : String → F.Randomness) (hubs : String → DkgHub k F) (stores : String → ShareStore)
    (m : DkgMesh k F) : Prop where
  start : AllStart hubs req rand
  reached : ∃ (order : List String) (calls : List (String × HubCall F)), order.Perm req.members ∧
    Runs.EveryStep DkgMesh.step (Permits req) (Runs.run DkgMesh.step (.init hubs stores)
      (order.map fun i => (i, .start req (rand i)))) calls ∧
    m = Runs.run DkgMesh.step (Runs.run DkgMesh.step (.init hubs stores)
      (order.map fun i => (i, .start req (rand i)))) calls
  delivered : Delivered req m
  unfinished : ∀ i ∈ req.members, ∀ s, m.session i req.sessionId = some s → s.phase ≠ .complete

section Run

variable {k : WireDkg} {F : FrostRefresh} {req : DkgStartRequest}
  {rand : String → F.Randomness} {hubs : String → DkgHub k F.toFrostDkg}
  {stores : String → ShareStore}

/-- What the members bring to the ceremony is what their starts drew. -/
theorem AllStart.drawn (h : AllStart hubs req rand) {order : List String}
    (hOrder : order.Perm req.members) {C : Ceremony k F.toFrostDkg} (hReq : C.req = req)
    (hTracked : C.Tracked (Runs.run DkgMesh.step (.init hubs stores)
      (order.map fun i => (i, .start req (rand i))))) : C.Drawn := by
  subst hReq
  intro i hi
  obtain ⟨e, he, rfl⟩ := Ceremony.exists_of_mem_ids hi
  have hMember : e.1 ∈ C.req.members := C.names ▸ List.mem_map_of_mem he
  obtain ⟨roster, id, secret, package, bytes, -, -, -, -, -, hDraws⟩ := h.opened hMember
  obtain ⟨s, hs, hCurrent⟩ := hTracked.sessions e he
  -- its session is the one that its start left
  rw [DkgMesh.session, DkgMesh.hubs_runEach _ _ (hOrder.nodup_iff.mpr (sortDedup_nodup _)),
    if_pos (hOrder.mem_iff.mpr hMember)] at hs
  obtain rfl := Option.some.inj ((hDraws.session _).symm.trans hs)
  obtain rfl : id = e.2 := hCurrent.localIdentifier
  have hSecret : secret = C.generation.secret e.2 :=
    Option.some.inj (hCurrent.round1 rfl).2.2.1
  have hPackage : package = C.generation.package e.2 :=
    (hCurrent.packages e.2 package (AList.lookup_insert _)).2
  exact ⟨rand e.1, hSecret ▸ hPackage ▸ hDraws.part1⟩

/-- The run is one of a ceremony, to which the members bring what they drew. -/
theorem Generated.tracked (hLaws : F.Laws) {m : DkgMesh k F.toFrostDkg}
    (h : Generated req rand hubs stores m) :
    ∃ C : Ceremony k F.toFrostDkg, C.req = req ∧ C.Tracked m ∧ C.Drawn := by
  obtain ⟨order, calls, hOrder, hCalls, hm⟩ := h.reached
  obtain ⟨C, rfl, hFirst⟩ := h.start.tracked hLaws stores hOrder
  refine ⟨C, rfl, ?_, h.start.drawn hOrder rfl hFirst⟩
  rw [hm]
  exact (Runs.EveryState.of_everyStep (fun _ _ h hCall => h.step hLaws hCall) hFirst hCalls).last

end Run

/-! ## The last round -/

/-- What `finalize_round3` of the Taproot hub stores. -/
def finalShares {F : FrostDkg} (id : F.Identifier) (minSigners : Nat)
    (keys : F.KeyPackage × F.PublicKeyPackage) : TrShareState F where
  keyPackages := SortedMap.empty.insert id (F.evenKey keys.1)
  pubkeyPackage := F.evenPubkey keys.2
  minSigners := UInt64.ofNat minSigners

/-- A member that has everything stores the keys of part 3, made even. -/
theorem Ceremony.Tracked.stored {F : FrostDkg} (hLaws : F.Laws) {C : Ceremony .taproot F}
    {m : DkgMesh .taproot F} (h : C.Tracked m) (hDelivered : Delivered C.req m)
    {e : String × F.Identifier} (he : e ∈ C.roster)
    (hOpen : ∀ s, m.session e.1 C.req.sessionId = some s → s.phase ≠ .complete)
    {disk : ShareDisk} (hDisk : ∀ shareId bytes, disk shareId bytes = .stored)
    (store : ShareStore) :
    ∃ received inbox keys, Others C.ids e.2 C.generation.package received ∧
      Others C.ids e.2 (fun j => C.generation.share j e.2) inbox ∧
      F.part3 (C.generation.secret2 e.2) received inbox = .ok keys ∧
      F.keyMinSigners keys.1 = C.req.minSigners ∧
      (persistTrShares disk store (finalShares e.2 C.req.minSigners keys)).1 = .ok () ∧
      ((m.hubs e.1).perform store (.finalizeRound3 C.req.sessionId disk)).2 =
        (persistTrShares disk store (finalShares e.2 C.req.minSigners keys)).2 := by
  obtain ⟨s, hs, hCurrent⟩ := h.sessions e he
  have hPhase := hOpen s hs
  obtain ⟨hPackages, hNotFirst⟩ := h.moved hDelivered he hs
  have hInbox := (h.ready hDelivered he hs).resolve_left hPhase
  obtain ⟨keys, hKeys, hPut⟩ := hCurrent.toLive.finalizes hLaws he hPhase hPackages hInbox
  obtain ⟨r2Secret, kp, pk, hSize, hSecret, hPart3, -, rfl⟩ := SessionInner.round3Keys_ok.mp hKeys
  have hRound2 : s.phase = .round2 := by
    cases hp : s.phase with
    | round1 => exact absurd hp hNotFirst
    | round2 => rfl
    | complete => exact absurd hp hPhase
  cases Option.some.inj (hSecret.symm.trans (hCurrent.round2 hRound2))
  rw [hCurrent.maxSigners] at hSize
  obtain ⟨kp', pk', -, -, hPart3', hMin, -⟩ := hCurrent.toLive.part3 he hRound2 hSize
  obtain ⟨rfl, rfl⟩ := Prod.mk.inj (Except.ok.inj (hPart3.symm.trans hPart3'))
  -- the records are those of the one local share
  have hRecords : s.round3Records (SessionInner.finishKeys .taproot (kp, pk)) =
      trRecords (finalShares e.2 C.req.minSigners (kp, pk)) := by
    rw [finalShares, ← hCurrent.localIdentifier, ← hCurrent.minSigners]
    rfl
  have hStored := hPut disk store hDisk
  refine ⟨_, _, (kp, pk), hCurrent.others_packages hPackages,
    hCurrent.others_inbox he hSize, hPart3, hMin, by rw [persistTrShares, ← hRecords]; exact hStored,
    ?_⟩
  have hFound : (m.hubs e.1).sessions.lookup C.req.sessionId = some s := hs
  rw [DkgHub.perform, DkgHub.finalizeRound3, hFound]
  dsimp only
  rw [if_neg hPhase, hKeys]
  dsimp only
  rw [persistTrShares, ← hRecords]
  rcases hResult : putAll disk store
    (s.round3Records (SessionInner.finishKeys .taproot (kp, pk))) with ⟨outcome, after⟩
  rw [hResult] at hStored
  cases hStored
  rfl

/-! ## The next boot -/

section Boot

variable {T : TrSuite} {K V : Type} [CommRing K] [AddCommGroup V] [Module K V]

/-- What a node of a `distributed_wire` mesh boots with: `frost_tr` over the keyset that
`load_tr_shares` finds. -/
def bootTr (T : TrSuite) (store : ShareStore) :
    Except DomainError (Option (FrostTrShareState T.toFrostTr T.toCoordinator)) :=
  match loadTrShares T.toFrostDkg store with
  | .ok existing =>
    if existing.keyPackages.entries.length > 1 then
      .error (.thresholdError
        "distributed_wire refuses sealed multi-share TR material; install local share only")
    else .ok (some ⟨existing.keyPackages.entries, existing.pubkeyPackage,
      existing.minSigners.toNat⟩)
  | .error _ => .ok none

/-- What the members' nodes boot with, by their seats: one share each, of a key that they
generated. -/
structure Boots {T : TrSuite} (S : RefreshSpec T.toFrostRefresh K V) (req : DkgStartRequest)
    (stores : String → ShareStore) (roster : Roster T.toFrostDkg)
    (slot : String × T.Identifier → FrostTrShareState T.toFrostTr T.toCoordinator)
    (groupKey : T.VerifyingKey) (f : K[X]) : Prop where
  names : roster.map Prod.fst = req.members
  identifiers : RosterOk roster
  degree : f ∈ degreeLT K req.minSigners
  secret : f.eval 0 • S.generator = S.point groupKey
  boots : ∀ e ∈ roster, bootTr T (stores e.1) = .ok (some (slot e))
  share : ∀ e ∈ roster, ∃ kp, (slot e).keyPackages = [(e.2, kp)] ∧
    ShareOf S f req.minSigners groupKey e.2 kp
  threshold : ∀ e ∈ roster, (slot e).minSigners = req.minSigners
  pubkey : ∀ e ∈ roster, T.verifyingKey (slot e).pubkeyPackage = groupKey

/-- A store that has the last round's records boots with its key. -/
theorem bootTr_finalShares (hCodec : T.toFrostDkg.Codec) {store : ShareStore} {id : T.Identifier}
    {minSigners : Nat} (hMin : minSigners < 2 ^ 64) {keys : T.KeyPackage × T.PublicKeyPackage}
    (h : OnDisk store (finalShares (F := T.toFrostDkg) id minSigners keys)) :
    bootTr T store =
      .ok (some ⟨[(id, T.evenKey keys.1)], T.evenPubkey keys.2, minSigners⟩) := by
  have hEntries : (finalShares (F := T.toFrostDkg) id minSigners keys).keyPackages.entries =
      [(id, T.evenKey keys.1)] := rfl
  unfold bootTr
  rw [loadTrShares_of_onDisk hCodec h (by rw [hEntries]; exact List.cons_ne_nil _ _)]
  dsimp only
  rw [hEntries, if_neg (by simp)]
  show Except.ok (some (FrostTrShareState.mk _ _ (UInt64.ofNat minSigners).toNat)) = _
  rw [UInt64.toNat_ofNat', Nat.mod_eq_of_lt hMin]
  rfl

/-- **The last round and the boot.** After the last round, in any order, each member's node
boots with its value of one polynomial, under the group's key. -/
theorem Generated.boots (hLaws : T.toFrostDkg.Laws) (hCodec : T.toFrostDkg.Codec)
    (S : KeygenSpec T.toFrostRefresh K V) (A : TrSpec T S.toRefreshSpec) {req : DkgStartRequest}
    {rand : String → T.Randomness} {hubs : String → DkgHub .taproot T.toFrostDkg}
    {stores : String → ShareStore} {m : DkgMesh .taproot T.toFrostDkg}
    (h : Generated req rand hubs stores m) {disks : String → ShareDisk}
    (hDisks : ∀ i ∈ req.members, ∀ shareId bytes, disks i shareId bytes = .stored)
    {finals : List String} (hFinals : finals.Perm req.members) :
    2 ≤ req.minSigners ∧ ∃ roster slot groupKey f,
      Boots S.toRefreshSpec req (Runs.run DkgMesh.step m
        (finals.map fun i => (i, .finalizeRound3 req.sessionId (disks i)))).stores
        roster slot groupKey f := by
  obtain ⟨C, rfl, hTracked, hDrawn⟩ := h.tracked hLaws
  have hMember : ∀ e ∈ C.roster, e.1 ∈ C.req.members := fun e he =>
    C.names ▸ List.mem_map_of_mem he
  -- the members started with a threshold of two or more, and no larger than their number
  obtain ⟨first, hFirst⟩ := List.exists_mem_of_length_pos
    (show 0 < C.req.members.length by have := h.start.twoMembers; omega)
  obtain ⟨-, -, -, -, -, -, -, hTwo, hMax, -⟩ := h.start.opened hFirst
  have hMin : C.req.minSigners < 2 ^ 64 := by
    have hLt := C.size_lt
    rw [C.size] at hLt
    omega
  have hStored := fun e he => hTracked.stored hLaws h.delivered he (h.unfinished e.1 (hMember e he))
    (hDisks e.1 (hMember e he)) (m.stores e.1)
  obtain ⟨seat, hSeat, -⟩ := List.mem_map.mp (C.names ▸ hFirst : first ∈ C.roster.map Prod.fst)
  have : Nonempty (T.KeyPackage × T.PublicKeyPackage) :=
    have ⟨_, _, keys, _⟩ := hStored seat hSeat
    ⟨keys⟩
  choose! received inbox keys hReceived hInbox hPart3 hKeyMin hOk hStore using hStored
  have hSpec := fun e he => Ceremony.part3_spec S hDrawn (Ceremony.mem_ids he)
    (hReceived e he) (hInbox e he) (hPart3 e he)
  -- part 3 gives all members one group key
  have hKey : ∀ e ∈ C.roster, T.verifyingKey (keys e).2 = C.generation.key := by
    intro e he
    obtain ⟨_, _, _, _, hSame, -, -, -, hKey, -⟩ := C.generation.part3 e.2 (Ceremony.mem_ids he)
      _ _ (hReceived e he) (hInbox e he)
    rw [Except.ok.inj ((hPart3 e he).symm.trans hSame)]
    exact hKey
  refine ⟨hTwo, C.roster, fun e => ⟨[(e.2, T.evenKey (keys e).1)], T.evenPubkey (keys e).2,
    C.req.minSigners⟩, A.even.image C.generation.key,
    A.even.onPolynomial C.generation.key (C.group S), ?_⟩
  exact {
    names := C.names
    identifiers := C.rosterOk
    degree := A.even.degree_onPolynomial _ (by omega) (Ceremony.degree_group S hDrawn)
    secret := by
      refine A.even.secret ?_
      rw [← hKey seat hSeat]
      exact (hSpec seat hSeat).2.2.1.symm
    boots := fun e he => by
      rw [DkgMesh.stores_runEach _ _ (hFinals.nodup_iff.mpr (sortDedup_nodup _)),
        if_pos (hFinals.mem_iff.mpr (hMember e he)), hStore e he]
      exact bootTr_finalShares hCodec hMin (onDisk_persist hCodec (hOk e he))
    share := fun e he => by
      obtain ⟨hIdentifier, hVerifyingKey, -, hShare⟩ := hSpec e he
      refine ⟨_, rfl, ShareOf.map A.even ⟨hIdentifier, ?_, hKeyMin e he, hShare⟩⟩
      rw [hVerifyingKey, hKey e he]
    threshold := fun _ _ => rfl
    pubkey := fun e he => by
      show T.verifyingKey (T.evenPubkey (keys e).2) = _
      rw [A.even.pubkey, hKey e he] }

/-! ## Signing -/

/-- A run of the wire co-signer over nodes that booted so: who coordinates and whom it is
configured with, each at its seat, and what the peers do in the two rounds. -/
structure Cosigning (T : TrSuite) (roster : Roster T.toFrostDkg)
    (slot : String × T.Identifier → FrostTrShareState T.toFrostTr T.toCoordinator) where
  group : CosignGroup T.toFrostTr
  key : T.Identifier → T.KeyPackage
  seated : ∀ i ∈ group.localId :: group.peers, (group.name i, i) ∈ roster ∧
    (slot (group.name i, i)).keyPackages = [(i, key i)]
  r : T.Identifier → Nat
  pending : T.Identifier → Table String (PendingTrRound T.toFrostTr)
  round1 : T.Identifier → Reach
  round2 : T.Identifier → Reach
  net : CosignNet
  sessionId : String
  message : List UInt8
  maxRetries : Nat
  served : Serves net group key r pending round1 round2
    ⟨sessionId, T.hexEncode message, group.name group.localId⟩

namespace Cosigning

variable {roster : Roster T.toFrostDkg}
  {slot : String × T.Identifier → FrostTrShareState T.toFrostTr T.toCoordinator}
  (c : Cosigning T roster slot)

/-- What the coordinator booted with. -/
def localSlot : FrostTrShareState T.toFrostTr T.toCoordinator :=
  slot (c.group.name c.group.localId, c.group.localId)

/-- The run of `sign_raw_wire`. -/
def run : Except DomainError T.Signature :=
  Coordinator.signRawWire T.toCoordinator (.ok c.localSlot)
    ((c.group.transport c.maxRetries).toTransport c.net) (c.group.name c.group.localId) c.sessionId
    c.message (c.r c.group.localId)

/-- Every peer can be reached in the first round, and the lowest in the second. -/
def Reachable (minSigners : Nat) : Prop :=
  (∀ i ∈ c.group.peers, (c.round1 i).Up c.maxRetries) ∧
    ∀ i ∈ c.group.lowest minSigners, (c.round2 i).Up c.maxRetries

/-- The keyset that the nodes hold a share each of. -/
def keyset (minSigners : Nat) : Keyset T.toFrostTr T.toCoordinator :=
  ⟨c.key, c.localSlot.pubkeyPackage, minSigners⟩

/-- The coordinator's slot is its part of the keyset. -/
theorem localSlot_eq {minSigners : Nat} (hThreshold : c.localSlot.minSigners = minSigners) :
    c.localSlot = (c.keyset minSigners).state c.group.localId := by
  have hPackages : c.localSlot.keyPackages = [(c.group.localId, c.key c.group.localId)] :=
    (c.seated c.group.localId (List.mem_cons_self ..)).2
  calc c.localSlot
      = ⟨c.localSlot.keyPackages, c.localSlot.pubkeyPackage, c.localSlot.minSigners⟩ := rfl
    _ = ⟨[(c.group.localId, c.key c.group.localId)], c.localSlot.pubkeyPackage, minSigners⟩ := by
      rw [hPackages, hThreshold]
      rfl

/-- The nodes hold a correct keyset. -/
theorem correct {S : RefreshSpec T.toFrostRefresh K V} (A : TrSpec T S) {req : DkgStartRequest}
    (hTwo : 2 ≤ req.minSigners) {stores : String → ShareStore} {groupKey : T.VerifyingKey}
    {f : K[X]} (h : Boots S req stores roster slot groupKey f) :
    (c.keyset req.minSigners).Correct (c.group.localId :: c.group.peers) := by
  obtain ⟨hLocal, -⟩ := c.seated c.group.localId (List.mem_cons_self ..)
  have hGroup : T.verifyingKey c.localSlot.pubkeyPackage = groupKey := h.pubkey _ hLocal
  refine A.correct (f := f) ⟨h.degree, by rw [hGroup]; exact h.secret, fun i hi => ?_⟩ hTwo
  obtain ⟨hSeat, hKey⟩ := c.seated i hi
  obtain ⟨kp, hHolds, hShare⟩ := h.share _ hSeat
  obtain ⟨-, rfl⟩ := Prod.mk.inj (List.head_eq_of_cons_eq (hKey.symm.trans hHolds))
  rw [hGroup]
  exact hShare

end Cosigning

/--
**A key that was generated over the wire signs.** The members of a mesh start a session in
any order, their messages come in any order, each finalizes and its node restarts. Then,
whichever member coordinates and whatever peers it is configured with, as many as the
threshold with itself: its run returns a signature exactly where every peer can be reached
in the first round and the lowest in the second, and what it returns verifies under the
tweaked group key.
-/
theorem wireDkg_signs (hLaws : T.toFrostDkg.Laws) (hCodec : T.toFrostDkg.Codec)
    (hEncodes : FrostLaws T.toCoordinator) (S : KeygenSpec T.toFrostRefresh K V)
    (A : TrSpec T S.toRefreshSpec) {req : DkgStartRequest} {rand : String → T.Randomness}
    {hubs : String → DkgHub .taproot T.toFrostDkg} {stores : String → ShareStore}
    {m : DkgMesh .taproot T.toFrostDkg} (h : Generated req rand hubs stores m)
    {disks : String → ShareDisk}
    (hDisks : ∀ i ∈ req.members, ∀ shareId bytes, disks i shareId bytes = .stored)
    {finals : List String} (hFinals : finals.Perm req.members) :
    ∃ roster slot groupKey f,
      Boots S.toRefreshSpec req (Runs.run DkgMesh.step m
        (finals.map fun i => (i, .finalizeRound3 req.sessionId (disks i)))).stores
        roster slot groupKey f ∧
      ∀ c : Cosigning T roster slot, req.minSigners ≤ c.group.peers.length + 1 →
        ((∃ signature, c.run = .ok signature) ↔ c.Reachable req.minSigners) ∧
        ∀ signature, c.run = .ok signature →
          T.verify (T.tweakPubkey c.localSlot.pubkeyPackage) c.message signature = .ok () := by
  obtain ⟨hTwo, roster, slot, groupKey, f, hBoots⟩ :=
    h.boots hLaws hCodec S A hDisks hFinals
  refine ⟨roster, slot, groupKey, f, hBoots, fun c hEnough => ?_⟩
  have hCorrect := c.correct A hTwo hBoots
  obtain ⟨hSeat, -⟩ := c.seated c.group.localId (List.mem_cons_self ..)
  have hLocal := c.localSlot_eq (hBoots.threshold _ hSeat)
  constructor
  · rw [Cosigning.run, hLocal]
    exact ⟨fun ⟨_, hRun⟩ => up_of_signRawWire hEncodes hCorrect hEnough c.served hRun,
      fun ⟨hUp1, hUp2⟩ =>
        signRawWire_up hEncodes hCorrect hEnough c.served (fun _ _ => rfl) hUp1 hUp2⟩
  · intro signature hRun
    obtain ⟨_, _, _, attributed, -, -, -, hAggregate, rfl⟩ :=
      (Coordinator.signRawWire_ok_iff T.toCoordinator c.group.localId (c.key c.group.localId)
        (by rw [hLocal]; rfl)).mp hRun
    exact Coordinator.aggregateShares_verified T.toCoordinator hAggregate

end Boot

/-! ### Two members -/

def readTriples : List Small → Except String (List (Small × (Small × Small)))
  | [] => .ok []
  | i :: d :: e :: rest => (readTriples rest).map ((i, (d, e)) :: ·)
  | _ => .error "truncated commitment"

theorem readTriples_flatMap (commitments : List (Small × (Small × Small))) :
    readTriples (commitments.flatMap fun c => [c.1, c.2.1, c.2.2]) = .ok commitments := by
  induction commitments with
  | nil => rfl
  | cons c rest ih =>
    rw [List.flatMap_cons, List.cons_append, List.cons_append, List.cons_append, List.nil_append,
      readTriples, ih]
    rfl

/-- The bytes of a message, each behind a mark, and the commitments. -/
def packageScalars (commitments : List (Small × (Small × Small))) : List UInt8 → List Small
  | [] => 0 :: commitments.flatMap fun c => [c.1, c.2.1, c.2.2]
  | b :: message => 1 :: (b.toNat : Small) :: packageScalars commitments message

def readPackage : List Small → Except String (SigningPackage Small (Small × Small))
  | [] => .error "truncated package"
  | [mark] => if mark = 0 then .ok ⟨[], []⟩ else .error "truncated package"
  | mark :: a :: rest =>
    if mark = 0 then (readTriples (a :: rest)).map fun commitments => ⟨[], commitments⟩
    else (readPackage rest).map fun package =>
      ⟨UInt8.ofNat a.val :: package.message, package.commitments⟩

theorem readPackage_packageScalars (commitments : List (Small × (Small × Small)))
    (message : List UInt8) :
    readPackage (packageScalars commitments message) = .ok ⟨message, commitments⟩ := by
  induction message with
  | nil =>
    have hRead := readTriples_flatMap commitments
    match commitments with
    | [] => rfl
    | c :: rest =>
      rw [packageScalars, List.flatMap_cons, List.cons_append, readPackage, if_pos rfl]
      rw [List.flatMap_cons, List.cons_append] at hRead
      rw [hRead]
      rfl
  | cons b message ih =>
    have hByte : UInt8.ofNat ((b.toNat : Nat) : Small).val = b := by
      have hLt := b.toNat_lt
      rw [ZMod.val_natCast_of_lt (by omega), UInt8.ofNat_toNat]
    rw [packageScalars, readPackage, if_neg one_ne_zero, ih]
    show Except.ok _ = Except.ok _
    rw [hByte]

def readTwo : List Small → Except String (Small × Small)
  | [a, b] => .ok (a, b)
  | _ => .error "two scalars expected"

theorem readTwo_pair (e : Small × Small) : readTwo [e.1, e.2] = .ok e := rfl

theorem readOne_singleton (a : Small) : readOne [a] = .ok a := rfl

/-- A scalar that is not zero. -/
def nonzero (a : Small) : Small := if a = 0 then 1 else a

theorem nonzero_ne (a : Small) : nonzero a ≠ 0 := by
  unfold nonzero
  split
  · exact one_ne_zero
  · assumption

/-- Sums, for hashes. -/
def smallTr : PolyTr smallFrost where
  bindingFactor key _ _ i := key + i
  challenge nonce key message := nonce + key + (message.length : Small)
  nonces rand share := (nonzero (rand.2 + share), nonzero (rand.1 0))
  signatureBytes nonce z := scalarBytes nonce ++ scalarBytes z
  isEven := isEven
  evenKey _ := rfl
  evenShare _ _ := rfl
  tweakHash key := key + 5
  draw n := (fun _ => (n : Small), (n : Small))
  nonces_ne rand share := by
    have hOne (a : Small) : a • smallFrost.generator = a := mul_one a
    rw [hOne, hOne]
    exact ⟨nonzero_ne _, nonzero_ne _⟩
  commitments := .ofScalars (fun e => [e.1, e.2]) readTwo readTwo_pair
  package := .ofScalars (fun p => packageScalars p.commitments p.message) readPackage
    fun p => readPackage_packageScalars p.commitments p.message
  share := .ofScalars (fun a => [a]) readOne readOne_singleton

def smallTrSuite : TrSuite := smallTr.toTrSuite

theorem pair_generated : Generated (F := smallFrost.toFrostDkg) pairRequest pairRand
    (DkgHub.new (k := .taproot)) (fun _ => ∅) pairDelivered where
  start := pair_allStart
  reached := ⟨["b", "a"], pairCalls, by decide +kernel, by decide +kernel, rfl⟩
  delivered := pair_delivered
  unfinished i hi s hs := by
    have hOpen : pairRequest.members.all fun i =>
        match pairDelivered.session i "s1" with
        | none => true
        | some s => s.phase ≠ .complete := by decide +kernel
    have hAt := List.all_eq_true.mp hOpen i hi
    rw [show pairDelivered.session i "s1" = some s from hs] at hAt
    exact of_decide_eq_true hAt

/-- `a` coordinates, and is configured with `b`. -/
def pairGroup : CosignGroup smallTrSuite.toFrostTr where
  localId := (1 : Small)
  peers := [(2 : Small)]
  name (i : Small) := if i = 1 then "a" else "b"
  base _ := "http://10.0.0.2:7701"
  nodup := by decide +kernel
  name_inj := by decide +kernel

/-- Two members generate a key, boot with it, and the first coordinates a signature. -/
theorem wireDkg_signs_pair : ∃ roster slot groupKey f,
    Boots (T := smallTrSuite) smallFrost.refreshSpec pairRequest (Runs.run DkgMesh.step pairDelivered
      (["a", "b"].map fun i => (i, .finalizeRound3 "s1" fun _ _ => .stored))).stores
      roster slot groupKey f ∧
    ∃ c : Cosigning smallTrSuite roster slot, c.group = pairGroup ∧ c.message = [0x68, 0x69] ∧
      ∃ signature, c.run = .ok signature ∧
        smallTrSuite.verify (smallTrSuite.tweakPubkey c.localSlot.pubkeyPackage) [0x68, 0x69]
          signature = .ok () := by
  have hFinals : ["a", "b"].Perm pairRequest.members := by decide +kernel
  have hTrim (bytes : List UInt8) : smallFrost.hexDecode (strTrim (smallFrost.hexEncode bytes)) =
      .ok bytes := by
    dsimp only [smallFrost]
    exact hexPairs_strTrim_hexText bytes
  have hGenerated : Generated (F := smallTrSuite.toFrostDkg) pairRequest pairRand
      (DkgHub.new (k := .taproot)) (fun _ => ∅) pairDelivered := pair_generated
  have hLaws : smallTrSuite.toFrostDkg.Laws := smallFrost.laws
  have hCodec : smallTrSuite.toFrostDkg.Codec := smallFrost_codec
  have hEncodes : FrostLaws smallTrSuite.toCoordinator := smallTr.frostLaws hTrim
  have hDisks : ∀ i ∈ pairRequest.members, ∀ shareId bytes,
      (fun _ _ _ => .stored : String → ShareDisk) i shareId bytes = .stored := fun _ _ _ _ => rfl
  obtain ⟨roster, slot, groupKey, f, hBoots, hSigns⟩ := wireDkg_signs hLaws hCodec hEncodes
    (smallFrost.keygenSpec DistributedDkgAdapter.smallFrost_plain) smallTr.trSpec hGenerated hDisks
    hFinals
  refine ⟨roster, slot, groupKey, f, hBoots, ?_⟩
  -- the seats of the two
  obtain ⟨⟨nameA, a⟩, ⟨nameB, b⟩, rfl⟩ : ∃ ea eb, roster = [ea, eb] := by
    refine List.length_eq_two.mp ?_
    rw [← List.length_map Prod.fst, hBoots.names]
    decide +kernel
  have hNames : [nameA, nameB] = ["a", "b"] := hBoots.names.trans (by decide +kernel)
  obtain ⟨rfl, hB⟩ := List.cons.inj hNames
  obtain rfl := List.head_eq_of_cons_eq hB
  obtain rfl : (1 : Small) = a := Except.ok.inj (hBoots.identifiers.identifiers 0 _ rfl)
  obtain rfl : (2 : Small) = b := Except.ok.inj (hBoots.identifiers.identifiers 1 _ rfl)
  obtain ⟨keyA, hKeyA, -⟩ := hBoots.share ("a", (1 : Small)) (List.mem_cons_self ..)
  obtain ⟨keyB, hKeyB, -⟩ := hBoots.share ("b", (2 : Small))
    (List.mem_cons_of_mem _ (List.mem_cons_self ..))
  let key (i : Small) : PolyKey Small Small := if i = 1 then keyA else keyB
  let commit : TrCommitRequest := ⟨"s2", smallTrSuite.hexEncode [0x68, 0x69], "a"⟩
  let c : Cosigning smallTrSuite [("a", (1 : Small)), ("b", (2 : Small))] slot := {
    group := pairGroup
    key := key
    seated := by
      intro (i : Small) hi
      rcases List.mem_cons.mp hi with rfl | hi
      · exact ⟨List.mem_cons_self .., hKeyA⟩
      · obtain rfl : i = (2 : Small) := List.mem_singleton.mp hi
        exact ⟨List.mem_cons_of_mem _ (List.mem_cons_self ..), hKeyB⟩
    r := fun _ => 3
    pending := fun _ => ∅
    round1 := fun _ => .up 0
    round2 := fun _ => .up 0
    net := pairGroup.network key (fun _ => 3) (fun _ => ∅) (fun _ => .up 0) (fun _ => .up 0) commit
    sessionId := "s2"
    message := [0x68, 0x69]
    maxRetries := 3
    served := pairGroup.serves_network _ _ _ _ _ _ }
  have hUp (lost : Fin 3) : (Reach.up lost).Up c.maxRetries := lost.isLt
  obtain ⟨hIff, hVerified⟩ := hSigns c le_rfl
  obtain ⟨signature, hRun⟩ := hIff.mpr ⟨fun _ _ => hUp 0, fun _ _ => hUp 0⟩
  exact ⟨c, rfl, rfl, signature, hRun, hVerified signature hRun⟩

end KeroseneVault
