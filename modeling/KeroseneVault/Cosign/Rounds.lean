import KeroseneVault.Cosign.Coordinator
import KeroseneVault.Lib.Results

/-!
# What a run makes of its two rounds

A coordinator and its configured peers, each a FROST identifier with a node id
of its own, are a `CosignGroup`. When each peer's commit response decodes to
its own identifier, the tables of the run list exactly the identifiers one
expects, and the cut keeps the coordinator and the lowest peers.

* `CosignGroup` — the coordinator's view of the mesh;
* `CosignGroup.lowest t` — the peers that a cut to `t` signers keeps;
* `AllCommitted`, `Shared` — responses that decode to the peers' own entries.

Main results:

* `readCommits_lists`, `trimSigners_lists`, `readShares_lists` — the three
  loops over such responses;
* `prepareShares_committed` — after such a first round a run asks exactly the
  lowest peers;
* `aggregateShares_shared` — it ends with the aggregate of exactly their
  shares.
-/

namespace KeroseneVault

/-- Entries put in front of one that was there. -/
theorem reverse_append_perm {α : Type} {l l' : List α} (h : l.Perm l') (a : α) :
    (l.reverse ++ [a]).Perm (a :: l') :=
  List.perm_append_comm.trans (((List.reverse_perm l).trans h).cons a)

/-! ## The group -/

/-- A coordinator and its peers in the order they are configured; node ids tell
them apart. -/
structure CosignGroup (F : FrostTr) where
  localId : F.Identifier
  peers : List F.Identifier
  name : F.Identifier → String
  base : F.Identifier → String
  nodup : (localId :: peers).Nodup
  name_inj : ∀ i ∈ localId :: peers, ∀ j ∈ localId :: peers, name i = name j → i = j

namespace CosignGroup

variable {F : FrostTr} (G : CosignGroup F)

/-- The peer as `HttpTrCosignTransport` is configured with it. -/
def peer (i : F.Identifier) : String × String := (G.name i, G.base i)

def transport (maxRetries : Nat) : HttpTrCosignTransport := ⟨G.peers.map G.peer, maxRetries⟩

@[simp] theorem transport_maxRetries (maxRetries : Nat) :
    (G.transport maxRetries).maxRetries = maxRetries := rfl

/-- The `t - 1` peers with the lowest identifiers. -/
def lowest (t : Nat) : List F.Identifier := (Coordinator.sortIds G.peers).take (t - 1)

theorem localId_notMem : G.localId ∉ G.peers := (List.nodup_cons.mp G.nodup).1

theorem peers_nodup : G.peers.Nodup := (List.nodup_cons.mp G.nodup).2

theorem sortIds_perm (ids : List F.Identifier) : (Coordinator.sortIds ids).Perm ids :=
  List.mergeSort_perm ..

theorem lowest_subset (t : Nat) : G.lowest t ⊆ G.peers := fun _ hi =>
  (sortIds_perm G.peers).mem_iff.mp (List.mem_of_mem_take hi)

theorem lowest_nodup (t : Nat) : (G.lowest t).Nodup :=
  (List.take_sublist ..).nodup ((sortIds_perm G.peers).nodup_iff.mpr G.peers_nodup)

theorem signers_nodup (t : Nat) : (G.localId :: G.lowest t).Nodup :=
  List.nodup_cons.mpr ⟨fun h => G.localId_notMem (G.lowest_subset t h), G.lowest_nodup t⟩

theorem lowest_length {t : Nat} (h : t ≤ G.peers.length + 1) : (G.lowest t).length = t - 1 := by
  have hLength : (Coordinator.sortIds G.peers).length = G.peers.length :=
    (sortIds_perm G.peers).length_eq
  rw [lowest, List.length_take, hLength]
  omega

/-- The lowest peers in the order they are configured. -/
theorem filter_lowest_perm (t : Nat) :
    (G.peers.filter fun i => decide (i ∈ G.lowest t)).Perm (G.lowest t) := by
  refine (List.perm_ext_iff_of_nodup (G.peers_nodup.filter _) (G.lowest_nodup t)).mpr fun i => ?_
  rw [List.mem_filter, decide_eq_true_eq]
  exact ⟨fun h => h.2, fun h => ⟨G.lowest_subset t h, h⟩⟩

theorem lowest_ne_nil {t : Nat} (hTwo : 2 ≤ t) (h : t ≤ G.peers.length + 1) : G.lowest t ≠ [] := by
  rw [← List.length_pos_iff, G.lowest_length h]
  omega

end CosignGroup

namespace Coordinator

variable {F : FrostTr} {W : FrostTrCoordinator F}

/-! ## The loops -/

/-- The identifier decodes from its encoding. -/
def IdentifierLaw (W : FrostTrCoordinator F) : Prop :=
  ∀ i, W.deserializeIdentifier (F.identifierBytes i) = .ok i

theorem IdentifierLaw.injective (h : IdentifierLaw W) : Function.Injective F.identifierBytes := by
  intro i j hEq
  have hi := h i
  rw [hEq, h j] at hi
  exact (Except.ok.inj hi).symm

/-- Sorted by encoding. -/
def InOrder (ids : List F.Identifier) : Prop :=
  ids.Pairwise fun a b => F.identifierBytes a ≤ F.identifierBytes b

theorem sortIds_inOrder (ids : List F.Identifier) : InOrder (sortIds ids) := by
  have h : (sortIds ids).Pairwise fun a b =>
      decide (F.identifierBytes a ≤ F.identifierBytes b) = true := List.pairwise_mergeSort
    (fun a b c hab hbc => by
      simp only [decide_eq_true_eq] at hab hbc ⊢
      exact List.le_trans hab hbc)
    (fun a b => by
      simp only [Bool.or_eq_true, decide_eq_true_eq]
      exact List.le_total _ _) ids
  exact h.imp fun hab => of_decide_eq_true hab

/-- A list of identifiers has one order. -/
theorem InOrder.unique (hLaw : IdentifierLaw W) {ids ids' : List F.Identifier}
    (h : InOrder ids) (h' : InOrder ids') (hPerm : ids.Perm ids') : ids = ids' :=
  List.Perm.eq_of_pairwise (fun _ _ _ _ hab hba => hLaw.injective (List.le_antisymm hab hba))
    h h' hPerm

/-- Without the local identifier, the order of all is the order of the peers. -/
theorem sortIds_filter_ne (hLaw : IdentifierLaw W) {id : F.Identifier}
    {ids keys : List F.Identifier} (hNot : id ∉ ids) (hKeys : keys.Perm (id :: ids)) :
    (sortIds keys).filter (fun i => decide (i ≠ id)) = sortIds ids := by
  refine InOrder.unique hLaw ((sortIds_inOrder keys).sublist List.filter_sublist)
    (sortIds_inOrder ids) ?_
  have hRest : (id :: ids).filter (fun i => decide (i ≠ id)) = ids := by
    rw [List.filter_cons_of_neg (by simp), List.filter_eq_self]
    intro i hi
    exact decide_eq_true fun hEq => hNot (hEq ▸ hi)
  have hPerm := ((CosignGroup.sortIds_perm keys).trans hKeys).filter fun i => decide (i ≠ id)
  rw [hRest] at hPerm
  exact hPerm.trans (CosignGroup.sortIds_perm ids).symm

/-- The responses decode to the peers' own identifiers, each with its
commitments under `c`, and carry the peers' own names. -/
structure AllCommitted (W : FrostTrCoordinator F) (name : F.Identifier → String)
    (c : F.Identifier → F.Commitments) (resp : F.Identifier → TrCommitResponse)
    (ids : List F.Identifier) : Prop where
  decodes : ∀ i ∈ ids, decodeCommit W (resp i) = .ok (i, c i)
  named : ∀ i ∈ ids, (resp i).nodeId = name i

/-- The first loop lists the peers in front of what was there. -/
theorem readCommits_lists {name : F.Identifier → String} {c : F.Identifier → F.Commitments}
    {resp : F.Identifier → TrCommitResponse} {ids ks ns : List F.Identifier}
    (h : AllCommitted W name c resp ids) (acc : Commits F) (hc : acc.commitments.Lists ks c)
    (hn : acc.names.Lists ns name) (hks : (ids.reverse ++ ks).Nodup)
    (hns : (ids.reverse ++ ns).Nodup) :
    ∃ got, readCommits W acc (ids.map resp) = .ok got ∧
      got.commitments.Lists (ids.reverse ++ ks) c ∧ got.names.Lists (ids.reverse ++ ns) name := by
  induction ids generalizing acc ks ns with
  | nil => exact ⟨acc, rfl, hc, hn⟩
  | cons i ids ih =>
    obtain ⟨hDecode, hDecodes⟩ := List.forall_mem_cons.mp h.decodes
    obtain ⟨hName, hNames⟩ := List.forall_mem_cons.mp h.named
    rw [List.reverse_cons, List.append_assoc, List.singleton_append] at hks hns
    have hNewK : i ∉ ks := (List.nodup_cons.mp (List.nodup_append.mp hks).2.1).1
    have hNewN : i ∉ ns := (List.nodup_cons.mp (List.nodup_append.mp hns).2.1).1
    -- a new identifier goes to the front of what is listed; the invariant of the induction is
    -- that both tables list what was read so far
    obtain ⟨got, hGot, hc', hn'⟩ := ih ⟨hDecodes, hNames⟩
      ⟨acc.commitments.insert i (c i), acc.names.insert i (name i)⟩
      (hc.insert hNewK) (hn.insert hNewN) hks hns
    refine ⟨got, ?_, ?_, ?_⟩
    · rw [List.map_cons, readCommits, hDecode]
      dsimp only
      rw [hName]
      exact hGot
    · rw [List.reverse_cons, List.append_assoc, List.singleton_append]
      exact hc'
    · rw [List.reverse_cons, List.append_assoc, List.singleton_append]
      exact hn'

/-- The loop of the cut takes the next identifiers until the threshold is met. -/
theorem keepLowest_lists {c : F.Identifier → F.Commitments} {localId : F.Identifier} {t : Nat}
    {commitments keep : Table F.Identifier F.Commitments} {ids ks : List F.Identifier}
    (hLookup : ∀ i ∈ ids, commitments.lookup i = some (c i)) (hKeep : keep.Lists ks c)
    (hNodup : ((ids.filter fun i => decide (i ≠ localId)) ++ ks).Nodup) :
    Table.Lists (keepLowest t localId commitments ids keep)
      (((ids.filter fun i => decide (i ≠ localId)).take (t - ks.length)).reverse ++ ks) c := by
  induction ids generalizing keep ks with
  | nil => simpa [keepLowest] using hKeep
  | cons i ids ih =>
    obtain ⟨hFound, hLookup⟩ := List.forall_mem_cons.mp hLookup
    rw [keepLowest, hKeep.size]
    by_cases hFull : ks.length ≥ t
    · rw [if_pos hFull, Nat.sub_eq_zero_of_le hFull]
      exact hKeep
    · rw [if_neg hFull]
      by_cases hLocal : i = localId
      · rw [List.filter_cons_of_neg (by simp [hLocal])] at hNodup ⊢
        rw [if_pos hLocal]
        exact ih hLookup hKeep hNodup
      · rw [List.filter_cons_of_pos (by simp [hLocal])] at hNodup ⊢
        rw [if_neg hLocal, hFound]
        have hNew : i ∉ ks := fun h =>
          (List.nodup_cons.mp hNodup).1 (List.mem_append_right _ h)
        have hRest := ih hLookup (hKeep.insert hNew)
          (List.perm_middle.nodup_iff.mpr hNodup)
        -- one place less is left
        obtain ⟨n, hn⟩ : ∃ n, t - ks.length = n + 1 := ⟨t - ks.length - 1, by omega⟩
        have hn' : t - (i :: ks).length = n := by
          rw [List.length_cons]
          omega
        rw [hn'] at hRest
        rw [hn, List.take_succ_cons, List.reverse_cons, List.append_assoc, List.singleton_append]
        exact hRest

/-- The cut keeps the local identifier and the lowest others, and it meets the
threshold exactly. -/
theorem trimSigners_keeps {c : F.Identifier → F.Commitments} {t : Nat} {localId : F.Identifier}
    {commitments : Table F.Identifier F.Commitments} {ks : List F.Identifier}
    (hLists : commitments.Lists ks c) (hLocal : localId ∈ ks) :
    Table.Lists (trimSigners t localId commitments)
      (if ks.length > t then
        (((sortIds ks).filter fun i => decide (i ≠ localId)).take (t - 1)).reverse ++ [localId]
      else ks) c := by
  unfold trimSigners
  rw [hLists.size]
  by_cases hMore : ks.length > t
  · rw [if_pos hMore, if_pos hMore, hLists.lookup_of_mem hLocal, hLists.keys]
    refine keepLowest_lists (fun i hi => ?_)
      ((Table.Lists.empty c).insert (List.not_mem_nil (a := localId))) ?_
    · exact hLists.lookup_of_mem ((CosignGroup.sortIds_perm ks).mem_iff.mp hi)
    · -- the local identifier is filtered out, and no other comes twice
      have hSorted : (sortIds ks).Nodup :=
        (CosignGroup.sortIds_perm ks).nodup_iff.mpr hLists.nodup
      refine List.nodup_append.mpr ⟨hSorted.filter _, List.nodup_singleton _, ?_⟩
      intro i hi j hj hEq
      rw [List.mem_singleton.mp hj] at hEq
      exact of_decide_eq_true (List.mem_filter.mp hi).2 hEq
  · rw [if_neg hMore, if_neg hMore]
    exact hLists

/-- The cut keeps the coordinator and the lowest peers. -/
theorem trimSigners_lists (hLaw : IdentifierLaw W) (G : CosignGroup F)
    {c : F.Identifier → F.Commitments} {t : Nat} {commitments : Table F.Identifier F.Commitments}
    {ks : List F.Identifier} (hAll : ks.Perm (G.localId :: G.peers))
    (hLists : commitments.Lists ks c) (ht : t ≤ G.peers.length + 1) :
    ∃ signers, signers.Perm (G.localId :: G.lowest t) ∧
      Table.Lists (trimSigners t G.localId commitments) signers c := by
  refine ⟨_, ?_, trimSigners_keeps hLists (hAll.mem_iff.mpr (List.mem_cons_self ..))⟩
  rw [sortIds_filter_ne hLaw G.localId_notMem hAll]
  by_cases hMore : ks.length > t
  · rw [if_pos hMore]
    exact reverse_append_perm (List.Perm.refl (G.lowest t)) G.localId
  · rw [if_neg hMore]
    have hTake : G.lowest t = sortIds G.peers := by
      refine List.take_of_length_le ?_
      have hKeys := hAll.length_eq
      rw [List.length_cons] at hKeys
      rw [(CosignGroup.sortIds_perm G.peers).length_eq]
      omega
    rw [hTake]
    exact hAll.trans ((CosignGroup.sortIds_perm G.peers).symm.cons _)

/-- The responses decode to the peers' own shares under `s`. -/
def Shared (W : FrostTrCoordinator F) (signers : List F.Identifier) (s : F.Identifier → F.Share)
    (resp : F.Identifier → TrSignShareResponse) (ids : List F.Identifier) : Prop :=
  ∀ i ∈ ids, decodeShare W signers (resp i) = .ok (some (i, s i))

/-- The last loop lists the shares of the peers and puts each down to its peer. -/
theorem readShares_lists {signers : List F.Identifier} {name : F.Identifier → String}
    {names : Table F.Identifier String} {s : F.Identifier → F.Share}
    {resp : F.Identifier → TrSignShareResponse} {ids ks : List F.Identifier}
    (h : Shared W signers s resp ids) (hNames : ∀ i ∈ ids, names.lookup i = some (name i))
    (acc : Shares F) (hs : acc.shares.Lists ks s) (hks : (ids.reverse ++ ks).Nodup) :
    ∃ got, readShares W signers names acc (ids.map resp) = .ok got ∧
      got.shares.Lists (ids.reverse ++ ks) s ∧
      got.participants = acc.participants ++ ids.map name := by
  induction ids generalizing acc ks with
  | nil => exact ⟨acc, rfl, hs, by simp⟩
  | cons i ids ih =>
    obtain ⟨hDecode, hDecodes⟩ := List.forall_mem_cons.mp h
    obtain ⟨hName, hNames⟩ := List.forall_mem_cons.mp hNames
    rw [List.reverse_cons, List.append_assoc, List.singleton_append] at hks
    have hNew : i ∉ ks := (List.nodup_cons.mp (List.nodup_append.mp hks).2.1).1
    obtain ⟨got, hGot, hs', hParticipants⟩ := ih hDecodes hNames
      ⟨acc.shares.insert i (s i), acc.participants ++ (names.lookup i).toList⟩
      (hs.insert hNew) hks
    refine ⟨got, ?_, ?_, ?_⟩
    · rw [List.map_cons, readShares, hDecode]
      exact hGot
    · rw [List.reverse_cons, List.append_assoc, List.singleton_append]
      exact hs'
    · rw [hParticipants, hName]
      simp

/-! ## Between and after the rounds -/

/-- The sign-share request of a run in which `signers` sign `package`: it
carries the package and the names of the lowest peers. -/
structure Asks (G : CosignGroup F) (t : Nat) (sessionId : String)
    (package : SigningPackage F.Identifier F.Commitments) (pkgBytes : List UInt8)
    (req : TrSignShareRequest) : Prop where
  signers : (package.commitments.map Prod.fst).Perm (G.localId :: G.lowest t)
  session : req.sessionId = sessionId
  package : req.signingPackageHex = F.hexEncode pkgBytes
  nodes : ∀ node, node ∈ req.participantNodeIds ↔ ∃ i ∈ G.lowest t, G.name i = node

/-- The names of the signers are those of the lowest peers. -/
theorem mem_selectedPeerNodes {G : CosignGroup F} {t : Nat} {c : F.Identifier → F.Commitments}
    {signers : List F.Identifier} {commitments : Table F.Identifier F.Commitments}
    {names : Table F.Identifier String} (hPerm : signers.Perm (G.localId :: G.lowest t))
    (hc : commitments.Lists signers c) (hn : names.Lists G.peers.reverse G.name) (node : String) :
    node ∈ selectedPeerNodes commitments names ↔ ∃ i ∈ G.lowest t, G.name i = node := by
  rw [selectedPeerNodes, List.mem_dedup, List.mem_filterMap, hc.keys]
  constructor
  · rintro ⟨i, hi, hNode⟩
    rcases List.mem_cons.mp (hPerm.mem_iff.mp hi) with rfl | hLow
    · -- the coordinator claims no name
      have hNone : names.lookup G.localId = none :=
        hn.lookup_of_notMem fun hIn => G.localId_notMem (List.mem_reverse.mp hIn)
      rw [hNone] at hNode
      cases hNode
    · have hSome := hn.lookup_of_mem (List.mem_reverse.mpr (G.lowest_subset t hLow))
      rw [hSome] at hNode
      exact ⟨i, hLow, Option.some.inj hNode⟩
  · rintro ⟨i, hLow, rfl⟩
    exact ⟨i, hPerm.mem_iff.mpr (List.mem_cons_of_mem _ hLow),
      hn.lookup_of_mem (List.mem_reverse.mpr (G.lowest_subset t hLow))⟩

/-- When the peers committed under their own names and identifiers, the
signers are the coordinator and the lowest peers. -/
theorem prepareShares_committed (hLaw : IdentifierLaw W) (G : CosignGroup F)
    (snap : FrostTrShareState F W) (sessionId : String) (message : List UInt8)
    (key : F.KeyPackage) (nonces : F.Nonces) {c : F.Identifier → F.Commitments}
    {resp : F.Identifier → TrCommitResponse} (hResp : AllCommitted W G.name c resp G.peers)
    (ht : snap.minSigners ≤ G.peers.length + 1) :
    ∃ signers : List F.Identifier, signers.Perm (G.localId :: G.lowest snap.minSigners) ∧
      ∀ pkgBytes share, W.serializePackage ⟨message, signers.map fun i => (i, c i)⟩ = .ok pkgBytes →
        F.sign ⟨message, signers.map fun i => (i, c i)⟩ nonces key = .ok share →
        ∃ p, prepareShares W snap sessionId message G.localId key nonces (c G.localId)
            (G.peers.map resp) = .ok p ∧
          p.package = ⟨message, signers.map fun i => (i, c i)⟩ ∧ p.localShare = share ∧
          p.names.Lists G.peers.reverse G.name ∧
          Asks G snap.minSigners sessionId p.package pkgBytes p.request := by
  have hAll := reverse_append_perm (List.Perm.refl G.peers) G.localId
  have hNames : (G.peers.reverse ++ ([] : List F.Identifier)).Nodup := by
    rw [List.append_nil]
    exact List.nodup_reverse.mpr G.peers_nodup
  obtain ⟨got, hGot, hc, hn⟩ := readCommits_lists hResp
    ⟨AList.insert G.localId (c G.localId) ∅, ∅⟩
    ((Table.Lists.empty c).insert (List.not_mem_nil (a := G.localId)))
    (Table.Lists.empty G.name) (hAll.nodup_iff.mpr G.nodup) hNames
  rw [List.append_nil] at hn
  obtain ⟨signers, hPerm, hCut⟩ := trimSigners_lists hLaw G hAll hc ht
  refine ⟨signers, hPerm, fun pkgBytes share hPackage hSign => ?_⟩
  -- enough signers committed
  have hEnough : ¬ got.commitments.size < snap.minSigners := by
    rw [hc.size, hAll.length_eq, List.length_cons]
    omega
  have hIds : ((signers.map fun i => (i, c i)).map Prod.fst) = signers := by
    rw [List.map_map]
    exact List.map_id signers
  refine ⟨⟨⟨message, signers.map fun i => (i, c i)⟩, got.names, share, ⟨sessionId,
    F.hexEncode pkgBytes, selectedPeerNodes (trimSigners snap.minSigners G.localId got.commitments)
      got.names⟩⟩, ?_, rfl, rfl, hn, (List.Perm.of_eq hIds).trans hPerm, rfl, rfl,
    mem_selectedPeerNodes hPerm hCut hn⟩
  unfold prepareShares
  simp only [hGot, if_neg hEnough, hCut.toPairs, hPackage, hSign]

/-- When the lowest peers yield their own shares, exactly these are aggregated. -/
theorem aggregateShares_shared {G : CosignGroup F} (snap : FrostTrShareState F W)
    {message : List UInt8} {p : Prepared F}
    {ids : List F.Identifier} {s : F.Identifier → F.Share}
    {resp : F.Identifier → TrSignShareResponse} {signature : W.Signature}
    (hNames : p.names.Lists G.peers.reverse G.name) (hLocal : p.localShare = s G.localId)
    (ht : snap.minSigners ≤ G.peers.length + 1) (hIds : ids.Perm (G.lowest snap.minSigners))
    (hResp : Shared W (p.package.commitments.map Prod.fst) s resp ids)
    (hAggregate : W.aggregate p.package ((ids.reverse ++ [G.localId]).map fun i => (i, s i))
      (W.tweakPubkey snap.pubkeyPackage) = .ok signature)
    (hVerify : W.verify (W.tweakPubkey snap.pubkeyPackage) message signature = .ok ()) :
    aggregateShares W snap (G.name G.localId) message G.localId p (ids.map resp) =
      .ok ⟨signature, sortDedup (G.name G.localId :: ids.map G.name)⟩ := by
  have hSub : ids ⊆ G.peers := fun i hi => G.lowest_subset _ (hIds.mem_iff.mp hi)
  have hNodup : (ids.reverse ++ [G.localId]).Nodup :=
    (reverse_append_perm hIds G.localId).nodup_iff.mpr (G.signers_nodup _)
  obtain ⟨got, hGot, hs, hParticipants⟩ := readShares_lists hResp
    (fun i hi => hNames.lookup_of_mem (List.mem_reverse.mpr (hSub hi)))
    ⟨AList.insert G.localId (s G.localId) ∅, [G.name G.localId]⟩
    ((Table.Lists.empty s).insert (List.not_mem_nil (a := G.localId))) hNodup
  have hEnough : ¬ got.shares.size < snap.minSigners := by
    rw [hs.size, List.length_append, List.length_reverse, hIds.length_eq, G.lowest_length ht,
      List.length_singleton]
    omega
  unfold aggregateShares
  simp only [hLocal, hGot, if_neg hEnough, hs.toPairs, hAggregate, hVerify, hParticipants,
    List.singleton_append]

end Coordinator

/-! ## Over HTTP -/

namespace HttpTrCosignTransport

variable {F : FrostTr} {W : FrostTrCoordinator F}

/-- A request to the lowest peers names these. -/
theorem named_asks {G : CosignGroup F} {t : Nat} {sessionId : String}
    {package : SigningPackage F.Identifier F.Commitments} {pkgBytes : List UInt8}
    {req : TrSignShareRequest} (h : Coordinator.Asks G t sessionId package pkgBytes req)
    (hSome : G.lowest t ≠ []) {i : F.Identifier} (hi : i ∈ G.peers) :
    named req (G.peer i) = decide (i ∈ G.lowest t) := by
  obtain ⟨j, hj⟩ := List.exists_mem_of_ne_nil _ hSome
  have hNonempty : req.participantNodeIds ≠ [] :=
    List.ne_nil_of_mem ((h.nodes _).mpr ⟨j, hj, rfl⟩)
  have hIff : G.name i ∈ req.participantNodeIds ↔ i ∈ G.lowest t := by
    rw [h.nodes]
    constructor
    · rintro ⟨k, hk, hName⟩
      have hEq : k = i := G.name_inj k (List.mem_cons_of_mem _ (G.lowest_subset t hk)) i
        (List.mem_cons_of_mem _ hi) hName
      exact hEq ▸ hk
    · exact fun hLow => ⟨i, hLow, rfl⟩
  show named req (G.name i, G.base i) = _
  rw [named, Bool.eq_iff_iff]
  simp only [Bool.or_eq_true, List.isEmpty_iff, List.contains_iff_mem, decide_eq_true_eq]
  exact ⟨fun hIn => hIff.mp (hIn.resolve_left hNonempty), fun hLow => .inr (hIff.mpr hLow)⟩

/-- It asks them in the order they are configured. -/
theorem collectSignatureShares_asks {G : CosignGroup F} {t maxRetries : Nat} {sessionId : String}
    {package : SigningPackage F.Identifier F.Commitments} {pkgBytes : List UInt8}
    {req : TrSignShareRequest} (h : Coordinator.Asks G t sessionId package pkgBytes req)
    (hSome : G.lowest t ≠ []) (net : CosignNet) :
    (G.transport maxRetries).collectSignatureShares net req =
      ((G.peers.filter fun i => decide (i ∈ G.lowest t)).map G.peer).mapM
        ((G.transport maxRetries).postSignShare net req) := by
  unfold collectSignatureShares
  rw [CosignGroup.transport, List.filter_map]
  congr 2
  exact List.filter_congr fun i hi => named_asks h hSome hi

end HttpTrCosignTransport

end KeroseneVault
