import KeroseneVault.Cosign.Availability

/-!
# Who signed

A run returns node ids beside the signature. They are read off what the peers
claimed in the first round, and a peer may claim any identifier and any name.
A count settles it: the signer set has `minSigners - 1` identifiers besides the
coordinator's, they carry at most as many names, at most that many peers are
asked, and fewer shares would not do. So each name is a configured id, each of
these peers was asked and sent exactly one of the aggregated shares.

* `AttributedRun` — what a run that returned a signature went through;
* `OwnCommitment` — FROST signs no package without the signer's commitments.

Main results:

* `readCommits_names`, `readShares_full` — the two loops on any responses;
* `prepared_signers` — the signer set of a run that goes on;
* `participants_attributed` — the ids are those of the peers whose shares were
  aggregated.
-/

namespace KeroseneVault

namespace Coordinator

variable {F : FrostTr} {W : FrostTrCoordinator F}

/-! ## The loops on any responses -/

/-- Whoever has commitments in the table, other than the local identifier, has
a name; the local one is named only if a response claimed it, and then the
commitments are those of such a response. -/
theorem readCommits_names {localId : F.Identifier} (own : F.Commitments) {acc got : Commits F}
    {rs : List TrCommitResponse} (h : readCommits W acc rs = .ok got)
    (hKnown : localId ∈ acc.commitments)
    (hNamed : ∀ k ∈ acc.commitments, k ≠ localId → k ∈ acc.names)
    (hClaims : localId ∈ acc.names → acc.commitments.lookup localId ≠ some own)
    (hFresh : ∀ resp ∈ rs, ∀ c, decodeCommit W resp = .ok (localId, c) → c ≠ own) :
    localId ∈ got.commitments ∧ (∀ k ∈ got.commitments, k ≠ localId → k ∈ got.names) ∧
      (got.commitments.lookup localId = some own → localId ∉ got.names) := by
  -- on the responses: the table and the names grow by the same identifier
  induction rs generalizing acc with
  | nil =>
    cases h
    exact ⟨hKnown, hNamed, fun hEq hIn => hClaims hIn hEq⟩
  | cons resp rs ih =>
    obtain ⟨hHead, hFresh⟩ := List.forall_mem_cons.mp hFresh
    rw [readCommits] at h
    split at h
    · cases h
    · rename_i id c hDecode
      refine ih h (AList.mem_insert _ |>.mpr (.inr hKnown)) ?_ ?_ hFresh
      · intro k hk hNe
        rcases (AList.mem_insert _).mp hk with rfl | hOld
        · exact (AList.mem_insert _).mpr (.inl rfl)
        · exact (AList.mem_insert _).mpr (.inr (hNamed k hOld hNe))
      · intro hIn
        -- a response under the local identifier overwrites its commitments
        by_cases hId : id = localId
        · subst hId
          rw [AList.lookup_insert]
          exact fun hEq => hHead c hDecode (Option.some.inj hEq)
        · rw [AList.lookup_insert_ne (Ne.symm hId)]
          rcases (AList.mem_insert _).mp hIn with hEq | hOld
          · exact absurd hEq.symm hId
          · exact hClaims hOld

/-- A response brings at most one share. -/
theorem readShares_size {signers : List F.Identifier} {names : Table F.Identifier String}
    {acc got : Shares F} {rs : List TrSignShareResponse}
    (h : readShares W signers names acc rs = .ok got) :
    got.shares.size ≤ acc.shares.size + rs.length := by
  induction rs generalizing acc with
  | nil =>
    cases h
    exact Nat.le_refl _
  | cons resp rs ih =>
    rw [readShares] at h
    rw [List.length_cons]
    split at h
    · cases h
    · have := ih h
      omega
    -- a new identifier makes one more entry, and one that is there none
    · rename_i id s hDecode
      have hRest := ih h
      by_cases hIn : id ∈ acc.shares
      · rw [Table.size_insert_of_mem hIn] at hRest
        omega
      · rw [Table.size_insert_of_notMem hIn] at hRest
        omega

/-- With as many shares as responses, each response brought the share of an
identifier of its own. -/
theorem readShares_full {signers : List F.Identifier} {names : Table F.Identifier String}
    {acc got : Shares F} {rs : List TrSignShareResponse}
    (h : readShares W signers names acc rs = .ok got)
    (hFull : acc.shares.size + rs.length ≤ got.shares.size) :
    ∃ pairs, List.Forall₂ (fun resp pair => decodeShare W signers resp = .ok (some pair)) rs pairs ∧
      got.shares.toPairs = pairs.reverse ++ acc.shares.toPairs ∧
      got.participants = acc.participants ++ pairs.flatMap fun e => (names.lookup e.1).toList := by
  -- on the responses: a full count leaves no room for one that is skipped or repeated
  induction rs generalizing acc with
  | nil =>
    cases h
    exact ⟨[], List.Forall₂.nil, rfl, (List.append_nil _).symm⟩
  | cons resp rs ih =>
    rw [readShares] at h
    rw [List.length_cons] at hFull
    split at h
    · cases h
    · have := readShares_size h
      omega
    · rename_i id s hDecode
      -- a second share of one identifier would leave one too few
      by_cases hIn : id ∈ acc.shares
      · have hSize := readShares_size h
        rw [Table.size_insert_of_mem hIn] at hSize
        omega
      · obtain ⟨pairs, hPairs, hShares, hNames⟩ := ih h (by
          rw [Table.size_insert_of_notMem hIn]
          omega)
        refine ⟨(id, s) :: pairs, List.Forall₂.cons hDecode hPairs, ?_, ?_⟩
        · rw [hShares, Table.toPairs_insert_of_notMem hIn, List.reverse_cons, List.append_assoc,
            List.singleton_append]
        · rw [hNames, List.flatMap_cons, List.append_assoc]

/-! ## The signer set -/

/-- `round2::sign` takes only a package that carries the commitments its nonces
were made with. -/
def OwnCommitment (F : FrostTr) (id : F.Identifier) (key : F.KeyPackage) : Prop :=
  ∀ randomness package share, F.sign package (F.commit key randomness).1 key = .ok share →
    (id, (F.commit key randomness).2) ∈ package.commitments

/-- The signer set between the rounds: besides the local identifier exactly
`t - 1` others, each with a name, and the request carries these names. -/
structure SignerSet (localId : F.Identifier) (t : Nat) (p : Prepared F)
    (others : List F.Identifier) (name : F.Identifier → String) : Prop where
  perm : (p.package.commitments.map Prod.fst).Perm (localId :: others)
  nodup : (localId :: others).Nodup
  length : others.length + 1 = t
  named : ∀ i ∈ others, p.names.lookup i = some (name i)
  asked : ∃ l : List String, l.Perm (others.map name) ∧ p.request.participantNodeIds = l.dedup

/-- The names of a signer set in which the local identifier has none. -/
theorem filterMap_names {localId : F.Identifier} {signers others : List F.Identifier}
    {names : Table F.Identifier String} {name : F.Identifier → String}
    (hPerm : signers.Perm (localId :: others)) (hLocal : names.lookup localId = none)
    (hNamed : ∀ i ∈ others, names.lookup i = some (name i)) :
    (signers.filterMap fun i => names.lookup i).Perm (others.map name) := by
  have hOthers : (others.filterMap fun i => names.lookup i) = others.map name := by
    rw [← List.filterMap_eq_map]
    exact List.filterMap_congr hNamed
  have hAll := hPerm.filterMap fun i => names.lookup i
  rwa [List.filterMap_cons_none (f := fun i => names.lookup i) hLocal, hOthers] at hAll

/-- The cut leaves the local identifier and exactly `t - 1` others. -/
theorem trimSigners_exact {c : F.Identifier → F.Commitments} {t : Nat} {localId : F.Identifier}
    {commitments : Table F.Identifier F.Commitments} {ks : List F.Identifier}
    (hLists : commitments.Lists ks c) (hLocal : localId ∈ ks) (hPos : 1 ≤ t) (ht : t ≤ ks.length) :
    ∃ signers others, Table.Lists (trimSigners t localId commitments) signers c ∧
      signers.Perm (localId :: others) ∧ others.length + 1 = t ∧ others ⊆ ks := by
  have hCut := trimSigners_keeps (t := t) hLists hLocal
  have hErase := List.length_erase_of_mem hLocal
  -- either the set is cut to the lowest ones, or it is taken as it is
  by_cases hMore : ks.length > t
  · rw [if_pos hMore] at hCut
    refine ⟨_, _, hCut, reverse_append_perm (List.Perm.refl _) localId, ?_, ?_⟩
    · -- one identifier is filtered out, so the others suffice
      have hRest : ((sortIds ks).filter fun i => decide (i ≠ localId)).length = ks.length - 1 := by
        rw [((CosignGroup.sortIds_perm ks).filter _).length_eq, ← hErase,
          hLists.nodup.erase_eq_filter]
        congr 1
        refine List.filter_congr fun i _ => ?_
        rw [Bool.eq_iff_iff]
        simp
      rw [List.length_take, hRest]
      omega
    · intro i hi
      exact (CosignGroup.sortIds_perm ks).mem_iff.mp (List.mem_of_mem_filter (List.mem_of_mem_take hi))
  · rw [if_neg hMore] at hCut
    refine ⟨ks, ks.erase localId, hCut, List.perm_cons_erase hLocal, ?_, List.erase_subset⟩
    rw [hErase]
    omega

/-- A run that goes on to its second round has a signer set. -/
theorem prepared_signers {snap : FrostTrShareState F W} {sessionId : String}
    {message : List UInt8} {localId : F.Identifier} {key : F.KeyPackage} {randomness : Nat}
    {rs : List TrCommitResponse} {p : Prepared F} (hPos : 1 ≤ snap.minSigners)
    (hSign : OwnCommitment F localId key)
    (hFresh : ∀ resp ∈ rs, ∀ c, decodeCommit W resp = .ok (localId, c) →
      c ≠ (F.commit key randomness).2)
    (h : prepareShares W snap sessionId message localId key (F.commit key randomness).1
      (F.commit key randomness).2 rs = .ok p) :
    ∃ others name, SignerSet localId snap.minSigners p others name := by
  unfold prepareShares at h
  split at h
  · cases h
  · rename_i got hGot
    obtain ⟨hKnown, hNamed, hUnnamed⟩ := readCommits_names (F.commit key randomness).2
      hGot ((AList.mem_insert _).mpr (.inl rfl))
      (fun k hk hNe => absurd ((AList.mem_insert _).mp hk) (by simp [hNe])) (by simp) hFresh
    split at h
    · cases h
    · rename_i hEnough
      dsimp only at h
      split at h
      · cases h
      · split at h
        · cases h
        · rename_i share hShare
          cases h
          -- the table lists its keys, and the cut keeps `t` of them
          have hLists := Table.Lists.self got.commitments (F.commit key randomness).2
          obtain ⟨signers, others, hCut, hPerm, hLength, hSub⟩ :=
            trimSigners_exact (t := snap.minSigners) hLists (AList.mem_keys.mp hKnown) hPos (by
              rw [← Table.size_eq_keys]
              omega)
          have hNodup : (localId :: others).Nodup := hPerm.nodup_iff.mp hCut.nodup
          -- the node signed, so the local entry is its own and has no name
          have hEntry := hSign _ _ _ hShare
          have hLocal : got.names.lookup localId = none := by
            dsimp only at hEntry
            rw [hCut.toPairs] at hEntry
            obtain ⟨i, hi, hEq⟩ := List.mem_map.mp hEntry
            obtain ⟨rfl, hOwn⟩ := Prod.mk.inj hEq
            rw [AList.lookup_eq_none]
            refine hUnnamed ?_
            obtain ⟨c, hc⟩ := Option.isSome_iff_exists.mp (AList.lookup_isSome.mpr hKnown)
            rw [hc] at hOwn ⊢
            exact congrArg some hOwn
          have hNames : ∀ i ∈ others,
              got.names.lookup i = some ((got.names.lookup i).getD "") := by
            intro i hi
            have hNe : i ≠ localId := fun hEq => (List.nodup_cons.mp hNodup).1 (hEq ▸ hi)
            obtain ⟨n, hn⟩ := Option.isSome_iff_exists.mp
              (AList.lookup_isSome.mpr (hNamed i (AList.mem_keys.mpr (hSub hi)) hNe))
            rw [hn]
            rfl
          refine ⟨others, fun i => (got.names.lookup i).getD "", ?_, hNodup, hLength, hNames,
            _, filterMap_names hPerm hLocal hNames, ?_⟩
          · dsimp only
            rw [hCut.toPairs, List.map_map]
            exact (List.Perm.of_eq (List.map_id signers)).trans hPerm
          · dsimp only [selectedPeerNodes]
            rw [hCut.keys]

/-! ## The run -/

/-- A share that is read has an identifier of the signer set. -/
theorem decodeShare_mem {signers : List F.Identifier} {resp : TrSignShareResponse}
    {id : F.Identifier} {share : F.Share}
    (h : decodeShare W signers resp = .ok (some (id, share))) : id ∈ signers := by
  unfold decodeShare at h
  split at h
  · cases h
  · split at h
    · cases h
    · split at h
      · cases h
      · rename_i hIn
        split at h
        · cases h
        · split at h
          · cases h
          · cases h
            exact not_not.mp hIn

/-- A request that carries names asks no other peer. -/
theorem asked_subset {T : HttpTrCosignTransport} {req : TrSignShareRequest}
    (hSome : req.participantNodeIds ≠ []) :
    ((T.peers.filter (HttpTrCosignTransport.named req)).map Prod.fst) ⊆ req.participantNodeIds := by
  intro node hNode
  obtain ⟨peer, hPeer, rfl⟩ := List.mem_map.mp hNode
  have hNamed := (List.mem_filter.mp hPeer).2
  rw [HttpTrCosignTransport.named, Bool.or_eq_true, List.isEmpty_iff,
    List.contains_iff_mem] at hNamed
  exact hNamed.resolve_left hSome

/-- What a run that returned a signature and node ids went through: its two
rounds, the shares it aggregated, and the names it collected with them. -/
structure AttributedRun (W : FrostTrCoordinator F) (snap : FrostTrShareState F W)
    (T : TrCosignTransport) (localNodeId sessionId : String) (message : List UInt8)
    (randomness : Nat) (localId : F.Identifier) (key : F.KeyPackage)
    (attributed : AttributedWireSignature F W) (peerCommits : List TrCommitResponse)
    (p : Prepared F) (peerShares : List TrSignShareResponse) (got : Shares F) : Prop where
  commits : T.collectCommitments ⟨sessionId, F.hexEncode message, localNodeId⟩ = .ok peerCommits
  prepared : prepareShares W snap sessionId message localId key (F.commit key randomness).1
    (F.commit key randomness).2 peerCommits = .ok p
  shares : T.collectSignatureShares p.request = .ok peerShares
  read : readShares W (p.package.commitments.map Prod.fst) p.names
    ⟨AList.insert localId p.localShare ∅, [localNodeId]⟩ peerShares = .ok got
  enough : snap.minSigners ≤ got.shares.size
  aggregated : W.aggregate p.package got.shares.toPairs (W.tweakPubkey snap.pubkeyPackage) =
    .ok attributed.signature
  participants : attributed.participantNodeIds = sortDedup got.participants

/-- A run that returned a signature went through both rounds, on the way that its result tells.
-/
theorem attributedRun_of_ok {snap : FrostTrShareState F W} {T : TrCosignTransport}
    {localNodeId sessionId : String} {message : List UInt8} {randomness : Nat}
    {localId : F.Identifier} {kp : F.KeyPackage} {attributed : AttributedWireSignature F W}
    (hShare : localShare W snap = .ok (localId, kp))
    (h : signRawWireAttributed W (.ok snap) T localNodeId sessionId message randomness =
      .ok attributed) :
    ∃ peerCommits p peerShares got, AttributedRun W snap T localNodeId sessionId message randomness
      localId (F.tweak kp) attributed peerCommits p peerShares got := by
  -- the phases in their order, each of which can end the run
  unfold signRawWireAttributed at h
  simp only [hShare] at h
  split at h
  · cases h
  · rename_i peerCommits hCommits
    split at h
    · cases h
    · rename_i p hPrepared
      split at h
      · cases h
      · rename_i peerShares hShares
        unfold aggregateShares at h
        split at h
        · cases h
        · rename_i got hRead
          split at h
          · cases h
          · rename_i hEnough
            dsimp only at h
            split at h
            · cases h
            · rename_i signature hAggregated
              split at h
              · cases h
              · cases h
                exact ⟨peerCommits, p, peerShares, got, hCommits, hPrepared, hShares, hRead,
                  Nat.le_of_not_lt hEnough, hAggregated, rfl⟩

/-- Shares of distinct identifiers of the signer set, as many as there are
others, are the shares of all others. -/
theorem pairs_perm_others {localId : F.Identifier} {t : Nat} {p : Prepared F}
    {others : List F.Identifier} {name : F.Identifier → String}
    (hSet : SignerSet localId t p others name) {shares : Table F.Identifier F.Share}
    {own : F.Share} {pairs : List (F.Identifier × F.Share)}
    (hAll : shares.toPairs.Perm ((localId, own) :: pairs))
    (hSigners : ∀ e ∈ pairs, e.1 ∈ p.package.commitments.map Prod.fst)
    (hLength : others.length ≤ pairs.length) : (pairs.map Prod.fst).Perm others := by
  have hNodup : (localId :: pairs.map Prod.fst).Nodup := by
    have hKeys : (shares.toPairs.map Prod.fst).Nodup := by
      rw [Table.map_fst_toPairs]
      exact shares.keys_nodup
    exact (hAll.map Prod.fst).nodup_iff.mp hKeys
  obtain ⟨hNotLocal, hDistinct⟩ := List.nodup_cons.mp hNodup
  refine (hDistinct.subperm fun i hi => ?_).perm_of_length_le ?_
  · obtain ⟨e, he, rfl⟩ := List.mem_map.mp hi
    rcases List.mem_cons.mp (hSet.perm.mem_iff.mp (hSigners e he)) with hEq | hOther
    · exact absurd (hEq ▸ hi) hNotLocal
    · exact hOther
  · rw [List.length_map]
    exact hLength

/-- The names under which shares are put down. -/
theorem flatMap_names {names : Table F.Identifier String} {name : F.Identifier → String}
    {pairs : List (F.Identifier × F.Share)}
    (h : ∀ e ∈ pairs, names.lookup e.1 = some (name e.1)) :
    pairs.flatMap (fun e => (names.lookup e.1).toList) = (pairs.map Prod.fst).map name := by
  induction pairs with
  | nil => rfl
  | cons e pairs ih =>
    obtain ⟨hHead, hTail⟩ := List.forall_mem_cons.mp h
    rw [List.flatMap_cons, hHead, ih hTail]
    rfl

variable {snap : FrostTrShareState F W} {T : HttpTrCosignTransport} {net : CosignNet}
  {localNodeId sessionId : String} {message : List UInt8} {randomness : Nat}
  {localId : F.Identifier} {kp : F.KeyPackage} {attributed : AttributedWireSignature F W}

/--
**Attribution.** Whatever the peers answer, a run that returns node ids asked
some of its configured peers for shares, got one share from each, aggregated
exactly these and its own, and the ids are those of these peers and the local
one, each once and at least `minSigners` of them.

Configured ids tell nodes apart. No peer knows the commitments the coordinator
drew for this run, which no request carries.
-/
theorem participants_attributed (hShare : localShare W snap = .ok (localId, kp))
    (hTwo : 2 ≤ snap.minSigners) (hIds : (localNodeId :: T.peers.map Prod.fst).Nodup)
    (hSign : OwnCommitment F localId (F.tweak kp))
    (hFresh : ∀ peer ∈ T.peers, ∀ resp c,
      T.postCommit net ⟨sessionId, F.hexEncode message, localNodeId⟩ peer = .ok resp →
      decodeCommit W resp = .ok (localId, c) → c ≠ (F.commit (F.tweak kp) randomness).2)
    (h : signRawWireAttributed W (.ok snap) (T.toTransport net) localNodeId sessionId message
      randomness = .ok attributed) :
    ∃ peerCommits p peerShares got,
      AttributedRun W snap (T.toTransport net) localNodeId sessionId message randomness localId
        (F.tweak kp) attributed peerCommits p peerShares got ∧
      ∃ (asked : List (String × String)) (pairs : List (F.Identifier × F.Share)),
        asked.Sublist T.peers ∧
        List.Forall₂ (fun peer pair => ∃ resp, T.postSignShare net p.request peer = .ok resp ∧
          decodeShare W (p.package.commitments.map Prod.fst) resp = .ok (some pair)) asked pairs ∧
        got.shares.toPairs.Perm ((localId, p.localShare) :: pairs) ∧
        attributed.participantNodeIds.Perm (localNodeId :: asked.map Prod.fst) ∧
        attributed.participantNodeIds.Nodup ∧
        snap.minSigners ≤ attributed.participantNodeIds.length := by
  obtain ⟨peerCommits, p, peerShares, got, hRun⟩ := attributedRun_of_ok hShare h
  refine ⟨peerCommits, p, peerShares, got, hRun, ?_⟩
  -- the signer set: the local identifier and `minSigners - 1` named others
  obtain ⟨others, name, hSet⟩ := prepared_signers (by omega) hSign (fun resp hResp c hDecode => by
    obtain ⟨peer, hPeer, hPost⟩ := Results.exists_of_mem_mapM hRun.commits resp hResp
    exact hFresh peer hPeer resp c hPost hDecode) hRun.prepared
  obtain ⟨names, hNames, hAsked⟩ := hSet.asked
  have hLength := hSet.length
  have hNamesLength : names.length = others.length := by
    rw [hNames.length_eq, List.length_map]
  -- the peers asked have distinct ids among those names
  let asked := T.peers.filter (HttpTrCosignTransport.named p.request)
  have hSome : p.request.participantNodeIds ≠ [] := by
    rw [hAsked]
    intro hNil
    have hEmpty : names = [] := List.dedup_eq_nil names |>.mp hNil
    rw [hEmpty, List.length_nil] at hNamesLength
    omega
  have hSub : asked.map Prod.fst ⊆ names.dedup := hAsked ▸ asked_subset hSome
  have hDistinct : (asked.map Prod.fst).Nodup :=
    (List.filter_sublist.map Prod.fst).nodup (List.nodup_cons.mp hIds).2
  have hFew := (hDistinct.subperm hSub).length_le
  have hDedup := (List.dedup_sublist names).length_le
  rw [List.length_map] at hFew
  -- they cannot have sent fewer shares than there are others
  have hRound : List.Forall₂ (fun peer resp => T.postSignShare net p.request peer = .ok resp)
      asked peerShares := Results.mapM_eq_ok.mp hRun.shares
  have hResponses := hRound.length_eq
  have hOne : Table.size (AList.insert localId p.localShare (∅ : Table F.Identifier F.Share)) = 1 :=
    Table.size_insert_of_notMem (AList.notMem_empty localId) _
  have hEnough := hRun.enough
  obtain ⟨pairs, hPairs, hShares, hParticipants⟩ := readShares_full hRun.read (by
    dsimp only
    rw [hOne]
    omega)
  have hAll : got.shares.toPairs.Perm ((localId, p.localShare) :: pairs) := by
    rw [hShares, Table.toPairs_insert_of_notMem (AList.notMem_empty localId)]
    exact reverse_append_perm (List.Perm.refl pairs) _
  have hCount : got.shares.size = pairs.length + 1 := by
    rw [Table.size_eq_toPairs, hAll.length_eq, List.length_cons]
  have hEach := hPairs.length_eq
  -- so the shares are those of all others, and each name is that of a peer asked
  have hOthers := pairs_perm_others hSet hAll (fun e he => by
    obtain ⟨resp, -, hDecode⟩ := Results.exists_of_mem_forall₂ hPairs he
    exact decodeShare_mem hDecode) (by omega)
  have hDedupEq : names.dedup = names := (List.dedup_sublist names).eq_of_length (by omega)
  have hAskedPerm : (asked.map Prod.fst).Perm (others.map name) := by
    rw [hDedupEq] at hSub
    refine ((hDistinct.subperm hSub).perm_of_length_le ?_).trans hNames
    rw [List.length_map]
    omega
  have hIdsPerm : got.participants.Perm (localNodeId :: asked.map Prod.fst) := by
    rw [hParticipants, flatMap_names fun e he =>
      hSet.named e.1 (hOthers.mem_iff.mp (List.mem_map_of_mem he)), List.singleton_append]
    exact ((hOthers.map name).trans hAskedPerm.symm).cons _
  have hNodup : (localNodeId :: asked.map Prod.fst).Nodup :=
    ((List.filter_sublist.map Prod.fst).cons_cons localNodeId).nodup hIds
  have hFinal : attributed.participantNodeIds.Perm (localNodeId :: asked.map Prod.fst) := by
    rw [hRun.participants]
    exact (sortDedup_perm (hIdsPerm.nodup_iff.mpr hNodup)).trans hIdsPerm
  refine ⟨asked, pairs, List.filter_sublist, ?_, hAll, hFinal, hFinal.nodup_iff.mpr hNodup, ?_⟩
  · exact Results.forall₂_comp hRound hPairs
  · rw [hFinal.length_eq, List.length_cons, List.length_map]
    omega

end Coordinator

/-! ## Three nodes -/

open Coordinator

theorem plainFrost_ownCommitment (key : PlainKey) :
    OwnCommitment plainFrost key.identifier key := by
  intro randomness (package : SigningPackage UInt8 UInt8) share h
  have h : plainSign package (UInt8.ofNat randomness) key = .ok share := h
  show (key.identifier, UInt8.ofNat randomness) ∈ package.commitments
  unfold plainSign at h
  split at h
  · cases h
  · split at h
    · cases h
    · rename_i c hFound
      split at h
      · rename_i hOwn
        rw [← hOwn]
        obtain ⟨l₁, l₂, hEq, -⟩ := List.lookup_eq_some_iff.mp hFound
        rw [hEq]
        exact List.mem_append_right _ (List.mem_cons_self ..)
      · cases h

theorem participants_attributed_threeNodes :
    ∃ attributed, signRawWireAttributed plainCoordinator
        (.ok ((plainKeyset (fun i => 10 * i) 2).state (1 : UInt8)))
        ((threeNodes.transport 3).toTransport (threeNodes.network
          (plainKeyset (fun i => 10 * i) 2).key (fun _ => 5) (fun _ => ∅) (fun _ => .up 0)
          (fun _ => .up 0) ⟨"tr-wire-00", hexText [7], "vault-1"⟩)) "vault-1" "tr-wire-00" [7] 5 =
        .ok attributed ∧
      attributed.participantNodeIds.Nodup ∧ 2 ≤ attributed.participantNodeIds.length := by
  have hUp : ∀ i : UInt8, (Reach.up 0).Up 3 := fun _ => by decide
  have hNet := threeNodes.serves_network (plainKeyset (fun i => 10 * i) 2).key (fun _ => 5)
    (fun _ => ∅) (fun _ => .up 0) (fun _ => .up 0) ⟨"tr-wire-00", hexText [7], "vault-1"⟩
  obtain ⟨signature, hSigned⟩ := signRawWire_up (K := plainKeyset (fun i => 10 * i) 2)
    plainFrost_laws (plainKeyset_correct (by decide) _) (by decide) hNet (fun _ _ => rfl)
    (fun i _ => hUp i) fun i _ => hUp i
  obtain ⟨attributed, hRun⟩ := attributed_of_signRawWire _ hSigned
  obtain ⟨_, _, _, _, -, _, _, -, -, -, -, hNodup, hEnough⟩ :=
    participants_attributed rfl (by decide) (by decide) (plainFrost_ownCommitment ⟨1, 10, 2⟩)
      (by
        -- each peer commits as itself, and none is the first node
        intro peer hPeer resp c hPost hDecode
        obtain ⟨i, hi, rfl⟩ := List.mem_map.mp hPeer
        obtain ⟨resp', hPost', hDecode', -⟩ := postCommit_up
          (K := plainKeyset (fun i => 10 * i) 2) plainFrost_laws hNet (fun _ _ => rfl) hi (hUp i)
        obtain rfl := Except.ok.inj (hPost.symm.trans hPost')
        obtain ⟨rfl, -⟩ := Prod.mk.inj (Except.ok.inj (hDecode.symm.trans hDecode'))
        exact absurd hi threeNodes.localId_notMem) hRun
  exact ⟨attributed, hRun, hNodup, hEnough⟩

end KeroseneVault
