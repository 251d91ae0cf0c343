import KeroseneVault.Cosign.Rounds

/-!
# Honest co-signers

FROST itself is assumed correct: its encodings and hex decode what they
encode, and a keyset signs with any set of its members that reaches the
threshold. A peer that holds its share and is asked for a round it has
prepared then yields what the coordinator needs.

* `FrostLaws` — what the encodings promise;
* `Keyset`, `Keyset.Correct` — the shares of one group key, and what FROST
  promises about them.

Main results:

* `handleCommit_honest`, `handleSignShare_honest` — the answers of an honest
  peer;
* `signRawWire_honest` — a run whose peers answer honestly in both rounds ends
  with a signature.
-/

namespace KeroseneVault

open Coordinator

/-! ## FROST's promises -/

/-- What is encoded decodes. -/
structure FrostLaws {F : FrostTr} (W : FrostTrCoordinator F) : Prop where
  hex : ∀ bytes, F.hexDecode (strTrim (F.hexEncode bytes)) = .ok bytes
  identifier : IdentifierLaw W
  commitments : ∀ key randomness, ∃ bytes,
    F.serializeCommitments (F.commit key randomness).2 = .ok bytes ∧
      W.deserializeCommitments bytes = .ok (F.commit key randomness).2
  package : ∀ package, (package.commitments.map Prod.fst).Nodup →
    (∀ e ∈ package.commitments, ∃ key randomness, e.2 = (F.commit key randomness).2) →
    ∃ bytes, W.serializePackage package = .ok bytes ∧ F.deserializePackage bytes = .ok package
  share : ∀ share, W.deserializeShare (F.shareBytes share) = .ok share

/-- The key packages of one group key by identifier. -/
structure Keyset (F : FrostTr) (W : FrostTrCoordinator F) where
  key : F.Identifier → F.KeyPackage
  pubkey : W.PubkeyPackage
  threshold : Nat

namespace Keyset

variable {F : FrostTr} {W : FrostTrCoordinator F} (K : Keyset F W)

/-- The share slot of the node that holds share `i`. -/
def state (i : F.Identifier) : FrostTrShareState F W := ⟨[(i, K.key i)], K.pubkey, K.threshold⟩

/-- The pair that `i` commits with when it draws `r i`. -/
def nonces (r : F.Identifier → Nat) (i : F.Identifier) : F.Nonces :=
  (F.commit (F.tweak (K.key i)) (r i)).1

def commitments (r : F.Identifier → Nat) (i : F.Identifier) : F.Commitments :=
  (F.commit (F.tweak (K.key i)) (r i)).2

/-- The signing package of the signers. -/
def package (r : F.Identifier → Nat) (message : List UInt8) (signers : List F.Identifier) :
    SigningPackage F.Identifier F.Commitments :=
  ⟨message, signers.map fun i => (i, K.commitments r i)⟩

@[simp] theorem package_ids (r : F.Identifier → Nat) (message : List UInt8)
    (signers : List F.Identifier) :
    (K.package r message signers).commitments.map Prod.fst = signers := by
  rw [package, List.map_map]
  exact List.map_id signers

/-- FROST signs with any members that reach the threshold. Key generation
refuses a threshold below two. -/
structure Correct (members : List F.Identifier) : Prop where
  two_le : 2 ≤ K.threshold
  signs : ∀ signers : List F.Identifier, signers.Nodup → signers ⊆ members →
    K.threshold ≤ signers.length → ∀ r message, ∀ i ∈ signers, ∃ share,
      F.sign (K.package r message signers) (K.nonces r i) (F.tweak (K.key i)) = .ok share
  aggregates : ∀ signers : List F.Identifier, signers.Nodup → signers ⊆ members →
    K.threshold ≤ signers.length → ∀ r message (s : F.Identifier → F.Share),
    (∀ i ∈ signers,
      F.sign (K.package r message signers) (K.nonces r i) (F.tweak (K.key i)) = .ok (s i)) →
    ∀ ids : List F.Identifier, ids.Perm signers → ∃ signature,
      W.aggregate (K.package r message signers) (ids.map fun i => (i, s i))
        (W.tweakPubkey K.pubkey) = .ok signature ∧
      W.verify (W.tweakPubkey K.pubkey) message signature = .ok ()

variable {K}

/-- The signers have shares for their package, and these aggregate. -/
theorem Correct.shares {members signers : List F.Identifier} (h : K.Correct members)
    (hNodup : signers.Nodup) (hSub : signers ⊆ members) (hLength : K.threshold ≤ signers.length)
    (r : F.Identifier → Nat) (message : List UInt8) :
    ∃ s : F.Identifier → F.Share,
      (∀ i ∈ signers,
        F.sign (K.package r message signers) (K.nonces r i) (F.tweak (K.key i)) = .ok (s i)) ∧
      ∀ ids : List F.Identifier, ids.Perm signers → ∃ signature,
        W.aggregate (K.package r message signers) (ids.map fun i => (i, s i))
          (W.tweakPubkey K.pubkey) = .ok signature ∧
        W.verify (W.tweakPubkey K.pubkey) message signature = .ok () := by
  have hEach : ∀ i ∈ signers, ∃ share,
      F.sign (K.package r message signers) (K.nonces r i) (F.tweak (K.key i)) = .ok share :=
    fun i hi => h.signs signers hNodup hSub hLength r message i hi
  -- there is a signer, hence a share
  obtain ⟨j, hj⟩ : ∃ j, j ∈ signers := by
    refine List.exists_mem_of_length_pos ?_
    have := h.two_le
    omega
  obtain ⟨share, -⟩ := hEach j hj
  have : Nonempty F.Share := ⟨share⟩
  choose! s hs using hEach
  exact ⟨s, hs, h.aggregates signers hNodup hSub hLength r message s hs⟩

end Keyset

/-! ## The answers of an honest peer -/

section Honest

variable {F : FrostTr} {W : FrostTrCoordinator F}

/-- The peer commits with its share, and the coordinator reads that back. -/
theorem handleCommit_honest (hLaws : FrostLaws W) (env : CosignEnv F) {id : F.Identifier}
    {key : F.KeyPackage} (hKey : env.keyPackages = .ok [(id, key)]) (req : TrCommitRequest)
    {message : List UInt8} (hMessage : req.messageHex = F.hexEncode message)
    (peer : TrCosignPeerState F) :
    ∃ resp, TrCosignPeerState.handleCommit env req peer =
        (.ok resp, { peer with
          pending := peer.pending.insert req.sessionId
            ⟨(F.commit (F.tweak key) env.randomness).1, message⟩ }) ∧
      resp.nodeId = peer.localNodeId ∧
      decodeCommit W resp = .ok (id, (F.commit (F.tweak key) env.randomness).2) := by
  obtain ⟨bytes, hBytes, hBack⟩ := hLaws.commitments (F.tweak key) env.randomness
  refine ⟨⟨peer.localNodeId, F.hexEncode (F.identifierBytes id), F.hexEncode bytes⟩, ?_, rfl, ?_⟩
  · unfold TrCosignPeerState.handleCommit TrCosignPeerState.localKeyPackage
    simp only [hMessage, hLaws.hex, hKey, hBytes]
  · unfold decodeCommit
    simp only [hLaws.hex, hLaws.identifier id, hBack]

/-- The peer signs a package for which it has the nonces, and the coordinator
reads the share back. -/
theorem handleSignShare_honest (hLaws : FrostLaws W) (env : CosignEnv F) {id : F.Identifier}
    {key : F.KeyPackage} (hKey : env.keyPackages = .ok [(id, key)]) (hAnti : env.antiNonce = none)
    (req : TrSignShareRequest) (peer : TrCosignPeerState F)
    (hNamed : peer.localNodeId ∈ req.participantNodeIds)
    {package : SigningPackage F.Identifier F.Commitments} {bytes : List UInt8} {nonces : F.Nonces}
    (hPackage : req.signingPackageHex = F.hexEncode bytes)
    (hBytes : F.deserializePackage bytes = .ok package)
    (hPending : peer.pending.lookup req.sessionId = some ⟨nonces, package.message⟩)
    (hIn : id ∈ package.commitments.map Prod.fst) {share : F.Share}
    (hSign : F.sign package nonces (F.tweak key) = .ok share) :
    ∃ resp, (TrCosignPeerState.handleSignShare env req peer).1 = .ok (some resp) ∧
      decodeShare W (package.commitments.map Prod.fst) resp = .ok (some (id, share)) := by
  have hShare : TrCosignPeerState.signShare env req ⟨nonces, package.message⟩ =
      .ok (some (id, share)) := by
    unfold TrCosignPeerState.signShare TrCosignPeerState.checkAntiNonce
      TrCosignPeerState.localKeyPackage
    simp only [hPackage, hLaws.hex, hBytes, hAnti, hKey, hIn, hSign, ne_eq, not_true_eq_false,
      if_false]
  refine ⟨⟨peer.localNodeId, F.hexEncode (F.identifierBytes id), F.hexEncode (F.shareBytes share)⟩,
    ?_, ?_⟩
  · unfold TrCosignPeerState.handleSignShare
    simp only [hNamed, hPending, hShare, not_true_eq_false, and_false, if_false]
  · unfold decodeShare
    simp only [hLaws.hex, hLaws.identifier id, hLaws.share share, hIn, not_true_eq_false, if_false]

/-! ## An honest run -/

/-- Between its rounds a run holds the package of the coordinator and the
lowest peers; their shares for it are `s`, and any order of them aggregates. -/
structure Ready (K : Keyset F W) (G : CosignGroup F) (r : F.Identifier → Nat)
    (sessionId : String) (message : List UInt8) (p : Prepared F) (pkgBytes : List UInt8)
    (s : F.Identifier → F.Share) : Prop where
  asks : Asks G K.threshold sessionId p.package pkgBytes p.request
  sameMessage : p.package.message = message
  decodes : F.deserializePackage pkgBytes = .ok p.package
  names : p.names.Lists G.peers.reverse G.name
  localShare : p.localShare = s G.localId
  shares : ∀ i ∈ G.localId :: G.lowest K.threshold,
    F.sign p.package (K.nonces r i) (F.tweak (K.key i)) = .ok (s i)
  aggregates : ∀ ids : List F.Identifier, ids.Perm (G.localId :: G.lowest K.threshold) →
    ∃ signature, W.aggregate p.package (ids.map fun i => (i, s i)) (W.tweakPubkey K.pubkey) =
        .ok signature ∧
      W.verify (W.tweakPubkey K.pubkey) message signature = .ok ()

variable {K : Keyset F W} {G : CosignGroup F} {r : F.Identifier → Nat} {sessionId : String}
  {message : List UInt8}

/-- After an honest first round a run is ready for its second. -/
theorem prepareShares_honest (sessionId : String) (message : List UInt8) (hLaws : FrostLaws W)
    (hK : K.Correct (G.localId :: G.peers)) (ht : K.threshold ≤ G.peers.length + 1) {resp : F.Identifier → TrCommitResponse}
    (hResp : AllCommitted W G.name (K.commitments r) resp G.peers) :
    ∃ p pkgBytes s,
      prepareShares W (K.state G.localId) sessionId message G.localId (F.tweak (K.key G.localId))
        (K.nonces r G.localId) (K.commitments r G.localId) (G.peers.map resp) = .ok p ∧
      Ready K G r sessionId message p pkgBytes s := by
  obtain ⟨signers, hPerm, hPrepare⟩ := prepareShares_committed hLaws.identifier G
    (K.state G.localId) sessionId message (F.tweak (K.key G.localId)) (K.nonces r G.localId) hResp ht
  have hNodup : signers.Nodup := hPerm.nodup_iff.mpr (G.signers_nodup _)
  have hSub : signers ⊆ G.localId :: G.peers := fun i hi => by
    rcases List.mem_cons.mp (hPerm.mem_iff.mp hi) with rfl | hLow
    · exact List.mem_cons_self ..
    · exact List.mem_cons_of_mem _ (G.lowest_subset _ hLow)
  -- the local signer and the lowest peers reach the threshold
  have hLength : K.threshold ≤ signers.length := by
    have hTwo := hK.two_le
    have hLowest := G.lowest_length ht
    have hSigners : signers.length = (G.lowest K.threshold).length + 1 := hPerm.length_eq
    omega
  obtain ⟨s, hs, hAggregate⟩ := hK.shares hNodup hSub hLength r message
  -- the package that is sent decodes to the one that was made
  obtain ⟨pkgBytes, hPackage, hBack⟩ := hLaws.package (K.package r message signers)
    (by rw [K.package_ids]; exact hNodup) (by
      intro e he
      obtain ⟨i, -, rfl⟩ := List.mem_map.mp he
      exact ⟨F.tweak (K.key i), r i, rfl⟩)
  have hLocal := hs G.localId (hPerm.mem_iff.mpr (List.mem_cons_self ..))
  obtain ⟨p, hp, hpPackage, hpShare, hpNames, hAsks⟩ :=
    hPrepare pkgBytes (s G.localId) hPackage hLocal
  have hpPackage : p.package = K.package r message signers := hpPackage
  refine ⟨p, pkgBytes, s, hp, hAsks, ?_, ?_, hpNames, hpShare, ?_, ?_⟩
  · rw [hpPackage]
    rfl
  · rw [hpPackage]
    exact hBack
  · intro i hi
    rw [hpPackage]
    exact hs i (hPerm.mem_iff.mpr hi)
  · intro ids hIds
    rw [hpPackage]
    exact hAggregate ids (hIds.trans hPerm.symm)

/-- A run that is ready and gets the shares of the lowest peers is done. -/
theorem Ready.aggregateShares {p : Prepared F} {pkgBytes : List UInt8} {s : F.Identifier → F.Share}
    (h : Ready K G r sessionId message p pkgBytes s) (ht : K.threshold ≤ G.peers.length + 1)
    {ids : List F.Identifier} (hIds : ids.Perm (G.lowest K.threshold))
    {resp : F.Identifier → TrSignShareResponse}
    (hResp : Shared W (p.package.commitments.map Prod.fst) s resp ids) :
    ∃ attributed, aggregateShares W (K.state G.localId) (G.name G.localId) message G.localId p
      (ids.map resp) = .ok attributed := by
  obtain ⟨signature, hAggregate, hVerify⟩ :=
    h.aggregates _ (reverse_append_perm hIds G.localId)
  exact ⟨_, aggregateShares_shared (K.state G.localId) h.names h.localShare ht hIds hResp
    hAggregate hVerify⟩

/-- A run whose peers answer honestly in both rounds ends with a signature. -/
theorem signRawWire_honest (hLaws : FrostLaws W) (hK : K.Correct (G.localId :: G.peers))
    (ht : K.threshold ≤ G.peers.length + 1) {T : TrCosignTransport}
    {resp : F.Identifier → TrCommitResponse}
    (hRound : T.collectCommitments ⟨sessionId, F.hexEncode message, G.name G.localId⟩ =
      .ok (G.peers.map resp))
    (hResp : AllCommitted W G.name (K.commitments r) resp G.peers)
    (hShares : ∀ p pkgBytes s,
      prepareShares W (K.state G.localId) sessionId message G.localId (F.tweak (K.key G.localId))
        (K.nonces r G.localId) (K.commitments r G.localId) (G.peers.map resp) = .ok p →
      Ready K G r sessionId message p pkgBytes s →
      ∃ (ids : List F.Identifier) (resp : F.Identifier → TrSignShareResponse),
        ids.Perm (G.lowest K.threshold) ∧
        T.collectSignatureShares p.request = .ok (ids.map resp) ∧
        Shared W (p.package.commitments.map Prod.fst) s resp ids) :
    ∃ signature, signRawWire W (.ok (K.state G.localId)) T (G.name G.localId) sessionId message
      (r G.localId) = .ok signature := by
  obtain ⟨p, pkgBytes, s, hp, hReady⟩ := prepareShares_honest sessionId message hLaws hK ht hResp
  obtain ⟨ids, resp', hIds, hRound', hResp'⟩ := hShares p pkgBytes s hp hReady
  obtain ⟨attributed, hDone⟩ := hReady.aggregateShares ht hIds hResp'
  exact ⟨attributed.signature, (signRawWire_ok_iff W G.localId
    (K.key G.localId) rfl).mpr ⟨_, p, _, attributed, hRound, hp, hRound', hDone, rfl⟩⟩

end Honest

end KeroseneVault
