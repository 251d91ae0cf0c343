import KeroseneVault.Cosign.PlainFrost

/-!
# Availability of co-signing

Every peer answers or does not answer each of the two rounds of a run, and
answers honestly where it does. The transport gives up at the first peer that
fails, and the coordinator never asks a peer that it cut: a signature is
returned exactly when *every* configured peer answers the first round and each
of the lowest ones the second. That a threshold of peers answers both is not
enough.

* `Reach` — what a peer does with a request;
* `Serves` — a network whose peers hold their shares.

Main results:

* `postPeer_up`, `postPeer_not_up` — one request;
* `signRawWire_iff_up` — exactly when a run returns a signature;
* `oneDown_not_available` — three nodes with threshold two and one peer down.
-/

namespace KeroseneVault

open Coordinator

/-! ## One request -/

/-- What a peer does with a request: it answers after some attempts were lost,
no attempt gets through, or the answer is an error. -/
inductive Reach where
  | up (lost : Nat)
  | unreachable (e : String)
  | refuses (status : Nat) (text : String) (h : isSuccess status = false)

namespace Reach

/-- An attempt within the budget gets through and is answered. -/
def Up (maxRetries : Nat) : Reach → Prop
  | up lost => lost < max maxRetries 1
  | unreachable _ => False
  | refuses .. => False

instance (maxRetries : Nat) : DecidablePred (Up maxRetries)
  | up lost => inferInstanceAs (Decidable (lost < max maxRetries 1))
  | unreachable _ => isFalse id
  | refuses .. => isFalse id

/-- The reply to each attempt, where `answer` is the peer's own. -/
def reply {R : Type} (answer : HttpReply R) : Reach → Nat → HttpReply R
  | up lost, attempt => if attempt < lost then .sendFails "connection refused" else answer
  | unreachable e, _ => .sendFails e
  | refuses status text _, _ => .response status text (.error "expected value")

end Reach

section Request

variable {R : Type} {url : String}

/-- Lost attempts are tried again while the budget lasts. -/
theorem postJsonWithRetryBlocking_up {answer : HttpReply R} {status : Nat} {text : String}
    {json : Except String R} (hAnswer : answer = .response status text json) {lost attempt left : Nat}
    (h : lost ≤ attempt + left) :
    postJsonWithRetryBlocking url ((Reach.up lost).reply answer) attempt left =
      .ok (status, text, json) := by
  subst hAnswer
  induction left generalizing attempt with
  | zero =>
    have hThrough : ¬ attempt < lost := by omega
    simp only [postJsonWithRetryBlocking, Reach.reply, if_neg hThrough]
  | succ left ih =>
    by_cases hLost : attempt < lost
    · simp only [postJsonWithRetryBlocking, Reach.reply, if_pos hLost]
      exact ih (by omega)
    · simp only [postJsonWithRetryBlocking, Reach.reply, if_neg hLost]

/-- A request that no attempt of the budget gets through fails. -/
theorem postJsonWithRetryBlocking_lost (url : String) {reply : Nat → HttpReply R} {attempt left : Nat}
    (h : ∀ n ≤ attempt + left, ∃ e, reply n = .sendFails e) :
    ∃ e, postJsonWithRetryBlocking url reply attempt left = .error e := by
  induction left generalizing attempt with
  | zero =>
    obtain ⟨e, he⟩ := h attempt (by omega)
    exact ⟨_, by rw [postJsonWithRetryBlocking, he]⟩
  | succ left ih =>
    obtain ⟨e, he⟩ := h attempt (by omega)
    rw [postJsonWithRetryBlocking, he]
    exact ih fun n hn => h n (by omega)

variable {reach : Reach} {maxRetries : Nat}

theorem postPeer_up (hUp : reach.Up maxRetries) {answer : HttpReply R} {body : R}
    (hAnswer : answer = .response 200 "" (.ok body)) :
    postPeer maxRetries (.ok ()) url (reach.reply answer) = .ok body := by
  rcases reach with lost | e | ⟨status, text, hStatus⟩
  · have hLost : lost ≤ 0 + (max maxRetries 1 - 1) := by
      have : lost < max maxRetries 1 := hUp
      omega
    unfold postPeer
    simp only [postJsonWithRetryBlocking_up hAnswer hLost]
    rfl
  · exact hUp.elim
  · exact hUp.elim

theorem postPeer_not_up (url : String) (hDown : ¬ reach.Up maxRetries) (answer : HttpReply R) :
    ∃ e, postPeer maxRetries (.ok ()) url (reach.reply answer) = .error e := by
  unfold postPeer
  rcases reach with lost | e | ⟨status, text, hStatus⟩
  · -- all attempts of the budget are lost
    have hLost : ¬ lost < max maxRetries 1 := hDown
    have hAll : ∀ n ≤ 0 + (max maxRetries 1 - 1), ∃ e,
        (Reach.up lost).reply answer n = .sendFails e := by
      intro n hn
      have hn : n < lost := by omega
      exact ⟨_, by rw [Reach.reply, if_pos hn]⟩
    obtain ⟨e, he⟩ := postJsonWithRetryBlocking_lost url hAll
    exact ⟨e, by simp only [he]⟩
  · have hAll : ∀ n ≤ 0 + (max maxRetries 1 - 1), ∃ e',
        (Reach.unreachable e).reply answer n = .sendFails e' := fun _ _ => ⟨e, rfl⟩
    obtain ⟨e', he⟩ := postJsonWithRetryBlocking_lost url hAll
    exact ⟨e', by simp only [he]⟩
  · -- an error status is an answer, and is not tried again
    have hReply : postJsonWithRetryBlocking url ((Reach.refuses status text hStatus).reply answer) 0
        (max maxRetries 1 - 1) = .ok (status, text, .error "expected value") := by
      cases max maxRetries 1 - 1 <;> rfl
    simp only [hReply, hStatus, Bool.not_false, if_true]
    exact ⟨_, rfl⟩

end Request

/-! ## The two rounds -/

/-- A network in which peer `i` holds the key package `key i`, draws `r i` and
behaves in the two rounds of one run as `round1 i` and `round2 i` say. -/
structure Serves {F : FrostTr} (net : CosignNet) (G : CosignGroup F)
    (key : F.Identifier → F.KeyPackage) (r : F.Identifier → Nat)
    (pending : F.Identifier → Table String (PendingTrRound F)) (round1 round2 : F.Identifier → Reach)
    (commit : TrCommitRequest) : Prop where
  client : net.client = .ok ()
  commits : ∀ i ∈ G.peers, ∀ req, net.commit (G.peer i) req =
    (round1 i).reply (v1FrostTrCommit (TrCosignPeerState.handleCommit
      ⟨.ok [(i, key i)], r i, none⟩ req ⟨G.name i, pending i⟩).1)
  signs : ∀ i ∈ G.peers, ∀ req, net.signShare (G.peer i) req =
    (round2 i).reply (v1FrostTrSignShare (TrCosignPeerState.handleSignShare
      ⟨.ok [(i, key i)], r i, none⟩ req (TrCosignPeerState.handleCommit
        ⟨.ok [(i, key i)], r i, none⟩ commit ⟨G.name i, pending i⟩).2).1)

/-- The peers of a group as a network. -/
def CosignGroup.network {F : FrostTr} (G : CosignGroup F) (key : F.Identifier → F.KeyPackage)
    (r : F.Identifier → Nat) (pending : F.Identifier → Table String (PendingTrRound F))
    (round1 round2 : F.Identifier → Reach) (commit : TrCommitRequest) : CosignNet where
  client := .ok ()
  commit peer req attempt :=
    match G.peers.find? fun i => decide (G.peer i = peer) with
    | none => .sendFails "dns error"
    | some i => (round1 i).reply (v1FrostTrCommit (TrCosignPeerState.handleCommit
        ⟨.ok [(i, key i)], r i, none⟩ req ⟨G.name i, pending i⟩).1) attempt
  signShare peer req attempt :=
    match G.peers.find? fun i => decide (G.peer i = peer) with
    | none => .sendFails "dns error"
    | some i => (round2 i).reply (v1FrostTrSignShare (TrCosignPeerState.handleSignShare
        ⟨.ok [(i, key i)], r i, none⟩ req (TrCosignPeerState.handleCommit
          ⟨.ok [(i, key i)], r i, none⟩ commit ⟨G.name i, pending i⟩).2).1) attempt

theorem CosignGroup.find_peer {F : FrostTr} (G : CosignGroup F) {i : F.Identifier}
    (hi : i ∈ G.peers) : (G.peers.find? fun j => decide (G.peer j = G.peer i)) = some i := by
  obtain ⟨j, hj⟩ : ∃ j, (G.peers.find? fun j => decide (G.peer j = G.peer i)) = some j := by
    rw [← Option.isSome_iff_exists, List.find?_isSome]
    exact ⟨i, hi, decide_eq_true rfl⟩
  have hFound := List.find?_some hj
  have hPeer : G.peer j = G.peer i := of_decide_eq_true hFound
  have hEq : j = i := G.name_inj j (List.mem_cons_of_mem _ (List.mem_of_find?_eq_some hj)) i
    (List.mem_cons_of_mem _ hi) (congrArg Prod.fst hPeer)
  rw [hj, hEq]

theorem CosignGroup.serves_network {F : FrostTr} (G : CosignGroup F)
    (key : F.Identifier → F.KeyPackage) (r : F.Identifier → Nat)
    (pending : F.Identifier → Table String (PendingTrRound F)) (round1 round2 : F.Identifier → Reach)
    (commit : TrCommitRequest) :
    Serves (G.network key r pending round1 round2 commit) G key r pending round1 round2 commit where
  client := rfl
  commits i hi req := by
    funext attempt
    simp only [CosignGroup.network, G.find_peer hi]
  signs i hi req := by
    funext attempt
    simp only [CosignGroup.network, G.find_peer hi]

section Rounds

variable {F : FrostTr} {W : FrostTrCoordinator F} {net : CosignNet} {G : CosignGroup F}
  {K : Keyset F W} {key : F.Identifier → F.KeyPackage} {r : F.Identifier → Nat}
  {pending : F.Identifier → Table String (PendingTrRound F)} {round1 round2 : F.Identifier → Reach}
  {sessionId : String} {message : List UInt8} {maxRetries : Nat}

/-- A peer that is up commits with its own share, under its own name. -/
theorem postCommit_up (hLaws : FrostLaws W)
    (hNet : Serves net G key r pending round1 round2
      ⟨sessionId, F.hexEncode message, G.name G.localId⟩)
    (hKey : ∀ i ∈ G.peers, F.tweak (key i) = F.tweak (K.key i)) {i : F.Identifier}
    (hi : i ∈ G.peers) (hUp : (round1 i).Up maxRetries) :
    ∃ resp, (G.transport maxRetries).postCommit net
        ⟨sessionId, F.hexEncode message, G.name G.localId⟩ (G.peer i) = .ok resp ∧
      decodeCommit W resp = .ok (i, K.commitments r i) ∧ resp.nodeId = G.name i := by
  obtain ⟨resp, hHandle, hNode, hDecode⟩ := handleCommit_honest hLaws
    ⟨.ok [(i, key i)], r i, none⟩ rfl ⟨sessionId, F.hexEncode message, G.name G.localId⟩ rfl
    ⟨G.name i, pending i⟩
  refine ⟨resp, ?_, ?_, hNode⟩
  · have hAnswer : v1FrostTrCommit (TrCosignPeerState.handleCommit ⟨.ok [(i, key i)], r i, none⟩
        ⟨sessionId, F.hexEncode message, G.name G.localId⟩ ⟨G.name i, pending i⟩).1 =
        .response 200 "" (.ok resp) := by
      rw [hHandle]
      rfl
    unfold HttpTrCosignTransport.postCommit
    rw [hNet.client, hNet.commits i hi, G.transport_maxRetries, postPeer_up hUp hAnswer]
  · rw [hDecode, hKey i hi]
    rfl

/-- When all peers are up the first round yields their commitments. -/
theorem collectCommitments_up (hLaws : FrostLaws W)
    (hNet : Serves net G key r pending round1 round2
      ⟨sessionId, F.hexEncode message, G.name G.localId⟩)
    (hKey : ∀ i ∈ G.peers, F.tweak (key i) = F.tweak (K.key i))
    (hUp : ∀ i ∈ G.peers, (round1 i).Up maxRetries) :
    ∃ resp, (G.transport maxRetries).collectCommitments net
        ⟨sessionId, F.hexEncode message, G.name G.localId⟩ = .ok (G.peers.map resp) ∧
      AllCommitted W G.name (K.commitments r) resp G.peers := by
  have hEach := fun i hi => postCommit_up hLaws hNet hKey hi (hUp i hi)
  have : Nonempty TrCommitResponse := ⟨⟨"", "", ""⟩⟩
  choose! resp hPost hDecode hNode using hEach
  exact ⟨resp, Results.mapM_map_ok hPost, hDecode, hNode⟩

/-- One peer that is not up fails the first round. -/
theorem up_of_collectCommitments {commit : TrCommitRequest}
    (hNet : Serves net G key r pending round1 round2 commit) {req : TrCommitRequest}
    {responses : List TrCommitResponse}
    (h : (G.transport maxRetries).collectCommitments net req = .ok responses) :
    ∀ i ∈ G.peers, (round1 i).Up maxRetries := by
  intro i hi
  obtain ⟨resp, hPost⟩ := Results.exists_of_mapM_ok h (G.peer i) (List.mem_map_of_mem hi)
  by_contra hDown
  obtain ⟨e, he⟩ := postPeer_not_up ((G.peer i).2 ++ "/v1/frost/tr/commit") hDown
    (v1FrostTrCommit (TrCosignPeerState.handleCommit
      ⟨.ok [(i, key i)], r i, none⟩ req ⟨G.name i, pending i⟩).1)
  unfold HttpTrCosignTransport.postCommit at hPost
  rw [hNet.client, hNet.commits i hi, G.transport_maxRetries, he] at hPost
  cases hPost

/-- When the lowest peers are up the second round yields their shares. -/
theorem collectSignatureShares_up (hLaws : FrostLaws W)
    (hNet : Serves net G key r pending round1 round2
      ⟨sessionId, F.hexEncode message, G.name G.localId⟩)
    (hKey : ∀ i ∈ G.peers, F.tweak (key i) = F.tweak (K.key i))
    (hSome : G.lowest K.threshold ≠ [])
    (hUp : ∀ i ∈ G.lowest K.threshold, (round2 i).Up maxRetries) {p : Prepared F}
    {pkgBytes : List UInt8} {s : F.Identifier → F.Share}
    (hReady : Ready K G r sessionId message p pkgBytes s) :
    ∃ (ids : List F.Identifier) (resp : F.Identifier → TrSignShareResponse),
      ids.Perm (G.lowest K.threshold) ∧
      (G.transport maxRetries).collectSignatureShares net p.request = .ok (ids.map resp) ∧
      Shared W (p.package.commitments.map Prod.fst) s resp ids := by
  have hEach : ∀ i ∈ G.peers.filter fun i => decide (i ∈ G.lowest K.threshold), ∃ resp,
      (G.transport maxRetries).postSignShare net p.request (G.peer i) = .ok resp ∧
      decodeShare W (p.package.commitments.map Prod.fst) resp = .ok (some (i, s i)) := by
    intro i hi
    obtain ⟨hPeer, hLow⟩ := List.mem_filter.mp hi
    have hLow : i ∈ G.lowest K.threshold := of_decide_eq_true hLow
    -- the first round left the nonces for this message under this session
    obtain ⟨commitResp, hCommit, -, -⟩ := handleCommit_honest hLaws
      ⟨.ok [(i, key i)], r i, none⟩ rfl ⟨sessionId, F.hexEncode message, G.name G.localId⟩ rfl
      ⟨G.name i, pending i⟩
    have hShare := hReady.shares i (List.mem_cons_of_mem _ hLow)
    rw [← hKey i hPeer] at hShare
    have hPending : ((pending i).insert sessionId
        (⟨(F.commit (F.tweak (key i)) (r i)).1, message⟩ : PendingTrRound F)).lookup
          p.request.sessionId = some ⟨K.nonces r i, p.package.message⟩ := by
      rw [hReady.asks.session, AList.lookup_insert, hReady.sameMessage, Keyset.nonces, hKey i hPeer]
    obtain ⟨resp, hSign, hDecode⟩ := handleSignShare_honest hLaws
      ⟨.ok [(i, key i)], r i, none⟩ rfl rfl p.request
      ⟨G.name i, (pending i).insert sessionId ⟨(F.commit (F.tweak (key i)) (r i)).1, message⟩⟩
      ((hReady.asks.nodes _).mpr ⟨i, hLow, rfl⟩) hReady.asks.package hReady.decodes hPending
      (hReady.asks.signers.mem_iff.mpr (List.mem_cons_of_mem _ hLow)) hShare
    refine ⟨resp, ?_, hDecode⟩
    have hAnswer : v1FrostTrSignShare (TrCosignPeerState.handleSignShare
        ⟨.ok [(i, key i)], r i, none⟩ p.request (TrCosignPeerState.handleCommit
          ⟨.ok [(i, key i)], r i, none⟩ ⟨sessionId, F.hexEncode message, G.name G.localId⟩
          ⟨G.name i, pending i⟩).2).1 = .response 200 "" (.ok resp) := by
      rw [hCommit, hSign]
      rfl
    unfold HttpTrCosignTransport.postSignShare
    rw [hNet.client, hNet.signs i hPeer, G.transport_maxRetries, postPeer_up (hUp i hLow) hAnswer]
  have : Nonempty TrSignShareResponse := ⟨⟨"", "", ""⟩⟩
  choose! resp hPost hDecode using hEach
  refine ⟨_, resp, G.filter_lowest_perm K.threshold, ?_, hDecode⟩
  rw [HttpTrCosignTransport.collectSignatureShares_asks hReady.asks hSome]
  exact Results.mapM_map_ok hPost

/-- One of the lowest peers that is not up fails the second round. -/
theorem up_of_collectSignatureShares {commit : TrCommitRequest}
    (hNet : Serves net G key r pending round1 round2 commit) {t : Nat}
    {package : SigningPackage F.Identifier F.Commitments} {pkgBytes : List UInt8}
    {req : TrSignShareRequest} (hAsks : Asks G t sessionId package pkgBytes req)
    {responses : List TrSignShareResponse}
    (h : (G.transport maxRetries).collectSignatureShares net req = .ok responses) :
    ∀ i ∈ G.lowest t, (round2 i).Up maxRetries := by
  intro i hi
  have hPeer := G.lowest_subset t hi
  rw [HttpTrCosignTransport.collectSignatureShares_asks hAsks (List.ne_nil_of_mem hi)] at h
  obtain ⟨resp, hPost⟩ := Results.exists_of_mapM_ok h (G.peer i)
    (List.mem_map_of_mem (List.mem_filter.mpr ⟨hPeer, decide_eq_true hi⟩))
  by_contra hDown
  obtain ⟨e, he⟩ := postPeer_not_up ((G.peer i).2 ++ "/v1/frost/tr/sign-share") hDown
    (v1FrostTrSignShare (TrCosignPeerState.handleSignShare
      ⟨.ok [(i, key i)], r i, none⟩ req (TrCosignPeerState.handleCommit
        ⟨.ok [(i, key i)], r i, none⟩ commit ⟨G.name i, pending i⟩).2).1)
  unfold HttpTrCosignTransport.postSignShare at hPost
  rw [hNet.client, hNet.signs i hPeer, G.transport_maxRetries, he] at hPost
  cases hPost

/-- An honest run over peers that are up ends with a signature. -/
theorem signRawWire_up (hLaws : FrostLaws W) (hK : K.Correct (G.localId :: G.peers))
    (ht : K.threshold ≤ G.peers.length + 1)
    (hNet : Serves net G key r pending round1 round2
      ⟨sessionId, F.hexEncode message, G.name G.localId⟩)
    (hKey : ∀ i ∈ G.peers, F.tweak (key i) = F.tweak (K.key i))
    (hUp1 : ∀ i ∈ G.peers, (round1 i).Up maxRetries)
    (hUp2 : ∀ i ∈ G.lowest K.threshold, (round2 i).Up maxRetries) :
    ∃ signature, signRawWire W (.ok (K.state G.localId))
      ((G.transport maxRetries).toTransport net) (G.name G.localId) sessionId message
      (r G.localId) = .ok signature := by
  obtain ⟨resp, hRound, hResp⟩ := collectCommitments_up hLaws hNet hKey hUp1
  refine signRawWire_honest hLaws hK ht hRound hResp fun p pkgBytes s _ hReady => ?_
  exact collectSignatureShares_up hLaws hNet hKey (G.lowest_ne_nil hK.two_le ht) hUp2 hReady

/-- A run that returned a signature had every peer up in the first round and
the lowest in the second. -/
theorem up_of_signRawWire (hLaws : FrostLaws W) (hK : K.Correct (G.localId :: G.peers))
    (ht : K.threshold ≤ G.peers.length + 1)
    (hNet : Serves net G K.key r pending round1 round2
      ⟨sessionId, F.hexEncode message, G.name G.localId⟩) {signature : W.Signature}
    (h : signRawWire W (.ok (K.state G.localId)) ((G.transport maxRetries).toTransport net)
      (G.name G.localId) sessionId message (r G.localId) = .ok signature) :
    (∀ i ∈ G.peers, (round1 i).Up maxRetries) ∧
      ∀ i ∈ G.lowest K.threshold, (round2 i).Up maxRetries := by
  obtain ⟨peerCommits, p, peerShares, -, hCommits, hPrepare, hShares, -, -⟩ :=
    (signRawWire_ok_iff W G.localId (K.key G.localId) rfl).mp h
  have hUp := up_of_collectCommitments hNet hCommits
  -- the run is the honest one up to its second round
  obtain ⟨resp, hRound, hResp⟩ := collectCommitments_up hLaws hNet (fun _ _ => rfl) hUp
  obtain rfl : peerCommits = G.peers.map resp := Except.ok.inj (hCommits.symm.trans hRound)
  obtain ⟨p', pkgBytes, s, hPrepare', hReady⟩ :=
    prepareShares_honest sessionId message hLaws hK ht hResp
  obtain rfl : p = p' := Except.ok.inj (hPrepare.symm.trans hPrepare')
  exact ⟨hUp, up_of_collectSignatureShares hNet hReady.asks hShares⟩

/--
**Availability, exactly.** Let the coordinator and `threshold - 1` peers be
honest and up in both rounds. The run returns a signature exactly when all
peers are up in the first round, and each of the lowest in the second.
-/
theorem signRawWire_iff_up (hLaws : FrostLaws W) (hK : K.Correct (G.localId :: G.peers))
    (honest : List F.Identifier) (hNodup : honest.Nodup) (hSub : honest ⊆ G.peers)
    (hEnough : K.threshold - 1 ≤ honest.length)
    (_hUp : ∀ i ∈ honest, (round1 i).Up maxRetries ∧ (round2 i).Up maxRetries)
    (hNet : Serves net G K.key r pending round1 round2
      ⟨sessionId, F.hexEncode message, G.name G.localId⟩) :
    (∃ signature, signRawWire W (.ok (K.state G.localId)) ((G.transport maxRetries).toTransport net)
        (G.name G.localId) sessionId message (r G.localId) = .ok signature) ↔
      (∀ i ∈ G.peers, (round1 i).Up maxRetries) ∧
        ∀ i ∈ G.lowest K.threshold, (round2 i).Up maxRetries := by
  have ht : K.threshold ≤ G.peers.length + 1 := by
    have hLength := (hNodup.subperm hSub).length_le
    omega
  constructor
  · rintro ⟨signature, h⟩
    exact up_of_signRawWire hLaws hK ht hNet h
  · rintro ⟨hUp1, hUp2⟩
    exact signRawWire_up hLaws hK ht hNet (fun _ _ => rfl) hUp1 hUp2

end Rounds

/-! ## Three nodes -/

/-- Three nodes; the first coordinates. -/
def threeNodes : CosignGroup plainFrost where
  localId := (1 : UInt8)
  peers := [(2 : UInt8), (3 : UInt8)]
  name (i : UInt8) := if i = 1 then "vault-1" else if i = 2 then "vault-2" else "vault-3"
  base (i : UInt8) := if i = 2 then "https://vault-2" else "https://vault-3"
  nodup := by decide
  name_inj := by decide

/-- The third node does not answer. -/
def oneDown (i : UInt8) : Reach := if i = 3 then .unreachable "connection refused" else .up 0

theorem signRawWire_iff_up_threeNodes :
    (∃ signature, signRawWire plainCoordinator
        (.ok ((plainKeyset (fun i => 10 * i) 2).state (1 : UInt8)))
        ((threeNodes.transport 3).toTransport (threeNodes.network
          (plainKeyset (fun i => 10 * i) 2).key (fun _ => 5) (fun _ => ∅) (fun _ => .up 1) oneDown
          ⟨"tr-wire-00", hexText [7], "vault-1"⟩)) "vault-1" "tr-wire-00" [7] 5 = .ok signature) ↔
      (∀ i ∈ threeNodes.peers, (Reach.up 1).Up 3) ∧
        ∀ i ∈ threeNodes.lowest 2, (oneDown i).Up 3 :=
  signRawWire_iff_up (K := plainKeyset (fun i => 10 * i) 2) plainFrost_laws
    (plainKeyset_correct (by decide) _) [(2 : UInt8)] (by decide) (by decide) (by decide)
    (fun i hi => by
      obtain rfl : i = (2 : UInt8) := List.mem_singleton.mp hi
      exact ⟨by decide, by decide⟩)
    (threeNodes.serves_network _ _ _ _ _ _)

/-- The coordinator and one peer are up in both rounds, which makes two of
three, and the run fails at the third. -/
theorem oneDown_not_available :
    (∃ honest : List UInt8, honest.Nodup ∧ honest ⊆ threeNodes.peers ∧ 2 - 1 ≤ honest.length ∧
      ∀ i ∈ honest, (oneDown i).Up 3) ∧
    ¬ ∃ signature, signRawWire plainCoordinator
        (.ok ((plainKeyset (fun i => 10 * i) 2).state (1 : UInt8)))
        ((threeNodes.transport 3).toTransport (threeNodes.network
          (plainKeyset (fun i => 10 * i) 2).key (fun _ => 5) (fun _ => ∅) oneDown oneDown
          ⟨"tr-wire-00", hexText [7], "vault-1"⟩)) "vault-1" "tr-wire-00" [7] 5 = .ok signature := by
  refine ⟨⟨[2], by decide, List.cons_subset_cons 2 (List.nil_subset _), by decide,
    fun i hi => ?_⟩, ?_⟩
  · obtain rfl : i = (2 : UInt8) := List.mem_singleton.mp hi
    decide
  · rintro ⟨signature, h⟩
    obtain ⟨hUp, -⟩ := up_of_signRawWire (K := plainKeyset (fun i => 10 * i) 2)
      (G := threeNodes) plainFrost_laws (plainKeyset_correct (by decide) _) (by decide)
      (threeNodes.serves_network _ _ _ _ _ _) h
    exact hUp (3 : UInt8) (List.mem_cons_of_mem _ (List.mem_singleton.mpr rfl))

end KeroseneVault
