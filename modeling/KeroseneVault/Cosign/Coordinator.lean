import KeroseneVault.Cosign.Peer
import KeroseneVault.Ledger.Transport

/-!
# The co-sign coordinator

`sign_raw_wire_attributed`: a node with one Taproot FROST share asks its peers
for commitments, cuts the signer set to the threshold, asks the peers of that
set for signature shares and aggregates. `HttpTrCosignTransport` asks the
configured peers one after the other, and the first failure ends the round.

* `postPeer` — one request to one peer, with its retries;
* `collectCommitments`, `collectSignatureShares` — the two rounds;
* `prepareShares`, `aggregateShares` — what the coordinator makes of the
  responses of each (`readCommits`, `trimSigners`, `readShares`);
* `signRawWireAttributed` — the run.

A `BTreeMap` is a table here: only the cut of the signer set depends on an
order, and it sorts the identifiers itself.

Main result: `signRawWire_ok_iff`, a signature is returned exactly when both
rounds yield responses from which the shares are made and aggregate.
-/

namespace KeroseneVault

/-! ## FROST -/

/-- What the coordinator uses of `frost-secp256k1-tr` beside what a peer does. -/
structure FrostTrCoordinator (F : FrostTr) where
  PubkeyPackage : Type
  Signature : Type
  /-- `into_even_y(None).tweak(None)` -/
  tweakPubkey : PubkeyPackage → PubkeyPackage
  deserializeIdentifier : List UInt8 → Except String F.Identifier
  deserializeCommitments : List UInt8 → Except String F.Commitments
  deserializeShare : List UInt8 → Except String F.Share
  serializePackage : SigningPackage F.Identifier F.Commitments → Except String (List UInt8)
  aggregate : SigningPackage F.Identifier F.Commitments → List (F.Identifier × F.Share) →
    PubkeyPackage → Except String Signature
  /-- `verifying_key().verify` -/
  verify : PubkeyPackage → List UInt8 → Signature → Except String Unit

/-- `FrostTrShareState`. -/
structure FrostTrShareState (F : FrostTr) (W : FrostTrCoordinator F) where
  keyPackages : List (F.Identifier × F.KeyPackage)
  pubkeyPackage : W.PubkeyPackage
  minSigners : Nat

/-! ## Requests over HTTP -/

/-- What one attempt of a request yields: a failure to send, or a response
with its status, its text, and its body decoded as JSON. -/
inductive HttpReply (R : Type) where
  | sendFails (e : String)
  | response (status : Nat) (text : String) (json : Except String R)

/-- `post_json_with_retry_blocking` from attempt number `attempt` on, with
`left` attempts after it: only a failure to send is tried again. -/
def postJsonWithRetryBlocking {R : Type} (url : String) (reply : Nat → HttpReply R)
    (attempt : Nat) : Nat → Except DomainError (Nat × String × Except String R)
  | 0 =>
    match reply attempt with
    | .response status text json => .ok (status, text, json)
    | .sendFails e => .error (.thresholdError s!"TR co-sign HTTP {url}: {e}")
  | left + 1 =>
    match reply attempt with
    | .response status text json => .ok (status, text, json)
    | .sendFails _ => postJsonWithRetryBlocking url reply (attempt + 1) left

/-- `HttpTrCosignTransport::post_peer`. -/
def postPeer {R : Type} (maxRetries : Nat) (client : Outcome) (url : String)
    (reply : Nat → HttpReply R) : Except DomainError R :=
  match client with
  | .error e => .error e
  | .ok () =>
    match postJsonWithRetryBlocking url reply 0 (max maxRetries 1 - 1) with
    | .error e => .error e
    | .ok (status, text, json) =>
      if !isSuccess status then
        .error (.thresholdError s!"TR co-sign peer {url} failed ({status}): {text}")
      else
        match json with
        | .error e => .error (.thresholdError s!"TR co-sign peer decode: {e}")
        | .ok body => .ok body

/-- The answers of `v1_frost_tr_commit`. -/
def v1FrostTrCommit : Except DomainError TrCommitResponse → HttpReply TrCommitResponse
  | .ok resp => .response 200 "" (.ok resp)
  | .error e => .response 400 e.display (.error "missing field node_id")

/-- The answers of `v1_frost_tr_sign_share`; a skip is a success whose body is
no `TrSignShareResponse`. -/
def v1FrostTrSignShare : Except DomainError (Option TrSignShareResponse) →
    HttpReply TrSignShareResponse
  | .ok (some resp) => .response 200 "" (.ok resp)
  | .ok none => .response 200 "" (.error "missing field node_id")
  | .error e => .response 400 e.display (.error "missing field node_id")

/-! ## The transport -/

/-- A `TrCosignTransport`: what its two rounds yield. -/
structure TrCosignTransport where
  collectCommitments : TrCommitRequest → Except DomainError (List TrCommitResponse)
  collectSignatureShares : TrSignShareRequest → Except DomainError (List TrSignShareResponse)

/-- `HttpTrCosignTransport`: the configured peers, each an id and a base URL. -/
structure HttpTrCosignTransport where
  peers : List (String × String)
  maxRetries : Nat

/-- What the network does during one run: whether the client is built, and
what each peer replies to each attempt of the two requests. -/
structure CosignNet where
  client : Outcome
  commit : String × String → TrCommitRequest → Nat → HttpReply TrCommitResponse
  signShare : String × String → TrSignShareRequest → Nat → HttpReply TrSignShareResponse

namespace HttpTrCosignTransport

variable (T : HttpTrCosignTransport) (net : CosignNet)

/-- The commit request to one peer. -/
def postCommit (req : TrCommitRequest) (peer : String × String) :
    Except DomainError TrCommitResponse :=
  match postPeer T.maxRetries net.client (peer.2 ++ "/v1/frost/tr/commit") (net.commit peer req) with
  | .ok resp => .ok resp
  | .error e => .error (.thresholdError s!"TR commit from {peer.1}: {e.display}")

/-- The sign-share request to one peer. -/
def postSignShare (req : TrSignShareRequest) (peer : String × String) :
    Except DomainError TrSignShareResponse :=
  match postPeer T.maxRetries net.client (peer.2 ++ "/v1/frost/tr/sign-share")
    (net.signShare peer req) with
  | .ok resp => .ok resp
  | .error e => .error (.thresholdError s!"TR sign-share from {peer.1}: {e.display}")

/-- The first peer that fails ends the round. -/
def collectCommitments (req : TrCommitRequest) : Except DomainError (List TrCommitResponse) :=
  T.peers.mapM (T.postCommit net req)

/-- Is the peer among those a sign-share request names? No name means all. -/
def named (req : TrSignShareRequest) (peer : String × String) : Bool :=
  req.participantNodeIds.isEmpty || req.participantNodeIds.contains peer.1

/-- Only the peers that the request names are asked. -/
def collectSignatureShares (req : TrSignShareRequest) :
    Except DomainError (List TrSignShareResponse) :=
  (T.peers.filter (named req)).mapM (T.postSignShare net req)

def toTransport : TrCosignTransport := ⟨T.collectCommitments net, T.collectSignatureShares net⟩

end HttpTrCosignTransport

/-! ## The run -/

namespace Coordinator

variable {F : FrostTr} (W : FrostTrCoordinator F)

/-- The commitments by identifier, and who claimed which identifier. -/
structure Commits (F : FrostTr) where
  commitments : Table F.Identifier F.Commitments
  names : Table F.Identifier String

/-- One commit response: its identifier and its commitments. -/
def decodeCommit (peer : TrCommitResponse) : Except DomainError (F.Identifier × F.Commitments) :=
  match F.hexDecode (strTrim peer.identifierHex) with
  | .error e => .error (.thresholdError s!"peer identifier hex: {e}")
  | .ok idBytes =>
    match W.deserializeIdentifier idBytes with
    | .error e => .error (.thresholdError s!"peer identifier: {e}")
    | .ok id =>
      match F.hexDecode (strTrim peer.commitmentsHex) with
      | .error e => .error (.thresholdError s!"peer commitments hex: {e}")
      | .ok cBytes =>
        match W.deserializeCommitments cBytes with
        | .error e => .error (.thresholdError s!"peer commitments: {e}")
        | .ok c => .ok (id, c)

/-- The loop over the commit responses; a later response for an identifier
takes the place of an earlier one. -/
def readCommits (acc : Commits F) : List TrCommitResponse → Except DomainError (Commits F)
  | [] => .ok acc
  | peer :: peers =>
    match decodeCommit W peer with
    | .error e => .error e
    | .ok (id, c) =>
      readCommits ⟨acc.commitments.insert id c, acc.names.insert id peer.nodeId⟩ peers

/-- The loop that keeps the local identifier and the lowest others. -/
def keepLowest (minSigners : Nat) (localId : F.Identifier)
    (commitments : Table F.Identifier F.Commitments) :
    List F.Identifier → Table F.Identifier F.Commitments → Table F.Identifier F.Commitments
  | [], keep => keep
  | id :: ids, keep =>
    if keep.size ≥ minSigners then keep
    else if id = localId then keepLowest minSigners localId commitments ids keep
    else
      match commitments.lookup id with
      | some c => keepLowest minSigners localId commitments ids (keep.insert id c)
      | none => keepLowest minSigners localId commitments ids keep

/-- The identifiers in the order of their encodings. -/
def sortIds (ids : List F.Identifier) : List F.Identifier :=
  ids.mergeSort fun a b => decide (F.identifierBytes a ≤ F.identifierBytes b)

/-- The cut of the signer set to the threshold. The local identifier has an
entry, the coordinator's own or that of a response that claimed it. -/
def trimSigners (minSigners : Nat) (localId : F.Identifier)
    (commitments : Table F.Identifier F.Commitments) : Table F.Identifier F.Commitments :=
  if commitments.size > minSigners then
    match commitments.lookup localId with
    | some c => keepLowest minSigners localId commitments (sortIds commitments.keys)
        (AList.insert localId c ∅)
    | none => commitments
  else commitments

/-- The names under which the signers were claimed. -/
def selectedPeerNodes (commitments : Table F.Identifier F.Commitments)
    (names : Table F.Identifier String) : List String :=
  (commitments.keys.filterMap fun id => names.lookup id).dedup

/-- The signature shares by identifier, and the names they are put down to. -/
structure Shares (F : FrostTr) where
  shares : Table F.Identifier F.Share
  participants : List String

/-- One share response: its identifier, and its share where the identifier is
in the signer set. -/
def decodeShare (signers : List F.Identifier) (peer : TrSignShareResponse) :
    Except DomainError (Option (F.Identifier × F.Share)) :=
  match F.hexDecode (strTrim peer.identifierHex) with
  | .error e => .error (.thresholdError s!"peer identifier hex: {e}")
  | .ok idBytes =>
    match W.deserializeIdentifier idBytes with
    | .error e => .error (.thresholdError s!"peer identifier: {e}")
    | .ok id =>
      if id ∉ signers then .ok none
      else
        match F.hexDecode (strTrim peer.signatureShareHex) with
        | .error e => .error (.thresholdError s!"peer sig share hex: {e}")
        | .ok sBytes =>
          match W.deserializeShare sBytes with
          | .error e => .error (.thresholdError s!"peer sig share: {e}")
          | .ok s => .ok (some (id, s))

/-- The loop over the share responses. A share is put down to whoever claimed
its identifier in the first round. -/
def readShares (signers : List F.Identifier) (names : Table F.Identifier String)
    (acc : Shares F) : List TrSignShareResponse → Except DomainError (Shares F)
  | [] => .ok acc
  | peer :: peers =>
    match decodeShare W signers peer with
    | .error e => .error e
    | .ok none => readShares signers names acc peers
    | .ok (some (id, s)) =>
      readShares signers names
        ⟨acc.shares.insert id s, acc.participants ++ (names.lookup id).toList⟩ peers

/-- `AttributedWireSignature`. -/
structure AttributedWireSignature (F : FrostTr) (W : FrostTrCoordinator F) where
  signature : W.Signature
  participantNodeIds : List String

/-- The one local share of the slot's snapshot. -/
def localShare (snap : FrostTrShareState F W) : Except DomainError (F.Identifier × F.KeyPackage) :=
  match snap.keyPackages with
  | [own] => .ok own
  | keys =>
    .error (.thresholdError (s!"distributed_wire TR sign requires exactly 1 local share (have " ++
      s!"{keys.length}); multi-share in-process sign is dealer_lab only"))

/-- What a run has between its two rounds: the signing package, who claimed
which identifier, its own share, and the request for the others. -/
structure Prepared (F : FrostTr) where
  package : SigningPackage F.Identifier F.Commitments
  names : Table F.Identifier String
  localShare : F.Share
  request : TrSignShareRequest

/-- The part of a run between its two rounds. -/
def prepareShares (snap : FrostTrShareState F W) (sessionId : String) (message : List UInt8)
    (localId : F.Identifier) (key : F.KeyPackage) (nonces : F.Nonces)
    (commitments : F.Commitments) (peerCommits : List TrCommitResponse) :
    Except DomainError (Prepared F) :=
  match readCommits W ⟨AList.insert localId commitments ∅, ∅⟩ peerCommits with
  | .error e => .error e
  | .ok commits =>
    if commits.commitments.size < snap.minSigners then
      .error (.failStop commits.commitments.size snap.minSigners)
    else
      let signers := trimSigners snap.minSigners localId commits.commitments
      let package := ⟨message, signers.toPairs⟩
      match W.serializePackage package with
      | .error e => .error (.thresholdError s!"signing package serialize: {e}")
      | .ok pkgBytes =>
        match F.sign package nonces key with
        | .error e => .error (.thresholdError s!"frost-tr local round2: {e}")
        | .ok share =>
          .ok ⟨package, commits.names, share,
            ⟨sessionId, F.hexEncode pkgBytes, selectedPeerNodes signers commits.names⟩⟩

/-- The part of a run after its second round. -/
def aggregateShares (snap : FrostTrShareState F W) (localNodeId : String) (message : List UInt8)
    (localId : F.Identifier) (p : Prepared F) (peerShares : List TrSignShareResponse) :
    Except DomainError (AttributedWireSignature F W) :=
  match readShares W (p.package.commitments.map Prod.fst) p.names
    ⟨AList.insert localId p.localShare ∅, [localNodeId]⟩ peerShares with
  | .error e => .error e
  | .ok got =>
    if got.shares.size < snap.minSigners then
      .error (.failStop got.shares.size snap.minSigners)
    else
      let pubkey := W.tweakPubkey snap.pubkeyPackage
      match W.aggregate p.package got.shares.toPairs pubkey with
      | .error e => .error (.thresholdError s!"frost-tr wire aggregate: {e}")
      | .ok signature =>
        match W.verify pubkey message signature with
        | .error e => .error (.thresholdError s!"frost-tr wire verify: {e}")
        | .ok () => .ok ⟨signature, sortDedup got.participants⟩

/-- `sign_raw_wire_attributed`; `randomness` is what `round1::commit` draws. -/
def signRawWireAttributed (slot : Except DomainError (FrostTrShareState F W))
    (T : TrCosignTransport) (localNodeId sessionId : String) (message : List UInt8)
    (randomness : Nat) : Except DomainError (AttributedWireSignature F W) :=
  match slot with
  | .error e => .error e
  | .ok snap =>
    match localShare W snap with
    | .error e => .error e
    | .ok (localId, localKp) =>
      let key := F.tweak localKp
      let (nonces, commitments) := F.commit key randomness
      match T.collectCommitments ⟨sessionId, F.hexEncode message, localNodeId⟩ with
      | .error e => .error e
      | .ok peerCommits =>
        match prepareShares W snap sessionId message localId key nonces commitments peerCommits with
        | .error e => .error e
        | .ok p =>
          match T.collectSignatureShares p.request with
          | .error e => .error e
          | .ok peerShares => aggregateShares W snap localNodeId message localId p peerShares

/-- `sign_raw_wire`. -/
def signRawWire (slot : Except DomainError (FrostTrShareState F W)) (T : TrCosignTransport)
    (localNodeId sessionId : String) (message : List UInt8) (randomness : Nat) :
    Except DomainError W.Signature :=
  match signRawWireAttributed W slot T localNodeId sessionId message randomness with
  | .error e => .error e
  | .ok attributed => .ok attributed.signature

/-- The session id of `sign_raw_quorum` comes from the message alone. -/
def trWireSession (F : FrostTr) (sha2First16 : List UInt8 → List UInt8) (message : List UInt8) :
    String :=
  "tr-wire-" ++ F.hexEncode (sha2First16 message)

/-- `sign_raw_quorum` of an orchestrator without local multi-share signing. -/
def signRawQuorum (sha2First16 : List UInt8 → List UInt8)
    (slot : Except DomainError (FrostTrShareState F W)) (cosign : Option TrCosignTransport)
    (localNodeId : String) (message : List UInt8) (randomness : Nat) :
    Except DomainError W.Signature :=
  match slot with
  | .error e => .error e
  | .ok snap =>
    if snap.keyPackages.length > 1 then
      .error (.thresholdError ("multi-share local FROST sign refused outside dealer_lab; " ++
        "use wire co-sign (single local share)"))
    else
      match cosign with
      | none =>
        .error (.thresholdError ("TR wire co-sign transport not configured " ++
          "(distributed_wire requires peer co-sign)"))
      | some T =>
        signRawWire W slot T localNodeId (trWireSession F sha2First16 message) message randomness

/-- A signature is returned exactly when the two rounds and the two parts
between and after them go through. -/
theorem signRawWire_ok_iff {snap : FrostTrShareState F W} {T : TrCosignTransport}
    {localNodeId sessionId : String} {message : List UInt8} {randomness : Nat}
    (localId : F.Identifier) (kp : F.KeyPackage) (hShare : localShare W snap = .ok (localId, kp))
    {signature : W.Signature} :
    signRawWire W (.ok snap) T localNodeId sessionId message randomness = .ok signature ↔
      ∃ peerCommits p peerShares attributed,
        T.collectCommitments ⟨sessionId, F.hexEncode message, localNodeId⟩ = .ok peerCommits ∧
        prepareShares W snap sessionId message localId (F.tweak kp)
          (F.commit (F.tweak kp) randomness).1 (F.commit (F.tweak kp) randomness).2 peerCommits =
            .ok p ∧
        T.collectSignatureShares p.request = .ok peerShares ∧
        aggregateShares W snap localNodeId message localId p peerShares = .ok attributed ∧
        attributed.signature = signature := by
  -- the unattributed wire forgets who signed, and nothing else
  unfold signRawWire signRawWireAttributed
  simp only [hShare]
  constructor
  · intro h
    split at h
    · cases h
    · rename_i attributed hRun
      split at hRun
      · cases hRun
      · rename_i peerCommits hCommits
        split at hRun
        · cases hRun
        · rename_i p hPrepared
          split at hRun
          · cases hRun
          · rename_i peerShares hShares
            exact ⟨peerCommits, p, peerShares, attributed, hCommits, hPrepared, hShares, hRun,
              Except.ok.inj h⟩
  · rintro ⟨peerCommits, p, peerShares, attributed, hCommits, hPrepared, hShares, hRun, rfl⟩
    simp only [hCommits, hPrepared, hShares, hRun]

theorem attributed_of_signRawWire {slot : Except DomainError (FrostTrShareState F W)}
    {T : TrCosignTransport} {localNodeId sessionId : String} {message : List UInt8}
    {randomness : Nat} {signature : W.Signature}
    (h : signRawWire W slot T localNodeId sessionId message randomness = .ok signature) :
    ∃ attributed, signRawWireAttributed W slot T localNodeId sessionId message randomness =
      .ok attributed := by
  unfold signRawWire at h
  split at h
  · cases h
  · rename_i attributed hRun
    exact ⟨attributed, hRun⟩

/-- What is returned was verified. -/
theorem aggregateShares_verified {snap : FrostTrShareState F W} {localNodeId : String}
    {message : List UInt8} {localId : F.Identifier} {p : Prepared F}
    {peerShares : List TrSignShareResponse} {attributed : AttributedWireSignature F W}
    (h : aggregateShares W snap localNodeId message localId p peerShares = .ok attributed) :
    W.verify (W.tweakPubkey snap.pubkeyPackage) message attributed.signature = .ok () := by
  unfold aggregateShares at h
  split at h
  · cases h
  · split at h
    · cases h
    · dsimp only at h
      split at h
      · cases h
      · split at h
        · cases h
        · rename_i hVerify
          cases h
          exact hVerify

end Coordinator

end KeroseneVault
