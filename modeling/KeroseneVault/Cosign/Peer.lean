import KeroseneVault.Domain.IntentBind
import KeroseneVault.Lib.Table

/-!
# The co-sign peer

`TrCosignPeerState`: a node that holds one Taproot FROST share answers a
coordinator's `TrCommitRequest` with fresh round 1 commitments and its
`TrSignShareRequest` with a round 2 signature share. FROST, its encodings and
hex are crates outside the repository, `FrostTr`.

* `handleCommit`, `handleSignShare` — the two handlers;
* `commitCall`, `signCall` — the calls of `round1::commit` and `round2::sign`
  a request leads to (`handleCommit_eq`, `signShare_eq`);
* `Answers` — what a sign-share request must meet to get a share.

Main results:

* `handleSignShare_cases` — a share leaves exactly for a request that meets
  `Answers`;
* `answers_after_commit` — a commit for any message at all prepares a share
  for it.
-/

namespace KeroseneVault

/-! ## FROST -/

/-- A signing package: the message and who committed to what. -/
structure SigningPackage (Identifier Commitments : Type) where
  message : List UInt8
  commitments : List (Identifier × Commitments)

/-- What the peer uses of `frost-secp256k1-tr` and `hex`. An error is its text. -/
structure FrostTr where
  Identifier : Type
  KeyPackage : Type
  Nonces : Type
  Commitments : Type
  Share : Type
  decIdentifier : DecidableEq Identifier
  /-- `into_even_y(None).tweak(None)` -/
  tweak : KeyPackage → KeyPackage
  /-- `round1::commit` with the randomness it draws -/
  commit : KeyPackage → Nat → Nonces × Commitments
  serializeCommitments : Commitments → Except String (List UInt8)
  deserializePackage : List UInt8 → Except String (SigningPackage Identifier Commitments)
  /-- `round2::sign` -/
  sign : SigningPackage Identifier Commitments → Nonces → KeyPackage → Except String Share
  identifierBytes : Identifier → List UInt8
  shareBytes : Share → List UInt8
  hexDecode : String → Except String (List UInt8)
  hexEncode : List UInt8 → String

instance (F : FrostTr) : DecidableEq F.Identifier := F.decIdentifier

instance (F : FrostTr) : LawfulBEq F.Identifier := inferInstance

/-! ## Messages and state -/

structure TrCommitRequest where
  sessionId : String
  messageHex : String
  coordinatorNodeId : String
  deriving DecidableEq

structure TrCommitResponse where
  nodeId : String
  identifierHex : String
  commitmentsHex : String
  deriving DecidableEq

structure TrSignShareRequest where
  sessionId : String
  signingPackageHex : String
  participantNodeIds : List String
  deriving DecidableEq

structure TrSignShareResponse where
  nodeId : String
  identifierHex : String
  signatureShareHex : String
  deriving DecidableEq

structure PendingTrRound (F : FrostTr) where
  nonces : F.Nonces
  message : List UInt8

/-- `TrCosignPeerState`; the share slot and the anti-nonce store are read
through `CosignEnv`. -/
structure TrCosignPeerState (F : FrostTr) where
  localNodeId : String
  pending : Table String (PendingTrRound F)

/-- What the anti-nonce store answers about the session. -/
structure AntiNonceAnswers where
  isConsumed : Except DomainError Bool
  observeRemote : Except DomainError Unit
  deriving DecidableEq

/-- What surrounds one request: the key packages in the share slot, the
randomness of a commit, and the anti-nonce store, if one is wired. -/
structure CosignEnv (F : FrostTr) where
  keyPackages : Except DomainError (List (F.Identifier × F.KeyPackage))
  randomness : Nat
  antiNonce : Option AntiNonceAnswers

namespace TrCosignPeerState

variable {F : FrostTr}

/-! ## The handlers -/

/-- `local_key_package` of the share slot's snapshot. -/
def localKeyPackage (env : CosignEnv F) : Except DomainError (F.Identifier × F.KeyPackage) :=
  match env.keyPackages with
  | .error e => .error e
  | .ok [own] => .ok own
  | .ok keys =>
    .error (.thresholdError
      s!"wire co-sign peer requires exactly 1 local TR share (have {keys.length})")

def handleCommit (env : CosignEnv F) (req : TrCommitRequest) (peer : TrCosignPeerState F) :
    Except DomainError TrCommitResponse × TrCosignPeerState F :=
  match F.hexDecode (strTrim req.messageHex) with
  | .error e => (.error (.thresholdError s!"co-sign message hex: {e}"), peer)
  | .ok message =>
    match localKeyPackage env with
    | .error e => (.error e, peer)
    | .ok (id, key) =>
      let (nonces, commitments) := F.commit (F.tweak key) env.randomness
      match F.serializeCommitments commitments with
      | .error e => (.error (.thresholdError s!"commit serialize: {e}"), peer)
      | .ok bytes =>
        (.ok ⟨peer.localNodeId, F.hexEncode (F.identifierBytes id), F.hexEncode bytes⟩,
          { peer with pending := peer.pending.insert req.sessionId ⟨nonces, message⟩ })

/-- The anti-nonce check, where a store is wired. -/
def checkAntiNonce (env : CosignEnv F) (sessionId : String) : Outcome :=
  match env.antiNonce with
  | none => .ok ()
  | some answers =>
    match answers.isConsumed with
    | .error e => .error e
    | .ok true => .error (.sessionConsumed sessionId)
    | .ok false => answers.observeRemote

/-- The part of `handle_sign_share` after the round was taken: the share the
node makes, or none if it is not among those who committed. -/
def signShare (env : CosignEnv F) (req : TrSignShareRequest) (round : PendingTrRound F) :
    Except DomainError (Option (F.Identifier × F.Share)) :=
  match F.hexDecode (strTrim req.signingPackageHex) with
  | .error e => .error (.thresholdError s!"signing package hex: {e}")
  | .ok bytes =>
    match F.deserializePackage bytes with
    | .error e => .error (.thresholdError s!"signing package deserialize: {e}")
    | .ok package =>
      if package.message ≠ round.message then
        .error (.thresholdError "co-sign signing package message mismatch")
      else
        match checkAntiNonce env req.sessionId with
        | .error e => .error e
        | .ok () =>
          match localKeyPackage env with
          | .error e => .error e
          | .ok (id, key) =>
            if id ∉ package.commitments.map Prod.fst then .ok none
            else
              match F.sign package round.nonces (F.tweak key) with
              | .error e => .error (.thresholdError s!"frost-tr peer round2: {e}")
              | .ok share => .ok (some (id, share))

/-- A round is taken out whatever comes of it. -/
def handleSignShare (env : CosignEnv F) (req : TrSignShareRequest) (peer : TrCosignPeerState F) :
    Except DomainError (Option TrSignShareResponse) × TrCosignPeerState F :=
  let rest := { peer with pending := peer.pending.erase req.sessionId }
  if req.participantNodeIds ≠ [] ∧ peer.localNodeId ∉ req.participantNodeIds then (.ok none, rest)
  else
    match peer.pending.lookup req.sessionId with
    | none =>
      (.error (.thresholdError s!"no pending TR co-sign round for session {req.sessionId}"), peer)
    | some round =>
      match signShare env req round with
      | .error e => (.error e, rest)
      | .ok none => (.ok none, rest)
      | .ok (some (id, share)) =>
        (.ok (some ⟨peer.localNodeId, F.hexEncode (F.identifierBytes id),
          F.hexEncode (F.shareBytes share)⟩), rest)

/-! ## Where nonces are made and used -/

/-- What `handle_commit` calls `round1::commit` with, and for which message. -/
structure CommitCall (F : FrostTr) where
  identifier : F.Identifier
  key : F.KeyPackage
  message : List UInt8

/-- The part of `handle_commit` before `round1::commit`. -/
def commitCall (env : CosignEnv F) (req : TrCommitRequest) : Except DomainError (CommitCall F) :=
  match F.hexDecode (strTrim req.messageHex) with
  | .error e => .error (.thresholdError s!"co-sign message hex: {e}")
  | .ok message =>
    match localKeyPackage env with
    | .error e => .error e
    | .ok (id, key) => .ok ⟨id, F.tweak key, message⟩

/-- The pair a commit makes. -/
def CommitCall.pair (c : CommitCall F) (env : CosignEnv F) : PendingTrRound F :=
  ⟨(F.commit c.key env.randomness).1, c.message⟩

/-- `handle_commit` is its first part, one call of `round1::commit`, and the
encoding, without which the pair is not kept. -/
theorem handleCommit_eq (env : CosignEnv F) (req : TrCommitRequest) (peer : TrCosignPeerState F) :
    handleCommit env req peer =
      match commitCall env req with
      | .error e => (.error e, peer)
      | .ok c =>
        match F.serializeCommitments (F.commit c.key env.randomness).2 with
        | .error e => (.error (.thresholdError s!"commit serialize: {e}"), peer)
        | .ok bytes =>
          (.ok ⟨peer.localNodeId, F.hexEncode (F.identifierBytes c.identifier), F.hexEncode bytes⟩,
            { peer with pending := peer.pending.insert req.sessionId (c.pair env) }) := by
  unfold handleCommit commitCall
  cases F.hexDecode (strTrim req.messageHex) with
  | error e => rfl
  | ok message =>
    cases localKeyPackage env with
    | error e => rfl
    | ok own => rfl

/-- What `handle_sign_share` calls `round2::sign` with. -/
structure SignCall (F : FrostTr) where
  identifier : F.Identifier
  key : F.KeyPackage
  package : SigningPackage F.Identifier F.Commitments

/-- The part of `handle_sign_share` between the taking of the round and
`round2::sign`. -/
def prepareSign (env : CosignEnv F) (req : TrSignShareRequest) (round : PendingTrRound F) :
    Except DomainError (Option (SignCall F)) :=
  match F.hexDecode (strTrim req.signingPackageHex) with
  | .error e => .error (.thresholdError s!"signing package hex: {e}")
  | .ok bytes =>
    match F.deserializePackage bytes with
    | .error e => .error (.thresholdError s!"signing package deserialize: {e}")
    | .ok package =>
      if package.message ≠ round.message then
        .error (.thresholdError "co-sign signing package message mismatch")
      else
        match checkAntiNonce env req.sessionId with
        | .error e => .error e
        | .ok () =>
          match localKeyPackage env with
          | .error e => .error e
          | .ok (id, key) =>
            if id ∉ package.commitments.map Prod.fst then .ok none
            else .ok (some ⟨id, F.tweak key, package⟩)

/-- After the round was taken there is at most one call of `round2::sign`,
with the round's nonces. -/
theorem signShare_eq (env : CosignEnv F) (req : TrSignShareRequest) (round : PendingTrRound F) :
    signShare env req round =
      match prepareSign env req round with
      | .error e => .error e
      | .ok none => .ok none
      | .ok (some c) =>
        match F.sign c.package round.nonces c.key with
        | .error e => .error (.thresholdError s!"frost-tr peer round2: {e}")
        | .ok share => .ok (some (c.identifier, share)) := by
  -- both make the same checks in the same order, up to the call of `sign`
  unfold signShare prepareSign
  cases F.hexDecode (strTrim req.signingPackageHex) with
  | error e => rfl
  | ok bytes =>
    dsimp only
    cases F.deserializePackage bytes with
    | error e => rfl
    | ok package =>
      dsimp only
      by_cases hMessage : package.message ≠ round.message
      · simp only [if_pos hMessage]
      · simp only [if_neg hMessage]
        cases checkAntiNonce env req.sessionId with
        | error e => rfl
        | ok =>
          cases localKeyPackage env with
          | error e => rfl
          | ok own =>
            dsimp only
            by_cases hOwn : own.1 ∉ package.commitments.map Prod.fst
            · simp only [if_pos hOwn]
            · cases hSign : F.sign package round.nonces (F.tweak own.2) with
              | error e => simp only [if_neg hOwn, hSign]
              | ok share => simp only [if_neg hOwn, hSign]

/-- The round a sign-share request uses, and the call it makes with it. -/
def signCall (env : CosignEnv F) (req : TrSignShareRequest) (peer : TrCosignPeerState F) :
    Option (PendingTrRound F × SignCall F) :=
  if req.participantNodeIds ≠ [] ∧ peer.localNodeId ∉ req.participantNodeIds then none
  else
    match peer.pending.lookup req.sessionId with
    | none => none
    | some round =>
      match prepareSign env req round with
      | .ok (some c) => some (round, c)
      | _ => none

/-- The package of a call carries the round's message. -/
theorem signCall_some {env : CosignEnv F} {req : TrSignShareRequest} {peer : TrCosignPeerState F}
    {round : PendingTrRound F} {c : SignCall F} (h : signCall env req peer = some (round, c)) :
    peer.pending.lookup req.sessionId = some round ∧ c.package.message = round.message := by
  unfold signCall at h
  split at h
  · cases h
  · split at h
    · cases h
    · rename_i round' hRound
      split at h
      · rename_i c' hCall
        cases h
        refine ⟨hRound, ?_⟩
        -- the message is compared before anything is signed
        unfold prepareSign at hCall
        split at hCall
        · cases hCall
        · split at hCall
          · cases hCall
          · split at hCall
            · cases hCall
            · rename_i hMessage
              split at hCall
              · cases hCall
              · split at hCall
                · cases hCall
                · split at hCall
                  · cases hCall
                  · cases hCall
                    exact not_not.mp hMessage
      · cases h

/-! ## When a share leaves -/

/-- The package of a request is good for a share of this round: it decodes,
carries the round's message and the node's commitments, and neither the
anti-nonce store nor FROST refuses. -/
def Signs (env : CosignEnv F) (req : TrSignShareRequest) (round : PendingTrRound F) : Prop :=
  ∃ bytes package id key share, F.hexDecode (strTrim req.signingPackageHex) = .ok bytes ∧
    F.deserializePackage bytes = .ok package ∧ package.message = round.message ∧
    checkAntiNonce env req.sessionId = .ok () ∧ localKeyPackage env = .ok (id, key) ∧
    id ∈ package.commitments.map Prod.fst ∧
    F.sign package round.nonces (F.tweak key) = .ok share

/-- A request that gets a share for `message`: it names this node or nobody,
its session waits with this message, and its package is good for a share. What
the message is does not matter. -/
def Answers (env : CosignEnv F) (req : TrSignShareRequest) (peer : TrCosignPeerState F)
    (message : List UInt8) : Prop :=
  (req.participantNodeIds = [] ∨ peer.localNodeId ∈ req.participantNodeIds) ∧
    ∃ round, peer.pending.lookup req.sessionId = some round ∧ round.message = message ∧
      Signs env req round

/-- The second part of the handler makes a share exactly for a good package. -/
theorem signShare_some_iff {env : CosignEnv F} {req : TrSignShareRequest}
    {round : PendingTrRound F} :
    (∃ own, signShare env req round = .ok (some own)) ↔ Signs env req round := by
  constructor
  · rintro ⟨own, h⟩
    -- one refusal after the other does not apply
    unfold signShare at h
    split at h
    · cases h
    · rename_i bytes hHex
      split at h
      · cases h
      · rename_i package hPackage
        split at h
        · cases h
        · rename_i hMessage
          split at h
          · cases h
          · rename_i hNonce
            split at h
            · cases h
            · rename_i id key hKey
              split at h
              · cases h
              · rename_i hOwn
                split at h
                · cases h
                · rename_i share hSign
                  exact ⟨bytes, package, id, key, share, hHex, hPackage, not_not.mp hMessage, hNonce,
                    hKey, not_not.mp hOwn, hSign⟩
  · rintro ⟨bytes, package, id, key, share, hHex, hPackage, hMessage, hNonce, hKey, hOwn, hSign⟩
    refine ⟨(id, share), ?_⟩
    simp only [signShare, hHex, hPackage, hMessage, hNonce, hKey, hSign, hOwn, ne_eq,
      not_true_eq_false, if_false]

/-- The round a request is about is gone afterwards, whatever the answer. -/
theorem handleSignShare_state (env : CosignEnv F) (req : TrSignShareRequest)
    (peer : TrCosignPeerState F) :
    (handleSignShare env req peer).2 =
      { peer with pending := peer.pending.erase req.sessionId } := by
  unfold handleSignShare
  dsimp only
  split
  · rfl
  · cases hRound : peer.pending.lookup req.sessionId with
    | none =>
      dsimp only
      rw [Table.erase_of_lookup_none hRound]
    | some round =>
      dsimp only
      split <;> rfl

/-- A share leaves exactly for a request that meets `Answers`, and it is for
the message its session waited with. -/
theorem answers_iff {env : CosignEnv F} {req : TrSignShareRequest} {peer : TrCosignPeerState F}
    {message : List UInt8} :
    Answers env req peer message ↔
      (∃ response, (handleSignShare env req peer).1 = .ok (some response)) ∧
        (peer.pending.lookup req.sessionId).map PendingTrRound.message = some message := by
  unfold Answers handleSignShare
  by_cases hNamed : req.participantNodeIds ≠ [] ∧ peer.localNodeId ∉ req.participantNodeIds
  · simp [hNamed]
  · -- a request without names asks everyone
    have hIn : req.participantNodeIds = [] ∨ peer.localNodeId ∈ req.participantNodeIds := by
      by_contra hOut
      rw [not_or] at hOut
      exact hNamed hOut
    rw [if_neg hNamed]
    cases hRound : peer.pending.lookup req.sessionId with
    | none => simp
    | some round =>
      cases hShare : signShare env req round with
      | error e =>
        -- no share, so that some check of `Signs` failed
        have hNot : ¬ Signs env req round := by
          rw [← signShare_some_iff]
          simp [hShare]
        simp [hShare, hNot]
      | ok made =>
        cases made with
        | none =>
          have hNot : ¬ Signs env req round := by
            rw [← signShare_some_iff]
            simp [hShare]
          simp [hShare, hNot]
        | some own =>
          have hSigns : Signs env req round := signShare_some_iff.mp ⟨own, hShare⟩
          simp [hShare, hIn, hSigns]

/-- An accepted commit waits with its message, whatever that is. -/
theorem handleCommit_ok {env : CosignEnv F} {req : TrCommitRequest} {peer : TrCosignPeerState F}
    {response : TrCommitResponse} (h : (handleCommit env req peer).1 = .ok response) :
    ∃ round, F.hexDecode (strTrim req.messageHex) = .ok round.message ∧
      (handleCommit env req peer).2 =
        { peer with pending := peer.pending.insert req.sessionId round } := by
  revert h
  unfold handleCommit
  split
  · intro h
    cases h
  · rename_i message hMessage
    split
    · intro h
      cases h
    · dsimp only
      split
      · intro h
        cases h
      · exact fun _ => ⟨_, hMessage, rfl⟩

/-- The request after an accepted commit gets a share for the commit's message
if only its package is good: no message is refused. -/
theorem answers_after_commit {env env' : CosignEnv F} {commit : TrCommitRequest}
    {peer : TrCosignPeerState F} {response : TrCommitResponse}
    (hCommit : (handleCommit env commit peer).1 = .ok response)
    {req : TrSignShareRequest} (hSession : req.sessionId = commit.sessionId)
    (hNamed : req.participantNodeIds = [] ∨ peer.localNodeId ∈ req.participantNodeIds)
    (hSigns : ∀ round, (handleCommit env commit peer).2.pending.lookup commit.sessionId =
      some round → Signs env' req round) :
    ∃ message, F.hexDecode (strTrim commit.messageHex) = .ok message ∧
      Answers env' req (handleCommit env commit peer).2 message := by
  obtain ⟨round, hMessage, hState⟩ := handleCommit_ok hCommit
  have hRound : (handleCommit env commit peer).2.pending.lookup commit.sessionId = some round := by
    rw [hState]
    exact AList.lookup_insert _
  refine ⟨round.message, hMessage, ?_, round, hSession ▸ hRound, rfl, hSigns round hRound⟩
  rw [hState]
  exact hNamed

end TrCosignPeerState

end KeroseneVault
