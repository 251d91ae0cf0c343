import KeroseneVault.Dkg.Hub
import KeroseneVault.Dkg.Refresh
import KeroseneVault.Rotation.Daily

/-!
# The wire reshare hub

`WireReshareHub`: each node of a roster runs the refresh of the Taproot keyset
by itself and exchanges the packages of its two rounds with the others. It is a
second hub of the kind of `WireDkgHub`, with its own roster, transcript and
checks.

* `buildReshareRoster`, `reshareIdentifierToU16`, `reshareTranscript` — the
  helpers;
* `start` — part 1, and the freeze of roster and threshold;
* `ingestRound1`, `advanceToRound2` — part 2, as soon as every package is there;
* `takeRound2Outbound`, `ingestRound2` — the packages for and from the others;
* `finalize` — the new shares, the checks and the share store.
-/

namespace KeroseneVault

/-! ## Messages -/

structure ReshareRound1WireMessage where
  sessionId : String
  senderNodeId : String
  senderIdentifier : Nat
  maxSigners : Nat
  minSigners : Nat
  dayEpoch : String
  transcriptHex : String
  packageHex : String
  envelope : Option HybridEnvelope
  deriving DecidableEq

structure ReshareRound2WireMessage where
  sessionId : String
  senderNodeId : String
  senderIdentifier : Nat
  recipientNodeId : String
  recipientIdentifier : Nat
  transcriptHex : String
  packageHex : String
  envelope : Option HybridEnvelope
  deriving DecidableEq

structure ReshareStartRequest where
  sessionId : String
  maxSigners : Nat
  minSigners : Nat
  roster : List String
  dayEpoch : String
  constitutionHash : String
  deriving DecidableEq

/-- The header check of an envelope, where there is one. -/
def checkReshareEnvelope (round : String) : Option HybridEnvelope → Outcome
  | none => .ok ()
  | some env =>
    match env.validateHeader with
    | .ok () => .ok ()
    | .error e => .error (.thresholdError s!"reshare {round} envelope: {e.display}")

/-! ## Helpers -/

section Helpers

variable {F : FrostRefresh}

/-- `identifier_from_u16`. -/
def reshareIdentifierFromU16 (F : FrostRefresh) (v : Nat) : Except DomainError F.Identifier :=
  mapErr s!"invalid identifier {v}" (F.ofU16 v)

/-- `identifier_to_u16`: the first byte of the identifier's serialization, and
`0` if it is not on the roster. -/
def reshareIdentifierToU16 (roster : Roster F.toFrostDkg) (id : F.Identifier) : Nat :=
  match roster.find? fun entry => entry.2 = id with
  | none => 0
  | some entry =>
    match F.identifierBytes entry.2 with
    | [] => 0
    | byte :: _ => byte.toNat

/-- The loop of `build_reshare_roster` from position `i` on. -/
def reshareEntries (F : FrostRefresh) (i : Nat) : List String →
    Except DomainError (List (String × F.Identifier))
  | [] => .ok []
  | node :: rest =>
    match reshareIdentifierFromU16 F ((i + 1) % 2 ^ 16) with
    | .error e => .error e
    | .ok id =>
      match reshareEntries F (i + 1) rest with
      | .error e => .error e
      | .ok entries => .ok ((node, id) :: entries)

/-- The names are sorted and inserted in a map as they are: a name that stands
there twice keeps the identifier of its last position. -/
def buildReshareRoster (F : FrostRefresh) (roster : List String) :
    Except DomainError (Roster F.toFrostDkg) :=
  (reshareEntries F 0 (roster.insertionSort (· ≤ ·))).map fun entries =>
    (SortedMap.ofList entries).entries

/-- `u16::to_be_bytes`. -/
def u16Bytes (v : Nat) : List UInt8 := [UInt8.ofNat (v / 256), UInt8.ofNat (v % 256)]

def reshareTranscript (sessionId : String) (dayEpoch : DayEpoch) (maxSigners minSigners : Nat)
    (roster : Roster F.toFrostDkg) (constitutionHash : String) : String :=
  F.hexEncode (F.sha384 (textBytes sessionId ++ textBytes (String.ofList dayEpoch.text) ++
    u16Bytes maxSigners ++ u16Bytes minSigners ++ (roster.flatMap fun e => textBytes e.1) ++
    textBytes constitutionHash))

/-- `assert_vk_preserved`. -/
def assertVkPreserved (old new : F.PublicKeyPackage) (suite : String) : Outcome :=
  if F.verifyingKey old ≠ F.verifyingKey new then
    .error (.thresholdError
      s!"{suite} reshare changed group verifying key (deposit address would change)")
  else .ok ()

end Helpers

/-! ## Sessions -/

/-- `WireResharePhase`. -/
abbrev WireResharePhase := WireDkgPhase

/-- `WireReshareStatus`. -/
abbrev WireReshareStatus := WireDkgStatus

structure ReshareSessionInner (F : FrostRefresh) where
  sessionId : String
  localNodeId : String
  localIdentifier : F.Identifier
  maxSigners : Nat
  minSigners : Nat
  roster : Roster F.toFrostDkg
  transcriptHex : String
  dayEpoch : DayEpoch
  phase : WireResharePhase
  round1Secret : Option F.Round1Secret
  round1Packages : Table F.Identifier F.Round1Package
  round2Secret : Option F.Round2Secret
  round2Inbox : Table F.Identifier F.Round2Package
  round2Outbound : Table F.Identifier F.Round2Package
  oldKeyPackage : Option F.KeyPackage
  oldPubkeyPackage : F.PublicKeyPackage
  newKeyPackage : Option F.KeyPackage
  newPubkeyPackage : Option F.PublicKeyPackage

namespace ReshareSessionInner

variable {F : FrostRefresh}

def status (s : ReshareSessionInner F) : WireReshareStatus where
  sessionId := s.sessionId
  phase := s.phase.asStr
  localNodeId := s.localNodeId
  localIdentifier := reshareIdentifierToU16 s.roster s.localIdentifier
  maxSigners := s.maxSigners
  minSigners := s.minSigners
  transcriptHex := s.transcriptHex
  round1Received := s.round1Packages.size
  round2Received := s.round2Inbox.size
  complete := s.phase = .complete
  verifyingKeyHex := s.newPubkeyPackage.map fun pk =>
    F.hexEncode (match F.verifyingKeyBytes (F.verifyingKey pk) with
      | .ok bytes => bytes
      | .error _ => [])

/-- The round 1 message for this session's own package. -/
def round1Message (s : ReshareSessionInner F) (dayEpoch packageHex : String) :
    ReshareRound1WireMessage where
  sessionId := s.sessionId
  senderNodeId := s.localNodeId
  senderIdentifier := reshareIdentifierToU16 s.roster s.localIdentifier
  maxSigners := s.maxSigners
  minSigners := s.minSigners
  dayEpoch := dayEpoch
  transcriptHex := s.transcriptHex
  packageHex := packageHex
  envelope := none

/-- The second start of a session sends its package again. -/
def restart (s : ReshareSessionInner F) :
    Except DomainError (WireReshareStatus × ReshareRound1WireMessage) :=
  match s.round1Packages.lookup s.localIdentifier with
  | none => .error (.thresholdError "missing local reshare round1 package")
  | some package =>
    match mapErr "reshare r1 serialize" (F.round1Bytes package) with
    | .error e => .error e
    | .ok bytes =>
      .ok (s.status, s.round1Message (String.ofList s.dayEpoch.text) (F.hexEncode bytes))

/-! ### Round 1 -/

def advanceToRound2 (s : ReshareSessionInner F) : Outcome × ReshareSessionInner F :=
  match s.round1Secret with
  | none => (.error (.thresholdError "missing reshare round1 secret"), s)
  | some secret =>
    match F.refreshPart2 secret (s.round1Packages.erase s.localIdentifier) with
    -- the secret was taken
    | .error e =>
      (.error (.thresholdError s!"frost refresh part2: {e}"), { s with round1Secret := none })
    | .ok (r2Secret, outbound) =>
      (.ok (), { s with
        round1Secret := none
        round2Secret := some r2Secret
        round2Outbound := outbound
        phase := .round2 })

/-- A package that is new or replaces an earlier one, in whatever phase, and the
move to round 2 when none is missing. -/
def acceptRound1 (s : ReshareSessionInner F) (sender : F.Identifier)
    (package : F.Round1Package) : Outcome × ReshareSessionInner F :=
  let s := { s with round1Packages := s.round1Packages.insert sender package }
  if s.round1Packages.size % 2 ^ 16 = s.maxSigners ∧ s.round1Secret.isSome ∧ s.phase = .round1 then
    s.advanceToRound2
  else (.ok (), s)

def decodeRound1 (F : FrostRefresh) (packageHex : String) : Except DomainError F.Round1Package :=
  match mapErr "reshare r1 hex" (F.hexDecode packageHex) with
  | .error e => .error e
  | .ok bytes => mapErr "reshare r1 deserialize" (F.readRound1 bytes)

/-- The part of `ingest_round1` under the lock. -/
def ingestRound1 (s : ReshareSessionInner F) (msg : ReshareRound1WireMessage) :
    Outcome × ReshareSessionInner F :=
  if s.phase = .complete then (.ok (), s)
  else if msg.maxSigners ≠ s.maxSigners ∨ msg.minSigners ≠ s.minSigners then
    (.error (.thresholdError "reshare round1 threshold drift rejected"), s)
  else if msg.transcriptHex ≠ s.transcriptHex then
    (.error (.thresholdError "reshare round1 transcript binding mismatch"), s)
  else
    match reshareIdentifierFromU16 F msg.senderIdentifier with
    | .error e => (.error e, s)
    | .ok senderId =>
      match s.roster.lookup msg.senderNodeId with
      | none =>
        (.error (.thresholdError
          s!"reshare late join rejected: unknown sender {msg.senderNodeId}"), s)
      | some expected =>
        if expected ≠ senderId then
          (.error (.thresholdError s!"reshare sender {msg.senderNodeId} identifier mismatch"), s)
        else
          match decodeRound1 F msg.packageHex with
          | .error e => (.error e, s)
          | .ok package => s.acceptRound1 senderId package

/-! ### Round 2 -/

def round2Message (s : ReshareSessionInner F) (sessionId : String)
    (entry : F.Identifier × F.Round2Package) : Except DomainError ReshareRound2WireMessage :=
  match s.roster.find? fun e => e.2 = entry.1 with
  | none =>
    .error (.thresholdError s!"unknown reshare recipient id {F.identifierDebug entry.1}")
  | some recipient =>
    match mapErr "reshare r2 serialize" (F.round2Bytes entry.2) with
    | .error e => .error e
    | .ok bytes => .ok {
        sessionId := sessionId
        senderNodeId := s.localNodeId
        senderIdentifier := reshareIdentifierToU16 s.roster s.localIdentifier
        recipientNodeId := recipient.1
        recipientIdentifier := reshareIdentifierToU16 s.roster entry.1
        transcriptHex := s.transcriptHex
        packageHex := F.hexEncode bytes
        envelope := none }

/-- The session once its outbound packages are taken. -/
def drained (s : ReshareSessionInner F) : ReshareSessionInner F := { s with round2Outbound := ∅ }

def decodeRound2 (F : FrostRefresh) (packageHex : String) : Except DomainError F.Round2Package :=
  match mapErr "reshare r2 hex" (F.hexDecode packageHex) with
  | .error e => .error e
  | .ok bytes => mapErr "reshare r2 deserialize" (F.readRound2 bytes)

/-- The part of `ingest_round2` under the lock. -/
def ingestRound2 (s : ReshareSessionInner F) (msg : ReshareRound2WireMessage) :
    Outcome × ReshareSessionInner F :=
  if s.phase = .complete then (.ok (), s)
  else if msg.transcriptHex ≠ s.transcriptHex then
    (.error (.thresholdError "reshare round2 transcript binding mismatch"), s)
  else if msg.recipientNodeId ≠ s.localNodeId then
    (.error (.thresholdError "reshare round2 package not addressed to this vault"), s)
  else
    match reshareIdentifierFromU16 F msg.senderIdentifier with
    | .error e => (.error e, s)
    | .ok senderId =>
      match s.roster.lookup msg.senderNodeId with
      | none =>
        (.error (.thresholdError
          s!"reshare late join rejected: unknown round2 sender {msg.senderNodeId}"), s)
      | some expected =>
        if expected ≠ senderId then
          (.error (.thresholdError s!"reshare sender {msg.senderNodeId} identifier mismatch"), s)
        else
          match decodeRound2 F msg.packageHex with
          | .error e => (.error e, s)
          | .ok package => (.ok (), { s with round2Inbox := s.round2Inbox.insert senderId package })

/-! ### The new shares -/

def reshareKeyShareId (idHex : String) : String := "frost-tr-reshare-id-" ++ idHex

def resharePubkeyShareId : String := "frost-tr-reshare-pubkey"

/-- The records `finalize` puts. -/
def reshareRecords (s : ReshareSessionInner F) (keys : F.KeyPackage × F.PublicKeyPackage) :
    List ShareRecord := [
  (reshareKeyShareId (idHex s.localIdentifier),
    mapErr "reshare key package serialize" (F.keyBytes keys.1)),
  (resharePubkeyShareId, mapErr "reshare pubkey serialize" (F.pubkeyBytes keys.2))]

/-- The keys `finalize` of an open session ends with. -/
def reshareKeys (s : ReshareSessionInner F) :
    Except DomainError (F.KeyPackage × F.PublicKeyPackage) :=
  let need := s.maxSigners - 1
  if s.round2Inbox.size < need then
    .error (.thresholdError s!"reshare round2 incomplete: have {s.round2Inbox.size} need {need}")
  else
    match s.round2Secret with
    | none => .error (.thresholdError "missing reshare round2 secret")
    | some r2Secret =>
      match s.oldKeyPackage with
      | none => .error (.thresholdError "missing old key package for reshare finalize")
      | some oldKp =>
        match mapErr "frost refresh part3" (F.refreshShares r2Secret
            (s.round1Packages.erase s.localIdentifier) s.round2Inbox s.oldPubkeyPackage oldKp) with
        | .error e => .error e
        | .ok (kp, pk) =>
          if F.keyMinSigners kp ≠ s.minSigners then
            .error (.thresholdError
              s!"reshare threshold drift: got {F.keyMinSigners kp} want {s.minSigners}")
          else
            match assertVkPreserved s.oldPubkeyPackage pk "tr" with
            | .error e => .error e
            | .ok () => .ok (kp, pk)

def completeWith (s : ReshareSessionInner F) (keys : F.KeyPackage × F.PublicKeyPackage) :
    ReshareSessionInner F :=
  { s with
    newKeyPackage := some keys.1
    newPubkeyPackage := some keys.2
    phase := .complete
    round2Secret := none }

end ReshareSessionInner

/-! ## The hub -/

/-- `WireReshareHub`. -/
structure WireReshareHub (F : FrostRefresh) where
  localNodeId : String
  sessions : Table String (ReshareSessionInner F)
  completed : Option (F.KeyPackage × F.PublicKeyPackage × Nat)

namespace WireReshareHub

variable {F : FrostRefresh}

def new (localNodeId : String) : WireReshareHub F := ⟨localNodeId, ∅, none⟩

/-- A session with part 1 done and the constitution frozen. -/
def freshSession (hub : WireReshareHub F) (req : ReshareStartRequest) (dayEpoch : DayEpoch)
    (roster : Roster F.toFrostDkg) (localIdentifier : F.Identifier) (secret : F.Round1Secret)
    (package : F.Round1Package) (oldPubkey : F.PublicKeyPackage) (oldKey : Option F.KeyPackage) :
    ReshareSessionInner F where
  sessionId := req.sessionId
  localNodeId := hub.localNodeId
  localIdentifier := localIdentifier
  maxSigners := req.maxSigners
  minSigners := req.minSigners
  roster := roster
  transcriptHex := reshareTranscript req.sessionId dayEpoch req.maxSigners req.minSigners roster
    req.constitutionHash
  dayEpoch := dayEpoch
  phase := .round1
  round1Secret := some secret
  round1Packages := AList.insert localIdentifier package ∅
  round2Secret := none
  round2Inbox := ∅
  round2Outbound := ∅
  oldKeyPackage := oldKey
  oldPubkeyPackage := oldPubkey
  newKeyPackage := none
  newPubkeyPackage := none

/-- The part of `start` that runs part 1. -/
def openSession (hub : WireReshareHub F) (req : ReshareStartRequest) (dayEpoch : DayEpoch)
    (roster : Roster F.toFrostDkg) (oldPubkey : F.PublicKeyPackage) (oldKey : Option F.KeyPackage)
    (rand : F.Randomness) :
    Except DomainError (ReshareSessionInner F × ReshareRound1WireMessage) :=
  match roster.lookup hub.localNodeId with
  | none =>
    .error (.thresholdError s!"local node {hub.localNodeId} missing from reshare roster")
  | some localIdentifier =>
    match mapErr "frost refresh part1"
        (F.refreshPart1 localIdentifier req.maxSigners req.minSigners rand) with
    | .error e => .error e
    | .ok (secret, package) =>
      match mapErr "reshare r1 serialize" (F.round1Bytes package) with
      | .error e => .error e
      | .ok bytes =>
        let inner := hub.freshSession req dayEpoch roster localIdentifier secret package oldPubkey
          oldKey
        .ok (inner, inner.round1Message req.dayEpoch (F.hexEncode bytes))

/-- A `start` that no other call comes in between. -/
def start (hub : WireReshareHub F) (req : ReshareStartRequest) (oldPubkey : F.PublicKeyPackage)
    (oldKey : Option F.KeyPackage) (rand : F.Randomness) :
    Except DomainError (WireReshareStatus × ReshareRound1WireMessage) × WireReshareHub F :=
  match DayEpoch.parse req.dayEpoch with
  | .error e => (.error (.thresholdError s!"invalid day_epoch: {e.display}"), hub)
  | .ok dayEpoch =>
    match buildReshareRoster F req.roster with
    | .error e => (.error e, hub)
    | .ok roster =>
      if roster.length % 2 ^ 16 ≠ req.maxSigners then
        (.error (.thresholdError
          s!"roster len {roster.length} != max_signers {req.maxSigners}"), hub)
      else
        let transcriptHex := reshareTranscript req.sessionId dayEpoch req.maxSigners
          req.minSigners roster req.constitutionHash
        match hub.sessions.lookup req.sessionId with
        | some existing =>
          if existing.transcriptHex ≠ transcriptHex ∨ existing.maxSigners ≠ req.maxSigners ∨
              existing.minSigners ≠ req.minSigners ∨ existing.roster ≠ roster then
            (.error (.thresholdError ("reshare participants/threshold frozen at round1; " ++
              "constitution drift rejected")), hub)
          else (existing.restart, hub)
        | none =>
          match hub.openSession req dayEpoch roster oldPubkey oldKey rand with
          | .error e => (.error e, hub)
          | .ok (inner, wire) => (.ok (inner.status, wire),
              { hub with sessions := hub.sessions.insert req.sessionId inner })

/-- A method that works on one session and returns its status. -/
def onSession (hub : WireReshareHub F) (sessionId missing : String)
    (f : ReshareSessionInner F → Outcome × ReshareSessionInner F) :
    Except DomainError WireReshareStatus × WireReshareHub F :=
  match hub.sessions.lookup sessionId with
  | none => (.error (.thresholdError missing), hub)
  | some session =>
    let after := { hub with sessions := hub.sessions.insert sessionId (f session).2 }
    match (f session).1 with
    | .error e => (.error e, after)
    | .ok () => (.ok (f session).2.status, after)

def ingestRound1 (hub : WireReshareHub F) (msg : ReshareRound1WireMessage) :
    Except DomainError WireReshareStatus × WireReshareHub F :=
  match checkReshareEnvelope "r1" msg.envelope with
  | .error e => (.error e, hub)
  | .ok () =>
    hub.onSession msg.sessionId
      s!"unknown reshare session {msg.sessionId} (start locally first)" fun s =>
        s.ingestRound1 msg

def takeRound2Outbound (hub : WireReshareHub F) (sessionId : String) :
    Except DomainError (List ReshareRound2WireMessage) × WireReshareHub F :=
  match hub.sessions.lookup sessionId with
  | none => (.error (.thresholdError s!"unknown reshare session: {sessionId}"), hub)
  | some session =>
    (session.round2Outbound.toPairs.mapM (session.drained.round2Message sessionId),
      { hub with sessions := hub.sessions.insert sessionId session.drained })

def ingestRound2 (hub : WireReshareHub F) (msg : ReshareRound2WireMessage) :
    Except DomainError WireReshareStatus × WireReshareHub F :=
  match checkReshareEnvelope "r2" msg.envelope with
  | .error e => (.error e, hub)
  | .ok () =>
    hub.onSession msg.sessionId s!"unknown reshare session: {msg.sessionId}" fun s =>
      s.ingestRound2 msg

/-- The status, the hub and the share store. -/
def finalize (hub : WireReshareHub F) (sessionId : String) (disk : ShareDisk)
    (store : ShareStore) : Except DomainError WireReshareStatus × WireReshareHub F × ShareStore :=
  match hub.sessions.lookup sessionId with
  | none => (.error (.thresholdError s!"unknown reshare session: {sessionId}"), hub, store)
  | some session =>
    if session.phase = .complete then (.ok session.status, hub, store)
    else
      match session.reshareKeys with
      | .error e => (.error e, hub, store)
      | .ok keys =>
        match putAll disk store (session.reshareRecords keys) with
        | (.error e, store) => (.error e, hub, store)
        | (.ok (), store) =>
          let done := session.completeWith keys
          (.ok done.status,
            { hub with
              sessions := hub.sessions.insert sessionId done
              completed := some (keys.1, keys.2, session.minSigners) }, store)

end WireReshareHub

end KeroseneVault
