import KeroseneVault.Dkg.ShareStore

/-!
# The wire DKG hub

`WireDkgHub` and `TrWireDkgHub`: a node runs the three parts of a FROST key
generation and exchanges the packages of the first two with its peers. The
hubs are one state machine over two `frost` crates; they differ in the texts
of their errors, the domain of the transcript, the check of the hybrid
envelope, and in what is done with the keys at the end (`WireDkg`).

* `startCheck`, `start` — part 1, and the freeze of roster and threshold;
* `ingestRound1`, `advanceToRound2` — part 2, as soon as every package is there;
* `takeRound2Outbound`, `ingestRound2` — the packages for and from the others;
* `finalizeRound3` — part 3, the threshold check and the share store.

The roster's `BTreeMap` is a list in the order of its keys; the other maps are
tables, since no result depends on their order.
-/

namespace KeroseneVault

/-! ## The two hubs -/

/-- `dkg_wire` over `frost-secp256k1`, and `dkg_tr_wire` over
`frost-secp256k1-tr`. -/
inductive WireDkg where
  | plain
  | taproot
  deriving DecidableEq

namespace WireDkg

def tag : WireDkg → String
  | .plain => ""
  | .taproot => "TR "

def lowTag : WireDkg → String
  | .plain => ""
  | .taproot => "tr "

def crateName : WireDkg → String
  | .plain => "frost"
  | .taproot => "frost-tr"

/-- What `session_transcript` and `session_transcript_tr` start from. -/
def transcriptDomain : WireDkg → String
  | .plain => "kerosene-dkg-wire-v1|"
  | .taproot => "kerosene-dkg-tr-wire-v1|"

end WireDkg

/-! ## Messages -/

/-- `HybridEnvelope`, as far as its header check reads it. -/
structure HybridEnvelope where
  formatVersion : Nat
  suiteId : String
  senderEphPk : List UInt8
  kemCiphertext : List UInt8
  ciphertext : List UInt8
  classicalSignature : List UInt8
  pqSignature : List UInt8
  deriving DecidableEq

namespace HybridEnvelope

def currentFormatVersion : Nat := 1

def suite : String := "hybrid-x25519-mlkem768-aes256gcm"

def validateHeader (env : HybridEnvelope) : Outcome :=
  if env.formatVersion ≠ currentFormatVersion then
    .error (.invalidIntent s!"unknown envelope format_version: {env.formatVersion}")
  else if env.suiteId ≠ suite then .error (.invalidIntent s!"unknown suite_id: {env.suiteId}")
  else if env.senderEphPk = List.replicate 32 0 then
    .error (.invalidIntent "sender_eph_pk is all-zero")
  else if env.kemCiphertext = [] then .error (.invalidIntent "kem_ciphertext is empty")
  else if env.ciphertext = [] then .error (.invalidIntent "ciphertext is empty")
  else if env.classicalSignature = [] then .error (.invalidIntent "classical_signature missing")
  else if env.pqSignature = [] then .error (.invalidIntent "pq_signature missing")
  else .ok ()

end HybridEnvelope

structure Round1WireMessage where
  sessionId : String
  senderNodeId : String
  senderIdentifier : Nat
  maxSigners : Nat
  minSigners : Nat
  transcriptHex : String
  packageHex : String
  envelope : Option HybridEnvelope
  deriving DecidableEq

structure Round2WireMessage where
  sessionId : String
  senderNodeId : String
  senderIdentifier : Nat
  recipientNodeId : String
  recipientIdentifier : Nat
  transcriptHex : String
  packageHex : String
  envelope : Option HybridEnvelope
  deriving DecidableEq

structure DkgStartRequest where
  sessionId : String
  maxSigners : Nat
  minSigners : Nat
  roster : List String
  deriving DecidableEq

/-- The envelope check of `round`; the Taproot hub has none. -/
def checkEnvelope (k : WireDkg) (round : String) (envelope : Option HybridEnvelope) : Outcome :=
  match k, envelope with
  | .plain, some env =>
    match env.validateHeader with
    | .ok () => .ok ()
    | .error e =>
      .error (.thresholdError s!"{round} hybrid envelope validation failed: {e.display}")
  | _, _ => .ok ()

/-! ## Roster and transcript -/

/-- `BTreeMap<String, Identifier>`, in the order of its keys. -/
abbrev Roster (F : FrostDkg) := List (String × F.Identifier)

section Roster

variable {F : FrostDkg}

def identifierFromU16 (k : WireDkg) (F : FrostDkg) (v : Nat) : Except DomainError F.Identifier :=
  mapErr s!"{k.lowTag}identifier {v}" (F.ofU16 v)

/-- The position of an identifier, counted from one, and `0` if it has none. -/
def identifierToU16 (roster : Roster F) (id : F.Identifier) : Nat :=
  match roster.findIdx? fun entry => entry.2 = id with
  | some i => (i + 1) % 2 ^ 16
  | none => 0

/-- The loop of `build_roster` from position `i` on. -/
def assignIdentifiers (k : WireDkg) (F : FrostDkg) (i : Nat) :
    List String → Except DomainError (Roster F)
  | [] => .ok []
  | node :: rest =>
    match identifierFromU16 k F ((i + 1) % 2 ^ 16) with
    | .error e => .error e
    | .ok id =>
      match assignIdentifiers k F (i + 1) rest with
      | .error e => .error e
      | .ok map => .ok ((node, id) :: map)

def buildRoster (k : WireDkg) (F : FrostDkg) (roster : List String) :
    Except DomainError (Roster F) :=
  let sorted := sortDedup (roster.map strTrim)
  if sorted.length < 2 then
    .error (.thresholdError s!"{k.tag}DKG roster must have >= 2 unique node ids")
  else assignIdentifiers k F 0 sorted

/-- `session_transcript` and `session_transcript_tr`. -/
def sessionTranscript (k : WireDkg) (sessionId : String) (maxSigners minSigners : Nat)
    (roster : Roster F) : String :=
  F.hexEncode (F.sha256 (k.transcriptDomain ++ sessionId ++ s!"|max={maxSigners}|min={minSigners}" ++
    "|roster=" ++ String.intercalate "," (roster.map Prod.fst)))

/-- `assert_threshold` and `assert_threshold_tr`. -/
def assertThreshold (k : WireDkg) (kp : F.KeyPackage) (pk : F.PublicKeyPackage)
    (min max : Nat) : Outcome :=
  if F.keyMinSigners kp ≠ min then
    .error (.thresholdError (s!"{k.tag}DKG threshold mismatch (ToB): " ++
      s!"key_package.min_signers={F.keyMinSigners kp} expected={min}"))
  else if (F.pubkeyMinSigners pk).getD min ≠ min then
    .error (.thresholdError (s!"{k.tag}DKG threshold mismatch (ToB): " ++
      s!"pubkey.min_signers={(F.pubkeyMinSigners pk).getD min} expected={min}"))
  else if F.pubkeyMaxSigners pk ≠ max then
    .error (.thresholdError (s!"{k.tag}DKG n mismatch: " ++
      s!"pubkey.max_signers={F.pubkeyMaxSigners pk} expected={max}"))
  else .ok ()

end Roster

/-! ## Sessions -/

inductive WireDkgPhase where
  | round1
  | round2
  | complete
  deriving DecidableEq

def WireDkgPhase.asStr : WireDkgPhase → String
  | .round1 => "round1"
  | .round2 => "round2"
  | .complete => "complete"

structure WireDkgStatus where
  sessionId : String
  phase : String
  localNodeId : String
  localIdentifier : Nat
  maxSigners : Nat
  minSigners : Nat
  transcriptHex : String
  round1Received : Nat
  round2Received : Nat
  complete : Bool
  verifyingKeyHex : Option String
  deriving DecidableEq

/-- `SessionInner`, `TrSessionInner`. -/
structure SessionInner (k : WireDkg) (F : FrostDkg) where
  sessionId : String
  localNodeId : String
  localIdentifier : F.Identifier
  maxSigners : Nat
  minSigners : Nat
  roster : Roster F
  transcriptHex : String
  rosterClosed : Bool
  phase : WireDkgPhase
  round1Secret : Option F.Round1Secret
  round1Packages : Table F.Identifier F.Round1Package
  round2Secret : Option F.Round2Secret
  round2Inbox : Table F.Identifier F.Round2Package
  round2Outbound : Table F.Identifier F.Round2Package
  keyPackage : Option F.KeyPackage
  pubkeyPackage : Option F.PublicKeyPackage

namespace SessionInner

variable {k : WireDkg} {F : FrostDkg}

def status (s : SessionInner k F) : WireDkgStatus where
  sessionId := s.sessionId
  phase := s.phase.asStr
  localNodeId := s.localNodeId
  localIdentifier := identifierToU16 s.roster s.localIdentifier
  maxSigners := s.maxSigners
  minSigners := s.minSigners
  transcriptHex := s.transcriptHex
  round1Received := s.round1Packages.size
  round2Received := s.round2Inbox.size
  complete := s.phase = .complete
  verifyingKeyHex := s.pubkeyPackage.map fun pk =>
    F.hexEncode (match F.verifyingKeyBytes (F.verifyingKey pk) with
      | .ok bytes => bytes
      | .error _ => [])

/-- The round 1 message for this session's own package. -/
def round1Message (s : SessionInner k F) (packageHex : String) : Round1WireMessage where
  sessionId := s.sessionId
  senderNodeId := s.localNodeId
  senderIdentifier := identifierToU16 s.roster s.localIdentifier
  maxSigners := s.maxSigners
  minSigners := s.minSigners
  transcriptHex := s.transcriptHex
  packageHex := packageHex
  envelope := none

/-- The second start of a session sends its package again. -/
def restart (s : SessionInner k F) : Except DomainError (WireDkgStatus × Round1WireMessage) :=
  match s.round1Packages.lookup s.localIdentifier with
  | none => .error (.thresholdError s!"missing local {k.tag}round1 package")
  | some package =>
    match mapErr s!"{k.lowTag}round1 serialize" (F.round1Bytes package) with
    | .error e => .error e
    | .ok bytes => .ok (s.status, s.round1Message (F.hexEncode bytes))

/-! ### Round 1 -/

def advanceToRound2 (s : SessionInner k F) : Outcome × SessionInner k F :=
  match s.round1Secret with
  | none => (.error (.thresholdError s!"missing {k.tag}round1 secret"), s)
  | some secret =>
    match F.part2 secret (s.round1Packages.erase s.localIdentifier) with
    -- the secret was taken
    | .error e =>
      (.error (.thresholdError s!"{k.crateName} dkg part2: {e}"), { s with round1Secret := none })
    | .ok (r2Secret, outbound) =>
      (.ok (), { s with
        round1Secret := none
        round2Secret := some r2Secret
        round2Outbound := outbound
        rosterClosed := true
        phase := .round2 })

/-- A package that is new or replaces an earlier one, and the move to round 2
when none is missing. -/
def acceptRound1 (s : SessionInner k F) (sender : F.Identifier) (package : F.Round1Package) :
    Outcome × SessionInner k F :=
  let s := { s with round1Packages := s.round1Packages.insert sender package }
  if s.round1Packages.size % 2 ^ 16 = s.maxSigners ∧ s.round1Secret.isSome ∧ s.phase = .round1 then
    s.advanceToRound2
  else (.ok (), s)

def decodeRound1 (k : WireDkg) (F : FrostDkg) (packageHex : String) :
    Except DomainError F.Round1Package :=
  match mapErr s!"{k.lowTag}round1 hex" (F.hexDecode packageHex) with
  | .error e => .error e
  | .ok bytes => mapErr s!"{k.lowTag}round1 deserialize" (F.readRound1 bytes)

/-- The part of `ingest_round1` under the lock. -/
def ingestRound1 (s : SessionInner k F) (msg : Round1WireMessage) : Outcome × SessionInner k F :=
  if s.phase = .complete then (.ok (), s)
  else if msg.maxSigners ≠ s.maxSigners ∨ msg.minSigners ≠ s.minSigners then
    (.error (.thresholdError (s!"{k.tag}round1 threshold/min_signers drift rejected (ToB); " ++
      "constitution frozen at start")), s)
  else if msg.transcriptHex ≠ s.transcriptHex then
    (.error (.thresholdError s!"{k.tag}round1 transcript binding mismatch; abort DKG"), s)
  else
    match identifierFromU16 k F msg.senderIdentifier with
    | .error e => (.error e, s)
    | .ok senderId =>
      match s.roster.lookup msg.senderNodeId with
      | none =>
        (.error (.thresholdError (s!"{k.tag}late join / participant set change rejected: " ++
          s!"unknown sender {msg.senderNodeId}")), s)
      | some expected =>
        if expected ≠ senderId then
          (.error (.thresholdError s!"{k.tag}sender {msg.senderNodeId} identifier mismatch"), s)
        else if senderId = s.localIdentifier then (.ok (), s)
        else if s.rosterClosed ∨ s.phase ≠ .round1 then
          if (s.round1Packages.lookup senderId).isSome then (.ok (), s)
          else
            (.error (.thresholdError
              s!"{k.tag}late join rejected: participant set frozen after round1"), s)
        else
          match decodeRound1 k F msg.packageHex with
          | .error e => (.error e, s)
          | .ok package => s.acceptRound1 senderId package

/-! ### Round 2 -/

def round2Message (s : SessionInner k F) (sessionId : String)
    (entry : F.Identifier × F.Round2Package) : Except DomainError Round2WireMessage :=
  match s.roster.find? fun e => e.2 = entry.1 with
  | none =>
    .error (.thresholdError s!"unknown {k.tag}recipient id {F.identifierDebug entry.1}")
  | some recipient =>
    match mapErr s!"{k.lowTag}round2 serialize" (F.round2Bytes entry.2) with
    | .error e => .error e
    | .ok bytes => .ok {
        sessionId := sessionId
        senderNodeId := s.localNodeId
        senderIdentifier := identifierToU16 s.roster s.localIdentifier
        recipientNodeId := recipient.1
        recipientIdentifier := identifierToU16 s.roster entry.1
        transcriptHex := s.transcriptHex
        packageHex := F.hexEncode bytes
        envelope := none }

/-- The session once its outbound packages are taken. -/
def drained (s : SessionInner k F) : SessionInner k F := { s with round2Outbound := ∅ }

def decodeRound2 (k : WireDkg) (F : FrostDkg) (packageHex : String) :
    Except DomainError F.Round2Package :=
  match mapErr s!"{k.lowTag}round2 hex" (F.hexDecode packageHex) with
  | .error e => .error e
  | .ok bytes => mapErr s!"{k.lowTag}round2 deserialize" (F.readRound2 bytes)

/-- The part of `ingest_round2` under the lock. -/
def ingestRound2 (s : SessionInner k F) (msg : Round2WireMessage) : Outcome × SessionInner k F :=
  if s.phase = .complete then (.ok (), s)
  else if msg.transcriptHex ≠ s.transcriptHex then
    (.error (.thresholdError s!"{k.tag}round2 transcript binding mismatch; abort DKG"), s)
  else if msg.recipientNodeId ≠ s.localNodeId then
    (.error (.thresholdError s!"{k.tag}round2 package not addressed to this vault"), s)
  else
    match identifierFromU16 k F msg.senderIdentifier with
    | .error e => (.error e, s)
    | .ok senderId =>
      match s.roster.lookup msg.senderNodeId with
      | none =>
        (.error (.thresholdError (s!"{k.tag}late join / participant set change rejected: " ++
          s!"unknown round2 sender {msg.senderNodeId}")), s)
      | some expected =>
        if expected ≠ senderId then
          (.error (.thresholdError
            s!"{k.tag}round2 sender {msg.senderNodeId} identifier mismatch"), s)
        else
          match decodeRound2 k F msg.packageHex with
          | .error e => (.error e, s)
          | .ok package => (.ok (), { s with round2Inbox := s.round2Inbox.insert senderId package })

/-! ### Round 3 -/

/-- What the hubs keep of the keys: the Taproot hub makes both even. -/
def finishKeys (k : WireDkg) (keys : F.KeyPackage × F.PublicKeyPackage) :
    F.KeyPackage × F.PublicKeyPackage :=
  match k with
  | .plain => keys
  | .taproot => (F.evenKey keys.1, F.evenPubkey keys.2)

/-- The records of the local share and the group key; for Taproot those of
`persist_tr_shares` for the one local share. -/
def round3Records (s : SessionInner k F) (keys : F.KeyPackage × F.PublicKeyPackage) :
    List ShareRecord :=
  match k with
  | .plain => [
      ("frost-dkg-id-" ++ idHex s.localIdentifier,
        mapErr "key package serialize" (F.keyBytes keys.1)),
      ("frost-dkg-pubkey", mapErr "pubkey serialize" (F.pubkeyBytes keys.2))]
  | .taproot => trRecords {
      keyPackages := SortedMap.empty.insert s.localIdentifier keys.1
      pubkeyPackage := keys.2
      minSigners := UInt64.ofNat s.minSigners }

/-- The keys `finalize_round3` of an open session ends with. -/
def round3Keys (s : SessionInner k F) : Except DomainError (F.KeyPackage × F.PublicKeyPackage) :=
  let need := s.maxSigners - 1
  if s.round2Inbox.size < need then
    .error (.thresholdError
      s!"{k.tag}round2 incomplete: have {s.round2Inbox.size} need {need}")
  else
    match s.round2Secret with
    | none => .error (.thresholdError s!"missing {k.tag}round2 secret")
    | some r2Secret =>
      match mapErr s!"{k.crateName} dkg part3"
          (F.part3 r2Secret (s.round1Packages.erase s.localIdentifier) s.round2Inbox) with
      | .error e => .error e
      | .ok (kp, pk) =>
        match assertThreshold k kp pk s.minSigners s.maxSigners with
        | .error e => .error e
        | .ok () => .ok (finishKeys k (kp, pk))

def completeWith (s : SessionInner k F) (keys : F.KeyPackage × F.PublicKeyPackage) :
    SessionInner k F :=
  { s with
    keyPackage := some keys.1
    pubkeyPackage := some keys.2
    phase := .complete
    round2Secret := none }

end SessionInner

/-! ## The hub -/

/-- `WireDkgHub` over `.plain`, and `TrWireDkgHub` over `.taproot`. -/
structure DkgHub (k : WireDkg) (F : FrostDkg) where
  localNodeId : String
  sessions : Table String (SessionInner k F)
  completed : Option (F.KeyPackage × F.PublicKeyPackage × Nat)

abbrev WireDkgHub := DkgHub .plain

namespace DkgHub

variable {k : WireDkg} {F : FrostDkg}

def new (localNodeId : String) : DkgHub k F := ⟨localNodeId, ∅, none⟩

/-- A session with part 1 done and the constitution frozen. -/
def freshSession (hub : DkgHub k F) (req : DkgStartRequest) (roster : Roster F)
    (localIdentifier : F.Identifier) (secret : F.Round1Secret) (package : F.Round1Package) :
    SessionInner k F where
  sessionId := req.sessionId
  localNodeId := hub.localNodeId
  localIdentifier := localIdentifier
  maxSigners := req.maxSigners
  minSigners := req.minSigners
  roster := roster
  transcriptHex := sessionTranscript k req.sessionId req.maxSigners req.minSigners roster
  rosterClosed := false
  phase := .round1
  round1Secret := some secret
  round1Packages := AList.insert localIdentifier package ∅
  round2Secret := none
  round2Inbox := ∅
  round2Outbound := ∅
  keyPackage := none
  pubkeyPackage := none

/-- The part of `start` that runs part 1. -/
def openSession (hub : DkgHub k F) (req : DkgStartRequest) (roster : Roster F)
    (rand : F.Randomness) : Except DomainError (SessionInner k F × Round1WireMessage) :=
  match roster.lookup hub.localNodeId with
  | none =>
    .error (.thresholdError s!"local node {hub.localNodeId} missing from {k.tag}DKG roster")
  | some localIdentifier =>
    match mapErr s!"{k.crateName} dkg part1"
        (F.part1 localIdentifier req.maxSigners req.minSigners rand) with
    | .error e => .error e
    | .ok (secret, package) =>
      match mapErr s!"{k.lowTag}round1 serialize" (F.round1Bytes package) with
      | .error e => .error e
      | .ok bytes =>
        let inner := hub.freshSession req roster localIdentifier secret package
        .ok (inner, inner.round1Message (F.hexEncode bytes))

/-- What the first section of `start`, under the lock, and part 1 after it come
to: the answer of a session that is there, or a session to insert. -/
def startCheck (hub : DkgHub k F) (req : DkgStartRequest) (rand : F.Randomness) :
    Except DomainError
      ((WireDkgStatus × Round1WireMessage) ⊕ (SessionInner k F × Round1WireMessage)) :=
  if req.maxSigners < 2 ∨ req.minSigners < 2 ∨ req.minSigners > req.maxSigners then
    .error (.thresholdError
      s!"bad {k.tag}frost DKG params: max={req.maxSigners} min={req.minSigners}")
  else
    match buildRoster k F req.roster with
    | .error e => .error e
    | .ok roster =>
      if roster.length % 2 ^ 16 ≠ req.maxSigners then
        .error (.thresholdError
          s!"{k.tag}roster len {roster.length} != max_signers {req.maxSigners}")
      else
        let transcriptHex :=
          sessionTranscript k req.sessionId req.maxSigners req.minSigners roster
        match hub.sessions.lookup req.sessionId with
        | some existing =>
          if existing.transcriptHex ≠ transcriptHex ∨ existing.maxSigners ≠ req.maxSigners ∨
              existing.minSigners ≠ req.minSigners ∨ existing.roster ≠ roster then
            .error (.thresholdError (s!"{k.tag}DKG participants/threshold frozen at round1; " ++
              "constitution drift rejected"))
          else
            match existing.restart with
            | .error e => .error e
            | .ok answer => .ok (.inl answer)
        | none =>
          match hub.openSession req roster rand with
          | .error e => .error e
          | .ok opened => .ok (.inr opened)

/-- The second section of `start`, under the lock again. -/
def startInsert (hub : DkgHub k F) (inner : SessionInner k F) : DkgHub k F :=
  { hub with sessions := hub.sessions.insert inner.sessionId inner }

/-- A `start` that no other call comes in between. -/
def start (hub : DkgHub k F) (req : DkgStartRequest) (rand : F.Randomness) :
    Except DomainError (WireDkgStatus × Round1WireMessage) × DkgHub k F :=
  match hub.startCheck req rand with
  | .error e => (.error e, hub)
  | .ok (.inl answer) => (.ok answer, hub)
  | .ok (.inr (inner, wire)) => (.ok (inner.status, wire), hub.startInsert inner)

/-- A method that works on one session and returns its status. -/
def onSession (hub : DkgHub k F) (sessionId missing : String)
    (f : SessionInner k F → Outcome × SessionInner k F) :
    Except DomainError WireDkgStatus × DkgHub k F :=
  match hub.sessions.lookup sessionId with
  | none => (.error (.thresholdError missing), hub)
  | some session =>
    let after := { hub with sessions := hub.sessions.insert sessionId (f session).2 }
    match (f session).1 with
    | .error e => (.error e, after)
    | .ok () => (.ok (f session).2.status, after)

def ingestRound1 (hub : DkgHub k F) (msg : Round1WireMessage) :
    Except DomainError WireDkgStatus × DkgHub k F :=
  match checkEnvelope k "round1" msg.envelope with
  | .error e => (.error e, hub)
  | .ok () =>
    hub.onSession msg.sessionId
      s!"unknown {k.tag}DKG session {msg.sessionId} (start locally first)" fun s =>
        s.ingestRound1 msg

def takeRound2Outbound (hub : DkgHub k F) (sessionId : String) :
    Except DomainError (List Round2WireMessage) × DkgHub k F :=
  match hub.sessions.lookup sessionId with
  | none => (.error (.thresholdError s!"unknown {k.tag}DKG session: {sessionId}"), hub)
  | some session =>
    (session.round2Outbound.toPairs.mapM (session.drained.round2Message sessionId),
      { hub with sessions := hub.sessions.insert sessionId session.drained })

def ingestRound2 (hub : DkgHub k F) (msg : Round2WireMessage) :
    Except DomainError WireDkgStatus × DkgHub k F :=
  match checkEnvelope k "round2" msg.envelope with
  | .error e => (.error e, hub)
  | .ok () =>
    hub.onSession msg.sessionId s!"unknown {k.tag}DKG session: {msg.sessionId}" fun s =>
      s.ingestRound2 msg

/-- The status, the hub and the share store. -/
def finalizeRound3 (hub : DkgHub k F) (sessionId : String) (disk : ShareDisk)
    (store : ShareStore) : Except DomainError WireDkgStatus × DkgHub k F × ShareStore :=
  match hub.sessions.lookup sessionId with
  | none => (.error (.thresholdError s!"unknown {k.tag}DKG session: {sessionId}"), hub, store)
  | some session =>
    if session.phase = .complete then (.ok session.status, hub, store)
    else
      match session.round3Keys with
      | .error e => (.error e, hub, store)
      | .ok keys =>
        match putAll disk store (session.round3Records keys) with
        | (.error e, store) => (.error e, hub, store)
        | (.ok (), store) =>
          let done := session.completeWith keys
          (.ok done.status,
            { hub with
              sessions := hub.sessions.insert sessionId done
              completed := some (keys.1, keys.2, session.minSigners) }, store)

end DkgHub

end KeroseneVault
