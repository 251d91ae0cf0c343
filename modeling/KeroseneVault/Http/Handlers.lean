import KeroseneVault.Application.GateIntent
import KeroseneVault.Domain.IntentBind
import KeroseneVault.Ledger.Quorum

/-!
# The HTTP handlers that touch intents

A node serves `/v1/intent/reserve`, `/v1/intent/commit`, `/v1/intent/release`,
the peers' `/v1/intent/consume/prepare` and `/v1/bitcoin/sign-psbt` on one
quorum ledger. Signing takes a while, so that handler is two steps here: the
check or reservation of the intent, and the signature with what follows it;
other requests may come in between.

* `parseSettlementIntent`, `buildSettlementIntent` — a body as an intent;
* `signBegin`, `signFinish` — `v1_bitcoin_sign_psbt`;
* `HttpNode.step` — one request, or one half of a signing request.

Beside the ledger the node keeps what it does not know itself: the reservations
`reserve_spend` made here and what each signature relied on.
-/

namespace KeroseneVault

/-! ## Requests -/

/-- An intent that came over the wire. -/
abbrev WireIntent := {intent : SettlementIntent // intent.amountSats ≤ u64Max}

theorem wireIntent_amount_le (intent : WireIntent) : intent.1.amountSats ≤ u64Max := intent.2

/-- `IntentBody`, without the signature fields. -/
structure IntentBody where
  intentId : String
  bucket : String
  destination : String
  amountSats : U64
  deriving DecidableEq

/-- `BitcoinPsbtBody`; the PSBT is decoded to its outputs. -/
structure BitcoinPsbtBody where
  sessionId : String
  psbt : List (Script × Nat)
  intentId : Option String
  bucket : Option String
  destination : Option String
  amountSats : Option U64
  commitIntent : Bool
  deriving DecidableEq

/-- What the node is configured with. Whether a text is an address, which
network it is of and what script it has is decided by a crate outside the
repository. -/
structure HttpConfig where
  maxTx : Nat
  maxDay : Nat
  usersDestinationAllowlist : List String
  minersDestinationAllowlist : List String
  quorumT : Nat
  signingT : Nat
  isAddress : String → Bool
  validateDestination : String → Outcome
  destinationScript : String → Except DomainError Script

/-- What surrounds one request: the clock, the disk, the peers' answers, the
constitution and the economy, the guards that only refuse, and what the signer
answers once the outputs are bound. -/
structure HttpEnv where
  now : Nat
  disk : Disk
  soft : Round
  durable : Round
  constitution : Except DomainError Constitution
  economy : Except DomainError EconomyState
  hybridSignature : Except DomainError (Option IntentSignature)
  authorizeTreasurySign : Outcome
  prepareLimiter : Outcome
  taprootKey : BucketKind → Option Script
  onlineCount : Nat
  signer : Outcome

/-- A refusal: the status and the reason. -/
inductive Refusal where
  | domain (status : Nat) (e : DomainError)
  | text (status : Nat) (reason : String)
  deriving DecidableEq

/-! ## Bodies as intents -/

/-- `SettlementIntent::new` with a `u64` amount. -/
def newWireIntent (intentId : String) (bucket : BucketKind) (destination : String)
    (amountSats : U64) (policyHash : String) : Except DomainError WireIntent :=
  match h : SettlementIntent.new intentId bucket destination amountSats policyHash with
  | .error e => .error e
  | .ok intent => .ok ⟨intent, by rw [SettlementIntent.new_ok h]; exact amountSats.2⟩

theorem newWireIntent_ok {intentId destination policyHash : String} {bucket : BucketKind}
    {amountSats : U64} {intent : WireIntent}
    (h : newWireIntent intentId bucket destination amountSats policyHash = .ok intent) :
    intent.1 = ⟨intentId, bucket, destination, amountSats.1, policyHash, none⟩ := by
  unfold newWireIntent at h
  split at h
  · cases h
  · rename_i hNew
    cases h
    exact SettlementIntent.new_ok hNew

/-- `parse_settlement_intent`. -/
def parseSettlementIntent (cfg : HttpConfig) (env : HttpEnv) (body : IntentBody) :
    Except Refusal WireIntent :=
  match cfg.validateDestination body.destination with
  | .error e => .error (.domain 400 e)
  | .ok () =>
    match BucketKind.parse body.bucket with
    | .error e => .error (.domain 400 e)
    | .ok bucket =>
      match env.constitution with
      | .error e => .error (.domain 500 e)
      | .ok constitution =>
        match newWireIntent body.intentId bucket body.destination body.amountSats
            constitution.hash with
        | .error e => .error (.domain 400 e)
        | .ok intent =>
          match env.hybridSignature with
          | .error e => .error (.domain 401 e)
          | .ok signature => .ok ⟨{ intent.1 with signature := signature }, wireIntent_amount_le intent⟩

/-- `build_settlement_intent`. -/
def buildSettlementIntent (cfg : HttpConfig) (env : HttpEnv) (intentId : Option String)
    (bucket destination : Option String) (amountSats : Option U64) (requireSharedTr : Bool) :
    Except DomainError WireIntent :=
  match intentId.filter (· ≠ "") with
  | none => .error (.invalidIntent "intent_id required before bitcoin sign")
  | some id =>
    let destination := destination.getD ""
    let amount : U64 := amountSats.getD ⟨0, Nat.zero_le _⟩
    if destination = "" ∨ amount.1 = 0 then
      .error (.invalidIntent "destination and amount_sats required for Intent gate")
    else
      match cfg.validateDestination destination with
      | .error e => .error e
      | .ok () =>
        match BucketKind.parse (bucket.getD "USERS") with
        | .error e => .error e
        | .ok kind =>
          match if requireSharedTr then assertSharedTaprootBucket kind else .ok () with
          | .error e => .error e
          | .ok () =>
            match env.constitution with
            | .error e => .error e
            | .ok constitution => newWireIntent id kind destination amount constitution.hash

/-- The intent has the destination and the amount it was given. -/
theorem buildSettlementIntent_ok {cfg : HttpConfig} {env : HttpEnv} {intentId : Option String}
    {bucket destination : Option String} {amountSats : Option U64} {requireSharedTr : Bool}
    {intent : WireIntent}
    (h : buildSettlementIntent cfg env intentId bucket destination amountSats requireSharedTr =
      .ok intent) :
    intent.1.destination = destination.getD "" ∧
      intent.1.amountSats = (amountSats.map (·.1)).getD 0 := by
  unfold buildSettlementIntent at h
  dsimp only at h
  repeat' split at h
  all_goals try cases h
  rw [newWireIntent_ok h]
  refine ⟨rfl, ?_⟩
  cases amountSats <;> rfl

/-! ## The node -/

/-- What a reservation was made for. -/
structure Made where
  id : String
  bucket : BucketKind
  destination : String
  amount : Nat
  deriving DecidableEq

/-- What a signature is for and the reservation it relies on, if one that
`reserve_spend` made here is live then. -/
structure PsbtUse where
  terms : Made
  reliedOn : Option Made
  deriving DecidableEq

/-- A signing request between its check and its signature. -/
structure PendingSign where
  use : PsbtUse
  psbt : List (Script × Nat)
  commitIntent : Bool
  deriving DecidableEq

/-- A signed PSBT, with the mesh change script it was bound to. -/
structure SignedPsbt where
  use : PsbtUse
  psbt : List (Script × Nat)
  change : Script
  deriving DecidableEq

/-- The node and the record beside it: the last reservation made for each id,
the signing requests under way and the signed PSBTs. -/
structure HttpNode where
  ledger : PersistedBucketLedger
  made : String → Option Made
  pending : List PendingSign
  signed : List SignedPsbt

namespace HttpNode

variable (cfg : HttpConfig) (env : HttpEnv)

/-- `gate_intent.reserve`: a reservation the call leaves is recorded. -/
def reserveIntent (intent : SettlementIntent) (s : HttpNode) :
    Except DomainError GateReceipt × HttpNode :=
  let r := GateIntent.run cfg.isAddress env.constitution env.economy
    (QuorumBucketLedger.perform cfg.quorumT env.now env.disk env.soft env.durable)
    .reserve intent s.ledger
  let fresh := (s.ledger.inner.sweepExpired env.now).reserved.lookup intent.intentId = none ∧
    r.2.inner.reserved.lookup intent.intentId ≠ none
  (r.1, { s with
    ledger := r.2
    made := if fresh then
        Function.update s.made intent.intentId
          (some ⟨intent.intentId, intent.bucket, intent.destination, intent.amountSats⟩)
      else s.made })

/-- `gate_intent.commit`. -/
def commitIntent (id : String) (s : HttpNode) : Outcome × HttpNode :=
  let r := QuorumBucketLedger.commitConsume cfg.quorumT env.disk env.durable id s.ledger
  (r.1, { s with ledger := r.2 })

/-- `gate_intent.release`. -/
def releaseIntent (id : String) (kind : BucketKind) (amount : Nat) (s : HttpNode) :
    Outcome × HttpNode :=
  let r := QuorumBucketLedger.releaseReservation id kind amount s.ledger
  (r.1, { s with ledger := r.2 })

/-- The reservation `reserve_spend` made under this id, if it is live: a soft
prepare's holds no amount. -/
def liveMade (g : BucketState) (s : HttpNode) (id : String) : Option Made :=
  match g.reserved.lookup id with
  | some r => if 0 < r.amount then s.made id else none
  | none => none

/-! ## `v1_bitcoin_sign_psbt` -/

/-- A request waits for its signature. -/
def await (p : PendingSign) (s : HttpNode) : HttpNode := { s with pending := s.pending ++ [p] }

/-- The keyset of a bucket, or a refusal. -/
def assertTaprootBucket (bucket : BucketKind) : Except Refusal Unit :=
  match bucket with
  | .users => (assertSharedTaprootBucket bucket).mapError (.domain 400)
  | .channels => (assertChannelsTaprootBucket bucket).mapError (.domain 400)
  | other =>
    .error (.text 400
      s!"bucket {other.asStr} cannot spend Taproot; only USERS (shared) or CHANNELS (own key)")

end HttpNode

/-- The intent a signing request is for. -/
def BitcoinPsbtBody.intentIdOrSession (req : BitcoinPsbtBody) : String :=
  (req.intentId.filter (· ≠ "")).getD req.sessionId

def BitcoinPsbtBody.amountOrZero (req : BitcoinPsbtBody) : Nat := (req.amountSats.map (·.1)).getD 0

namespace HttpNode

variable (cfg : HttpConfig) (env : HttpEnv)

/-- With `commit_intent` the intent is reserved first. -/
def signReserve (req : BitcoinPsbtBody) (bucket : BucketKind) (s : HttpNode) :
    Except Refusal Unit × HttpNode :=
  let destination := req.destination.getD ""
  match buildSettlementIntent cfg env (some req.intentIdOrSession) (some (req.bucket.getD "USERS"))
      ((some destination).filter (· ≠ "")) req.amountSats (bucket == .users) with
  | .error e => (.error (.domain 400 e), s)
  | .ok intent =>
    match reserveIntent cfg env intent.1 s with
    | (.error e, s) => (.error (.domain 400 e), s)
    | (.ok receipt, s) =>
      let terms : Made := ⟨receipt.intentId, receipt.bucket, destination, req.amountOrZero⟩
      (.ok (), s.await ⟨⟨terms, s.liveMade s.ledger.inner receipt.intentId⟩, req.psbt, true⟩)

/-- Without it any reservation under the id will do: neither its bucket nor
its amount nor its destination is looked at. -/
def signOnly (req : BitcoinPsbtBody) (bucket : BucketKind) (s : HttpNode) :
    Except Refusal Unit × HttpNode :=
  let id := req.intentIdOrSession
  let destination := req.destination.getD ""
  let (live, l) := s.ledger.hasReservation env.now id
  let s := { s with ledger := l }
  if !live then
    (.error (.text 400 s!"commit_intent=false requires existing reservation for {id}"), s)
  else if destination = "" ∨ req.amountOrZero = 0 then
    (.error (.text 400 "destination and amount_sats required for PSBT bind"), s)
  else
    match cfg.validateDestination destination with
    | .error e => (.error (.domain 400 e), s)
    | .ok () =>
      let terms : Made := ⟨id, bucket, destination, req.amountOrZero⟩
      (.ok (), s.await ⟨⟨terms, s.liveMade l.inner id⟩, req.psbt, false⟩)

/-- The part of `v1_bitcoin_sign_psbt` before the signature. -/
def signBegin (req : BitcoinPsbtBody) (s : HttpNode) : Except Refusal Unit × HttpNode :=
  match env.authorizeTreasurySign with
  | .error e => (.error (.domain 401 e), s)
  | .ok () =>
    match BucketKind.parse (req.bucket.getD "USERS") with
    | .error e => (.error (.domain 400 e), s)
    | .ok bucket =>
      match assertTaprootBucket bucket with
      | .error refusal => (.error refusal, s)
      | .ok () =>
        if req.commitIntent then s.signReserve cfg env req bucket
        else s.signOnly cfg env req bucket

/-- `tr.sign_psbt`: the outputs are bound to destination and amount; all its
other checks and the signature itself are the signer's answer. -/
def trSignPsbt (p : PendingSign) (change : Script) : Outcome :=
  match cfg.destinationScript p.use.terms.destination with
  | .error e => .error e
  | .ok script =>
    match assertOutputsMatchIntent p.psbt script p.use.terms.amount (some change) with
    | .error e => .error e
    | .ok () => env.signer

/-- A request that fails after its reservation releases it. -/
def signFail (p : PendingSign) (refusal : Refusal) (s : HttpNode) :
    Except Refusal Unit × HttpNode :=
  if p.commitIntent then
    (.error refusal, (releaseIntent p.use.terms.id p.use.terms.bucket p.use.terms.amount s).2)
  else (.error refusal, s)

/-- What a request must pass before its signature, and the signature itself:
the installed key, enough signers online, the bound outputs. -/
def signCheck (p : PendingSign) : Except Refusal Script :=
  match env.taprootKey p.use.terms.bucket with
  | none => .error (.text 503 "taproot FROST not installed for bucket")
  | some change =>
    if env.onlineCount < cfg.signingT then
      .error (.text 400 s!"fail-stop: online {env.onlineCount} < t {cfg.signingT}")
    else
      match trSignPsbt cfg env p change with
      | .error e => .error (.domain 400 e)
      | .ok () => .ok change

/-- The part of `v1_bitcoin_sign_psbt` from the signature on. -/
def signFinish (p : PendingSign) (s : HttpNode) : Except Refusal Unit × HttpNode :=
  match signCheck cfg env p with
  | .error refusal => s.signFail p refusal
  | .ok change =>
    let s := { s with signed := ⟨p.use, p.psbt, change⟩ :: s.signed }
    if p.commitIntent then
      let r := commitIntent cfg env p.use.terms.id s
      (r.1.mapError (.domain 400), r.2)
    else (.ok (), s)

end HttpNode

/-! ## Steps -/

inductive HttpOp where
  | reserve (body : IntentBody)
  | commit (intentId : String)
  | release (intentId bucket : String) (amountSats : U64)
  | prepare (intentId : String) (durable : Bool)
  | sweep
  | signBegin (req : BitcoinPsbtBody)
  | signFinish (n : Nat)

structure HttpCall where
  env : HttpEnv
  op : HttpOp

namespace HttpNode

/-- `v1_intent_reserve`. -/
def intentReserve (cfg : HttpConfig) (env : HttpEnv) (body : IntentBody) (s : HttpNode) :
    Except Refusal GateReceipt × HttpNode :=
  match parseSettlementIntent cfg env body with
  | .error refusal => (.error refusal, s)
  | .ok intent =>
    let r := reserveIntent cfg env intent.1 s
    (r.1.mapError (.domain 400), r.2)

/-- `v1_intent_commit`. -/
def intentCommit (cfg : HttpConfig) (env : HttpEnv) (intentId : String) (s : HttpNode) :
    Except Refusal Unit × HttpNode :=
  if strTrim intentId = "" then (.error (.text 400 "intent_id required"), s)
  else
    let r := commitIntent cfg env (strTrim intentId) s
    (r.1.mapError (.domain 400), r.2)

/-- `v1_intent_release`. -/
def intentRelease (intentId bucket : String) (amountSats : U64) (s : HttpNode) :
    Except Refusal Unit × HttpNode :=
  match BucketKind.parse bucket with
  | .error e => (.error (.domain 400 e), s)
  | .ok kind =>
    let r := releaseIntent intentId kind amountSats.1 s
    (r.1.mapError (.domain 400), r.2)

/-- `v1_intent_consume_prepare`; the answer is `already_seen`. -/
def intentConsumePrepare (env : HttpEnv) (intentId : String) (durable : Bool) (s : HttpNode) :
    Except Refusal Bool × HttpNode :=
  match env.prepareLimiter with
  | .error e => (.error (.domain 429 e), s)
  | .ok () =>
    if durable then
      let r := s.ledger.prepareConsume env.disk intentId
      (r.1.mapError (.domain 400), { s with ledger := r.2 })
    else
      let r := s.ledger.prepareSoft env.now intentId
      (r.1.mapError (.domain 400), { s with ledger := r.2 })

/-- One request, or one half of a signing request. -/
def step (cfg : HttpConfig) (s : HttpNode) (c : HttpCall) : HttpNode :=
  match c.op with
  | .reserve body => (s.intentReserve cfg c.env body).2
  | .commit intentId => (s.intentCommit cfg c.env intentId).2
  | .release intentId bucket amountSats => (s.intentRelease intentId bucket amountSats).2
  | .prepare intentId durable => (s.intentConsumePrepare c.env intentId durable).2
  | .sweep => { s with ledger := { s.ledger with inner := s.ledger.inner.sweepExpired c.env.now } }
  | .signBegin req => (s.signBegin cfg c.env req).2
  | .signFinish n =>
    match s.pending[n]? with
    | none => s
    | some p => (signFinish cfg c.env p { s with pending := s.pending.eraseIdx n }).2

/-- The bucket ledger as the wiring opens it. -/
def openBuckets (cfg : HttpConfig) (log : LineLog.Log) : PersistedBucketLedger :=
  let l := PersistedBucketLedger.openLedger log cfg.maxTx cfg.maxDay
  let l := if cfg.usersDestinationAllowlist = [] then l
    else (l.admitDestinations .users cfg.usersDestinationAllowlist).2
  if cfg.minersDestinationAllowlist = [] then l
  else (l.admitDestinations .miners cfg.minersDestinationAllowlist).2

/-- A node that just started. -/
def start (cfg : HttpConfig) (log : LineLog.Log) : HttpNode :=
  ⟨openBuckets cfg log, fun _ => none, [], []⟩

end HttpNode

end KeroseneVault
