import KeroseneVault.Domain.Hex
import KeroseneVault.Http.SpendCover

/-!
# Hybrid signatures on intents

The routes that authorize, reserve or sign an intent, under a constitution
whose downgrade policy asks for both halves of a hybrid signature:
`/v1/intent`, `/v1/intent/reserve`, the legacy `/intent/gate/`,
`/v1/bitcoin/sign-psbt` and `/v1/bitcoin/sign-sighash`. Beside the node stands
a record of every intent that was authorized, reserved or signed for.

* `IntentSignature.validateStub`, `hybridSignature` — what a body must carry;
* `legacyGateIntent`, `sighashIntent` — the intents of the two routes that are
  not in `Http.Handlers`;
* `HybridNode.step` — one request, or one half of a signing request;
* `Covered` — the request carried a hybrid signature over the intent.

Main result: `covered_iff` — every use of an intent is covered exactly when no
request gets through on a route that builds its intent without a signature.
-/

namespace KeroseneVault

/-! ## Signatures -/

/-- `DowngradePolicy`, as far as the handlers read it. -/
structure DowngradePolicy where
  requirePqSignatures : Bool
  hybridSignatureRequired : Bool
  deriving DecidableEq

/-- A policy that asks for both halves of a signature. -/
abbrev HybridPolicy :=
  {policy : DowngradePolicy //
    policy.requirePqSignatures = true ∧ policy.hybridSignatureRequired = true}

/-- `IntentSignature::validate_stub`. -/
def IntentSignature.validateStub (sig : IntentSignature) (requirePq : Bool) : Outcome :=
  if sig.ed25519Signature = List.replicate 64 0 then
    .error (.authRejected "ed25519 signature is all-zero")
  else if sig.canonicalHash = List.replicate 48 0 then
    .error (.authRejected "canonical hash is all-zero")
  else if requirePq && sig.mlDsa65Signature.isEmpty then
    .error (.authRejected "ml-dsa-65 signature required by downgrade policy but missing")
  else .ok ()

/-- A hex digit of either case. -/
def anyHexDigit (c : Char) : Option Nat :=
  if 'A' ≤ c ∧ c ≤ 'F' then some (c.toNat - 55) else hexDigit c

/-- The pairs of digits from position `i` on. -/
def hexBytesFrom (i : Nat) : List Char → Except String (List UInt8)
  | hi :: lo :: rest =>
    match anyHexDigit hi, anyHexDigit lo with
    | none, _ => .error s!"Invalid character '{hi}' at position {i}"
    | some _, none => .error s!"Invalid character '{lo}' at position {i + 1}"
    | some h, some l => (hexBytesFrom (i + 2) rest).map (UInt8.ofNat (16 * h + l) :: ·)
  | _ => .ok []

/-- `hex::decode`, which reads the text byte by byte. -/
def hexBytes (s : String) : Except String (List UInt8) :=
  let bytes := s.toList.flatMap fun c => (String.utf8EncodeChar c).map fun b => Char.ofNat b.toNat
  if bytes.length % 2 = 1 then .error "Odd number of digits" else hexBytesFrom 0 bytes

theorem anyHexDigit_digitChar {n : Nat} (h : n < 16) : anyHexDigit (Nat.digitChar n) = some n := by
  interval_cases n <;> rfl

/-- A digit is one byte, the same in any text. -/
theorem utf8_digitChar {n : Nat} (h : n < 16) :
    ((String.utf8EncodeChar (Nat.digitChar n)).map fun b => Char.ofNat b.toNat) =
      [Nat.digitChar n] := by
  interval_cases n <;> rfl

theorem hexBytesFrom_digits (i : Nat) (bytes : List UInt8) :
    hexBytesFrom i (bytes.flatMap fun b =>
      [Nat.digitChar (b.toNat / 16), Nat.digitChar (b.toNat % 16)]) = .ok bytes := by
  induction bytes generalizing i with
  | nil => rfl
  | cons b bytes ih =>
    have hHi : b.toNat / 16 < 16 := Nat.div_lt_of_lt_mul b.toNat_lt
    have hLo : b.toNat % 16 < 16 := Nat.mod_lt _ (by omega)
    rw [List.flatMap_cons, List.cons_append, List.cons_append, List.nil_append, hexBytesFrom,
      anyHexDigit_digitChar hHi, anyHexDigit_digitChar hLo]
    dsimp only
    rw [ih, Except.map, Nat.div_add_mod, UInt8.ofNat_toNat]

/-- What hex encodes is decoded. -/
theorem hexBytes_hexText (bytes : List UInt8) : hexBytes (hexText bytes) = .ok bytes := by
  have hText : ((hexText bytes).toList.flatMap fun c =>
      (String.utf8EncodeChar c).map fun b => Char.ofNat b.toNat) = (hexText bytes).toList := by
    conv_rhs => rw [← List.flatMap_singleton' (hexText bytes).toList]
    refine List.flatMap_congr fun c hc => ?_
    obtain ⟨n, hn, rfl⟩ := mem_hexText hc
    exact utf8_digitChar hn
  have hPairs : (hexText bytes).toList = bytes.flatMap fun b =>
      [Nat.digitChar (b.toNat / 16), Nat.digitChar (b.toNat % 16)] := by
    rw [hexText, String.toList_ofList]
  have hEven : (hexText bytes).toList.length = bytes.length * 2 := by
    rw [hPairs, List.length_flatMap]
    simp
  unfold hexBytes
  dsimp only
  rw [hText, if_neg (by omega), hPairs]
  exact hexBytesFrom_digits 0 bytes

/-- Two digits make a byte. -/
theorem length_hexBytesFrom {i : Nat} {digits : List Char} {bytes : List UInt8}
    (h : hexBytesFrom i digits = .ok bytes) : bytes.length = digits.length / 2 := by
  fun_induction hexBytesFrom i digits generalizing bytes with
  | case1 => cases h
  | case2 => cases h
  | case3 i hi lo rest _ hHi _ hLo ih =>
    cases hRest : hexBytesFrom (i + 2) rest with
    | error e => rw [hRest] at h; cases h
    | ok tail =>
      rw [hRest] at h
      obtain rfl := Except.ok.inj h
      rw [List.length_cons, List.length_cons, List.length_cons, ih hRest]
      omega
  | case4 digits _ hShort =>
    obtain rfl := Except.ok.inj h
    cases digits with
    | nil => rfl
    | cons hi digits =>
      cases digits with
      | nil => simp
      | cons lo rest => exact absurd rfl (hShort hi lo rest)

theorem length_hexBytes {s : String} {bytes : List UInt8} (h : hexBytes s = .ok bytes) :
    strLen s = 2 * bytes.length := by
  have hLength : (s.toList.flatMap fun c =>
      (String.utf8EncodeChar c).map fun b => Char.ofNat b.toNat).length = strLen s := by
    simp only [List.length_flatMap, List.length_map, String.length_utf8EncodeChar]
    rfl
  unfold hexBytes at h
  dsimp only at h
  split_ifs at h with hOdd
  rw [hLength] at hOdd
  rw [length_hexBytesFrom h, hLength]
  omega

/-- The fields a signature is over. -/
structure CanonicalFields where
  intentId : String
  bucket : String
  destination : String
  amountSats : Nat
  policyHash : String

def SettlementIntent.canonicalFields (intent : SettlementIntent) : CanonicalFields :=
  ⟨intent.intentId, intent.bucket.asStr, intent.destination, intent.amountSats,
    intent.policyHash⟩

/-- What the node is configured with besides, the JSON text of the fields and
the hash of crates outside the repository included. -/
structure HybridConfig extends HttpConfig where
  canonicalText : CanonicalFields → List UInt8
  sha384 : List UInt8 → List UInt8
  ceremonyLab : Bool
  labAllowRawSighash : Bool

/-- `IntentSignature::compute_canonical_hash` of the fields. -/
def HybridConfig.canonicalHash (cfg : HybridConfig) (intent : SettlementIntent) : List UInt8 :=
  cfg.sha384 (cfg.canonicalText intent.canonicalFields)

/-! ## Intents with signatures -/

/-- `IntentBody`. -/
structure SignedIntentBody extends IntentBody where
  ed25519SignatureHex : Option String
  mlDsa65SignatureHex : Option String
  ed25519KeyId : Option String
  mlDsaKeyId : Option String

/-- The hybrid signature of a body, which must be there where it is required. The copy of
its first half, which panics at fewer than 64 bytes, is in `hybridIntake`. -/
def hybridSignature (cfg : HybridConfig) (requirePq : Bool) (body : SignedIntentBody)
    (intent : SettlementIntent) : Except Refusal (Option IntentSignature) :=
  let hasSigs := body.ed25519SignatureHex.isSome || body.mlDsa65SignatureHex.isSome
  if !(hasSigs || requirePq) then .ok none
  else
    let mlSigHex := body.mlDsa65SignatureHex.getD ""
    match hexBytes (body.ed25519SignatureHex.getD "") with
    | .error e => .error (.text 400 s!"ed25519_sig hex: {e}")
    | .ok edSigBytes =>
      match if mlSigHex = "" then .ok [] else hexBytes mlSigHex with
      | .error e => .error (.text 400 s!"ml_dsa65_sig hex: {e}")
      | .ok mlSigBytes =>
        if edSigBytes.length ≠ 64 then .error (.text 400 "ed25519_sig must be 64 bytes")
        else
          let sig : IntentSignature := {
            ed25519Signature := edSigBytes
            mlDsa65Signature := mlSigBytes
            ed25519KeyId := body.ed25519KeyId.getD ""
            mlDsaKeyId := body.mlDsaKeyId.getD ""
            canonicalHash := cfg.canonicalHash intent }
          match sig.validateStub requirePq with
          | .error e => .error (.domain 401 e)
          | .ok () => .ok (some sig)

/-- `parse_settlement_intent`: the intent of the body, then its signature. -/
def parseSignedIntent (cfg : HybridConfig) (policy : DowngradePolicy) (env : HttpEnv)
    (body : SignedIntentBody) : Except Refusal WireIntent :=
  match parseSettlementIntent cfg.toHttpConfig { env with hybridSignature := .ok none }
      body.toIntentBody with
  | .error refusal => .error refusal
  | .ok intent =>
    let requirePq := policy.requirePqSignatures && policy.hybridSignatureRequired
    match hybridSignature cfg requirePq body intent.1 with
    | .error refusal => .error refusal
    | .ok signature => .ok ⟨{ intent.1 with signature := signature }, wireIntent_amount_le intent⟩

/-! ## The legacy gate -/

/-- `str::splitn`. -/
def splitN (c : Char) : Nat → List Char → List (List Char)
  | 0, _ => []
  | 1, s => [s]
  | n + 2, s =>
    match s.span (· ≠ c) with
    | (seg, []) => [seg]
    | (seg, _ :: rest) => seg :: splitN c (n + 1) rest

/-- `str::trim_start_matches`, at most `n` times. -/
def trimStartMatches (pat : List Char) : Nat → List Char → List Char
  | 0, s => s
  | n + 1, s => if pat.isPrefixOf s then trimStartMatches pat n (s.drop pat.length) else s

/-- `str::parse::<u64>`. -/
def parseU64 (raw : List Char) : Option U64 :=
  let digits := match raw with
    | '+' :: rest => rest
    | _ => raw
  let n := digits.foldl (fun n c => 10 * n + (c.toNat - 48)) 0
  if digits = [] || !digits.all Char.isDigit then none
  else if h : n ≤ u64Max then some ⟨n, h⟩ else none

/-- `dispatch_legacy` of `POST /intent/gate/{id}/{bucket}/{destination}/{amount}`,
up to the gate. -/
def legacyGateIntent (cfg : HybridConfig) (env : HttpEnv) (path : String) :
    Except Refusal WireIntent :=
  if strLen path > 512 then .error (.text 414 "request rejected: path too long")
  else if strContains path ".." then .error (.text 400 "request rejected: path traversal")
  else
    let rest := trimStartMatches "/intent/gate/".toList path.length path.toList
    let segs := splitN '/' 4 rest
    let id := segs.getD 0 []
    let bucketRaw := segs.getD 1 []
    let destination := segs.getD 2 []
    let amountRaw := segs.getD 3 []
    if id = [] ∨ bucketRaw = [] ∨ destination = [] ∨ amountRaw = [] then
      .error (.text 400 "usage /intent/gate/\x7bid\x7d/\x7bbucket\x7d/\x7bdestination\x7d/\x7bamount\x7d")
    else
      match cfg.validateDestination (String.ofList destination) with
      | .error e => .error (.domain 400 e)
      | .ok () =>
        match BucketKind.parse (String.ofList bucketRaw) with
        | .error e => .error (.domain 400 e)
        | .ok bucket =>
          match parseU64 amountRaw with
          | none => .error (.text 400 "amount must be u64 sats")
          | some amount =>
            match env.constitution with
            | .error e => .error (.domain 500 e)
            | .ok constitution =>
              (newWireIntent (String.ofList id) bucket (String.ofList destination) amount
                constitution.hash).mapError (.domain 400)

/-! ## `v1_bitcoin_sign_psbt` -/

/-- The intent that `v1_bitcoin_sign_psbt` reserves, with `commit_intent`. -/
def psbtIntent (cfg : HybridConfig) (env : HttpEnv) (req : BitcoinPsbtBody) :
    Except Refusal WireIntent :=
  match env.authorizeTreasurySign with
  | .error e => .error (.domain 401 e)
  | .ok () =>
    match BucketKind.parse (req.bucket.getD "USERS") with
    | .error e => .error (.domain 400 e)
    | .ok bucket =>
      match HttpNode.assertTaprootBucket bucket with
      | .error refusal => .error refusal
      | .ok () =>
        (buildSettlementIntent cfg.toHttpConfig env (some req.intentIdOrSession)
          (some (req.bucket.getD "USERS")) ((some (req.destination.getD "")).filter (· ≠ ""))
          req.amountSats (bucket == .users)).mapError (.domain 400)

/-- With `commit_intent` the request waits for its signature exactly when the
gate reserves that intent. -/
theorem signBegin_ok_iff (cfg : HybridConfig) (env : HttpEnv) {req : BitcoinPsbtBody}
    (hCommit : req.commitIntent = true) (s : HttpNode) :
    (s.signBegin cfg.toHttpConfig env req).1 = .ok () ↔
      ∃ intent receipt, psbtIntent cfg env req = .ok intent ∧
        (s.reserveIntent cfg.toHttpConfig env intent.1).1 = .ok receipt := by
  unfold HttpNode.signBegin psbtIntent
  cases env.authorizeTreasurySign with
  | error e => simp
  | ok =>
    cases BucketKind.parse (req.bucket.getD "USERS") with
    | error e => simp
    | ok bucket =>
      dsimp only
      cases HttpNode.assertTaprootBucket bucket with
      | error refusal => simp
      | ok =>
        dsimp only
        rw [if_pos hCommit]
        unfold HttpNode.signReserve
        dsimp only
        -- the intent is built of the body alone, before the ledger is asked
        cases buildSettlementIntent cfg.toHttpConfig env (some req.intentIdOrSession)
            (some (req.bucket.getD "USERS")) ((some (req.destination.getD "")).filter (· ≠ ""))
            req.amountSats (bucket == .users) with
        | error e => simp [Except.mapError]
        | ok intent =>
          dsimp only [Except.mapError]
          cases hReserve : s.reserveIntent cfg.toHttpConfig env intent.1 with
          | mk answer next =>
            cases answer with
            | error e => simp [hReserve]
            | ok receipt => simp [hReserve]

/-! ## `v1_bitcoin_sign_sighash` -/

structure BitcoinSighashBody where
  sessionId : String
  sighashHex : String
  intentId : Option String
  bucket : Option String
  destination : Option String
  amountSats : Option U64

/-- The part of `v1_bitcoin_sign_sighash` before the gate. -/
def sighashIntent (cfg : HybridConfig) (env : HttpEnv) (req : BitcoinSighashBody) :
    Except Refusal WireIntent :=
  match env.authorizeTreasurySign with
  | .error e => .error (.domain 401 e)
  | .ok () =>
    if !cfg.ceremonyLab then
      .error (.text 403
        "raw sighash signing refused outside lab; use Intent-bound /v1/bitcoin/sign-psbt")
    else if !cfg.labAllowRawSighash then
      .error (.text 403
        "raw sighash signing requires VAULT_LAB_ALLOW_RAW_SIGHASH=1; prefer Intent-bound /v1/bitcoin/sign-psbt")
    else if req.intentId.getD "" = "" ∨ req.bucket.getD "" = "" ∨ req.destination.getD "" = "" ∨
        (req.amountSats.map (·.1)).getD 0 = 0 then
      .error (.text 400
        "raw sighash requires intent_id, bucket, destination, and amount_sats (outputs still unbound -- prefer sign-psbt)")
    else
      (buildSettlementIntent cfg.toHttpConfig env req.intentId req.bucket req.destination
        req.amountSats true).mapError (.domain 400)

/-- The part of `v1_bitcoin_sign_sighash` after the gate; the signature is the
signer's answer. -/
def signSighash (env : HttpEnv) (req : BitcoinSighashBody) : Except Refusal Unit :=
  match env.taprootKey .users with
  | none => .error (.text 503 "taproot FROST not installed")
  | some _ =>
    match hexBytes (strTrim req.sighashHex) with
    | .error e => .error (.text 400 s!"sighash_hex: {e}")
    | .ok _ => env.signer.mapError (.domain 400)

/-! ## The node -/

inductive IntentAct where
  | authorized
  | reserved
  | signed
  deriving DecidableEq

/-- A use of an intent, and the intent that the same request made for it. -/
structure IntentUse where
  act : IntentAct
  terms : Made
  intent : Option SettlementIntent
  deriving DecidableEq

/-- The use of an intent that a request made. -/
def SettlementIntent.use (intent : SettlementIntent) (act : IntentAct) : IntentUse :=
  ⟨act, ⟨intent.intentId, intent.bucket, intent.destination, intent.amountSats⟩, some intent⟩

structure HybridNode where
  node : HttpNode
  uses : List IntentUse

inductive HybridOp where
  | intent (body : SignedIntentBody)
  | reserve (body : SignedIntentBody)
  | gate (path : String)
  | signBegin (req : BitcoinPsbtBody)
  | signFinish (n : Nat)
  | signSighash (req : BitcoinSighashBody)
  | commit (intentId : String)
  | release (intentId bucket : String) (amountSats : U64)
  | prepare (intentId : String) (durable : Bool)
  | sweep

structure HybridCall where
  env : HttpEnv
  op : HybridOp

namespace HybridNode

variable (cfg : HybridConfig) (policy : DowngradePolicy)

/-- `gate_intent.execute`. -/
def executeIntent (env : HttpEnv) (intent : SettlementIntent) (s : HttpNode) :
    Except DomainError GateReceipt × HttpNode :=
  let r := GateIntent.run cfg.isAddress env.constitution env.economy
    (QuorumBucketLedger.perform cfg.quorumT env.now env.disk env.soft env.durable)
    .consume intent s.ledger
  (r.1, { s with ledger := r.2 })

/-- A request that makes an intent and hands it to the gate: what it answers,
and its use of the intent where the gate lets it through. -/
def through (made : Except Refusal WireIntent) (act : IntentAct)
    (gate : SettlementIntent → HttpNode → Except DomainError GateReceipt × HttpNode)
    (s : HybridNode) : Except Refusal SettlementIntent × HybridNode :=
  match made with
  | .error refusal => (.error refusal, s)
  | .ok intent =>
    match gate intent.1 s.node with
    | (.error e, node) => (.error (.domain 400 e), { s with node := node })
    | (.ok _, node) => (.ok intent.1, ⟨node, intent.1.use act :: s.uses⟩)

def step (s : HybridNode) (c : HybridCall) : HybridNode :=
  let other (op : HttpOp) : HybridNode :=
    { s with node := HttpNode.step cfg.toHttpConfig s.node ⟨c.env, op⟩ }
  match c.op with
  | .intent body =>
    (s.through (parseSignedIntent cfg policy c.env body) .authorized (executeIntent cfg c.env)).2
  | .reserve body =>
    (s.through (parseSignedIntent cfg policy c.env body) .reserved
      (HttpNode.reserveIntent cfg.toHttpConfig c.env)).2
  | .gate path =>
    (s.through (legacyGateIntent cfg c.env path) .authorized (executeIntent cfg c.env)).2
  | .signBegin req =>
    let r := s.node.signBegin cfg.toHttpConfig c.env req
    match r.1 with
    | .error _ => { s with node := r.2 }
    | .ok () =>
      match req.commitIntent, psbtIntent cfg c.env req with
      | true, .ok intent => ⟨r.2, intent.1.use .reserved :: s.uses⟩
      | _, _ => { s with node := r.2 }
  | .signFinish n =>
    let s' := other (.signFinish n)
    match s.node.pending[n]? with
    | none => s'
    | some p =>
      match HttpNode.signCheck cfg.toHttpConfig c.env p with
      | .error _ => s'
      | .ok _ => { s' with uses := ⟨.signed, p.use.terms, none⟩ :: s.uses }
  | .signSighash req =>
    match s.through (sighashIntent cfg c.env req) .authorized (executeIntent cfg c.env) with
    | (.error _, s) => s
    | (.ok intent, s) =>
      match signSighash c.env req with
      | .error _ => s
      | .ok () => { s with uses := intent.use .signed :: s.uses }
  | .commit intentId => other (.commit intentId)
  | .release intentId bucket amountSats => other (.release intentId bucket amountSats)
  | .prepare intentId durable => other (.prepare intentId durable)
  | .sweep => other .sweep

/-- A node that just started. -/
def start (log : LineLog.Log) : HybridNode := ⟨HttpNode.start cfg.toHttpConfig log, []⟩

/-- The request carried a hybrid signature over the fields of the intent. -/
def CoveredUse (u : IntentUse) : Prop :=
  ∃ intent sig, u.intent = some intent ∧ intent.signature = some sig ∧
    sig.validateStub true = .ok () ∧ sig.canonicalHash = cfg.canonicalHash intent

def Covered (s : HybridNode) : Prop := ∀ u ∈ s.uses, CoveredUse cfg u

/-- No request on a route without signatures gets through: none of the legacy
gate or for a raw sighash passes the gate, no signing request reserves its
intent, and none under way passes the checks of its signature. -/
def NoBypass (s : HybridNode) (c : HybridCall) : Prop :=
  match c.op with
  | .gate path => ∀ intent receipt, legacyGateIntent cfg c.env path = .ok intent →
      (executeIntent cfg c.env intent.1 s.node).1 ≠ .ok receipt
  | .signSighash req => ∀ intent receipt, sighashIntent cfg c.env req = .ok intent →
      (executeIntent cfg c.env intent.1 s.node).1 ≠ .ok receipt
  | .signBegin req => req.commitIntent = true → ∀ intent receipt,
      psbtIntent cfg c.env req = .ok intent →
      (s.node.reserveIntent cfg.toHttpConfig c.env intent.1).1 ≠ .ok receipt
  | .signFinish n => ∀ p change, s.node.pending[n]? = some p →
      HttpNode.signCheck cfg.toHttpConfig c.env p ≠ .ok change
  | _ => True

/-! ## Which uses are covered -/

variable {cfg}

/-- A body that gets through where the signature is required carries one over
its intent. -/
theorem hybridSignature_required {body : SignedIntentBody} {intent : SettlementIntent}
    {signature : Option IntentSignature} (h : hybridSignature cfg true body intent = .ok signature) :
    ∃ sig, signature = some sig ∧ sig.validateStub true = .ok () ∧
      sig.canonicalHash = cfg.canonicalHash intent := by
  unfold hybridSignature at h
  dsimp only at h
  rw [if_neg (by simp)] at h
  split at h
  · exact absurd h (by simp)
  · split at h
    · exact absurd h (by simp)
    · split at h
      · exact absurd h (by simp)
      · split at h
        · exact absurd h (by simp)
        · rename_i hStub
          exact ⟨_, (Except.ok.inj h).symm, hStub, rfl⟩

/-- An intent of a body is covered under a hybrid policy. -/
theorem covered_parseSignedIntent (policy : HybridPolicy) {env : HttpEnv}
    {body : SignedIntentBody} {intent : WireIntent}
    (h : parseSignedIntent cfg policy.1 env body = .ok intent) (act : IntentAct) :
    CoveredUse cfg (intent.1.use act) := by
  unfold parseSignedIntent at h
  split at h
  · exact absurd h (by simp)
  · rw [policy.2.1, policy.2.2] at h
    dsimp only [Bool.and_true] at h
    split at h
    · exact absurd h (by simp)
    · rename_i bare _ signature hSignature
      obtain ⟨sig, rfl, hStub, hHash⟩ := hybridSignature_required hSignature
      rw [← Except.ok.inj h]
      exact ⟨_, sig, rfl, rfl, hStub, hHash⟩

/-- An intent without a signature is not. -/
theorem not_covered_of_unsigned {u : IntentUse}
    (h : ∀ intent, u.intent = some intent → intent.signature = none) : ¬ CoveredUse cfg u := by
  rintro ⟨intent, sig, hIntent, hSig, -⟩
  rw [h intent hIntent] at hSig
  exact absurd hSig (by simp)

theorem unsigned_newWireIntent {intentId destination policyHash : String} {bucket : BucketKind}
    {amountSats : U64} {intent : WireIntent}
    (h : newWireIntent intentId bucket destination amountSats policyHash = .ok intent) :
    intent.1.signature = none := by
  rw [newWireIntent_ok h]

theorem error_ne_ok {ε α : Type} {e : ε} {a : α} : (.error e : Except ε α) ≠ .ok a := nofun

theorem unsigned_buildSettlementIntent {env : HttpEnv} {intentId bucket destination : Option String}
    {amountSats : Option U64} {shared : Bool} {intent : WireIntent}
    (h : buildSettlementIntent cfg.toHttpConfig env intentId bucket destination amountSats shared =
      .ok intent) : intent.1.signature = none := by
  unfold buildSettlementIntent at h
  dsimp only at h
  repeat' split at h
  -- every branch refuses, or makes the intent
  all_goals first
    | with_reducible exact absurd h error_ne_ok
    | exact unsigned_newWireIntent h

theorem ok_of_mapError {ε ε' α : Type} {f : ε → ε'} {x : Except ε α} {a : α}
    (h : x.mapError f = .ok a) : x = .ok a := by
  cases x with
  | error e => exact absurd h (by simp [Except.mapError])
  | ok b => exact congrArg _ (Except.ok.inj h)

theorem unsigned_legacyGateIntent {env : HttpEnv} {path : String} {intent : WireIntent}
    (h : legacyGateIntent cfg env path = .ok intent) : intent.1.signature = none := by
  unfold legacyGateIntent at h
  dsimp only at h
  repeat' split at h
  all_goals first
    | with_reducible exact absurd h error_ne_ok
    | exact unsigned_newWireIntent (ok_of_mapError h)

theorem unsigned_sighashIntent {env : HttpEnv} {req : BitcoinSighashBody} {intent : WireIntent}
    (h : sighashIntent cfg env req = .ok intent) : intent.1.signature = none := by
  unfold sighashIntent at h
  repeat' split at h
  all_goals first
    | with_reducible exact absurd h error_ne_ok
    | exact unsigned_buildSettlementIntent (ok_of_mapError h)

theorem unsigned_psbtIntent {env : HttpEnv} {req : BitcoinPsbtBody} {intent : WireIntent}
    (h : psbtIntent cfg env req = .ok intent) : intent.1.signature = none := by
  unfold psbtIntent at h
  repeat' split at h
  all_goals first
    | with_reducible exact absurd h error_ne_ok
    | exact unsigned_buildSettlementIntent (ok_of_mapError h)

theorem Covered.same {s s' : HybridNode} (h : Covered cfg s) (hUses : s'.uses = s.uses) :
    Covered cfg s' := by
  unfold Covered
  rw [hUses]
  exact h

theorem covered_cons {s : HybridNode} (h : Covered cfg s) (node : HttpNode) (u : IntentUse) :
    Covered cfg ⟨node, u :: s.uses⟩ ↔ CoveredUse cfg u := by
  unfold Covered
  rw [List.forall_mem_cons]
  exact and_iff_left h

/-- What a request to the gate leaves. -/
theorem through_cases (made : Except Refusal WireIntent) (act : IntentAct)
    (gate : SettlementIntent → HttpNode → Except DomainError GateReceipt × HttpNode)
    (s : HybridNode) :
    (∃ intent receipt, made = .ok intent ∧ (gate intent.1 s.node).1 = .ok receipt ∧
      s.through made act gate =
        (.ok intent.1, ⟨(gate intent.1 s.node).2, intent.1.use act :: s.uses⟩)) ∨
    (∃ refusal node, s.through made act gate = (.error refusal, { s with node := node }) ∧
      ∀ intent receipt, made = .ok intent → (gate intent.1 s.node).1 ≠ .ok receipt) := by
  unfold through
  cases made with
  | error refusal => exact .inr ⟨refusal, s.node, rfl, fun _ _ h => absurd h (by simp)⟩
  | ok intent =>
    cases hGate : gate intent.1 s.node with
    | mk answer node =>
      cases answer with
      | error e =>
        refine .inr ⟨.domain 400 e, node, by simp [hGate], fun intent' receipt h => ?_⟩
        rw [← Except.ok.inj h, hGate]
        simp
      | ok receipt => exact .inl ⟨intent, receipt, rfl, by rw [hGate], by simp [hGate]⟩

/-- A route whose intents carry no signature keeps the uses covered exactly when
the gate refuses. -/
theorem covered_through_iff {made : Except Refusal WireIntent} {act : IntentAct}
    {gate : SettlementIntent → HttpNode → Except DomainError GateReceipt × HttpNode}
    {s : HybridNode} (h : Covered cfg s)
    (hUnsigned : ∀ intent, made = .ok intent → intent.1.signature = none) :
    Covered cfg (s.through made act gate).2 ↔
      ∀ intent receipt, made = .ok intent → (gate intent.1 s.node).1 ≠ .ok receipt := by
  rcases s.through_cases made act gate with
    ⟨intent, receipt, hMade, hGate, hThrough⟩ | ⟨refusal, node, hThrough, hRefused⟩
  · rw [hThrough]
    refine iff_of_false ?_ fun hAll => hAll intent receipt hMade hGate
    rw [covered_cons h]
    refine not_covered_of_unsigned fun intent' hIntent => ?_
    rw [← Option.some.inj hIntent]
    exact hUnsigned intent hMade
  · rw [hThrough]
    exact iff_of_true h hRefused

/-- A route that checks the signature keeps the uses covered. -/
theorem covered_through {made : Except Refusal WireIntent} {act : IntentAct}
    {gate : SettlementIntent → HttpNode → Except DomainError GateReceipt × HttpNode}
    {s : HybridNode} (h : Covered cfg s)
    (hSigned : ∀ intent, made = .ok intent → CoveredUse cfg (intent.1.use act)) :
    Covered cfg (s.through made act gate).2 := by
  rcases s.through_cases made act gate with
    ⟨intent, receipt, hMade, -, hThrough⟩ | ⟨refusal, node, hThrough, -⟩
  · rw [hThrough, covered_cons h]
    exact hSigned intent hMade
  · rw [hThrough]
    exact h

/-- To begin to sign uses an intent where it reserves it, and covers none. -/
theorem covered_signBegin_iff (policy : DowngradePolicy) {env : HttpEnv} {req : BitcoinPsbtBody}
    {s : HybridNode} (h : Covered cfg s) :
    Covered cfg (s.step cfg policy ⟨env, .signBegin req⟩) ↔ NoBypass cfg s ⟨env, .signBegin req⟩ := by
  unfold step NoBypass
  dsimp only
  -- without a reservation there is no use of an intent yet
  cases hCommit : req.commitIntent with
  | false =>
    refine iff_of_true ?_ fun h => absurd h (by simp)
    split
    · exact h
    · exact h
  | true =>
    have hOk := signBegin_ok_iff cfg env hCommit s.node
    cases hBegin : (s.node.signBegin cfg.toHttpConfig env req).1 with
    | error refusal =>
      refine iff_of_true h fun _ intent receipt hIntent hReserve => ?_
      rw [hOk.mpr ⟨intent, receipt, hIntent, hReserve⟩] at hBegin
      exact absurd hBegin (by simp)
    | ok =>
      obtain ⟨intent, receipt, hIntent, hReserve⟩ := hOk.mp hBegin
      refine iff_of_false ?_ fun hAll => hAll rfl intent receipt hIntent hReserve
      rw [hIntent]
      dsimp only
      rw [covered_cons h]
      refine not_covered_of_unsigned fun intent' hUse => ?_
      rw [← Option.some.inj hUse]
      exact unsigned_psbtIntent hIntent

/-- To finish uses the intent that was signed for. -/
theorem covered_signFinish_iff (policy : DowngradePolicy) {env : HttpEnv} {n : Nat}
    {s : HybridNode} (h : Covered cfg s) :
    Covered cfg (s.step cfg policy ⟨env, .signFinish n⟩) ↔ NoBypass cfg s ⟨env, .signFinish n⟩ := by
  unfold step NoBypass
  dsimp only
  cases hPending : s.node.pending[n]? with
  | none => exact iff_of_true h fun p _ hp => absurd hp (by simp)
  | some p =>
    dsimp only
    cases hCheck : HttpNode.signCheck cfg.toHttpConfig env p with
    | error refusal =>
      refine iff_of_true h fun p' change hp => ?_
      rw [← Option.some.inj hp, hCheck]
      simp
    | ok change =>
      refine iff_of_false ?_ fun hAll => hAll p change rfl hCheck
      rw [covered_cons h]
      exact not_covered_of_unsigned fun _ hNone => absurd hNone (by simp)

/-- A signature on a digest uses the intent that its request names. -/
theorem covered_signSighash_iff (policy : DowngradePolicy) {env : HttpEnv}
    {req : BitcoinSighashBody} {s : HybridNode} (h : Covered cfg s) :
    Covered cfg (s.step cfg policy ⟨env, .signSighash req⟩) ↔
      NoBypass cfg s ⟨env, .signSighash req⟩ := by
  unfold step NoBypass
  dsimp only
  rcases s.through_cases (sighashIntent cfg env req) .authorized (executeIntent cfg env) with
    ⟨intent, receipt, hMade, hGate, hThrough⟩ | ⟨refusal, node, hThrough, hRefused⟩
  · rw [hThrough]
    refine iff_of_false (fun hCovered => ?_) fun hAll => hAll intent receipt hMade hGate
    -- the intent was authorized, whether or not it is signed for
    have hUse : CoveredUse cfg (intent.1.use .authorized) := by
      dsimp only at hCovered
      split at hCovered
      · exact hCovered _ (List.mem_cons_self ..)
      · exact hCovered _ (List.mem_cons_of_mem _ (List.mem_cons_self ..))
    refine not_covered_of_unsigned (fun intent' hIntent => ?_) hUse
    rw [← Option.some.inj hIntent]
    exact unsigned_sighashIntent hMade
  · rw [hThrough]
    exact iff_of_true h hRefused

theorem covered_gate_iff (policy : DowngradePolicy) {env : HttpEnv} {path : String}
    {s : HybridNode} (h : Covered cfg s) :
    Covered cfg (s.step cfg policy ⟨env, .gate path⟩) ↔ NoBypass cfg s ⟨env, .gate path⟩ := by
  have hUnsigned (intent : WireIntent) (hMade : legacyGateIntent cfg env path = .ok intent) :=
    unsigned_legacyGateIntent hMade
  unfold step NoBypass
  dsimp only
  generalize legacyGateIntent cfg env path = made at *
  exact covered_through_iff h hUnsigned

/-- Each request keeps the uses covered just where it does not get around the signature. -/
theorem covered_step_iff (policy : HybridPolicy) {s : HybridNode} (h : Covered cfg s)
    (c : HybridCall) : Covered cfg (s.step cfg policy.1 c) ↔ NoBypass cfg s c := by
  obtain ⟨env, op⟩ := c
  have hBody (body : SignedIntentBody) (act : IntentAct) (intent : WireIntent)
      (hMade : parseSignedIntent cfg policy.1 env body = .ok intent) :=
    covered_parseSignedIntent policy hMade act
  match op with
  | .intent body => exact iff_of_true (covered_through h (hBody body .authorized)) trivial
  | .reserve body => exact iff_of_true (covered_through h (hBody body .reserved)) trivial
  | .gate path => exact covered_gate_iff policy.1 h
  | .signBegin req => exact covered_signBegin_iff policy.1 h
  | .signFinish n => exact covered_signFinish_iff policy.1 h
  | .signSighash req => exact covered_signSighash_iff policy.1 h
  | .commit intentId => exact iff_of_true (h.same (by simp only [step])) trivial
  | .release intentId bucket amountSats =>
    exact iff_of_true (h.same (by simp only [step])) trivial
  | .prepare intentId durable => exact iff_of_true (h.same (by simp only [step])) trivial
  | .sweep => exact iff_of_true (h.same (by simp only [step])) trivial

variable (cfg) in
/-- **Hybrid signatures.** Under a constitution that asks for both halves, in
every sequence of requests, each intent that is authorized, reserved or signed
for has a hybrid signature over its fields in the same request, exactly when no
request gets through on a route that builds its intent without one. -/
theorem covered_iff (policy : HybridPolicy) (log : LineLog.Log) (calls : List HybridCall) :
    Runs.EveryState (step cfg policy.1) (Covered cfg) (start cfg log) calls ↔
      Runs.EveryStep (step cfg policy.1) (NoBypass cfg) (start cfg log) calls :=
  Runs.everyState_iff_everyStep (J := fun _ => True) (fun _ _ _ => trivial)
    (fun _ c _ h => covered_step_iff policy h c) trivial
    (fun _ hUse => absurd hUse List.not_mem_nil) calls

/-- A lab node that may pay one address from USERS. -/
def labConfig : HybridConfig :=
  { HttpNode.soloConfig with
    canonicalText := fun fields => fields.intentId.toList.map fun c => UInt8.ofNat c.toNat
    sha384 := fun bytes => bytes
    ceremonyLab := true
    labAllowRawSighash := false }

/-- A payout through the legacy gate is authorized without any signature. -/
theorem covered_fails :
    ¬ ∀ (policy : HybridPolicy) log calls,
      Runs.EveryState (step labConfig policy.1) (Covered labConfig) (start labConfig log) calls := by
  intro h
  have hLast := (h ⟨⟨true, true⟩, rfl, rfl⟩ .empty
    [⟨HttpNode.calmEnv, .gate ("/intent/gate/intent-1/USERS/" ++ HttpNode.payee ++ "/1000")⟩]).last
  have hUse : ∃ u ∈ (Runs.run (step labConfig ⟨true, true⟩) (start labConfig .empty)
      [⟨HttpNode.calmEnv, .gate ("/intent/gate/intent-1/USERS/" ++ HttpNode.payee ++ "/1000")⟩]).uses,
      u.intent.bind SettlementIntent.signature = none := by
    decide +kernel
  obtain ⟨u, hMem, hNone⟩ := hUse
  obtain ⟨intent, sig, hIntent, hSig, -⟩ := hLast u hMem
  rw [hIntent, Option.bind_some, hSig] at hNone
  exact absurd hNone (by simp)

end HybridNode

end KeroseneVault
