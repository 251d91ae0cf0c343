import KeroseneVault.Http.HybridGate

/-!
# The sign requests of the identity daemon

`vault-identityd` signs what its callers send it: a message in hexadecimal, under
an operation of two, with a nonce of eight to sixty-four bytes and an instant
within five minutes of its clock. Nothing of a request is kept.

* `SignEndpointBody.boundMessage` — what is signed;
* `IdentityServer.handleSign` — a request, at a clock and under an identity;
* `Acceptable` — the checks, without the signature;
* `NotReplayable` — a nonce that was signed under is refused from then on.

Main results:

* `signed_iff` — a request is signed exactly where it is acceptable and the
  identity signs it;
* `signed_again` — a nonce signed under once is signed under again;
* `notReplayable_iff` — a run is not replayable exactly where no two acceptable
  requests of it share a nonce.
-/

namespace KeroseneVault

/-! ## Requests -/

/-- `MAX_SIGN_MESSAGE_BYTES`. -/
def maxSignMessageBytes : Nat := 32768

inductive SignOp where
  | identity
  | audit
  deriving DecidableEq

namespace SignOp

def fromLabel : String → Option SignOp
  | "identity" => some .identity
  | "audit" => some .audit
  | _ => none

def domainSep : SignOp → List UInt8
  | .identity => textBytes "kerosene-identity-sign-v1"
  | .audit => textBytes "kerosene-audit-sign-v1"

end SignOp

structure SignEndpointBody where
  message : String
  opType : String
  policyHash : Option String
  callerId : Option String
  nonce : String
  timestampSecs : U64

/-- `str::to_ascii_lowercase`. -/
def toAsciiLowercase (s : String) : String := String.ofList (s.toList.map Char.toLower)

/-- `u64::to_le_bytes`. -/
def toLeBytes (n : U64) : List UInt8 :=
  (List.range 8).map fun i => UInt8.ofNat (n.1 / 256 ^ i % 256)

namespace SignEndpointBody

variable (req : SignEndpointBody)

def op : Option SignOp := SignOp.fromLabel (toAsciiLowercase req.opType)

/-- The bytes of the nonce, eight to sixty-four of them. -/
def nonceBytes : Option (List UInt8) :=
  match hexBytes (strTrim req.nonce) with
  | .ok n => if 8 ≤ n.length ∧ n.length ≤ 64 then some n else none
  | .error _ => none

/-- The domain, the operation as it was named, and the rest of the request. -/
def boundMessage (op : SignOp) (nonce message : List UInt8) : List UInt8 :=
  let bar := textBytes "|"
  op.domainSep ++ bar ++ textBytes req.opType ++ bar ++ nonce ++ bar ++
    toLeBytes req.timestampSecs ++ bar ++ textBytes (req.policyHash.getD "none") ++ bar ++
    textBytes (req.callerId.getD "unknown") ++ bar ++ message

end SignEndpointBody

/-! ## The server -/

/-- The allowed difference of a clock, in seconds. -/
def skewSecs : Nat := 300

/-- The instant is within the allowed difference of the clock. -/
def fresh (nowSecs timestampSecs : U64) : Bool :=
  nowSecs.1 - skewSecs ≤ timestampSecs.1 && timestampSecs.1 ≤ satAdd nowSecs.1 skewSecs

/-- The server, with identities of type `κ`. What a key signs comes of crates
outside the repository. -/
structure IdentityServer (κ σ : Type) where
  authToken : String
  signHybrid : κ → List UInt8 → Except String σ

/-- A request, with the clock and the identity that it meets. -/
structure SignCall (κ : Type) where
  authHeader : Option String
  nowSecs : U64
  identity : Option κ
  body : SignEndpointBody

namespace IdentityServer

variable {κ σ : Type} (server : IdentityServer κ σ)

/-- `IdentityDaemon::sign`. -/
def sign (identity : Option κ) (message : List UInt8) : Except String σ :=
  match identity with
  | none => .error "identity not found"
  | some key => server.signHybrid key message

/-- `handle_sign`, behind `require_auth_mw`: the domain and the signature. -/
def handleSign (call : SignCall κ) : Except Refusal (SignOp × σ) :=
  let req := call.body
  if call.authHeader ≠ some server.authToken then .error (.text 401 "unauthorized")
  else if strLen req.message > maxSignMessageBytes then
    .error (.text 413
      s!"message too large: {strLen req.message} bytes (max {maxSignMessageBytes})")
  else
    match req.op with
    | none => .error (.text 400
        s!"invalid sign op_type '{req.opType}'; allowed: identity, audit")
    | some op =>
      if strTrim req.nonce = "" then
        .error (.text 400 "nonce is required for replay protection")
      else
        match req.nonceBytes with
        | none => .error (.text 400 "nonce must be 8-64 hex-encoded bytes")
        | some nonce =>
          if !fresh call.nowSecs req.timestampSecs then
            .error (.text 400
              s!"timestamp {req.timestampSecs.1} is outside allowed clock skew ({call.nowSecs.1 - skewSecs} to {satAdd call.nowSecs.1 skewSecs})")
          else
            match hexBytes req.message with
            | .error e => .error (.text 400 s!"invalid hex message: {e}")
            | .ok message =>
              match server.sign call.identity (req.boundMessage op nonce message) with
              | .error e => .error (.text 500 e)
              | .ok signature => .ok (op, signature)

/-- The request was signed. -/
def Signed (call : SignCall κ) : Prop := ∃ answer, server.handleSign call = .ok answer

/-- What is signed for a request, where its message and its fields are of the right shape. -/
def signedText (req : SignEndpointBody) : Option (List UInt8) :=
  match req.op, req.nonceBytes, hexBytes req.message with
  | some op, some nonce, .ok message => some (req.boundMessage op nonce message)
  | _, _, _ => none

/-- A request that passes the checks, and that the identity signs. -/
structure Acceptable (call : SignCall κ) : Prop where
  auth : call.authHeader = some server.authToken
  size : strLen call.body.message ≤ maxSignMessageBytes
  fresh : fresh call.nowSecs call.body.timestampSecs = true
  text : ∃ text, signedText call.body = some text ∧ ∃ sig, server.sign call.identity text = .ok sig

end IdentityServer

/-! ## What is signed -/

/-- A nonce has no blank name. -/
theorem nonce_ne_of_nonceBytes {req : SignEndpointBody} {nonce : List UInt8}
    (h : req.nonceBytes = some nonce) : strTrim req.nonce ≠ "" := by
  intro hBlank
  have hEmpty : hexBytes "" = .ok [] := rfl
  unfold SignEndpointBody.nonceBytes at h
  rw [hBlank, hEmpty] at h
  cases h

namespace IdentityServer

variable {κ σ : Type} {server : IdentityServer κ σ} {call : SignCall κ}

/-- What is signed has an operation, a nonce and a message. -/
theorem signedText_eq_some {req : SignEndpointBody} {text : List UInt8} :
    signedText req = some text ↔ ∃ op nonce message, req.op = some op ∧
      req.nonceBytes = some nonce ∧ hexBytes req.message = .ok message ∧
      req.boundMessage op nonce message = text := by
  unfold signedText
  cases req.op with
  | none => simp
  | some op =>
    cases req.nonceBytes with
    | none => simp
    | some nonce =>
      cases hexBytes req.message with
      | error e => simp
      | ok message => simp

/-- A request is signed exactly where it is acceptable. -/
theorem signed_iff : server.Signed call ↔ server.Acceptable call := by
  constructor
  · rintro ⟨answer, hOk⟩
    unfold handleSign at hOk
    dsimp only at hOk
    -- the checks in the order of the handler, each of which refuses alone
    by_cases hAuth : call.authHeader ≠ some server.authToken
    · rw [if_pos hAuth] at hOk
      cases hOk
    by_cases hSize : strLen call.body.message > maxSignMessageBytes
    · rw [if_neg hAuth, if_pos hSize] at hOk
      cases hOk
    rw [if_neg hAuth, if_neg hSize] at hOk
    cases hOp : call.body.op with
    | none => rw [hOp] at hOk; cases hOk
    | some op =>
      rw [hOp] at hOk
      dsimp only at hOk
      -- a blank nonce would not decode either
      by_cases hBlank : strTrim call.body.nonce = ""
      · rw [if_pos hBlank] at hOk
        cases hOk
      rw [if_neg hBlank] at hOk
      cases hNonce : call.body.nonceBytes with
      | none => rw [hNonce] at hOk; cases hOk
      | some nonce =>
        rw [hNonce] at hOk
        dsimp only at hOk
        by_cases hStale : (!fresh call.nowSecs call.body.timestampSecs) = true
        · rw [if_pos hStale] at hOk
          cases hOk
        rw [if_neg hStale] at hOk
        cases hMessage : hexBytes call.body.message with
        | error e => rw [hMessage] at hOk; cases hOk
        | ok message =>
          rw [hMessage] at hOk
          dsimp only at hOk
          cases hSig : server.sign call.identity (call.body.boundMessage op nonce message) with
          | error e => rw [hSig] at hOk; cases hOk
          | ok sig =>
            refine ⟨not_not.mp hAuth, by omega, by simpa using hStale, _, ?_, sig, hSig⟩
            exact signedText_eq_some.mpr ⟨op, nonce, message, hOp, hNonce, hMessage, rfl⟩
  · rintro ⟨hAuth, hSize, hFresh, text, hText, sig, hSig⟩
    -- with all of them passed it is the key that answers
    obtain ⟨op, nonce, message, hOp, hNonce, hMessage, rfl⟩ := signedText_eq_some.mp hText
    refine ⟨(op, sig), ?_⟩
    unfold handleSign
    dsimp only
    rw [if_neg (not_not.mpr hAuth), if_neg (by omega), hOp]
    dsimp only
    rw [if_neg (nonce_ne_of_nonceBytes hNonce), hNonce]
    dsimp only
    rw [hFresh, if_neg (by decide), hMessage]
    dsimp only
    rw [hSig]

/-- A request that was signed is signed once more at each clock within five
minutes of it, whoever sends it, under an identity that signs it. -/
theorem signed_again {nowSecs : U64} (h : server.Signed call)
    (hFresh : KeroseneVault.fresh nowSecs call.body.timestampSecs = true) :
    server.Signed { call with nowSecs } := by
  obtain ⟨hAuth, hSize, -, hText⟩ := signed_iff.mp h
  exact signed_iff.mpr ⟨hAuth, hSize, hFresh, hText⟩

/-! ## Runs -/

/-- After a request was signed, every later one with its nonce is refused. -/
def NotReplayable (server : IdentityServer κ σ) (calls : List (SignCall κ)) : Prop :=
  ∀ call again, [call, again].Sublist calls → server.Signed call →
    again.body.nonceBytes = call.body.nonceBytes → ¬ server.Signed again

/-- No two acceptable requests have a nonce in common. -/
def DistinctNonces (server : IdentityServer κ σ) (calls : List (SignCall κ)) : Prop :=
  calls.Pairwise fun call again => server.Acceptable call → server.Acceptable again →
    again.body.nonceBytes ≠ call.body.nonceBytes

/--
**Replay.** A run of requests is not replayable exactly where the nonces of its
acceptable requests are distinct: the daemon keeps none of them.
-/
theorem notReplayable_iff (server : IdentityServer κ σ) (calls : List (SignCall κ)) :
    NotReplayable server calls ↔ DistinctNonces server calls := by
  unfold DistinctNonces NotReplayable
  rw [List.pairwise_iff_forall_sublist]
  constructor
  · intro h call again hOrder hCall hAgain hSame
    exact h call again hOrder (signed_iff.mpr hCall) hSame (signed_iff.mpr hAgain)
  · intro h call again hOrder hCall hSame hAgain
    exact h hOrder (signed_iff.mp hCall) (signed_iff.mp hAgain) hSame

/-- A server whose identities sign a message with itself. -/
def echoServer : IdentityServer Unit (List UInt8) where
  authToken := "token"
  signHybrid _ message := .ok message

/-- A request, at a clock of ten minutes. -/
def auditCall (nonce : String) : SignCall Unit where
  authHeader := some "token"
  nowSecs := ⟨600, by decide⟩
  identity := some ()
  body := {
    message := "00"
    opType := "audit"
    policyHash := none
    callerId := none
    nonce := nonce
    timestampSecs := ⟨600, by decide⟩ }

/-- The same nonce in upper case. -/
theorem notReplayable_fails :
    ¬ NotReplayable echoServer [auditCall "00112233445566aa", auditCall "00112233445566AA"] := by
  intro h
  have hSigned (nonce : String) (hText : (signedText (auditCall nonce).body).isSome = true) :
      echoServer.Signed (auditCall nonce) := by
    obtain ⟨text, hText⟩ := Option.isSome_iff_exists.mp hText
    have hSize : strLen "00" ≤ maxSignMessageBytes := by decide +kernel
    have hFresh : fresh ⟨600, by decide⟩ ⟨600, by decide⟩ = true := by decide
    exact signed_iff.mpr ⟨rfl, hSize, hFresh, text, hText, text, rfl⟩
  exact h (auditCall "00112233445566aa") (auditCall "00112233445566AA") (List.Sublist.refl _)
    (hSigned _ (by decide +kernel)) (by decide +kernel) (hSigned _ (by decide +kernel))

end IdentityServer

end KeroseneVault
