import KeroseneVault.Dkg.Hub
import KeroseneVault.Http.Handlers
import KeroseneVault.Rotation.VoteMesh

/-!
# The principal of a request

A request over mTLS carries the principal of its client certificate, and the
handlers that act for a node take the node from there. The vote handler drops
the identity header and the peer hook where it has a principal. The DKG handlers
compare the sender that the body names, without the blanks around it, with the
principal, and hand the sender to the hub as it came.

* `principalFromCertSans`, `meshPrincipal` — the principal that a request carries;
* `bindDkgSenderToPeer`, `dkgRound1Impl`, `dkgRound2Impl` — the DKG handlers, up to
  the hub;
* `CallerBound` — what a caller with a certificate can choose;
* `Padded` — the sender is the principal's node with blanks around it.

Main results:

* `resolve_principal` — the headers do not matter beside a principal;
* `resolve_known` — whoever is resolved is known, and is who the body claims;
* `callerBound_iff` — the caller is bound exactly where no sender is padded.
-/

namespace KeroseneVault

/-! ## Principals -/

deriving instance DecidableEq for MeshPrincipal

/-- `AuthMode`. -/
inductive AuthMode where
  | staticToken
  | mutualTls
  deriving DecidableEq

/-- `MeshPrincipal::lab_omnipotent`. -/
def MeshPrincipal.lab (localNodeId : String) : MeshPrincipal :=
  { role := .vault, nodeId := localNodeId, labOmnipotent := true }

/-- `str::starts_with`. -/
def startsWith (s pat : String) : Bool := pat.toList.isPrefixOf s.toList

def parseSpiffePrincipal (uri : String) : Except DomainError (MeshRole × Option String) :=
  let uri := strTrim uri
  if !startsWith uri "spiffe://" then .error (.authRejected s!"not a SPIFFE URI: {uri}")
  else
    -- the trust domain, the kind of workload and its name
    let parts := (uri.toList.drop "spiffe://".length).splitOn '/'
    match String.ofList (parts.getD 1 []) with
    | "kfe" => .ok (.kfe, some "kfe")
    | "vault" =>
      let leaf := String.ofList (parts.getD 2 [])
      if leaf = "" then .error (.authRejected "SPIFFE vault path missing node segment")
      else if leaf = "server" then .ok (.vault, none)
      else .ok (.vault, some leaf)
    | _ => .error (.authRejected s!"unknown SPIFFE workload path: {uri}")

/-- The node of a vault certificate: that of its path, or of its one DNS name in the mesh. -/
def vaultNodeId (pathNode : Option String) (dnsSans : List String) (localNodeId : String)
    (allowed : List String) : Except DomainError String :=
  match pathNode with
  | some id =>
    if !allowed.contains id && id != localNodeId then
      .error (.authRejected s!"SPIFFE vault node {id} is not a known mesh node")
    else .ok id
  | none =>
    match dnsSans.filter fun d => allowed.contains d || d == localNodeId with
    | [one] => .ok one
    | [] => .error
        (.authRejected "vault/server SVID has no DNS SAN matching a known VAULT_NODE_ID")
    | _ => .error (.authRejected "vault/server SVID DNS SAN ambiguous among mesh node ids")

def principalFromCertSans (uriSans dnsSans : List String) (localNodeId : String)
    (allowed : List String) : Except DomainError MeshPrincipal :=
  match uriSans.find? fun uri => startsWith uri "spiffe://" with
  | none => .error
      (.authRejected "client cert missing SPIFFE URI SAN (required for mesh principal)")
  | some spiffe =>
    match parseSpiffePrincipal spiffe with
    | .error e => .error e
    | .ok (.kfe, pathNode) =>
      .ok { role := .kfe, nodeId := pathNode.getD "kfe", labOmnipotent := false }
    | .ok (.vault, pathNode) =>
      match vaultNodeId pathNode dnsSans localNodeId allowed with
      | .error e => .error e
      | .ok nodeId => .ok { role := .vault, nodeId, labOmnipotent := false }

/-- The names of a client certificate, or why they cannot be read. -/
abbrev CertSans := Except DomainError (List String × List String)

/-- The principal that `require_token_mw` attaches to a request. -/
def meshPrincipal (authMode : AuthMode) (localNodeId : String) (allowed : List String)
    (peerCert : Option CertSans) : Except Refusal MeshPrincipal :=
  match authMode, peerCert with
  | .staticToken, _ => .ok (.lab localNodeId)
  | .mutualTls, some (.ok (uriSans, dnsSans)) =>
    match principalFromCertSans uriSans dnsSans localNodeId allowed with
    | .error e => .error (.domain 401 e)
    | .ok p => .ok p
  | .mutualTls, some (.error e) => .error (.domain 401 e)
  | .mutualTls, none =>
    .error (.text 401 "auth rejected: mTLS client certificate required for mesh principal")

/-- A principal that is not the lab's comes of a certificate. -/
theorem mutualTls_of_verified {authMode : AuthMode} {localNodeId : String} {allowed : List String}
    {peerCert : Option CertSans} {p : MeshPrincipal}
    (hCarried : meshPrincipal authMode localNodeId allowed peerCert = .ok p)
    (hVerified : p.labOmnipotent = false) : authMode = .mutualTls := by
  cases authMode with
  | mutualTls => rfl
  | staticToken =>
    have hLab : MeshPrincipal.lab localNodeId = p := Except.ok.inj hCarried
    rw [← hLab] at hVerified
    cases hVerified

/-! ## The DKG handlers -/

def bindDkgSenderToPeer (senderNodeId : String) (principal : Option MeshPrincipal)
    (labStaticToken : Bool) : Outcome :=
  let sender := strTrim senderNodeId
  if sender = "" then .error (.authRejected "DKG sender_node_id required")
  else if labStaticToken then .ok ()
  else
    match principal with
    | none => .error
        (.authRejected "DKG ingest requires authenticated mTLS vault principal")
    | some p =>
      if p.labOmnipotent then .ok ()
      else if p.role ≠ .vault then
        .error (.authRejected "DKG peer rounds require vault role (not kfe)")
      else if p.nodeId ≠ sender then
        .error (.authRejected
          s!"DKG sender_node_id {sender} does not match TLS peer identity {p.nodeId}")
      else .ok ()

/-- `Round1Body`, with the fields of a package. -/
structure Round1Body where
  sessionId : String
  maxSigners : Option Nat
  minSigners : Option Nat
  senderNodeId : Option String
  senderIdentifier : Option Nat
  transcriptHex : Option String
  packageHex : Option String

structure Round2Body where
  sessionId : String
  deliver : Bool
  senderNodeId : Option String
  senderIdentifier : Option Nat
  recipientNodeId : Option String
  recipientIdentifier : Option Nat
  transcriptHex : Option String
  packageHex : Option String

/-- What a handler asks of the hub. -/
inductive DkgHubCall where
  | start
  | ingestRound1 (msg : Round1WireMessage)
  | takeRound2Outbound (sessionId : String)
  | ingestRound2 (msg : Round2WireMessage)

/-- `dkg_round1_impl`. A body without a package starts a session. -/
def dkgRound1Impl (authMode : AuthMode) (principal : MeshPrincipal) (req : Round1Body) :
    Except Refusal DkgHubCall :=
  match req.packageHex with
  | none => .ok .start
  | some packageHex =>
    let senderNodeId := req.senderNodeId.getD ""
    match bindDkgSenderToPeer senderNodeId (some principal) (authMode = .staticToken) with
    | .error e => .error (.domain 401 e)
    | .ok () => .ok (.ingestRound1
        { sessionId := req.sessionId
          senderNodeId
          senderIdentifier := req.senderIdentifier.getD 0
          maxSigners := req.maxSigners.getD 0
          minSigners := req.minSigners.getD 0
          transcriptHex := req.transcriptHex.getD ""
          packageHex
          envelope := none })

/-- `dkg_round2_impl`. -/
def dkgRound2Impl (authMode : AuthMode) (principal : MeshPrincipal) (req : Round2Body) :
    Except Refusal DkgHubCall :=
  if req.deliver then .ok (.takeRound2Outbound req.sessionId)
  else
    match req.packageHex with
    | none => .error (.text 400 "round2 requires package_hex (ingest) or deliver=true")
    | some packageHex =>
      let senderNodeId := req.senderNodeId.getD ""
      match bindDkgSenderToPeer senderNodeId (some principal) (authMode = .staticToken) with
      | .error e => .error (.domain 401 e)
      | .ok () => .ok (.ingestRound2
          { sessionId := req.sessionId
            senderNodeId
            senderIdentifier := req.senderIdentifier.getD 0
            recipientNodeId := req.recipientNodeId.getD ""
            recipientIdentifier := req.recipientIdentifier.getD 0
            transcriptHex := req.transcriptHex.getD ""
            packageHex
            envelope := none })

/-- A sender is let through where it is the principal's node up to blanks. -/
theorem bindDkgSenderToPeer_ok_iff {sender : String} {p : MeshPrincipal}
    (hVerified : p.labOmnipotent = false) :
    bindDkgSenderToPeer sender (some p) false = .ok () ↔
      strTrim sender ≠ "" ∧ p.role = .vault ∧ p.nodeId = strTrim sender := by
  unfold bindDkgSenderToPeer
  dsimp only
  rw [hVerified]
  by_cases hEmpty : strTrim sender = ""
  · simp [hEmpty]
  by_cases hRole : p.role = .vault
  · by_cases hNode : p.nodeId = strTrim sender
    · simp [hEmpty, hRole, hNode]
    · simp [hEmpty, hRole, hNode]
  · simp [hEmpty, hRole]

/-! ## Who is resolved -/

section Resolve

variable {localNodeId id : String} {allowed : List String} {header claimed hook : Option String}
  {p : MeshPrincipal}

/-- Beside a principal, only the claim of the body is read. -/
theorem resolve_principal (hVerified : p.labOmnipotent = false) :
    resolveMeshCallerIdentityWithPrincipal localNodeId allowed header claimed hook (some p) =
      resolveMeshCallerIdentityWithPrincipal localNodeId allowed none claimed none (some p) := by
  have hFilter : (some p).filter (fun p => !p.labOmnipotent) = some p := by simp [hVerified]
  unfold resolveMeshCallerIdentityWithPrincipal
  rw [hFilter]

/-- A principal is resolved to itself. -/
theorem resolve_principal_ok (hVerified : p.labOmnipotent = false)
    (h : resolveMeshCallerIdentityWithPrincipal localNodeId allowed header claimed hook (some p) =
      .ok id) : id = p.nodeId := by
  have hFilter : (some p).filter (fun p => !p.labOmnipotent) = some p := by simp [hVerified]
  unfold resolveMeshCallerIdentityWithPrincipal at h
  rw [hFilter] at h
  dsimp only at h
  split at h
  · cases h
  rename_i identity hIdentity
  -- a claim of another node is refused, and no claim leaves the principal's
  split at hIdentity
  · cases hIdentity
  split at hIdentity
  · cases hIdentity
  obtain rfl := Except.ok.inj hIdentity
  split at h
  · split at h
    · cases h
    · exact (Except.ok.inj h).symm
  · exact (Except.ok.inj h).symm

/-- Whoever is resolved is the local node or among the allowed. -/
theorem resolve_known {principal : Option MeshPrincipal}
    (h : resolveMeshCallerIdentityWithPrincipal localNodeId allowed header claimed hook principal =
      .ok id) : id ∈ allowed ∨ id = localNodeId := by
  -- a name that passes the check of the mesh's nodes
  have hKnown (name : String) (hName : ¬ (!(allowed.contains name || name == localNodeId)) = true) :
      name ∈ allowed ∨ name = localNodeId := by
    simpa [or_iff_not_imp_left] using hName
  unfold resolveMeshCallerIdentityWithPrincipal at h
  dsimp only at h
  split at h
  · cases h
  rename_i identity hIdentity
  have hIdentityKnown : identity ∈ allowed ∨ identity = localNodeId := by
    split at hIdentity
    · split at hIdentity
      · cases hIdentity
      split at hIdentity
      · cases hIdentity
      · rename_i hCheck
        obtain rfl := Except.ok.inj hIdentity
        exact hKnown _ hCheck
    · split at hIdentity
      · split at hIdentity
        · cases hIdentity
        · rename_i hCheck
          obtain rfl := Except.ok.inj hIdentity
          exact hKnown _ hCheck
      · split at hIdentity
        · split at hIdentity
          · cases hIdentity
          · rename_i hCheck
            obtain rfl := Except.ok.inj hIdentity
            exact hKnown _ hCheck
        · exact .inr (Except.ok.inj hIdentity).symm
  have hSame : id = identity := by
    split at h
    · split at h
      · cases h
      · exact (Except.ok.inj h).symm
    · exact (Except.ok.inj h).symm
  rw [hSame]
  exact hIdentityKnown

end Resolve

/-! ## What a caller can choose -/

/-- Neither the headers nor the body of a caller with a principal choose who it is. -/
structure CallerBound (authMode : AuthMode) (localNodeId : String) (allowed : List String)
    (p : MeshPrincipal) (round1 : Round1Body) (round2 : Round2Body) : Prop where
  /-- The headers do not matter to what is resolved. -/
  headers : ∀ claimed header hook header' hook',
    resolveMeshCallerIdentityWithPrincipal localNodeId allowed header claimed hook (some p) =
      resolveMeshCallerIdentityWithPrincipal localNodeId allowed header' claimed hook' (some p)
  own : ∀ claimed header hook id,
    resolveMeshCallerIdentityWithPrincipal localNodeId allowed header claimed hook (some p) =
      .ok id → id = p.nodeId ∧ (id ∈ allowed ∨ id = localNodeId)
  round1 : ∀ msg, dkgRound1Impl authMode p round1 = .ok (.ingestRound1 msg) →
    msg.senderNodeId = p.nodeId
  round2 : ∀ msg, dkgRound2Impl authMode p round2 = .ok (.ingestRound2 msg) →
    msg.senderNodeId = p.nodeId
  /-- With a principal or without, who is resolved is known, and who the body claims. -/
  known : ∀ claimed header hook principal id,
    resolveMeshCallerIdentityWithPrincipal localNodeId allowed header claimed hook principal =
      .ok id → (id ∈ allowed ∨ id = localNodeId) ∧ ∀ raw ∈ nonBlank claimed, raw = id

/-- The sender of a package is the vault's own node with blanks around it. -/
def Padded (p : MeshPrincipal) (packageHex senderNodeId : Option String) : Prop :=
  packageHex ≠ none ∧ p.role = .vault ∧ p.nodeId ≠ "" ∧
    strTrim (senderNodeId.getD "") = p.nodeId ∧ senderNodeId.getD "" ≠ p.nodeId

section Bound

variable {p : MeshPrincipal} {sender packageHex : Option String}

/-- A sender is let through as another than the principal's node where it is padded. -/
theorem bindDkgSender_bound_iff (hVerified : p.labOmnipotent = false)
    (hPackage : packageHex ≠ none) :
    (bindDkgSenderToPeer (sender.getD "") (some p) false = .ok () → sender.getD "" = p.nodeId) ↔
      ¬ Padded p packageHex sender := by
  rw [bindDkgSenderToPeer_ok_iff hVerified]
  constructor
  · rintro hBound ⟨-, hRole, hNode, hTrim, hPadded⟩
    exact hPadded (hBound ⟨hTrim ▸ hNode, hRole, hTrim.symm⟩)
  · rintro hPlain ⟨hSome, hRole, hNode⟩
    by_contra hPadded
    exact hPlain ⟨hPackage, hRole, hNode ▸ hSome, hNode.symm, hPadded⟩

/-- A package of round 1 reaches the hub under the principal exactly where it is not padded. -/
theorem round1_bound_iff (hVerified : p.labOmnipotent = false) (req : Round1Body) :
    (∀ msg, dkgRound1Impl .mutualTls p req = .ok (.ingestRound1 msg) → msg.senderNodeId = p.nodeId) ↔
      ¬ Padded p req.packageHex req.senderNodeId := by
  unfold dkgRound1Impl
  cases hPackage : req.packageHex with
  | none => exact iff_of_true nofun fun h => h.1 rfl
  | some packageHex =>
    have hFlag : decide (AuthMode.mutualTls = .staticToken) = false := rfl
    rw [← bindDkgSender_bound_iff hVerified (Option.some_ne_none packageHex)]
    dsimp only
    rw [hFlag]
    cases bindDkgSenderToPeer (req.senderNodeId.getD "") (some p) false with
    | error e => exact iff_of_true nofun nofun
    | ok u =>
      refine ⟨fun hBound _ => hBound _ rfl, fun hBound msg hMsg => ?_⟩
      obtain rfl := DkgHubCall.ingestRound1.inj (Except.ok.inj hMsg)
      exact hBound rfl

/-- A package of round 2. -/
theorem round2_bound_iff (hVerified : p.labOmnipotent = false) (req : Round2Body) :
    (∀ msg, dkgRound2Impl .mutualTls p req = .ok (.ingestRound2 msg) → msg.senderNodeId = p.nodeId) ↔
      (req.deliver = false → ¬ Padded p req.packageHex req.senderNodeId) := by
  unfold dkgRound2Impl
  cases req.deliver with
  | true => exact iff_of_true nofun nofun
  | false =>
    rw [if_neg Bool.false_ne_true, forall_prop_of_true rfl]
    cases hPackage : req.packageHex with
    | none => exact iff_of_true nofun fun h => h.1 rfl
    | some packageHex =>
      have hFlag : decide (AuthMode.mutualTls = .staticToken) = false := rfl
      -- a message with a package is handed on just where its sender is compared and bound
      rw [← bindDkgSender_bound_iff hVerified (Option.some_ne_none packageHex)]
      dsimp only
      rw [hFlag]
      cases bindDkgSenderToPeer (req.senderNodeId.getD "") (some p) false with
      | error e => exact iff_of_true nofun nofun
      | ok u =>
        refine ⟨fun hBound _ => hBound _ rfl, fun hBound msg hMsg => ?_⟩
        obtain rfl := DkgHubCall.ingestRound2.inj (Except.ok.inj hMsg)
        exact hBound rfl

end Bound

/--
**Who a caller is.** A request with the principal of a certificate is bound to
it, whatever its headers, exactly where no package that it submits names the
principal's node with blanks around it.
-/
theorem callerBound_iff (authMode : AuthMode) (localNodeId : String) (allowed : List String)
    (peerCert : Option CertSans) (p : MeshPrincipal) (round1 : Round1Body) (round2 : Round2Body)
    (hCarried : meshPrincipal authMode localNodeId allowed peerCert = .ok p)
    (hVerified : p.labOmnipotent = false) :
    CallerBound authMode localNodeId allowed p round1 round2 ↔
      ¬ Padded p round1.packageHex round1.senderNodeId ∧
        (round2.deliver = false → ¬ Padded p round2.packageHex round2.senderNodeId) := by
  obtain rfl := mutualTls_of_verified hCarried hVerified
  rw [← round1_bound_iff hVerified round1, ← round2_bound_iff hVerified round2]
  refine ⟨fun h => ⟨h.round1, h.round2⟩, fun ⟨hRound1, hRound2⟩ => ?_⟩
  refine ⟨fun claimed header hook header' hook' => ?_, fun claimed header hook id hOk => ?_,
    hRound1, hRound2, fun claimed header hook principal id hOk => ⟨resolve_known hOk, ?_⟩⟩
  · exact (resolve_principal hVerified).trans (resolve_principal hVerified).symm
  · exact ⟨resolve_principal_ok hVerified hOk, resolve_known hOk⟩
  · intro raw hClaimed
    exact (resolve_of_claimed hClaimed hOk).symm

/-- The certificate of `vault-2`. -/
def vault2Cert : CertSans := .ok (["spiffe://kerosene.lab/vault/vault-2"], [])

/-- A package under the name of a sender. -/
def packageFrom (sender : String) : Round1Body :=
  { sessionId := "s1", maxSigners := none, minSigners := none, senderNodeId := some sender,
    senderIdentifier := none, transcriptHex := none, packageHex := some "00" }

def round2PackageFrom (sender : String) : Round2Body :=
  { sessionId := "s1", deliver := false, senderNodeId := some sender, senderIdentifier := none,
    recipientNodeId := none, recipientIdentifier := none, transcriptHex := none,
    packageHex := some "00" }

theorem callerBound_vault2 : CallerBound .mutualTls "vault-1" ["vault-1", "vault-2"]
    ⟨.vault, "vault-2", false⟩ (packageFrom "vault-2") (round2PackageFrom "vault-2") :=
  (callerBound_iff .mutualTls "vault-1" ["vault-1", "vault-2"] (some vault2Cert)
    ⟨.vault, "vault-2", false⟩ (packageFrom "vault-2") (round2PackageFrom "vault-2")
    (by decide +kernel) rfl).mpr
    ⟨fun h => h.2.2.2.2 rfl, fun _ h => h.2.2.2.2 rfl⟩

/-- What the hub is asked where the name has a blank before it. -/
def paddedMessage : Round1WireMessage where
  sessionId := "s1"
  senderNodeId := " vault-2"
  senderIdentifier := 0
  maxSigners := 0
  minSigners := 0
  transcriptHex := ""
  packageHex := "00"
  envelope := none

/-- A blank before the name goes to the hub. -/
theorem callerBound_fails :
    meshPrincipal .mutualTls "vault-1" ["vault-1", "vault-2"] (some vault2Cert) =
      .ok ⟨.vault, "vault-2", false⟩ ∧
    ¬ CallerBound .mutualTls "vault-1" ["vault-1", "vault-2"] ⟨.vault, "vault-2", false⟩
      (packageFrom " vault-2") (round2PackageFrom "vault-2") := by
  refine ⟨by decide +kernel, fun h => ?_⟩
  have hBound : bindDkgSenderToPeer " vault-2" (some ⟨.vault, "vault-2", false⟩) false = .ok () :=
    (bindDkgSenderToPeer_ok_iff rfl).mpr (by decide +kernel)
  have hHub : dkgRound1Impl .mutualTls ⟨.vault, "vault-2", false⟩ (packageFrom " vault-2") =
      .ok (.ingestRound1 paddedMessage) := by
    unfold dkgRound1Impl packageFrom
    show (match bindDkgSenderToPeer " vault-2" (some ⟨.vault, "vault-2", false⟩) false with
      | .error e => (Except.error (.domain 401 e) : Except Refusal DkgHubCall)
      | .ok () => .ok (.ingestRound1 paddedMessage)) = _
    rw [hBound]
  exact absurd (h.round1 paddedMessage hHub) (by decide)

end KeroseneVault
