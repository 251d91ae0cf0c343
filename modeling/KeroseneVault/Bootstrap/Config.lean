import KeroseneVault.Cosign.SignPsbt
import KeroseneVault.Domain.Constitution
import KeroseneVault.Domain.NodeTier
import KeroseneVault.Http.Principal

/-!
# The configuration of a node

`bootstrap/config.rs`: a node reads its environment and refuses to start on a
configuration that is not allowed. Which checks there are depends on the ceremony, on
whether the node is hardened, and on the features it was compiled with.

* `BootIo` — the environment, files, devices and the directory of the mesh;
* `VaultConfig` — the configuration, as far as it can be refused or is used at boot;
* `VaultConfig.validateHygiene` and its parts — the checks, in their order;
* `VaultConfig.fromEnv` — the configuration of an environment.

Main results:

* `andThen_ok_iff`, `refuse_ok_iff`, `onlyIf_ok_iff` — checks are accepted where none refuses;
* `fromEnv_ok` — what an environment that is accepted was read as.
-/

namespace KeroseneVault

namespace Bootstrap

/-! ## The environment -/

/-- A variable that is set: a text, or bytes that are none. -/
inductive EnvValue where
  | text (s : String)
  | bytes
  deriving DecidableEq

/-- What a node finds at its start. A path is the list of its components, an error of a
file its text. -/
structure BootIo where
  env : String → Option EnvValue
  present : List String → Bool
  readToString : String → Except String String
  /-- `discover_vault_peers_from_node` -/
  discover : Bool → Except DomainError (List (String × String))

namespace BootIo

variable (io : BootIo)

/-- `std::env::var`. -/
def var (name : String) : Option String :=
  match io.env name with
  | some (.text s) => some s
  | _ => none

/-- Whether `std::env::var_os` finds it. -/
def varOs (name : String) : Bool := (io.env name).isSome

def envFlag (name : String) : Bool :=
  match io.var name with
  | some v => ["1", "true", "TRUE", "yes", "YES"].contains v
  | none => false

def envNonemptyFirst (names : List String) : Option String :=
  (names.filterMap io.var).find? (· ≠ "")

end BootIo

/-- The features of the build. -/
structure Features where
  production : Bool
  teeHw : Bool
  dealerLab : Bool
  deriving DecidableEq

/-! ## Keywords -/

/-- `raw.trim().to_ascii_lowercase()`. -/
def keyword (raw : String) : String := toAsciiLowercase (strTrim raw)

/-- `parse` of an enumeration: the value of a name, in any case and with blanks around. -/
def parseKeyword {α : Type} (names : List (String × α)) (raw : String) : Option α :=
  names.lookup (keyword raw)

/-- `CeremonyMode`. -/
inductive CeremonyMode where
  | lab
  | staging
  | production
  deriving DecidableEq

def CeremonyMode.parse : String → Option CeremonyMode :=
  parseKeyword [("lab", .lab), ("staging", .staging), ("production", .production),
    ("prod", .production)]

def parseAuthMode : String → Option AuthMode :=
  parseKeyword [("static", .staticToken), ("token", .staticToken), ("static_token", .staticToken),
    ("mtls", .mutualTls), ("mutual_tls", .mutualTls)]

/-- `ShareStoreMode`. -/
inductive ShareStoreMode where
  | aeadDisk
  | teeSeal
  deriving DecidableEq

def ShareStoreMode.parse : String → Option ShareStoreMode :=
  parseKeyword [("aead", .aeadDisk), ("disk", .aeadDisk), ("aead_disk", .aeadDisk),
    ("tee", .teeSeal), ("tee_seal", .teeSeal)]

/-- `DkgMode`. -/
inductive DkgMode where
  | dealerLab
  | distributed
  | distributedWire
  deriving DecidableEq

def DkgMode.parse : String → Option DkgMode :=
  parseKeyword [("dealer", .dealerLab), ("dealer_lab", .dealerLab), ("distributed", .distributed),
    ("dkg_distributed", .distributed), ("distributed_wire", .distributedWire),
    ("wire", .distributedWire), ("over_wire", .distributedWire)]

/-- `AttestationMode`. -/
inductive AttestationMode where
  | sim
  | software
  | sev
  | sgx
  deriving DecidableEq

namespace AttestationMode

def parse : String → Option AttestationMode :=
  parseKeyword [("sim", .sim), ("simulation", .sim), ("software", .software), ("sw", .software),
    ("measurement", .software), ("sev", .sev), ("sev-snp", .sev), ("sev_snp", .sev), ("sgx", .sgx)]

def isLabOnly (mode : AttestationMode) : Bool := mode == .sim

def isTee (mode : AttestationMode) : Bool := mode == .sev || mode == .sgx

end AttestationMode

/-- `VaultNodeTier::parse`. -/
def parseTier : String → Option VaultNodeTier :=
  parseKeyword [("domestic", .domestic), ("home", .domestic), ("tpm", .domestic), ("sgx", .sgx),
    ("sev", .sev), ("sev-snp", .sev), ("sev_snp", .sev)]

/-- `VaultNodeTier::is_tee`. -/
def isTeeTier (tier : VaultNodeTier) : Bool := tier == .sev || tier == .sgx

def parseBitcoinNetwork : String → Option BitcoinNetwork :=
  parseKeyword [("testnet3", .testnet3), ("testnet", .testnet3), ("test", .testnet3),
    ("mainnet", .mainnet), ("bitcoin", .mainnet), ("main", .mainnet)]

/-- `ResharePolicy::parse` of a policy that is known; which one it is, is used elsewhere. -/
def parseResharePolicy : String → Option Unit :=
  parseKeyword [("daily", ()), ("auto", ()), ("manual", ()), ("on_demand", ()), ("ondemand", ())]

/-- `MinerPayoutCadence::parse`. -/
def parseCadence : String → Option MinerPayoutCadence :=
  parseKeyword [("manual", .manual), ("daily", .daily), ("weekly", .weekly), ("epoch", .epoch)]

/-- `VaultTransport`. -/
inductive VaultTransport where
  | clearnet
  | tor
  deriving DecidableEq

def VaultTransport.parse : String → Option VaultTransport :=
  parseKeyword [("clearnet", .clearnet), ("lan", .clearnet), ("direct", .clearnet), ("tor", .tor),
    ("onion", .tor), ("socks", .tor)]

/-- `TlsPeerVerifyPolicy`. -/
inductive TlsPeerVerifyPolicy where
  | hostname
  | spiffe (allowed : List String)
  | onionOrSpiffe (allowed : List String)
  deriving DecidableEq

/-- `TlsPeerVerifyPolicy::parse`; a policy of identities needs one at least. -/
def TlsPeerVerifyPolicy.parse (raw : String) (allowed : List String) :
    Option TlsPeerVerifyPolicy :=
  let names := if allowed = [] then [] else
    [("spiffe", TlsPeerVerifyPolicy.spiffe allowed), ("onion_or_spiffe", .onionOrSpiffe allowed),
      ("onion+spiffe", .onionOrSpiffe allowed), ("tor", .onionOrSpiffe allowed)]
  parseKeyword (names ++ [("hostname", .hostname), ("dns", .hostname), ("webpki", .hostname)]) raw

/-! ## Lists in variables -/

/-- The entries of a list with commas, without blanks around them. -/
def commaParts (raw : String) : List String :=
  ((raw.toList.splitOn ',').map fun part => strTrim (String.ofList part)).filter (· ≠ "")

/-- `str::split_once`. -/
def splitOnce (c : Char) (s : String) : Option (String × String) :=
  match s.toList.span (· ≠ c) with
  | (_, []) => none
  | (left, _ :: right) => some (String.ofList left, String.ofList right)

/-- The entries `id=value` of a variable. -/
def idEntries {α : Type} (name : String) (read : String → Except DomainError α) (raw : String) :
    Except DomainError (List (String × α)) :=
  (commaParts raw).mapM fun part =>
    match splitOnce '=' part with
    | none => .error (.attestationRejected s!"bad {name} entry: {part}")
    | some (id, value) => (read value).map fun v => (strTrim id, v)

/-! ## The devices -/

/-- `detect_tee_at_paths`. -/
def detectTeeAtPaths (present : List String → Bool) (paths : List (List String)) :
    Bool × Option VaultNodeTier :=
  let found := paths.filter present
  let name (path : List String) := toAsciiLowercase (path.getLast?.getD "")
  let parent (path : List String) := toAsciiLowercase (path.dropLast.getLast?.getD "")
  if found.any fun path => strContains (name path) "sev" then (true, some .sev)
  else if found.any fun path => strContains (name path) "sgx" || name path == "isgx" ||
      parent path == "sgx" then (true, some .sgx)
  else (false, none)

/-- `detect_tee_devices`. -/
def detectTeeDevices (present : List String → Bool) : Bool × Option VaultNodeTier :=
  detectTeeAtPaths present [["dev", "sev-guest"], ["dev", "sev"], ["dev", "sgx_enclave"],
    ["dev", "sgx", "enclave"], ["dev", "isgx"]]

/-- `resolve_node_tier`. -/
def resolveNodeTier (io : BootIo) (raw : Option String) :
    Except DomainError (VaultNodeTier × Bool) :=
  let (teeAvailable, detected) := detectTeeDevices io.present
  let auto := (detected.getD .domestic, teeAvailable)
  match (raw.map strTrim).filter (· ≠ "") with
  | none => .ok auto
  | some other =>
    if other = "auto" then .ok auto
    else
      match parseTier other with
      | some tier => .ok (tier, teeAvailable)
      | none => .error (.attestationRejected s!"unknown VAULT_NODE_TIER={other}")

/-! ## Audit keys -/

/-- The last word of a line, unless the line is a comment. -/
def auditLineKey (line : List Char) : Option String :=
  let line := LineLog.trim line
  if line = [] ∨ line.head? = some '#' then none
  else
    let word := line.rtakeWhile fun c => !LineLog.isWhitespace c
    some (toAsciiLowercase (String.ofList word))

/-- `MeshAuditKeyAllowlist::from_env`. -/
def auditKeysFromEnv (io : BootIo) : Except DomainError (List String) :=
  let listed := (commaParts ((io.var "VAULT_AUDIT_PUBKEY_ALLOWLIST").getD "")).map toAsciiLowercase
  match (io.var "VAULT_AUDIT_PUBKEYS_PATH").filter (· ≠ "") with
  | none => .ok (sortDedup listed)
  | some path =>
    match io.readToString path with
    | .error e => .error (.authRejected s!"VAULT_AUDIT_PUBKEYS_PATH read {path}: {e}")
    | .ok raw =>
      .ok (sortDedup (listed ++ (LineLog.lines raw.toList).filterMap auditLineKey))

/-! ## Addresses -/

/-- `str::ends_with`. -/
def endsWith (s pat : String) : Bool := pat.toList.isSuffixOf s.toList

/-- `peer_addr_is_onion`. -/
def peerAddrIsOnion (addr : String) : Bool :=
  let s := (strTrim addr).toList
  let s := trimStartMatches "https://".toList s.length s
  let s := trimStartMatches "http://".toList s.length s
  let host := (s.takeWhile (· ≠ '/')).takeWhile (· ≠ ':')
  endsWith (String.ofList host) ".onion"

/-- `PeerHttpSettings::normalize_socks_proxy`. -/
def normalizeSocksProxy (raw : String) : String :=
  let t := strTrim raw
  if ["socks5h://", "socks5://", "socks://", "http://", "https://"].any (startsWith t) then t
  else s!"socks5h://{t}"

/-! ## The configuration -/

/-- `VaultConfig`. -/
structure VaultConfig where
  nodeId : NodeId
  nodeTier : VaultNodeTier
  teeAvailable : Bool
  attestationMode : AttestationMode
  listenAddr : String
  labRoot : String
  seedPeers : List (String × String)
  peerTiers : Table String VaultNodeTier
  peerTierQuotes : Table String String
  peerTierRequireQuote : Bool
  refuseSim : Bool
  genesisN : Option U64
  labTimelockScale : U64
  labTimelockEnvSet : Bool
  labCouncilN : U64
  labMinRebuilds : U64
  hardened : Bool
  attestationStagingStub : Bool
  ceremonyMode : CeremonyMode
  openEconomy : Bool
  minerPayoutFrequency : MinerPayoutCadence
  bitcoinNetwork : BitcoinNetwork
  authMode : AuthMode
  vaultToken : Option String
  allowManualReshare : Bool
  labAllowRawSighash : Bool
  tlsCertPath : Option String
  tlsKeyPath : Option String
  tlsClientCaPath : Option String
  tlsClientCertPath : Option String
  tlsClientKeyPath : Option String
  tlsVerifyPolicy : TlsPeerVerifyPolicy
  auditKeyAllowlist : List String
  shareStoreMode : ShareStoreMode
  sharePassphrase : Option String
  shareTpmSeal : Bool
  shareTpmStub : Bool
  shareTpmClearFallback : Bool
  measurementPinHex : Option String
  dealerRequested : Bool
  dkgMode : DkgMode
  transport : VaultTransport
  /-- `peer_http.socks_proxy` -/
  socksProxy : Option String
  clearnetPublish : Bool

/-- `if c { return Err(e) }`. -/
def refuse (c : Bool) (e : DomainError) : Outcome := if c then .error e else .ok ()

theorem refuse_ok_iff {c : Bool} {e : DomainError} : refuse c e = .ok () ↔ c = false := by
  cases c with
  | false => exact iff_of_true rfl rfl
  | true => exact iff_of_false nofun nofun

/-- The checks in `if c { … }`. -/
def onlyIf (c : Bool) (checks : Outcome) : Outcome := if c then checks else .ok ()

theorem onlyIf_ok_iff {c : Bool} {checks : Outcome} :
    onlyIf c checks = .ok () ↔ (c = true → checks = .ok ()) := by
  cases c with
  | false => exact iff_of_true rfl nofun
  | true => exact ⟨fun h _ => h, fun h => h rfl⟩

/-- Checks one after another go through where each does. -/
theorem andThen_ok_iff {x y : Outcome} :
    (x >>= fun _ => y) = .ok () ↔ x = .ok () ∧ y = .ok () := by
  rw [Results.bind_eq_ok]
  exact ⟨fun ⟨_, hx, hy⟩ => ⟨hx, hy⟩, fun ⟨hx, hy⟩ => ⟨(), hx, hy⟩⟩

namespace VaultConfig

/-- The passphrase and the root that a lab has by default. -/
def labPassphrase : String := "kerosene-vault-lab-passphrase"
def defaultLabRoot : String := "kerosene-lab-root"

/-- The token that a lab has by default. -/
def labToken : String := "kerosene-vault-lab-only"

section Checks

variable (features : Features) (io : BootIo) (c : VaultConfig)

/-- The ceremony is staging or production. -/
def outsideLab : Bool := c.ceremonyMode == .staging || c.ceremonyMode == .production

def validateAttestationPolicy : Outcome :=
  refuse (c.refuseSim && c.attestationMode.isLabOnly) .simAttestationForbidden

def validateTeeClaims : Outcome := do
  refuse (c.nodeTier == .domestic && c.attestationMode.isTee) (.attestationRejected
    "domestic tier cannot advertise ATTESTATION_MODE=sev|sgx (use software)")
  let claimsTee := isTeeTier c.nodeTier || c.attestationMode.isTee
  onlyIf (claimsTee && c.attestationStagingStub) <|
    refuse (c.ceremonyMode == .production || features.production) (.labFlagForbidden
      "ATTESTATION_STAGING_STUB cannot back a TEE claim in production")
  -- a stub answers for the device
  onlyIf (claimsTee && !c.attestationStagingStub) do
    refuse (!c.teeAvailable) (.attestationRejected <|
      "TEE claim (VAULT_NODE_TIER or ATTESTATION_MODE=sev|sgx) without HW device; use " ++
        "domestic/software or set ATTESTATION_STAGING_STUB=1 for staging only")
    refuse (features.production && !features.teeHw) (.attestationRejected
      "production TEE claim requires --features tee_hw (or run domestic/software ceremony)")

/-- A path that is given and not empty. -/
def given (path : Option String) : Bool := (path.filter (· ≠ "")).isSome

def requireMtlsPaths : Outcome :=
  refuse (!(given c.tlsCertPath && given c.tlsKeyPath && given c.tlsClientCaPath)) (.authRejected
    "mTLS requires VAULT_TLS_CERT_PATH, VAULT_TLS_KEY_PATH, and VAULT_TLS_CLIENT_CA_PATH")

def requireMtlsClientIdentity : Outcome :=
  refuse (!(given c.tlsClientCertPath && given c.tlsClientKeyPath && given c.tlsClientCaPath))
    (.authRejected <|
      "mTLS peer auth requires VAULT_TLS_CLIENT_CERT_PATH, VAULT_TLS_CLIENT_KEY_PATH, and " ++
        "VAULT_TLS_CLIENT_CA_PATH")

def validateTpmSealHygiene : Outcome := do
  refuse (c.shareTpmClearFallback && (c.hardened || c.ceremonyMode == .production ||
    features.production)) (.labFlagForbidden "VAULT_SHARE_TPM_CLEAR_FALLBACK")
  refuse (c.shareTpmClearFallback && !c.shareTpmSeal) (.shareStoreForbidden
    "VAULT_SHARE_TPM_CLEAR_FALLBACK requires VAULT_SHARE_TPM_SEAL=1")
  refuse (c.shareTpmStub && (c.outsideLab || features.production)) (.labFlagForbidden
    "VAULT_SHARE_TPM_STUB refused outside lab")
  refuse (c.shareTpmStub && c.hardened) (.labFlagForbidden "VAULT_SHARE_TPM_STUB")
  refuse (c.shareTpmStub && !c.shareTpmSeal) (.shareStoreForbidden
    "VAULT_SHARE_TPM_STUB requires VAULT_SHARE_TPM_SEAL=1")
  refuse (c.shareTpmSeal && c.shareStoreMode != .aeadDisk) (.shareStoreForbidden <|
    "VAULT_SHARE_TPM_SEAL applies only to VAULT_SHARE_STORE=aead_disk (TEE uses tee_seal; " ++
      "TPM ≠ SEV)")

/-- Every seed peer is an onion service. -/
def requireOnionPeers : Outcome :=
  match c.seedPeers.find? fun peer => !peerAddrIsOnion peer.2 with
  | some (id, addr) => .error (.attestationRejected
      s!"VAULT_TRANSPORT=tor requires onion VAULT_SEED_PEERS (peer {id}={addr})")
  | none => .ok ()

/-- What the transport over Tor requires. -/
def validateTor : Outcome := do
  refuse (c.socksProxy.getD "" == "") (.labFlagForbidden
    "VAULT_TRANSPORT=tor requires VAULT_SOCKS_PROXY (e.g. socks5h://127.0.0.1:9050)")
  c.requireOnionPeers
  refuse (c.outsideLab && c.authMode != .mutualTls) (.authRejected <|
    "VAULT_TRANSPORT=tor under staging/production requires VAULT_AUTH_MODE=mtls (static_token " ++
      "refused)")
  refuse (c.authMode == .mutualTls && c.tlsVerifyPolicy == .hostname) (.authRejected <|
    "VAULT_TRANSPORT=tor with mTLS requires VAULT_TLS_VERIFY_MODE=onion_or_spiffe|spiffe (not " ++
      "hostname-only)")

/-- What a production ceremony requires of the transport. -/
def validateProductionTransport : Outcome := do
  refuse (c.transport != .tor) (.labFlagForbidden
    "production ceremony requires VAULT_TRANSPORT=tor (private Tor mesh; not clearnet LAN)")
  refuse (c.authMode != .mutualTls) (.authRejected
    "production ceremony requires VAULT_AUTH_MODE=mtls")
  refuse c.clearnetPublish (.labFlagForbidden
    "VAULT_CLEARNET_PUBLISH refused in production ceremony (do not expose vault ports on clearnet)")
  refuse (c.seedPeers.isEmpty && c.genesisN.all fun n => decide (n.1 < 2)) (.attestationRejected <|
    "isolated production bootstrap requires explicit VAULT_GENESIS_N>=2; otherwise configure " ++
      "onion VAULT_SEED_PEERS")

def validateTransportHygiene : Outcome := do
  onlyIf (c.transport == .tor) c.validateTor
  onlyIf (c.ceremonyMode == .production) c.validateProductionTransport

/-- The address of all interfaces. -/
def bindsAll : Bool :=
  startsWith (strTrim c.listenAddr) "0.0.0.0" || startsWith (strTrim c.listenAddr) "[::]"

def validateListenBind : Outcome :=
  let protectedStagingBind :=
    c.ceremonyMode == .staging && c.authMode == .mutualTls && !c.clearnetPublish
  refuse (c.bindsAll && (c.ceremonyMode == .production || c.hardened && !protectedStagingBind))
    (.labFlagForbidden <|
      "VAULT_LISTEN_ADDR all-interface bind requires staging mTLS with no clearnet publish; " ++
        "production requires loopback/onion-only")

/-- No passphrase is given, or the one that a lab has by default. -/
def usingDefaultPassphrase : Bool := c.sharePassphrase.all (· == labPassphrase)

def validateLabPassphraseDefaults : Outcome := do
  refuse (c.usingDefaultPassphrase && c.shareStoreMode == .aeadDisk && c.ceremonyMode != .lab)
    (.shareStoreForbidden "VAULT_DATA_PASSPHRASE required outside lab (no default passphrase)")
  refuse (c.usingDefaultPassphrase && c.shareStoreMode == .aeadDisk &&
    (c.hardened || features.production)) (.shareStoreForbidden
      "default lab passphrase refused under hardened/production")

def validateLabRootHonesty : Outcome :=
  refuse (c.labRoot == defaultLabRoot && c.ceremonyMode != .lab) (.labFlagForbidden <|
    "LAB_ATTESTATION_ROOT must be set explicitly outside lab (default is deterministic lab DKG " ++
      "entropy)")

/-- What a ceremony outside the lab requires of keys and peers. -/
def validateCeremony : Outcome := do
  refuse c.dealerRequested (.dealerForbidden
    "dealer DKG refused in staging/production (ToB 2024)")
  refuse (c.dkgMode != .distributedWire) (.dealerForbidden <|
    "staging/production ceremony requires VAULT_DKG_MODE=distributed_wire (real FROST " ++
      "over-wire; not dealer or in-process sim)")
  refuse (c.authMode == .staticToken) (.authRejected
    "static token refused in staging/production; use mTLS")
  refuse (c.ceremonyMode == .production && c.auditKeyAllowlist.isEmpty &&
    !io.envFlag "VAULT_SKIP_AUDIT_KEYS_CHECK") (.authRejected <|
      "production ceremony requires mesh audit keys (VAULT_AUDIT_PUBKEY_ALLOWLIST or " ++
        "VAULT_AUDIT_PUBKEYS_PATH); audit ≠ release ≠ settlement — see docs/AUDIT_KEYS.md")
  refuse (c.shareStoreMode == .aeadDisk && isTeeTier c.nodeTier) (.teeRequired
    "TEE-tier node requires VAULT_SHARE_STORE=tee_seal (not host AEAD)")

def validateHygiene : Outcome := do
  c.validateAttestationPolicy
  refuse (c.hardened && c.attestationMode.isLabOnly) (.labFlagForbidden "ATTESTATION_MODE=sim")
  refuse (c.hardened && c.labTimelockEnvSet) (.labFlagForbidden "LAB_TIMELOCK_SCALE")
  refuse (c.ceremonyMode == .production && c.attestationStagingStub) (.labFlagForbidden
    "ATTESTATION_STAGING_STUB in production ceremony")
  refuse (features.production && c.attestationStagingStub) (.labFlagForbidden
    "ATTESTATION_STAGING_STUB refused under production feature")
  refuse (c.outsideLab && c.attestationMode.isLabOnly) (.labFlagForbidden "ATTESTATION_MODE=sim")
  c.validateTeeClaims features
  refuse (c.ceremonyMode == .production && c.attestationMode == .software &&
    c.measurementPinHex.isNone) (.attestationRejected <|
      "production ATTESTATION_MODE=software requires VAULT_MEASUREMENT_PIN (software ≠ TEE; " ++
        "pin binds measurement)")
  onlyIf c.outsideLab (c.validateCeremony io)
  onlyIf (c.authMode == .mutualTls) do
    c.requireMtlsPaths
    c.requireMtlsClientIdentity
  c.validateTpmSealHygiene features
  c.validateTransportHygiene
  c.validateListenBind
  c.validateLabPassphraseDefaults features
  c.validateLabRootHonesty

end Checks

/-! ## From the environment -/

section FromEnv

variable (features : Features) (io : BootIo)

/-- `KEROSENE_ENV`. -/
def keroseneEnv : String := (io.var "KEROSENE_ENV").getD "lab"

/-- `refuse_sim`, which is `hardened`. -/
def hardenedBy : Bool :=
  let env := toAsciiLowercase (keroseneEnv io)
  io.envFlag "KEROSENE_VAULT_REFUSE_SIM" || (features.production || env == "production") ||
    env == "staging"

/-- `VAULT_CEREMONY_MODE`, else `KEROSENE_ENV`. -/
def ceremonyRaw : String := (io.var "VAULT_CEREMONY_MODE").getD (keroseneEnv io)

/-- `LAB_TIMELOCK_SCALE`. -/
def timelockScaleOf : U64 :=
  ((io.var "LAB_TIMELOCK_SCALE").bind fun s => parseU64 s.toList).getD (toU64 0)

/-- A number, if the variable is one. -/
def numberOf (name : String) : Option U64 := (io.var name).bind fun s => parseU64 s.toList

/-- `ok_or_else`. -/
def known {α : Type} (found : Option α) (e : DomainError) : Except DomainError α :=
  match found with
  | some a => .ok a
  | none => .error e

theorem known_ok_iff {α : Type} {found : Option α} {e : DomainError} {a : α} :
    known found e = .ok a ↔ found = some a := by
  cases found with
  | none => exact iff_of_false nofun nofun
  | some b => rw [known, Except.ok.injEq, Option.some.injEq]

/-- The seeds are asked of the directory, or listed. -/
def readSeedPeers (ceremonyMode : CeremonyMode) : Except DomainError (List (String × String)) :=
  if io.varOs "VAULT_KEROSENE_NODE_URL" then io.discover (ceremonyMode == .staging)
  else idEntries "VAULT_SEED_PEERS" (fun addr => .ok (strTrim addr))
    ((io.var "VAULT_SEED_PEERS").getD "")

/-- The tiers that peers are said to have. -/
def readPeerTiers : Except DomainError (List (String × VaultNodeTier)) :=
  idEntries "VAULT_PEER_TIERS"
    (fun tier => known (parseTier tier)
      (.attestationRejected s!"unknown tier in VAULT_PEER_TIERS: {tier}"))
    ((io.var "VAULT_PEER_TIERS").getD "")

def readPeerTierQuotes : Except DomainError (List (String × String)) :=
  idEntries "VAULT_PEER_TIER_QUOTES" (fun quote => .ok (strTrim quote))
    ((io.var "VAULT_PEER_TIER_QUOTES").getD "")

/-- `ResharePolicy::from_env_or_default`, as far as it fails. -/
def readResharePolicy : Outcome :=
  match io.var "VAULT_RESHARE_POLICY" with
  | none => .ok ()
  | some raw => known (parseResharePolicy raw) (.invalidConstitution
      s!"unknown VAULT_RESHARE_POLICY={raw} (want daily|manual)")

/-- The mode of the key generation. -/
def readDkgMode : Except DomainError DkgMode :=
  match (io.var "VAULT_DKG_MODE").or (io.var "VAULT_DKG") with
  | some raw => known (DkgMode.parse raw) (.attestationRejected s!"unknown VAULT_DKG_MODE={raw}")
  | none =>
    .ok (if hardenedBy features io then .distributedWire
      else if features.dealerLab then .dealerLab else .distributed)

/-- `peer_http.socks_proxy`. -/
def readSocksProxy (transport : VaultTransport) : Option String :=
  match io.envNonemptyFirst ["VAULT_SOCKS_PROXY", "VAULT_TOR_SOCKS"] with
  | some socks => some (normalizeSocksProxy socks)
  | none => if transport = .tor then some "socks5h://127.0.0.1:9050" else none

/-- `resolve_tls_verify_policy`. -/
def resolveTlsVerifyPolicy (transport : VaultTransport) (nodeId : String)
    (seedPeers : List (String × String)) : Except DomainError TlsPeerVerifyPolicy :=
  let trust := (io.envNonemptyFirst ["VAULT_MTLS_TRUST_DOMAIN"]).getD "kerosene.lab"
  let allowed :=
    match io.envNonemptyFirst ["VAULT_TLS_PEER_SPIFFE_ID", "VAULT_MTLS_SPIFFE_VAULT"] with
    | some raw => commaParts raw
    | none => sortDedup ((nodeId :: seedPeers.map Prod.fst ++ ["server"]).map fun id =>
        s!"spiffe://{trust}/vault/{id}")
  let raw := (io.var "VAULT_TLS_VERIFY_MODE").getD
    (if transport = .tor then "onion_or_spiffe" else "hostname")
  known (TlsPeerVerifyPolicy.parse raw allowed) (.authRejected
    s!"unknown VAULT_TLS_VERIFY_MODE={raw} (or empty SPIFFE allowlist)")

/-- The default of `ATTESTATION_MODE`. -/
def attestationDefault (nodeTier : VaultNodeTier) (ceremonyMode : CeremonyMode) : String :=
  match nodeTier with
  | .domestic =>
    if ceremonyMode = .lab ∧ hardenedBy features io = false then "sim" else "software"
  | .sev => "sev"
  | .sgx => "sgx"

/-- The default of `VAULT_SHARE_STORE`. -/
def shareStoreDefault (nodeTier : VaultNodeTier) : String :=
  if isTeeTier nodeTier && hardenedBy features io then "tee_seal" else "aead_disk"

/-- `from_env`. -/
def fromEnv : Except DomainError VaultConfig := do
  let nodeId ← NodeId.new ((io.var "VAULT_NODE_ID").getD "vault-local-1")
  let tier ← resolveNodeTier io (io.var "VAULT_NODE_TIER")
  let hardened := hardenedBy features io
  let ceremonyMode ← known (CeremonyMode.parse (ceremonyRaw io)) (.attestationRejected
    s!"unknown VAULT_CEREMONY_MODE={ceremonyRaw io}")
  let modeRaw := (io.var "ATTESTATION_MODE").getD
    (attestationDefault features io tier.1 ceremonyMode)
  let attestationMode ← known (AttestationMode.parse modeRaw) (.attestationRejected
    s!"unknown ATTESTATION_MODE={modeRaw}")
  let listenDefault :=
    if ceremonyMode ≠ .lab ∨ hardened then "127.0.0.1:7701" else "0.0.0.0:7701"
  let seedPeers ← readSeedPeers io ceremonyMode
  let peerTiers ← readPeerTiers io
  let peerTierQuotes ← readPeerTierQuotes io
  let peerTierRequireQuote :=
    match io.var "VAULT_PEER_TIER_REQUIRE_QUOTE" with
    | some v => ["1", "true", "yes"].contains (toAsciiLowercase v)
    | none => ceremonyMode != .lab
  let btcRaw := (io.var "BITCOIN_NETWORK").getD "testnet3"
  let bitcoinNetwork ← known (parseBitcoinNetwork btcRaw) (.bitcoinNetworkMismatch
    s!"unknown BITCOIN_NETWORK={btcRaw}")
  let authRaw := (io.var "VAULT_AUTH_MODE").getD (if hardened then "mtls" else "static_token")
  let authMode ← known (parseAuthMode authRaw) (.authRejected
    s!"unknown VAULT_AUTH_MODE={authRaw}")
  let storeRaw := (io.var "VAULT_SHARE_STORE").getD (shareStoreDefault features io tier.1)
  let shareStoreMode ← known (ShareStoreMode.parse storeRaw) (.shareStoreForbidden
    s!"unknown VAULT_SHARE_STORE={storeRaw}")
  let dkgMode ← readDkgMode features io
  readResharePolicy io
  let transportRaw := (io.var "VAULT_TRANSPORT").getD
    (if ceremonyMode = .production then "tor" else "clearnet")
  let transport ← known (VaultTransport.parse transportRaw) (.attestationRejected
    s!"unknown VAULT_TRANSPORT={transportRaw}")
  let tlsVerifyPolicy ← resolveTlsVerifyPolicy io transport nodeId.text seedPeers
  let auditKeyAllowlist ← auditKeysFromEnv io
  let cfg : VaultConfig :=
    { nodeId, nodeTier := tier.1, teeAvailable := tier.2, attestationMode
      listenAddr := (io.var "VAULT_LISTEN_ADDR").getD listenDefault
      labRoot := (io.var "LAB_ATTESTATION_ROOT").getD defaultLabRoot
      seedPeers, peerTiers := Table.insertAll ∅ peerTiers
      peerTierQuotes := Table.insertAll ∅ peerTierQuotes
      peerTierRequireQuote, refuseSim := hardened
      genesisN := numberOf io "VAULT_GENESIS_N"
      labTimelockScale := timelockScaleOf io
      labTimelockEnvSet := io.varOs "LAB_TIMELOCK_SCALE"
      labCouncilN := (numberOf io "LAB_COUNCIL_N").getD (toU64 3)
      labMinRebuilds := (numberOf io "LAB_MIN_REBUILDS").getD (toU64 3)
      hardened, attestationStagingStub := io.envFlag "ATTESTATION_STAGING_STUB", ceremonyMode
      openEconomy := (io.var "VAULT_ECONOMY").any (["open", "OPEN", "v1_open"].contains ·)
      minerPayoutFrequency :=
        ((io.var "VAULT_MINER_PAYOUT_FREQUENCY").bind parseCadence).getD .daily
      bitcoinNetwork, authMode
      vaultToken := io.envNonemptyFirst ["VAULT_API_TOKEN", "VAULT_TOKEN"]
      allowManualReshare := io.envFlag "VAULT_ALLOW_MANUAL_RESHARE"
      labAllowRawSighash := io.envFlag "VAULT_LAB_ALLOW_RAW_SIGHASH"
      tlsCertPath := io.envNonemptyFirst ["VAULT_TLS_CERT_PATH"]
      tlsKeyPath := io.envNonemptyFirst ["VAULT_TLS_KEY_PATH"]
      tlsClientCaPath := io.envNonemptyFirst ["VAULT_TLS_CLIENT_CA_PATH"]
      tlsClientCertPath := io.envNonemptyFirst ["VAULT_TLS_CLIENT_CERT_PATH"]
      tlsClientKeyPath := io.envNonemptyFirst ["VAULT_TLS_CLIENT_KEY_PATH"]
      tlsVerifyPolicy, auditKeyAllowlist, shareStoreMode
      sharePassphrase := io.envNonemptyFirst ["VAULT_DATA_PASSPHRASE", "VAULT_SHARE_PASSPHRASE"]
      shareTpmSeal := io.envFlag "VAULT_SHARE_TPM_SEAL"
      shareTpmStub := io.envFlag "VAULT_SHARE_TPM_STUB"
      shareTpmClearFallback := io.envFlag "VAULT_SHARE_TPM_CLEAR_FALLBACK"
      measurementPinHex := io.envNonemptyFirst ["VAULT_MEASUREMENT_PIN"]
      dealerRequested := dkgMode == .dealerLab, dkgMode, transport
      socksProxy := readSocksProxy io transport
      clearnetPublish := io.envFlag "VAULT_CLEARNET_PUBLISH" }
  cfg.validateHygiene features io
  return cfg

end FromEnv

/-! ## What was read -/

/-- How a configuration that was read is related to its environment. -/
structure ReadFrom (features : Features) (io : BootIo) (c : VaultConfig) : Prop where
  hygiene : c.validateHygiene features io = .ok ()
  hardened : c.hardened = hardenedBy features io
  ceremony : CeremonyMode.parse (ceremonyRaw io) = some c.ceremonyMode
  timelockScale : c.labTimelockScale = timelockScaleOf io
  timelockEnvSet : c.labTimelockEnvSet = io.varOs "LAB_TIMELOCK_SCALE"
  rawSighash : c.labAllowRawSighash = io.envFlag "VAULT_LAB_ALLOW_RAW_SIGHASH"

/-- A configuration that an environment is accepted with has each field as the environment's
own variable says it, and passed all of the checks. -/
theorem fromEnv_ok {features : Features} {io : BootIo} {c : VaultConfig}
    (h : fromEnv features io = .ok c) : ReadFrom features io c := by
  unfold fromEnv at h
  -- each `?` of the source is fine
  obtain ⟨nodeId, -, h⟩ := Results.bind_eq_ok.mp h
  obtain ⟨tier, -, h⟩ := Results.bind_eq_ok.mp h
  obtain ⟨ceremonyMode, hCeremony, h⟩ := Results.bind_eq_ok.mp h
  obtain ⟨attestationMode, -, h⟩ := Results.bind_eq_ok.mp h
  obtain ⟨seedPeers, -, h⟩ := Results.bind_eq_ok.mp h
  obtain ⟨peerTiers, -, h⟩ := Results.bind_eq_ok.mp h
  obtain ⟨peerTierQuotes, -, h⟩ := Results.bind_eq_ok.mp h
  obtain ⟨bitcoinNetwork, -, h⟩ := Results.bind_eq_ok.mp h
  obtain ⟨authMode, -, h⟩ := Results.bind_eq_ok.mp h
  obtain ⟨shareStoreMode, -, h⟩ := Results.bind_eq_ok.mp h
  obtain ⟨dkgMode, -, h⟩ := Results.bind_eq_ok.mp h
  obtain ⟨-, -, h⟩ := Results.bind_eq_ok.mp h
  obtain ⟨transport, -, h⟩ := Results.bind_eq_ok.mp h
  obtain ⟨tlsVerifyPolicy, -, h⟩ := Results.bind_eq_ok.mp h
  obtain ⟨auditKeyAllowlist, -, h⟩ := Results.bind_eq_ok.mp h
  obtain ⟨_, hHygiene, h⟩ := Results.bind_eq_ok.mp h
  obtain rfl := Except.ok.inj h
  exact ⟨hHygiene, rfl, known_ok_iff.mp hCeremony, rfl, rfl, rfl⟩

end VaultConfig

/-! ## A node of a production ceremony -/

/-- Variables alone: no devices, no files and no directory. -/
def BootIo.ofVars (vars : List (String × String)) : BootIo where
  env name := (vars.lookup name).map .text
  present _ := false
  readToString _ := .error "No such file or directory (os error 2)"
  discover _ := .error (.attestationRejected "Node discovery failed")

/-- What a domestic node gives for a production ceremony beside the name of the environment. -/
def plainProduction : List (String × String) :=
  [("LAB_ATTESTATION_ROOT", "mesh-1"), ("VAULT_DKG_MODE", "wire"), ("VAULT_AUTH_MODE", "mtls"),
    ("VAULT_MEASUREMENT_PIN", "ab"), ("VAULT_AUDIT_PUBKEY_ALLOWLIST", "aa"),
    ("VAULT_TLS_CERT_PATH", "s.pem"), ("VAULT_TLS_KEY_PATH", "s.key"),
    ("VAULT_TLS_CLIENT_CA_PATH", "ca.pem"), ("VAULT_TLS_CLIENT_CERT_PATH", "c.pem"),
    ("VAULT_TLS_CLIENT_KEY_PATH", "c.key"), ("VAULT_DATA_PASSPHRASE", "correct horse"),
    ("VAULT_SEED_PEERS", "vault-2=peer.onion:7701")]

/-- A build without features. -/
def plainFeatures : Features := ⟨false, false, false⟩

/-- A configuration that is read and passes a test. -/
theorem exists_of_any {r : Except DomainError VaultConfig} {p : VaultConfig → Bool}
    (h : r.toOption.any p = true) : ∃ c, r = .ok c ∧ p c = true := by
  cases r with
  | error e => cases h
  | ok c => exact ⟨c, rfl, h⟩

end Bootstrap

end KeroseneVault
