import KeroseneVault.Bootstrap.Config
import KeroseneVault.Release.Candidate

/-!
# What is open in a lab

`bootstrap/config.rs`, `bootstrap/wiring.rs`, `adapters/http.rs`: a lab has endpoints that
propose what was tampered with, releases that do not wait, a token and a passphrase that
everybody knows, and signatures on bare digests. Each is shut by a check of its own, some
by the ceremony, some by whether the node is hardened, which is another question: the one
is answered by a keyword, the other by a text that has to match as it is.

* `VaultConfig.releasePolicy`, `wireAuth`, `wireShareStore`, `rawSighashGate` — what the
  configuration is turned into;
* `Soft` — the environment does not harden the node;
* `Doors` — which doors are open, by the environment.

Main results:

* `doors_of_fromEnv` — in every environment that is accepted;
* `soft_outside_lab_iff` — where one variable names the environment, a ceremony outside the
  lab is left soft exactly where the name is abbreviated or has blanks around.
-/

namespace KeroseneVault

namespace Bootstrap

/-! ## What the configuration is turned into -/

/-- The auth adapter, and what its token may do. -/
inductive WiredAuth where
  | staticToken (expected : String) (treasurySigning reshareTrigger : Bool)
  | mutualTls (reshareTrigger : Bool)
  deriving DecidableEq

/-- `authorize_treasury_sign`. -/
def WiredAuth.authorizeTreasurySign : WiredAuth → Outcome
  | .staticToken _ treasurySigning _ => refuse (!treasurySigning) (.authRejected
      "static lab token cannot authorize treasury signing outside lab; use mTLS")
  | .mutualTls _ => .ok ()

/-- The share store. -/
inductive WiredStore where
  | aead (passphrase : String)
  | aeadTpm (clearPassphrase : Option String) (stub clearFallback : Bool)
  | teeStub (passphrase : String)
  | teeHw
  | teeFailClosed
  deriving DecidableEq

/-- The passphrase of the configuration that shares are sealed under. -/
def WiredStore.passphrase : WiredStore → Option String
  | .aead passphrase => some passphrase
  | .aeadTpm clearPassphrase _ _ => clearPassphrase
  | .teeStub passphrase => some passphrase
  | .teeHw => none
  | .teeFailClosed => none

namespace VaultConfig

variable (features : Features) (c : VaultConfig)

/-- `lab_endpoints_enabled`. -/
def labEndpointsEnabled : Bool := !c.hardened

/-- `effective_lab_timelock_scale`. -/
def effectiveLabTimelockScale : U64 := if c.hardened then toU64 1 else c.labTimelockScale

/-- The release policy that is wired for `n` nodes. -/
def releasePolicy (n : Nat) : ReleasePolicy where
  councilN := toU64 (max c.labCouncilN.1 2)
  minRebuilds := toU64 (max c.labMinRebuilds.1 1)
  vaultN := toU64 n
  timelockSecs := toU64 (14 * 24 * 3600)
  labTimelockScale := c.effectiveLabTimelockScale

/-- `effective_vault_token`. -/
def effectiveVaultToken : Option String :=
  c.vaultToken.or (if c.ceremonyMode = .lab ∧ c.hardened = false then some labToken else none)

/-- `effective_share_passphrase`. -/
def effectiveSharePassphrase : Option String :=
  c.sharePassphrase.or
    (if c.ceremonyMode = .lab ∧ c.hardened = false then some labPassphrase else none)

def wireAuth : Except DomainError WiredAuth :=
  let lab := c.ceremonyMode == .lab
  match c.authMode with
  | .staticToken =>
    (known c.effectiveVaultToken (.authRejected
      "VAULT_API_TOKEN (or VAULT_TOKEN) required for static auth")).map fun token =>
        .staticToken token lab (lab || c.allowManualReshare)
  | .mutualTls => .ok (.mutualTls (lab || c.allowManualReshare))

def wireShareStore : Except DomainError WiredStore :=
  match c.shareStoreMode with
  | .aeadDisk =>
    if c.shareTpmSeal then do
      -- a clear fallback is not refused here, but by the checks before
      refuse (c.shareTpmStub && (c.hardened || c.ceremonyMode != .lab || features.production))
        (.labFlagForbidden "VAULT_SHARE_TPM_STUB")
      return .aeadTpm c.effectiveSharePassphrase c.shareTpmStub c.shareTpmClearFallback
    else
      (known c.effectiveSharePassphrase (.shareStoreForbidden
        "VAULT_DATA_PASSPHRASE required outside lab (no default passphrase)")).map .aead
  | .teeSeal =>
    if !features.production && c.attestationStagingStub && c.ceremonyMode != .production then
      (known c.effectiveSharePassphrase (.shareStoreForbidden
        "VAULT_DATA_PASSPHRASE required for tee staging stub outside lab")).map .teeStub
    else if features.teeHw && c.attestationMode.isTee then .ok .teeHw
    else .ok .teeFailClosed

/-- What stands before a signature on a bare digest, up to its body. -/
def rawSighashGate (auth : WiredAuth) : Except Refusal Unit :=
  match auth.authorizeTreasurySign with
  | .error e => .error (.domain 401 e)
  | .ok () =>
    if c.ceremonyMode ≠ .lab then
      .error (.text 403
        "raw sighash signing refused outside lab; use Intent-bound /v1/bitcoin/sign-psbt")
    else if c.labAllowRawSighash = false then
      .error (.text 403 ("raw sighash signing requires VAULT_LAB_ALLOW_RAW_SIGHASH=1; " ++
        "prefer Intent-bound /v1/bitcoin/sign-psbt"))
    else .ok ()

/-- Whether the shares of a node may be refreshed in one process. -/
def allowInProcessReshare : Bool :=
  c.dkgMode == .dealerLab && c.ceremonyMode == .lab && !c.hardened

end VaultConfig

/-! ## Doors -/

/-- Nothing in the build or in the environment hardens the node. -/
structure Soft (features : Features) (io : BootIo) : Prop where
  build : features.production = false
  flag : io.envFlag "KEROSENE_VAULT_REFUSE_SIM" = false
  notProduction : toAsciiLowercase (VaultConfig.keroseneEnv io) ≠ "production"
  notStaging : toAsciiLowercase (VaultConfig.keroseneEnv io) ≠ "staging"

/-- A lab that is not hardened. -/
structure SoftLab (features : Features) (io : BootIo) (c : VaultConfig) : Prop
    extends Soft features io where
  lab : c.ceremonyMode = .lab

/-- Which doors are open. -/
structure Doors (features : Features) (io : BootIo) (c : VaultConfig) : Prop where
  /-- Proposals of what was tampered with are taken. -/
  endpoints : c.labEndpointsEnabled = true ↔ Soft features io
  /-- Releases wait otherwise than for fourteen days. -/
  timelock : ∀ n, (c.releasePolicy n).effectiveTimelockSecs ≠ 14 * 24 * 3600 ↔
    Soft features io ∧ (VaultConfig.timelockScaleOf io).1 ≠ 1
  /-- Quotes are simulated. -/
  simulated : c.attestationMode = .sim → SoftLab features io c
  /-- Keys are dealt, or generated in one process. -/
  inProcess : c.dkgMode ≠ .distributedWire → c.ceremonyMode = .lab
  reshare : c.allowInProcessReshare = true → SoftLab features io c
  /-- A token is a lab's, and it is the shared one only where no other is given. -/
  token : ∀ expected treasurySigning reshareTrigger,
    c.wireAuth = .ok (.staticToken expected treasurySigning reshareTrigger) →
      c.ceremonyMode = .lab ∧ (c.vaultToken = some expected ∨
        c.vaultToken = none ∧ expected = VaultConfig.labToken ∧ SoftLab features io c)
  /-- Bare digests are signed. -/
  rawSighash : ∀ auth, c.wireAuth = .ok auth → (c.rawSighashGate auth = .ok () ↔
    c.ceremonyMode = .lab ∧ io.envFlag "VAULT_LAB_ALLOW_RAW_SIGHASH" = true)
  /-- Shares are sealed under the passphrase of every lab. -/
  passphrase : ∀ store, c.wireShareStore features = .ok store →
    store.passphrase = some VaultConfig.labPassphrase → SoftLab features io c ∨
      c.shareStoreMode = .teeSeal ∧ c.attestationStagingStub = true ∧
        c.ceremonyMode ≠ .production ∧ features.production = false ∧
        c.sharePassphrase = some VaultConfig.labPassphrase
  /-- The passphrase stands in for a seal of the TPM. -/
  clearFallback : ∀ clearPassphrase stub,
    c.wireShareStore features = .ok (.aeadTpm clearPassphrase stub true) →
      Soft features io ∧ c.ceremonyMode ≠ .production
  tpmStub : ∀ clearPassphrase clearFallback,
    c.wireShareStore features = .ok (.aeadTpm clearPassphrase true clearFallback) →
      SoftLab features io c

/-! ## What hardens a node -/

section Proof

variable {features : Features} {io : BootIo} {c : VaultConfig}

open VaultConfig

theorem hardenedBy_eq_false_iff : hardenedBy features io = false ↔ Soft features io := by
  unfold hardenedBy
  simp only [Bool.or_eq_false_iff, beq_eq_false_iff_ne]
  constructor
  · rintro ⟨⟨hFlag, hBuild, hProduction⟩, hStaging⟩
    exact ⟨hBuild, hFlag, hProduction, hStaging⟩
  · intro h
    exact ⟨⟨h.flag, h.build, h.notProduction⟩, h.notStaging⟩

theorem outsideLab_eq_false_iff : c.outsideLab = false ↔ c.ceremonyMode = .lab := by
  unfold outsideLab
  cases c.ceremonyMode with
  | lab => exact iff_of_true rfl rfl
  | staging => exact iff_of_false nofun nofun
  | production => exact iff_of_false nofun nofun

/-- What the checks leave of the doors. -/
structure Accepted (features : Features) (c : VaultConfig) : Prop where
  sim : c.attestationMode = .sim → c.hardened = false ∧ c.ceremonyMode = .lab
  outside : c.ceremonyMode ≠ .lab →
    c.dkgMode = .distributedWire ∧ c.dealerRequested = false ∧ c.authMode = .mutualTls
  default : c.usingDefaultPassphrase = true → c.shareStoreMode = .aeadDisk →
    c.ceremonyMode = .lab ∧ c.hardened = false
  clear : c.shareTpmClearFallback = true → c.hardened = false ∧ c.ceremonyMode ≠ .production
  stub : c.shareTpmStub = true → c.hardened = false ∧ c.ceremonyMode = .lab

/-- What the checks leave of an accepted configuration, door by door: who may simulate, whose
passphrase may be the default, and where a clear fallback or a stub may be set. -/
theorem accepted_of_hygiene (h : c.validateHygiene features io = .ok ()) :
    Accepted features c := by
  unfold validateHygiene validateCeremony validateTpmSealHygiene
    validateLabPassphraseDefaults at h
  simp only [andThen_ok_iff, refuse_ok_iff, onlyIf_ok_iff] at h
  obtain ⟨-, hSim, -, -, -, hSim', -, -, hCeremony, -, ⟨hClear, -, hStub, hStub', -, -⟩, -, -,
    ⟨hDefault, hDefault'⟩, -⟩ := h
  have hLab (hNot : c.outsideLab = false) : c.ceremonyMode = .lab := outsideLab_eq_false_iff.mp hNot
  -- each field from the one check that asks for it
  constructor
  case sim =>
    intro hMode
    rw [hMode] at hSim hSim'
    exact ⟨by simpa [AttestationMode.isLabOnly] using hSim,
      hLab (by simpa [AttestationMode.isLabOnly] using hSim')⟩
  case outside =>
    intro hNot
    have hOutside : c.outsideLab = true := by
      rw [← Bool.not_eq_false]
      exact mt outsideLab_eq_false_iff.mp hNot
    obtain ⟨hDealer, hWire, hAuth, -⟩ := hCeremony hOutside
    refine ⟨bne_eq_false_iff_eq.mp hWire, hDealer, ?_⟩
    cases hMode : c.authMode with
    | staticToken =>
      rw [hMode] at hAuth
      cases hAuth
    | mutualTls => rfl
  case default =>
    intro hUsing hAead
    rw [hUsing, hAead] at hDefault hDefault'
    exact ⟨by simpa using hDefault, (by simpa using hDefault' : _ ∧ _).1⟩
  case clear =>
    intro hSet
    rw [hSet] at hClear
    simp only [Bool.true_and, Bool.or_eq_false_iff, beq_eq_false_iff_ne] at hClear
    exact hClear.1
  case stub =>
    intro hSet
    rw [hSet] at hStub hStub'
    simp only [Bool.true_and, Bool.or_eq_false_iff] at hStub hStub'
    exact ⟨hStub', hLab hStub.1⟩

/-! ## The doors -/

/-- Fourteen days are scaled to fourteen days by one alone. -/
theorem effectiveTimelockSecs_eq_iff {n : Nat} :
    (c.releasePolicy n).effectiveTimelockSecs = 14 * 24 * 3600 ↔
      c.effectiveLabTimelockScale.1 = 1 := by
  -- the product saturates, and what it saturates at is not fourteen days
  show min (14 * 24 * 3600 * c.effectiveLabTimelockScale.1) u64Max = 14 * 24 * 3600 ↔ _
  unfold u64Max
  omega

/-- The text that a lab's default may stand in for. -/
theorem or_default_eq_some {given : Option String} {lab : Prop} [Decidable lab]
    {default text : String} :
    given.or (if lab then some default else none) = some text ↔
      given = some text ∨ given = none ∧ lab ∧ default = text := by
  cases given with
  | none =>
    split
    · rename_i hLab
      simp [hLab]
    · rename_i hLab
      simp [hLab]
  | some own => simp

theorem wireAuth_staticToken {expected : String} {treasurySigning reshareTrigger : Bool}
    (h : c.wireAuth = .ok (.staticToken expected treasurySigning reshareTrigger)) :
    c.authMode = .staticToken ∧ c.effectiveVaultToken = some expected ∧
      treasurySigning = (c.ceremonyMode == .lab) := by
  unfold wireAuth at h
  cases hMode : c.authMode with
  | mutualTls =>
    rw [hMode] at h
    cases h
  | staticToken =>
    rw [hMode] at h
    obtain ⟨token, hToken, hEq⟩ := Results.map_eq_ok.mp h
    obtain ⟨rfl, rfl, -⟩ := WiredAuth.staticToken.inj hEq
    exact ⟨rfl, known_ok_iff.mp hToken, rfl⟩

/-- Bare digests are signed in a lab alone, whichever way callers are known by. -/
theorem rawSighashGate_ok_iff {auth : WiredAuth} (h : c.wireAuth = .ok auth) :
    c.rawSighashGate auth = .ok () ↔ c.ceremonyMode = .lab ∧ c.labAllowRawSighash = true := by
  have hAuthorized (hLab : c.ceremonyMode = .lab) : auth.authorizeTreasurySign = .ok () := by
    cases auth with
    | mutualTls _ => rfl
    | staticToken _ _ _ =>
      obtain ⟨-, -, rfl⟩ := wireAuth_staticToken h
      rw [hLab]
      rfl
  unfold rawSighashGate
  by_cases hLab : c.ceremonyMode = .lab
  · rw [hAuthorized hLab, and_iff_right hLab]
    dsimp only
    rw [if_neg (not_not_intro hLab)]
    cases c.labAllowRawSighash with
    | false => exact iff_of_false nofun nofun
    | true => exact iff_of_true rfl rfl
  · refine iff_of_false ?_ fun hBoth => hLab hBoth.1
    -- it is one refusal or another
    split
    · nofun
    · rw [if_pos hLab]
      nofun

/-- The store that is wired: on the disk, with or without a seal of the TPM, or the stub of an
enclave, or one that has no passphrase. -/
theorem wireShareStore_cases {store : WiredStore} (h : c.wireShareStore features = .ok store) :
    c.shareStoreMode = .aeadDisk ∧
        (store = .aeadTpm c.effectiveSharePassphrase c.shareTpmStub c.shareTpmClearFallback ∨
          ∃ p, c.effectiveSharePassphrase = some p ∧ store = .aead p) ∨
      c.shareStoreMode = .teeSeal ∧
        (features.production = false ∧ c.attestationStagingStub = true ∧
            c.ceremonyMode ≠ .production ∧
              (∃ p, c.effectiveSharePassphrase = some p ∧ store = .teeStub p) ∨
          store = .teeHw ∨ store = .teeFailClosed) := by
  unfold wireShareStore at h
  -- by the store that is asked for
  cases hMode : c.shareStoreMode with
  | aeadDisk =>
    rw [hMode] at h
    refine .inl ⟨rfl, ?_⟩
    dsimp only at h
    split at h
    · obtain ⟨-, -, hStore⟩ := Results.bind_eq_ok.mp h
      exact .inl (Except.ok.inj hStore).symm
    · obtain ⟨p, hKnown, rfl⟩ := Results.map_eq_ok.mp h
      exact .inr ⟨p, known_ok_iff.mp hKnown, rfl⟩
  | teeSeal =>
    rw [hMode] at h
    refine .inr ⟨rfl, ?_⟩
    dsimp only at h
    split at h
    · rename_i hStub
      simp only [Bool.and_eq_true, Bool.not_eq_true', bne_iff_ne] at hStub
      obtain ⟨p, hKnown, rfl⟩ := Results.map_eq_ok.mp h
      exact .inl ⟨hStub.1.1, hStub.1.2, hStub.2, p, known_ok_iff.mp hKnown, rfl⟩
    · split at h
      · exact .inr (.inl (Except.ok.inj h).symm)
      · exact .inr (.inr (Except.ok.inj h).symm)

theorem tpm_of_wireShareStore {clearPassphrase : Option String} {stub clearFallback : Bool}
    (h : c.wireShareStore features = .ok (.aeadTpm clearPassphrase stub clearFallback)) :
    c.shareTpmStub = stub ∧ c.shareTpmClearFallback = clearFallback := by
  rcases wireShareStore_cases h with ⟨-, hStore | ⟨_, -, hStore⟩⟩ |
    ⟨-, ⟨-, -, -, _, -, hStore⟩ | hStore | hStore⟩
  · obtain ⟨-, rfl, rfl⟩ := WiredStore.aeadTpm.inj hStore
    exact ⟨rfl, rfl⟩
  all_goals cases hStore

/-- Who ends up with the passphrase of every lab was given it, or none. -/
theorem usingDefault_of_effective (h : c.effectiveSharePassphrase = some labPassphrase) :
    c.usingDefaultPassphrase = true := by
  unfold usingDefaultPassphrase
  rcases or_default_eq_some.mp h with hGiven | ⟨hNone, -⟩
  · rw [hGiven]
    exact beq_self_eq_true labPassphrase
  · rw [hNone]
    rfl

/--
**Doors.** In every environment that is accepted, on every build: which doors of a lab are
open. Those of the endpoints and of the timelock are not shut by the ceremony.
-/
theorem doors_of_fromEnv (h : fromEnv features io = .ok c) : Doors features io c := by
  have hRead := fromEnv_ok h
  have hAccepted := accepted_of_hygiene hRead.hygiene
  have hSoft : c.hardened = false ↔ Soft features io := by
    rw [hRead.hardened, hardenedBy_eq_false_iff]
  constructor
  case endpoints =>
    rw [labEndpointsEnabled, Bool.not_eq_true', hSoft]
  case timelock =>
    intro n
    rw [ne_eq, effectiveTimelockSecs_eq_iff, effectiveLabTimelockScale, hRead.timelockScale,
      ← hSoft]
    cases c.hardened with
    | true => simp [toU64, u64Max]
    | false => simp
  case simulated =>
    intro hSim
    obtain ⟨hHardened, hLab⟩ := hAccepted.sim hSim
    exact ⟨hSoft.mp hHardened, hLab⟩
  case inProcess =>
    -- outside a lab keys are generated over the wire
    intro hMode
    by_contra hNot
    exact hMode (hAccepted.outside hNot).1
  case reshare =>
    intro hAllowed
    unfold allowInProcessReshare at hAllowed
    simp only [Bool.and_eq_true, beq_iff_eq, Bool.not_eq_true'] at hAllowed
    obtain ⟨⟨-, hLab⟩, hHardened⟩ := hAllowed
    exact ⟨hSoft.mp hHardened, hLab⟩
  case token =>
    intro expected treasurySigning reshareTrigger hWired
    obtain ⟨hStatic, hToken, -⟩ := wireAuth_staticToken hWired
    -- outside a lab callers are known by their certificates
    have hLab : c.ceremonyMode = .lab := by
      by_contra hNot
      have hMtls := (hAccepted.outside hNot).2.2
      rw [hStatic] at hMtls
      cases hMtls
    refine ⟨hLab, ?_⟩
    rcases or_default_eq_some.mp hToken with hGiven | ⟨hNone, ⟨-, hHardened⟩, hDefault⟩
    · exact .inl hGiven
    · exact .inr ⟨hNone, hDefault.symm, hSoft.mp hHardened, hLab⟩
  case rawSighash =>
    intro auth hWired
    rw [rawSighashGate_ok_iff hWired, hRead.rawSighash]
  case passphrase =>
    intro store hWired hDefault
    rcases wireShareStore_cases hWired with ⟨hAead, hStore⟩ | ⟨hTee, hStore⟩
    · -- on the disk it would have been refused outside a soft lab
      have hText : c.effectiveSharePassphrase = some labPassphrase := by
        rcases hStore with rfl | ⟨p, hp, rfl⟩
        · exact hDefault
        · rw [hp]
          exact hDefault
      obtain ⟨hLab, hHardened⟩ := hAccepted.default (usingDefault_of_effective hText) hAead
      exact .inl ⟨hSoft.mp hHardened, hLab⟩
    · rcases hStore with ⟨hBuild, hStub, hCeremony, p, hp, rfl⟩ | rfl | rfl
      · obtain rfl := Option.some.inj hDefault
        rcases or_default_eq_some.mp hp with hGiven | ⟨-, ⟨hLab, hHardened⟩, -⟩
        · exact .inr ⟨hTee, hStub, hCeremony, hBuild, hGiven⟩
        · exact .inl ⟨hSoft.mp hHardened, hLab⟩
      · cases hDefault
      · cases hDefault
  case clearFallback =>
    intro clearPassphrase stub hWired
    obtain ⟨-, hSet⟩ := tpm_of_wireShareStore hWired
    obtain ⟨hHardened, hCeremony⟩ := hAccepted.clear hSet
    exact ⟨hSoft.mp hHardened, hCeremony⟩
  case tpmStub =>
    intro clearPassphrase clearFallback hWired
    obtain ⟨hSet, -⟩ := tpm_of_wireShareStore hWired
    obtain ⟨hHardened, hLab⟩ := hAccepted.stub hSet
    exact ⟨hSoft.mp hHardened, hLab⟩

end Proof

theorem doors_of_prod : ∃ c,
    VaultConfig.fromEnv plainFeatures
        (.ofVars (("KEROSENE_ENV", "prod") :: plainProduction)) = .ok c ∧
      c.ceremonyMode = .production ∧ c.labEndpointsEnabled = true ∧
      Doors plainFeatures (.ofVars (("KEROSENE_ENV", "prod") :: plainProduction)) c := by
  obtain ⟨c, hRead, hTest⟩ := exists_of_any
    (p := fun c => c.ceremonyMode == .production && c.labEndpointsEnabled)
    (r := VaultConfig.fromEnv plainFeatures
      (.ofVars (("KEROSENE_ENV", "prod") :: plainProduction)))
    (by decide +kernel)
  obtain ⟨hMode, hOpen⟩ := Bool.and_eq_true_iff.mp hTest
  exact ⟨c, hRead, beq_iff_eq.mp hMode, hOpen, doors_of_fromEnv hRead⟩

/-! ## The name of the environment -/

section Name

variable {features : Features} {io : BootIo} {c : VaultConfig}

open VaultConfig

/-- A letter in lower case is as little blank as it was. -/
theorem isWhitespace_toLower (c : Char) :
    LineLog.isWhitespace c.toLower = LineLog.isWhitespace c := by
  by_cases hUpper : c.val ≥ 'A'.val ∧ c.val ≤ 'Z'.val
  · have hAll : ∀ n ∈ List.range' 65 26,
        LineLog.isWhitespace (Char.ofNat n).toLower = LineLog.isWhitespace (Char.ofNat n) := by
      decide
    have hCode : c.toNat ∈ List.range' 65 26 := by
      rw [List.mem_range'_1]
      obtain ⟨hLow, hHigh⟩ := hUpper
      exact ⟨UInt32.le_iff_toNat_le.mp hLow, Nat.lt_succ_of_le (UInt32.le_iff_toNat_le.mp hHigh)⟩
    have hSame := hAll c.toNat hCode
    rwa [Char.ofNat_toNat] at hSame
  · have hSame : c.toLower = c := dif_neg hUpper
    rw [hSame]

theorem trim_map_toLower (x : List Char) :
    LineLog.trim (x.map Char.toLower) = (LineLog.trim x).map Char.toLower := by
  have hBlank : LineLog.isWhitespace ∘ Char.toLower = LineLog.isWhitespace :=
    funext isWhitespace_toLower
  unfold LineLog.trim List.rdropWhile
  rw [List.dropWhile_map, hBlank, ← List.map_reverse, List.dropWhile_map, hBlank, List.map_reverse]

/-- The keyword of a name is its text in lower case without the blanks. -/
theorem keyword_eq_trim (raw : String) : keyword raw = strTrim (toAsciiLowercase raw) := by
  unfold keyword strTrim toAsciiLowercase
  simp only [String.toList_ofList, trim_map_toLower]

/-- The ceremony of a keyword. -/
theorem parse_eq_some_iff {raw : String} {mode : CeremonyMode}
    (h : CeremonyMode.parse raw = some mode) :
    (keyword raw = "lab" ∧ mode = .lab) ∨ (keyword raw = "staging" ∧ mode = .staging) ∨
      (keyword raw = "production" ∧ mode = .production) ∨
      (keyword raw = "prod" ∧ mode = .production) := by
  unfold CeremonyMode.parse parseKeyword at h
  obtain ⟨before, after, hNames, -⟩ := List.lookup_eq_some_iff.mp h
  have hMem : (keyword raw, mode) ∈ [("lab", CeremonyMode.lab), ("staging", .staging),
      ("production", .production), ("prod", .production)] := by
    rw [hNames]
    exact List.mem_append_right before List.mem_cons_self
  simpa using hMem

/--
**Soft outside a lab.** Where one variable names the environment, a ceremony outside the lab is
accepted on a node that is left soft exactly where the name is abbreviated, or has blanks around.
-/
theorem soft_outside_lab_iff (h : fromEnv features io = .ok c)
    (hUnset : io.var "VAULT_CEREMONY_MODE" = none) (hBuild : features.production = false)
    (hFlag : io.envFlag "KEROSENE_VAULT_REFUSE_SIM" = false) :
    c.ceremonyMode ≠ .lab ∧ c.labEndpointsEnabled = true ↔
      keyword (keroseneEnv io) = "prod" ∨
        keyword (keroseneEnv io) ≠ "lab" ∧
          toAsciiLowercase (keroseneEnv io) ≠ keyword (keroseneEnv io) := by
  have hRead := fromEnv_ok h
  have hMode := parse_eq_some_iff hRead.ceremony
  rw [ceremonyRaw, hUnset, Option.getD_none] at hMode
  have hOpen : c.labEndpointsEnabled = true ↔
      toAsciiLowercase (keroseneEnv io) ≠ "production" ∧
        toAsciiLowercase (keroseneEnv io) ≠ "staging" := by
    rw [labEndpointsEnabled, Bool.not_eq_true', hRead.hardened, hardenedBy_eq_false_iff]
    exact ⟨fun hSoft => ⟨hSoft.notProduction, hSoft.notStaging⟩,
      fun ⟨hProduction, hStaging⟩ => ⟨hBuild, hFlag, hProduction, hStaging⟩⟩
  have hKeyword := keyword_eq_trim (keroseneEnv io)
  -- a text that hardens the node is its own keyword
  have hOwn (name : String) (hTrim : strTrim name = name)
      (hName : toAsciiLowercase (keroseneEnv io) = name) : keyword (keroseneEnv io) = name := by
    rw [hKeyword, hName, hTrim]
  have hOwnProduction := hOwn "production" (by decide)
  have hOwnStaging := hOwn "staging" (by decide)
  rw [hOpen]
  rcases hMode with ⟨hName, hLab⟩ | ⟨hName, hStaging⟩ | ⟨hName, hProduction⟩ | ⟨hName, hProduction⟩
  · rw [hName, hLab]
    exact iff_of_false (fun hBoth => hBoth.1 rfl) (by simp)
  · rw [hName] at hOwnProduction ⊢
    rw [hStaging]
    simpa using fun _ hEq => by simpa using hOwnProduction hEq
  · rw [hName] at hOwnStaging ⊢
    rw [hProduction]
    simpa using fun _ hEq => by simpa using hOwnStaging hEq
  · rw [hName] at hOwnProduction hOwnStaging ⊢
    rw [hProduction]
    exact iff_of_true ⟨nofun, by simpa using hOwnProduction, by simpa using hOwnStaging⟩ (.inl rfl)

theorem soft_outside_lab_blank : ∃ c,
    fromEnv plainFeatures (.ofVars (("KEROSENE_ENV", " Staging") :: plainProduction)) = .ok c ∧
      c.ceremonyMode ≠ .lab ∧ c.labEndpointsEnabled = true := by
  obtain ⟨c, hRead, -⟩ := exists_of_any (p := fun _ => true)
    (r := fromEnv plainFeatures (.ofVars (("KEROSENE_ENV", " Staging") :: plainProduction)))
    (by decide +kernel)
  exact ⟨c, hRead, (soft_outside_lab_iff hRead rfl rfl rfl).mpr
    (.inr ⟨by decide +kernel, by decide +kernel⟩)⟩

end Name

end Bootstrap

end KeroseneVault
