import KeroseneVault.Application.Printing
import KeroseneVault.Attestation.Quote
import KeroseneVault.Bootstrap.Doors
import KeroseneVault.Lab.Dkg
import KeroseneVault.Release.Mesh

/-!
# Genesis

`bootstrap/wiring.rs`, `bootstrap/config.rs`: no node tells another how the mesh begins.
Each seats the roster, writes the constitution and deals the shares of the lab key by
itself, from its own configuration, and keeps the share that is its own.

* `VaultConfig.peerTier`, `seatingCandidates`, `seatGenesis` — who is seated;
* `VaultConfig.genesis` — what a node begins with;
* `VaultConfig.build` — the checks before that;
* `Mesh` — configurations that name one another and see the same tiers.

Main result: `genesis_agrees` — the nodes of a mesh that are seated, and no others, begin,
all with the same roster, constitution and key, and their shares make one secret.
-/

namespace KeroseneVault

/-! ## The constitution of a lab -/

namespace FullConstitution

/-- The constitution of `v1_lab`, before its hash and its pin are set. -/
def labDraft (n : ℕ) : FullConstitution :=
  { openDraft n with version := 1, profitSplits := ⟨0, 5000, 5000⟩ }

/-- `v1_lab`. -/
def v1Lab (sha256Hex : String → String) (n : ℕ) : Except DomainError FullConstitution :=
  if n < 2 then .error (.invalidConstitution "signing_n must be >= 2")
  else
    match (labDraft n).profitSplits.validate with
    | .error e => .error e
    | .ok () =>
      let hash := (labDraft n).computeHash sha256Hex
      .ok { labDraft n with hash, measurementPin := some (sha256Hex hash) }

/-- A constitution for `n` nodes, but for its hash. -/
structure InOrder (n : ℕ) (k : FullConstitution) : Prop where
  signingN : k.signingN = n
  signingT : k.signingT = quorumTwoThirds n
  governanceT : k.governanceT = min (quorumTwoThirds n + 1) n
  reward : k.pRewardBps ≤ k.pRewardMaxBps
  splits : k.profitSplits.validate = .ok ()
  policy : k.downgradePolicy.validate = .ok ()

section InOrder

variable {sha256Hex : String → String} {n : ℕ} {k : FullConstitution}

/-- It validates once its hash is computed. -/
theorem InOrder.validate (h : InOrder n k) (hn : 2 ≤ n) (freq : MinerPayoutCadence) :
    (k.withPayoutFrequency sha256Hex freq).validate sha256Hex = .ok () := by
  obtain ⟨hN, hT, hG, hP, hSplits, hPolicy⟩ := h
  have hQuorum : quorumTwoThirds n ≠ 0 ∧ quorumTwoThirds n ≤ n := by
    unfold quorumTwoThirds
    omega
  unfold FullConstitution.validate withPayoutFrequency
  dsimp only
  rw [if_neg (by omega), if_neg (by omega), if_neg (by omega), if_neg (by omega), hSplits]
  dsimp only
  rw [hPolicy]
  -- neither the frequency nor the hash itself is hashed
  exact if_neg (not_not_intro rfl)

/-- The policy of every draft is its own minimum. -/
theorem validate_defaultPolicy : FullDowngradePolicy.default.validate = .ok () := by decide

theorem v1Open_inOrder (hn : 2 ≤ n) : ∃ k, v1Open sha256Hex n = .ok k ∧ InOrder n k := by
  have hSplits : (⟨100, 4950, 4950⟩ : ProfitSplits).validate = .ok () := by decide
  have hReward : 100 ≤ 800 := by omega
  rw [v1Open, if_neg (by omega)]
  exact ⟨_, rfl, rfl, rfl, rfl, hReward, hSplits, validate_defaultPolicy⟩

theorem v1Lab_inOrder (hn : 2 ≤ n) : ∃ k, v1Lab sha256Hex n = .ok k ∧ InOrder n k := by
  have hSplits : (⟨0, 5000, 5000⟩ : ProfitSplits).validate = .ok () := by decide
  have hReward : 100 ≤ 800 := by omega
  rw [v1Lab, if_neg (by omega), show (labDraft n).profitSplits.validate = _ from hSplits]
  exact ⟨_, rfl, rfl, rfl, rfl, hReward, hSplits, validate_defaultPolicy⟩

end InOrder

end FullConstitution

namespace Bootstrap

/-! ## Who is seated -/

namespace VaultConfig

section Seating

variable (c : VaultConfig)

/-- A quote is given for a peer, and it is not blank. -/
def hasQuote (peerId : String) : Bool := (c.peerTierQuotes.lookup peerId).any (strTrim · ≠ "")

def peerTier (peerId : String) : VaultNodeTier :=
  let claimed := (c.peerTiers.lookup peerId).getD .domestic
  if isTeeTier claimed = false then claimed
  else if c.peerTierRequireQuote ∧ c.hasQuote peerId = false then .domestic
  else claimed

/-- The node itself. -/
def self : SeatingCandidate := ⟨c.nodeId, c.nodeTier⟩

def seatingCandidates : Except DomainError (List SeatingCandidate) :=
  (c.seedPeers.mapM fun peer => (NodeId.new peer.1).map fun id => ⟨id, c.peerTier peer.1⟩).map
    (c.self :: ·)

def effectiveGenesisN : ℕ :=
  match c.genesisN with
  | some n => n.1
  | none => max (c.seedPeers.length + 1) 2

/-- The name of the `i`-th candidate, where there are not enough. -/
def padName (i : ℕ) : String := s!"vault-pad-{i}"

/-- The candidates that are missing, from the `k`-th on. -/
def pads (k n : ℕ) : Except DomainError (List SeatingCandidate) :=
  (List.range' k (n - k)).mapM fun i => (NodeId.new (padName i)).map fun id => ⟨id, .domestic⟩

def seatGenesis : Except DomainError (List NodeId) := do
  let candidates ← c.seatingCandidates
  let missing ← pads candidates.length c.effectiveGenesisN
  return seatGenesisByTier (candidates ++ missing) c.effectiveGenesisN

end Seating

/-! ## What a node begins with -/

/-- What a node begins with. -/
structure Genesis where
  constitution : FullConstitution
  activeSet : List NodeId
  ledger : InMemoryLedger
  group : GroupKey
  localShare : KeyShare
  shares : List KeyShare

section Genesis

variable (sha256 : List UInt8 → Digest) (c : VaultConfig)

/-- The constitution of the economy that is configured. -/
def draftConstitution (n : ℕ) : Except DomainError FullConstitution :=
  if c.openEconomy then FullConstitution.v1Open (measureText sha256) n
  else FullConstitution.v1Lab (measureText sha256) n

/-- `with_measurement_pin`, where a pin is configured. -/
def pinConstitution (k : FullConstitution) : Except DomainError FullConstitution :=
  match c.measurementPinHex with
  | some hex => (Measurement.fromHex hex).map fun pin => { k with measurementPin := some pin.text }
  | none => .ok k

/-- The constitution for `n` nodes. -/
def constitutionFor (n : ℕ) : Except DomainError FullConstitution := do
  let drafted ← c.draftConstitution sha256 n
  let pinned ← c.pinConstitution drafted
  return pinned.withPayoutFrequency (measureText sha256) c.minerPayoutFrequency

/-- `Epoch::to_json` of the first epoch. -/
def epochJson (constitutionHash : String) (activeSet : List NodeId) : String :=
  s!"\x7b\"number\":0,\"constitution_hash\":\"{constitutionHash}\"," ++
    s!"\"active_set\":[{quotedList (activeSet.map (·.text))}]\x7d"

/-- What the first entry of a ledger is about. -/
def genesisPayload (constitution : FullConstitution) (activeSet : List NodeId) : String :=
  "\x7b\"constitution\":" ++ constitution.toJson ++ ",\"epoch\":" ++
    epochJson constitution.hash activeSet ++ "\x7d"

/-- `InMemoryLedger::genesis`, with `Epoch::genesis`. -/
def ledgerGenesis (constitution : FullConstitution) (activeSet : List NodeId) :
    Except DomainError InMemoryLedger := do
  constitution.validate (measureText sha256)
  refuse (activeSet.length != constitution.signingN) (.invalidConstitution
    s!"active_set len {activeSet.length} != signing_n {constitution.signingN}")
  return .genesis (measureText sha256) constitution.toConstitution constitution.governanceT
    constitution.pRewardBps activeSet c.nodeId (genesisPayload constitution activeSet)

/-- What the polynomials of the key generation are taken from. -/
def dkgEntropy (activeSet : List NodeId) : List UInt8 :=
  textBytes (s!"genesis|{c.labRoot}|" ++ ",".intercalate (activeSet.map (·.text)))

/-- The refusal of a node that has no seat. -/
def notSeated : DomainError :=
  .thresholdError <| s!"local node {c.nodeId.text} not seated in genesis roster (SEV/SGX peers " ++
    "filled VAULT_GENESIS_N seats; this node is waiting-set only)"

/-- From a roster to the lab key. -/
def genesisOf (activeSet : List NodeId) : Intake DomainError Genesis := do
  let constitution ← .ofExcept (c.constitutionFor sha256 activeSet.length)
  let ledger ← .ofExcept (c.ledgerGenesis sha256 constitution activeSet)
  let (group, shares) ← runDkg sha256 activeSet constitution.signingT (c.dkgEntropy activeSet)
  let localShare ← .ofExcept (known (shares.find? (·.nodeId = c.nodeId))
    (.thresholdError "local share missing after DKG"))
  .ok ⟨constitution, activeSet, ledger, group, localShare, shares⟩

/-- From the peers on. -/
def genesis : Intake DomainError Genesis := do
  let _ ← .ofExcept (c.seedPeers.mapM fun peer => NodeId.new peer.1)
  let activeSet ← .ofExcept c.seatGenesis
  let _ ← .ofExcept (refuse (!activeSet.contains c.nodeId) c.notSeated)
  c.genesisOf sha256 activeSet

/-- `VaultRuntime::build`, up to the lab key. -/
def build (features : Features) (io : BootIo) : Intake DomainError Genesis := do
  let _ ← .ofExcept c.validateAttestationPolicy
  let _ ← .ofExcept (c.validateHygiene features io)
  let _ ← .ofExcept (refuse (c.outsideLab && c.dealerRequested)
    (.dealerForbidden "dealer DKG refused in staging/production"))
  c.genesis sha256

end Genesis

/-! ## A mesh -/

/-- Configurations that name one another and see the same tiers. -/
structure Mesh (mesh : List VaultConfig) (n : ℕ) : Prop where
  names : ∀ c ∈ mesh, NodeId.new c.nodeId.text = .ok c.nodeId
  distinct : (mesh.map fun c => c.nodeId.text).Nodup
  /-- Each lists the others, in any order. -/
  seeds : ∀ c ∈ mesh, (c.nodeId.text :: c.seedPeers.map Prod.fst).Perm
    (mesh.map fun d => d.nodeId.text)
  /-- Each sees another as what that one is. -/
  tiers : ∀ c ∈ mesh, ∀ d ∈ mesh, d.nodeId.text ≠ c.nodeId.text →
    c.peerTier d.nodeId.text = d.nodeTier
  seats : ∀ c ∈ mesh, c.effectiveGenesisN = n
  labRoot : ∀ c ∈ mesh, ∀ d ∈ mesh, c.labRoot = d.labRoot
  economy : ∀ c ∈ mesh, ∀ d ∈ mesh, c.openEconomy = d.openEconomy
  payouts : ∀ c ∈ mesh, ∀ d ∈ mesh, c.minerPayoutFrequency = d.minerPayoutFrequency
  pin : ∀ c ∈ mesh, ∀ d ∈ mesh, c.measurementPinHex = d.measurementPinHex
  pinned : ∀ c ∈ mesh, ∀ hex, c.measurementPinHex = some hex →
    ∃ pin, Measurement.fromHex hex = .ok pin

/-- The candidate in the `i`-th place, where there are not enough. -/
def padCandidate (i : ℕ) : SeatingCandidate := ⟨⟨padName i⟩, .domestic⟩

/-- The roster of a mesh. -/
def roster (mesh : List VaultConfig) (n : ℕ) : List NodeId :=
  seatGenesisByTier
    (mesh.map self ++ (List.range' mesh.length (n - mesh.length)).map padCandidate) n

/-- What nodes have in common that began together. -/
structure Common where
  constitution : FullConstitution
  activeSet : List NodeId
  payload : String
  group : GroupKey
  shares : List KeyShare

/-- A node began with what is common, a first entry that it wrote itself, and its own share. -/
structure BeganWith (sha256 : List UInt8 → Digest) (k : Common) (c : VaultConfig) (g : Genesis) :
    Prop where
  constitution : g.constitution = k.constitution
  activeSet : g.activeSet = k.activeSet
  epoch : g.ledger.chain.epoch = ⟨0, k.activeSet⟩
  entries : g.ledger.chain.entries =
    [.chain (measureText sha256) 0 0 .genesis k.payload c.nodeId "genesis-prev"]
  group : g.group = k.group
  shares : g.shares = k.shares
  dealt : g.localShare ∈ k.shares
  own : g.localShare.nodeId = c.nodeId

section Proof

variable {mesh : List VaultConfig} {n : ℕ} {c : VaultConfig}

/-! ### The seating -/

theorem toList_padName (i : ℕ) :
    (padName i).toList = "vault-pad-".toList ++ Nat.toDigits 10 i := by
  simp [padName, toString_text]

/-- A digit is not blank, and has one byte. -/
theorem digit_plain {d : Char} (h : d.isDigit = true) :
    LineLog.isWhitespace d = false ∧ d.utf8Size = 1 := by
  have hAll : ((List.range' 48 10).all fun m =>
      !LineLog.isWhitespace (Char.ofNat m) && (Char.ofNat m).utf8Size == 1) = true := by
    decide +kernel
  have hCode : d.toNat ∈ List.range' 48 10 := by
    rw [List.mem_range'_1]
    obtain ⟨hLow, hHigh⟩ := Bool.and_eq_true_iff.mp h
    exact ⟨UInt32.le_iff_toNat_le.mp (of_decide_eq_true hLow),
      Nat.lt_succ_of_le (UInt32.le_iff_toNat_le.mp (of_decide_eq_true hHigh))⟩
  have hPlain := List.all_eq_true.mp hAll d.toNat hCode
  rw [Char.ofNat_toNat] at hPlain
  simpa using hPlain

/-- The names of the pads are names. -/
theorem new_padName {i : ℕ} (hi : i < 255) : NodeId.new (padName i) = .ok ⟨padName i⟩ := by
  have hDigits : ∀ d ∈ Nat.toDigits 10 i, LineLog.isWhitespace d = false ∧ d.utf8Size = 1 :=
    fun d hd => digit_plain (Nat.isDigit_of_mem_toDigits (by omega) (by omega) hd)
  have hWord : ("vault-pad-".toList.all fun d =>
      !LineLog.isWhitespace d && d.utf8Size == 1) = true := by
    decide +kernel
  have hPlain : ∀ d ∈ (padName i).toList, LineLog.isWhitespace d = false ∧ d.utf8Size = 1 := by
    rw [toList_padName]
    refine List.forall_mem_append.mpr ⟨fun d hd => ?_, hDigits⟩
    simpa using List.all_eq_true.mp hWord d hd
  -- nothing is trimmed off, and the name is within its 128 bytes
  have hTrim : strTrim (padName i) = padName i := by
    rw [strTrim, LineLog.trim_eq_self fun d hd => (hPlain d hd).1, String.ofList_toList]
  have hCount : (padName i).toList.length = 10 + (Nat.toDigits 10 i).length := by
    rw [toList_padName, List.length_append]
    rfl
  have hSize : strLen (padName i) = (padName i).toList.length := by
    rw [strLen, List.map_congr_left fun d hd => (hPlain d hd).2]
    simp
  have hShort : (Nat.toDigits 10 i).length ≤ 3 :=
    (Nat.length_toDigits_le_iff (by omega) (by omega)).mpr (by omega)
  have hSome : padName i ≠ "" := by
    intro hEmpty
    rw [hEmpty, String.toList_empty, List.length_nil] at hCount
    omega
  have hFits : ¬ (padName i = "" ∨ strLen (padName i) > 128) := by
    rw [hSize, hCount, not_or]
    exact ⟨hSome, by omega⟩
  rw [NodeId.new, hTrim, if_neg hFits]

theorem pads_eq (k : ℕ) (hn : n ≤ 255) :
    pads k n = .ok ((List.range' k (n - k)).map padCandidate) := by
  refine Results.mapM_ok fun i hi => ?_
  rw [List.mem_range'_1] at hi
  rw [new_padName (by omega)]
  rfl

/-- A seed of a node is another one of the mesh. -/
theorem Mesh.seed (h : Mesh mesh n) (hc : c ∈ mesh) {peer : String × String}
    (hPeer : peer ∈ c.seedPeers) : ∃ d ∈ mesh, d.nodeId.text = peer.1 := by
  have hName : peer.1 ∈ c.nodeId.text :: c.seedPeers.map Prod.fst :=
    List.mem_cons_of_mem _ (List.mem_map_of_mem hPeer)
  exact List.mem_map.mp ((h.seeds c hc).mem_iff.mp hName)

theorem Mesh.new_seed (h : Mesh mesh n) (hc : c ∈ mesh) {peer : String × String}
    (hPeer : peer ∈ c.seedPeers) : NodeId.new peer.1 = .ok ⟨peer.1⟩ := by
  obtain ⟨d, hd, hName⟩ := h.seed hc hPeer
  rw [← hName]
  exact h.names d hd

/-- A node of the mesh is known by its name. -/
theorem Mesh.eq_of_name (h : Mesh mesh n) {d : VaultConfig} (hc : c ∈ mesh) (hd : d ∈ mesh)
    (hName : d.nodeId.text = c.nodeId.text) : d = c :=
  List.inj_on_of_nodup_map h.distinct hd hc hName

/-- The candidates of a node are those of the mesh, in some order. -/
theorem Mesh.seatingCandidates (h : Mesh mesh n) (hc : c ∈ mesh) :
    ∃ candidates, c.seatingCandidates = .ok candidates ∧ candidates.Perm (mesh.map self) := by
  let seed (peer : String × String) : SeatingCandidate := ⟨⟨peer.1⟩, c.peerTier peer.1⟩
  -- how the node sees who is named
  let seen (name : String) : SeatingCandidate :=
    ⟨⟨name⟩, if name = c.nodeId.text then c.nodeTier else c.peerTier name⟩
  have hRun : (c.seedPeers.mapM fun peer =>
      (NodeId.new peer.1).map fun id => (⟨id, c.peerTier peer.1⟩ : SeatingCandidate)) =
        .ok (c.seedPeers.map seed) := by
    refine Results.mapM_ok fun peer hPeer => ?_
    rw [h.new_seed hc hPeer]
    rfl
  -- no seed is the node itself, which sees its own tier as it is
  have hNames : (c.nodeId.text :: c.seedPeers.map Prod.fst).Nodup :=
    (h.seeds c hc).nodup_iff.mpr h.distinct
  have hSelf : seen c.nodeId.text = c.self := by
    simp only [seen, if_pos]
    rfl
  have hSeeds : (c.seedPeers.map Prod.fst).map seen = c.seedPeers.map seed := by
    rw [List.map_map]
    refine List.map_congr_left fun peer hPeer => ?_
    have hOther : peer.1 ≠ c.nodeId.text := by
      intro hSame
      exact (List.nodup_cons.mp hNames).1 (hSame ▸ List.mem_map_of_mem hPeer)
    simp only [Function.comp_apply, seen, if_neg hOther, seed]
  have hMesh : (mesh.map fun d => d.nodeId.text).map seen = mesh.map self := by
    rw [List.map_map]
    refine List.map_congr_left fun d hd => ?_
    by_cases hName : d.nodeId.text = c.nodeId.text
    · rw [h.eq_of_name hc hd hName]
      exact hSelf
    · simp only [Function.comp_apply, seen, if_neg hName, h.tiers c hc d hd hName]
      rfl
  refine ⟨c.self :: c.seedPeers.map seed, ?_, ?_⟩
  · rw [VaultConfig.seatingCandidates, hRun]
    rfl
  · rw [← hSeeds, ← hSelf, ← List.map_cons, ← hMesh]
    exact (h.seeds c hc).map seen

/-- Every node of a mesh seats the same roster. -/
theorem Mesh.seatGenesis (h : Mesh mesh n) (hn : n ≤ 255) (hc : c ∈ mesh) :
    c.seatGenesis = .ok (roster mesh n) := by
  obtain ⟨candidates, hCandidates, hPerm⟩ := h.seatingCandidates hc
  -- so the pads begin at one place for all
  have hLength : candidates.length = mesh.length := by
    rw [hPerm.length_eq, List.length_map]
  have hKeys : (candidates.map fun e => e.id.text).Nodup := by
    rw [(hPerm.map _).nodup_iff, List.map_map]
    exact h.distinct
  unfold VaultConfig.seatGenesis
  rw [hCandidates, h.seats c hc]
  show (pads candidates.length n >>= fun missing =>
    .ok (seatGenesisByTier (candidates ++ missing) n)) = _
  rw [hLength, pads_eq _ hn]
  refine congrArg Except.ok ?_
  rw [roster, seatGenesisByTier_eq, seatGenesisByTier_eq]
  -- no two of the candidates that are kept tie, for no name is kept twice
  refine congrArg (List.map _) (Ranking.best_eq_of_perm (Ranking.firsts_append_perm hPerm hKeys _)
    ?_ n)
  intro a ha b hb hab hba
  exact List.inj_on_of_nodup_map (Ranking.firsts_keys_nodup [] _) ha hb
    (SeatingCandidate.id_eq_of_notAfter hab hba)

theorem roster_length_le (mesh : List VaultConfig) (n : ℕ) : (roster mesh n).length ≤ n := by
  rw [roster, seatGenesisByTier_eq, List.length_map, Ranking.best_length]
  exact Nat.min_le_left _ _

/-! ### The constitution -/

/-- For two nodes at least there is a constitution, and it validates. -/
theorem constitutionFor_ok (sha256 : List UInt8 → Digest) {m : ℕ} (hm : 2 ≤ m)
    (hPin : ∀ hex, c.measurementPinHex = some hex → ∃ pin, Measurement.fromHex hex = .ok pin) :
    ∃ k, c.constitutionFor sha256 m = .ok k ∧ k.validate (measureText sha256) = .ok () ∧
      k.signingN = m ∧ k.signingT = quorumTwoThirds m := by
  have hDraft : ∃ k, c.draftConstitution sha256 m = .ok k ∧ k.InOrder m := by
    unfold draftConstitution
    split
    · exact FullConstitution.v1Open_inOrder hm
    · exact FullConstitution.v1Lab_inOrder hm
  obtain ⟨drafted, hDrafted, hInOrder⟩ := hDraft
  have hPinned : ∃ k, c.pinConstitution drafted = .ok k ∧ k.InOrder m := by
    unfold pinConstitution
    split
    · rename_i hex hHex
      obtain ⟨pin, hGiven⟩ := hPin hex hHex
      rw [hGiven]
      -- a pin changes nothing that is validated
      obtain ⟨hN, hT, hG, hP, hSplits, hPolicy⟩ := hInOrder
      exact ⟨_, rfl, hN, hT, hG, hP, hSplits, hPolicy⟩
    · exact ⟨drafted, rfl, hInOrder⟩
  obtain ⟨pinned, hPinned, hInOrder⟩ := hPinned
  unfold constitutionFor
  rw [hDrafted]
  dsimp only [bind, Except.bind]
  rw [hPinned]
  exact ⟨_, rfl, hInOrder.validate hm _, hInOrder.signingN, hInOrder.signingT⟩

theorem Mesh.constitutionFor (h : Mesh mesh n) {d : VaultConfig} (hc : c ∈ mesh) (hd : d ∈ mesh)
    (sha256 : List UInt8 → Digest) (m : ℕ) :
    c.constitutionFor sha256 m = d.constitutionFor sha256 m := by
  unfold VaultConfig.constitutionFor draftConstitution pinConstitution
  rw [h.economy c hc d hd, h.payouts c hc d hd, h.pin c hc d hd]

/-- The first entry of a ledger. -/
theorem ledgerGenesis_ok {sha256 : List UInt8 → Digest} {k : FullConstitution}
    {activeSet : List NodeId} (hValid : k.validate (measureText sha256) = .ok ())
    (hLength : activeSet.length = k.signingN) :
    ∃ l, c.ledgerGenesis sha256 k activeSet = .ok l ∧ l.chain.epoch = ⟨0, activeSet⟩ ∧
      l.chain.entries = [.chain (measureText sha256) 0 0 .genesis (genesisPayload k activeSet)
        c.nodeId "genesis-prev"] := by
  unfold ledgerGenesis
  rw [hValid, hLength, bne_self_eq_false]
  exact ⟨_, rfl, rfl, rfl⟩

/-! ### The lab key -/

/-- The checks before let through what was accepted. -/
theorem build_eq {features : Features} {io : BootIo} (sha256 : List UInt8 → Digest)
    (h : c.validateHygiene features io = .ok ()) :
    c.build sha256 features io = c.genesis sha256 := by
  have hPolicy : c.validateAttestationPolicy = .ok () := by
    unfold validateHygiene at h
    exact (andThen_ok_iff.mp h).1
  -- `build` refuses a dealer once more, after the hygiene did
  have hDealer : (c.outsideLab && c.dealerRequested) = false := by
    cases hOutside : c.outsideLab with
    | false => rfl
    | true =>
      have hNot : c.ceremonyMode ≠ .lab := by
        intro hLab
        rw [outsideLab_eq_false_iff.mpr hLab] at hOutside
        cases hOutside
      exact ((accepted_of_hygiene h).outside hNot).2.1
  unfold build
  rw [hPolicy, h, hDealer]
  rfl

/-- A node that has a seat has one of the shares. -/
theorem find_share {shares : List KeyShare} {activeSet : List NodeId} {id : NodeId}
    (hShares : shares.map KeyShare.nodeId = activeSet) (h : id ∈ activeSet) :
    ∃ share ∈ shares, share.nodeId = id ∧ shares.find? (·.nodeId = id) = some share := by
  rw [← hShares] at h
  obtain ⟨share, hShare, hId⟩ := List.mem_map.mp h
  have hSome : (shares.find? (·.nodeId = id)).isSome = true := by
    rw [List.find?_isSome]
    exact ⟨share, hShare, decide_eq_true hId⟩
  obtain ⟨found, hFound⟩ := Option.isSome_iff_exists.mp hSome
  have hOwn := List.find?_some hFound
  exact ⟨found, List.mem_of_find?_eq_some hFound, of_decide_eq_true hOwn, hFound⟩

/-- What a node of the mesh gets to before it is asked for its seat. -/
theorem Mesh.genesis (h : Mesh mesh n) (hn : n ≤ 255) (hc : c ∈ mesh)
    (sha256 : List UInt8 → Digest) :
    c.genesis sha256 = (Intake.ofExcept (refuse (!(roster mesh n).contains c.nodeId)
      (c.notSeated))).andThen fun _ => c.genesisOf sha256 (roster mesh n) := by
  have hPeers : (c.seedPeers.mapM fun peer => NodeId.new peer.1) =
      .ok (c.seedPeers.map fun peer => ⟨peer.1⟩) :=
    Results.mapM_ok fun peer hPeer => h.new_seed hc hPeer
  unfold VaultConfig.genesis
  rw [hPeers, h.seatGenesis hn hc]
  rfl

/--
**Genesis.** The nodes of a mesh of which two at least are seated, each by itself: those that are
seated, and no others, begin, all with one roster, constitution and key, each with a share of
its own, and the shares are of one secret.
-/
theorem genesis_agrees (sha256 : List UInt8 → Digest) (h : Mesh mesh n) (hSome : mesh ≠ [])
    (hSeats : 2 ≤ (roster mesh n).length) (hn : n ≤ 255) :
    ∃ k : Common, k.activeSet = roster mesh n ∧ k.shares.map KeyShare.nodeId = roster mesh n ∧
      (∃ secret, SharesSecret k.constitution.signingT k.shares secret) ∧
      ∀ c ∈ mesh, ∀ features io, c.validateHygiene features io = .ok () →
        (c.nodeId ∈ roster mesh n →
          ∃ g, c.build sha256 features io = .ok g ∧ BeganWith sha256 k c g) ∧
        (c.nodeId ∉ roster mesh n → c.build sha256 features io = .error c.notSeated) := by
  -- what one node computes is what is common
  obtain ⟨first, hFirst⟩ := List.exists_mem_of_ne_nil mesh hSome
  obtain ⟨constitution, hConstitution, hValid, hN, hT⟩ :=
    constitutionFor_ok sha256 hSeats (h.pinned first hFirst)
  have hQuorum : 1 ≤ constitution.signingT ∧ constitution.signingT ≤ (roster mesh n).length := by
    rw [hT]
    unfold quorumTwoThirds
    omega
  have hLength := roster_length_le mesh n
  obtain ⟨shares, hIds, hSecret, hRun⟩ := runDkg_eq sha256 (first.dkgEntropy (roster mesh n))
    (by omega) hQuorum.1 hQuorum.2
  rw [if_pos hSeats] at hRun
  have hDealt : ∃ group, runDkg sha256 (roster mesh n) constitution.signingT
      (first.dkgEntropy (roster mesh n)) = .ok (group, shares) := ⟨_, hRun⟩
  obtain ⟨group, hGroup⟩ := hDealt
  refine ⟨⟨constitution, roster mesh n, genesisPayload constitution (roster mesh n), group, shares⟩,
    rfl, hIds, ⟨_, hSecret⟩, ?_⟩
  intro c hc features io hAccepted
  rw [build_eq sha256 hAccepted, h.genesis hn hc]
  constructor
  · intro hSeated
    obtain ⟨l, hLedger, hEpoch, hEntries⟩ := ledgerGenesis_ok (c := c) hValid hN.symm
    obtain ⟨own, hOwn, hId, hFind⟩ := find_share hIds hSeated
    -- the shares are dealt from the roster and the lab root alone
    have hEntropy : c.dkgEntropy (roster mesh n) = first.dkgEntropy (roster mesh n) := by
      unfold dkgEntropy
      rw [h.labRoot c hc first hFirst]
    refine ⟨⟨constitution, roster mesh n, l, group, own, shares⟩, ?_,
      ⟨rfl, rfl, hEpoch, hEntries, rfl, rfl, hOwn, hId⟩⟩
    rw [List.contains_iff_mem.mpr hSeated]
    show c.genesisOf sha256 (roster mesh n) = _
    unfold genesisOf
    rw [h.constitutionFor hc hFirst, hConstitution, Intake.ofExcept, Intake.ok_bind, hLedger,
      Intake.ofExcept, Intake.ok_bind, hEntropy, hGroup, Intake.ok_bind]
    dsimp only
    rw [hFind]
    rfl
  · intro hWaiting
    have hNot : (roster mesh n).contains c.nodeId = false := by
      rw [← Bool.not_eq_true, List.contains_iff_mem]
      exact hWaiting
    rw [hNot]
    rfl

/-- What a node of a lab of two reads from its environment. -/
def PairNode (id peer : String) (c : VaultConfig) : Prop :=
  c.self = ⟨⟨id⟩, .domestic⟩ ∧ c.seedPeers = [(peer, "10.0.0.1:7701")] ∧
    c.peerTier peer = .domestic ∧ c.effectiveGenesisN = 2 ∧
    (c.labRoot, c.openEconomy, c.minerPayoutFrequency, c.measurementPinHex) =
      (defaultLabRoot, false, .daily, none)

instance decidablePairNode (id peer : String) (c : VaultConfig) :
    Decidable (PairNode id peer c) := instDecidableAnd

/-- The environment of a node of a lab of two. -/
def pairEnv (id peer : String) : BootIo :=
  .ofVars [("VAULT_NODE_ID", id), ("VAULT_SEED_PEERS", s!"{peer}=10.0.0.1:7701")]

/-- Two nodes that name one another begin with the same roster, constitution and key, each with
the share of its own name. -/
theorem genesis_agrees_pair : ∃ a b g g',
    fromEnv plainFeatures (pairEnv "vault-1" "vault-2") = .ok a ∧
      fromEnv plainFeatures (pairEnv "vault-2" "vault-1") = .ok b ∧
      a.build foldDigest plainFeatures (pairEnv "vault-1" "vault-2") = .ok g ∧
      b.build foldDigest plainFeatures (pairEnv "vault-2" "vault-1") = .ok g' ∧
      g.activeSet = [⟨"vault-1"⟩, ⟨"vault-2"⟩] ∧ g.constitution = g'.constitution ∧
      g.group = g'.group ∧ g.localShare.nodeId = ⟨"vault-1"⟩ ∧
      g'.localShare.nodeId = ⟨"vault-2"⟩ := by
  obtain ⟨a, hReadA, hTestA⟩ := exists_of_any
    (p := fun c => decide (PairNode "vault-1" "vault-2" c))
    (r := fromEnv plainFeatures (pairEnv "vault-1" "vault-2")) (by decide +kernel)
  obtain ⟨b, hReadB, hTestB⟩ := exists_of_any
    (p := fun c => decide (PairNode "vault-2" "vault-1" c))
    (r := fromEnv plainFeatures (pairEnv "vault-2" "vault-1")) (by decide +kernel)
  obtain ⟨hSelfA, hSeedsA, hTierA, hSeatsA, hAlikeA⟩ := of_decide_eq_true hTestA
  obtain ⟨hSelfB, hSeedsB, hTierB, hSeatsB, hAlikeB⟩ := of_decide_eq_true hTestB
  obtain ⟨hIdA, hNodeTierA⟩ := SeatingCandidate.mk.inj hSelfA
  obtain ⟨hIdB, hNodeTierB⟩ := SeatingCandidate.mk.inj hSelfB
  simp only [Prod.mk.injEq] at hAlikeA hAlikeB
  obtain ⟨hRootA, hEconomyA, hPayoutsA, hPinA⟩ := hAlikeA
  obtain ⟨hRootB, hEconomyB, hPayoutsB, hPinB⟩ := hAlikeB
  -- each field of the mesh is a fact about the two that were read
  have hMesh : Mesh [a, b] 2 := by
    constructor <;> simp only [List.forall_mem_cons, List.not_mem_nil, false_implies, implies_true,
      and_true, List.map_cons, List.map_nil]
    case names =>
      rw [hIdA, hIdB]
      decide +kernel
    case distinct =>
      rw [hIdA, hIdB]
      decide
    case seeds =>
      rw [hIdA, hIdB, hSeedsA, hSeedsB]
      decide
    case tiers =>
      rw [hIdA, hIdB, hTierA, hTierB, hNodeTierA, hNodeTierB]
      exact ⟨⟨fun hOther => absurd rfl hOther, fun _ => rfl⟩, fun _ => rfl,
        fun hOther => absurd rfl hOther⟩
    case seats => exact ⟨hSeatsA, hSeatsB⟩
    case labRoot =>
      rw [hRootA, hRootB]
      decide
    case economy =>
      rw [hEconomyA, hEconomyB]
      decide
    case payouts =>
      rw [hPayoutsA, hPayoutsB]
      decide
    case pin =>
      rw [hPinA, hPinB]
      decide
    case pinned =>
      rw [hPinA, hPinB]
      exact ⟨nofun, nofun⟩
  have hRoster : roster [a, b] 2 = [⟨"vault-1"⟩, ⟨"vault-2"⟩] := by
    rw [roster, List.map_cons, List.map_cons, hSelfA, hSelfB]
    show seatGenesisByTier [⟨⟨"vault-1"⟩, .domestic⟩, ⟨⟨"vault-2"⟩, .domestic⟩] 2 = _
    decide +kernel
  obtain ⟨k, hActive, -, -, hEach⟩ := genesis_agrees foldDigest hMesh nofun
    (by rw [hRoster]; decide) (by omega)
  obtain ⟨g, hBuildA, hG⟩ := (hEach a (by simp) plainFeatures _ (fromEnv_ok hReadA).hygiene).1
    (by rw [hRoster, hIdA]; decide)
  obtain ⟨g', hBuildB, hG'⟩ := (hEach b (by simp) plainFeatures _ (fromEnv_ok hReadB).hygiene).1
    (by rw [hRoster, hIdB]; decide)
  refine ⟨a, b, g, g', hReadA, hReadB, hBuildA, hBuildB, ?_, ?_, ?_, ?_, ?_⟩
  · rw [hG.activeSet, hActive, hRoster]
  · rw [hG.constitution, hG'.constitution]
  · rw [hG.group, hG'.group]
  · rw [hG.own, hIdA]
  · rw [hG'.own, hIdB]

end Proof

end VaultConfig

end Bootstrap

end KeroseneVault
