import KeroseneVault.Cosign.Attribution
import KeroseneVault.Cosign.SignPsbt
import KeroseneVault.Dkg.SealedShares
import KeroseneVault.Release.Candidate

/-!
# The financial quorum

`POST /v1/financial-quorum`: a proposal that was submitted under the constitution of
the epoch and has not expired is written out as one text, and the holders of the USERS
key sign the digest of that text. The answer names the members that took part and,
of the active set, those that did not.

* `canonical` — the text of a proposal;
* `signFinancialQuorumProof` — the signature, by the wire alone;
* `v1FinancialQuorum` — the handler.

Main results:

* `canonical_inj` — the text of a proposal reads back;
* `financialQuorum_decides` — what an answer stands for;
* `financialQuorum_binds` — answers for one digest are for one proposal.
-/

namespace KeroseneVault

open Coordinator

/-! ## Proposals -/

structure FinancialQuorumBody where
  proposalHash : String
  constitutionHash : String
  constitutionEpoch : U64
  submittedAtEpochMs : Int
  expiresAtEpochMs : Int
  deriving DecidableEq

/-- `proposal_hash.len() != 64 || hex::decode(..).is_err()`, the other way round. -/
def FinancialQuorumBody.hashOk (req : FinancialQuorumBody) : Bool :=
  strLen req.proposalHash == 64 && req.proposalHash.toList.length % 2 == 0 &&
    req.proposalHash.toList.all isAsciiHexdigit

/-- The proposal is not from the future, not expired, and does not expire before it is
submitted. -/
def FinancialQuorumBody.inWindow (req : FinancialQuorumBody) (nowMs : Int) : Bool :=
  !(req.submittedAtEpochMs > nowMs + 30000 || req.expiresAtEpochMs ≤ nowMs ||
    req.expiresAtEpochMs ≤ req.submittedAtEpochMs)

/-- The text that is signed. -/
def FinancialQuorumBody.canonical (req : FinancialQuorumBody) : String :=
  s!"kerosene-financial-quorum-v1|{req.proposalHash}|{req.constitutionHash}|" ++
    s!"{req.constitutionEpoch.1}|{req.submittedAtEpochMs}|{req.expiresAtEpochMs}"

/-! ## The text reads back -/

theorem bar_notMem_nat (n : Nat) : '|' ∉ (toString n).toList := by
  show '|' ∉ (Nat.repr n).toList
  rw [Nat.repr, String.toList_ofList]
  exact Framing.notMem_toDigits rfl n

theorem nat_toString_inj {m n : Nat} : (toString m).toList = (toString n).toList ↔ m = n := by
  show (Nat.repr m).toList = (Nat.repr n).toList ↔ m = n
  rw [Nat.repr, Nat.repr, String.toList_ofList, String.toList_ofList]
  exact Framing.toDigits_inj

/-- A number is digits, after a dash where it is negative. -/
theorem int_toString (i : Int) :
    (toString i).toList = if 0 ≤ i then (toString i.natAbs).toList
      else '-' :: (toString i.natAbs).toList := by
  cases i with
  | ofNat n => exact (if_pos (Int.natCast_nonneg n)).symm
  | negSucc n =>
    rw [if_neg (by omega)]
    show ("-" ++ Nat.repr (n + 1)).toList = _
    rw [String.toList_append]
    rfl

theorem bar_notMem_int (i : Int) : '|' ∉ (toString i).toList := by
  rw [int_toString]
  split
  · exact bar_notMem_nat _
  · rw [List.mem_cons, not_or]
    exact ⟨by decide, bar_notMem_nat _⟩

/-- No digit is a dash. -/
theorem dash_notMem_nat (n : Nat) : '-' ∉ (toString n).toList := by
  show '-' ∉ (Nat.repr n).toList
  rw [Nat.repr, String.toList_ofList]
  exact Framing.notMem_toDigits rfl n

theorem int_toString_inj {i j : Int} (h : (toString i).toList = (toString j).toList) : i = j := by
  rw [int_toString, int_toString] at h
  -- by the two signs: a dash stands on one side only where they differ
  split at h
  · split at h
    · have hAbs := nat_toString_inj.mp h
      omega
    · have hDash : '-' ∈ (toString i.natAbs).toList := h ▸ List.mem_cons_self
      exact absurd hDash (dash_notMem_nat _)
  · split at h
    · have hDash : '-' ∈ (toString j.natAbs).toList := h ▸ List.mem_cons_self
      exact absurd hDash (dash_notMem_nat _)
    · have hAbs := nat_toString_inj.mp (List.cons.inj h).2
      omega

theorem bar_notMem_hash {req : FinancialQuorumBody} (h : req.hashOk = true) :
    '|' ∉ req.proposalHash.toList := by
  unfold FinancialQuorumBody.hashOk at h
  rw [Bool.and_eq_true, List.all_eq_true] at h
  intro hBar
  exact absurd (h.2 '|' hBar) (by decide)

/-- The text from its end: three numbers, and what stands before them. -/
theorem canonical_reverse (req : FinancialQuorumBody) :
    req.canonical.toList.reverse =
      Framing.frame '|' [([], (toString req.expiresAtEpochMs).toList.reverse),
        ([], (toString req.submittedAtEpochMs).toList.reverse),
        ([], (toString req.constitutionEpoch.1).toList.reverse)]
        (("kerosene-financial-quorum-v1|".toList ++
          (req.proposalHash.toList ++ '|' :: req.constitutionHash.toList)).reverse) := by
  have hText : req.canonical.toList =
      "kerosene-financial-quorum-v1|".toList ++ (req.proposalHash.toList ++
        '|' :: (req.constitutionHash.toList ++ '|' :: ((toString req.constitutionEpoch.1).toList ++
          '|' :: ((toString req.submittedAtEpochMs).toList ++
            '|' :: (toString req.expiresAtEpochMs).toList)))) := by
    unfold FinancialQuorumBody.canonical
    simp only [String.toList_append, toString_text]
    simp [List.append_assoc]
  rw [hText]
  simp [Framing.frame, List.reverse_append, List.reverse_cons, List.append_assoc]

theorem bar_notMem_numbers (req : FinancialQuorumBody) :
    ∀ f ∈ [([], (toString req.expiresAtEpochMs).toList.reverse),
      (([] : List Char), (toString req.submittedAtEpochMs).toList.reverse),
      ([], (toString req.constitutionEpoch.1).toList.reverse)], '|' ∉ f.2 := by
  intro f hf hBar
  simp only [List.mem_cons, List.not_mem_nil, or_false] at hf
  rcases hf with rfl | rfl | rfl
  · exact bar_notMem_int _ (List.mem_reverse.mp hBar)
  · exact bar_notMem_int _ (List.mem_reverse.mp hBar)
  · exact bar_notMem_nat _ (List.mem_reverse.mp hBar)

/-- The text of a proposal reads back, whatever the hash of its constitution is: that
stands between a hash and numbers, which have no bar in them. -/
theorem canonical_inj {req req' : FinancialQuorumBody} (hHash : req.hashOk = true)
    (hHash' : req'.hashOk = true) (h : req.canonical = req'.canonical) : req = req' := by
  have hReverse : req.canonical.toList.reverse = req'.canonical.toList.reverse := by rw [h]
  rw [canonical_reverse, canonical_reverse] at hReverse
  obtain ⟨hNumbers, hRest⟩ := (Framing.frame_inj (by rfl) (bar_notMem_numbers req)
    (bar_notMem_numbers req')).mp hReverse
  simp only [List.cons.injEq, Prod.mk.injEq, true_and, and_true] at hNumbers
  obtain ⟨hExpires, hSubmitted, hEpoch⟩ := hNumbers
  -- before the numbers: the proposal's hash ends at its first bar
  have hHashes := List.append_cancel_left (List.reverse_injective hRest)
  rw [Framing.append_sep_inj (bar_notMem_hash hHash) (bar_notMem_hash hHash')] at hHashes
  obtain ⟨p, c, n, s, e⟩ := req
  obtain ⟨p', c', n', s', e'⟩ := req'
  obtain rfl : p = p' := String.toList_inj.mp hHashes.1
  obtain rfl : c = c' := String.toList_inj.mp hHashes.2
  obtain rfl : n = n' := Subtype.ext (nat_toString_inj.mp (List.reverse_injective hEpoch))
  obtain rfl : s = s' := int_toString_inj (List.reverse_injective hSubmitted)
  obtain rfl : e = e' := int_toString_inj (List.reverse_injective hExpires)
  rfl

/-! ## The signature -/

structure FinancialQuorumProof where
  signatureHex : String
  verifyingKeyHex : String
  participantNodeIds : List String
  requiredThreshold : Nat
  deriving DecidableEq

/-- What a call finds: the share slot, and the slot once more when it comes to sign. -/
structure FinancialTurn (F : FrostTr) (W : FrostTrCoordinator F) where
  slot : Except DomainError (FrostTrShareState F W)
  raw : RawTurn F W

section Proof

variable {F : FrostTr} {W : FrostTrCoordinator F} (B : BitcoinTr F W)

/-- `sign_financial_quorum_proof`: never with local shares. -/
def FrostTrBitcoinOrchestrator.signFinancialQuorumProof (o : FrostTrBitcoinOrchestrator)
    (turn : FinancialTurn F W) (proposalHash : List UInt8) :
    Except DomainError FinancialQuorumProof := do
  if o.allowLocalMultisign then
    .error (.thresholdError
      "financial quorum proof requires distributed_wire; dealer_lab is forbidden")
  else
    let snap ← turn.slot
    if o.cosign = false then
      .error (.thresholdError "financial quorum proof requires TR wire co-sign transport")
    else
      let sessionId := "financial-quorum-" ++ hexText proposalHash
      let attributed ← signRawWireAttributed W turn.raw.slot turn.raw.transport o.localNodeId
        sessionId proposalHash turn.raw.wireRandomness
      let signature ← mapErr "signature serialize" (B.signatureBytes attributed.signature)
      let verifyingKey ← mapErr "verifying key serialize"
        (B.verifyingKeyBytes (W.tweakPubkey snap.pubkeyPackage))
      .ok ⟨hexText signature, hexText verifyingKey, attributed.participantNodeIds,
        snap.minSigners⟩

/-! ## The handler -/

/-- `Epoch`, as far as the handler reads it. -/
structure ConstitutionEpoch extends Epoch where
  constitutionHash : String
  deriving DecidableEq

/-- The body of an answer. -/
structure FinancialQuorumDecision where
  decision : String
  proposalHash : String
  constitutionHash : String
  constitutionEpoch : Nat
  configuredMembers : Nat
  requiredThreshold : Nat
  acceptedMembers : List String
  rejectedMembers : List String
  unavailableMembers : List String
  aggregateProof : String
  verifyingKey : String
  signedDigest : String
  decidedAtEpochMs : Int
  deriving DecidableEq

/-- What surrounds one request: the guard, the clock, the epoch of the ledger, the signer
of the USERS key and what its call finds. -/
structure FinancialQuorumEnv (F : FrostTr) (W : FrostTrCoordinator F) where
  authorizeTreasurySign : Outcome
  nowMs : Int
  epoch : Except DomainError ConstitutionEpoch
  frostTr : Option FrostTrBitcoinOrchestrator
  turn : FinancialTurn F W

/-- The digest that is signed. -/
def FinancialQuorumBody.digest (sha256 : List UInt8 → Digest) (req : FinancialQuorumBody) :
    List UInt8 :=
  (sha256 (textBytes req.canonical)).1

variable (sha256 : List UInt8 → Digest)

/-- The end of `v1_financial_quorum`, with the epoch and the proof. -/
def FinancialQuorumProof.decision (proof : FinancialQuorumProof) (epoch : ConstitutionEpoch)
    (nowMs : Int) (req : FinancialQuorumBody) : FinancialQuorumDecision where
  decision := "ACCEPTED"
  proposalHash := req.proposalHash
  constitutionHash := req.constitutionHash
  constitutionEpoch := req.constitutionEpoch.1
  configuredMembers := epoch.activeSet.length
  requiredThreshold := proof.requiredThreshold
  acceptedMembers := proof.participantNodeIds
  rejectedMembers := []
  unavailableMembers :=
    (epoch.activeSet.map NodeId.text).filter fun node => !proof.participantNodeIds.contains node
  aggregateProof := proof.signatureHex
  verifyingKey := proof.verifyingKeyHex
  signedDigest := hexText (req.digest sha256)
  decidedAtEpochMs := nowMs

/-- `v1_financial_quorum`; the body is what its JSON gives. -/
def v1FinancialQuorum (env : FinancialQuorumEnv F W) (body : Except String FinancialQuorumBody) :
    Except Refusal FinancialQuorumDecision :=
  match env.authorizeTreasurySign with
  | .error e => .error (.domain 401 e)
  | .ok () =>
    match body with
    | .error e => .error (.text 400 s!"invalid financial quorum json: {e}")
    | .ok req =>
      if req.hashOk = false then
        .error (.text 400 "proposal_hash must be 32-byte lowercase/uppercase hex")
      else if req.inWindow env.nowMs = false then
        .error (.text 400 "financial quorum proposal is expired or outside allowed clock skew")
      else
        match env.epoch with
        | .error e => .error (.domain 503 e)
        | .ok epoch =>
          if req.constitutionHash ≠ epoch.constitutionHash ∨
              req.constitutionEpoch.1 ≠ epoch.number then
            .error (.text 409 "financial quorum constitution hash/epoch mismatch")
          else
            match env.frostTr with
            | none => .error (.text 503 "USERS distributed FROST signer is unavailable")
            | some signer =>
              match signer.signFinancialQuorumProof B env.turn (req.digest sha256) with
              | .error e => .error (.domain 503 e)
              | .ok proof => .ok (proof.decision sha256 epoch env.nowMs req)

/-! ## What an answer stands for -/

/-- Names that were collected stay. -/
theorem readShares_participants {signers : List F.Identifier} {names : Table F.Identifier String}
    {acc got : Shares F} {rs : List TrSignShareResponse}
    (h : readShares W signers names acc rs = .ok got) : acc.participants ⊆ got.participants := by
  -- on the responses: each appends a name, or none
  induction rs generalizing acc with
  | nil =>
    obtain rfl := Except.ok.inj h
    exact List.Subset.refl _
  | cons resp rs ih =>
    rw [readShares] at h
    split at h
    · cases h
    · exact ih h
    · exact fun name hName => ih h (List.mem_append_left _ hName)

/-- A run that ends with a signature had one share of its own, verified what it
aggregated, and counts its node among those that took part. -/
theorem signRawWireAttributed_made {slot : Except DomainError (FrostTrShareState F W)}
    {T : TrCosignTransport} {localNodeId sessionId : String} {message : List UInt8}
    {randomness : Nat} {attributed : AttributedWireSignature F W}
    (h : signRawWireAttributed W slot T localNodeId sessionId message randomness =
      .ok attributed) :
    ∃ snap, slot = .ok snap ∧ snap.keyPackages.length = 1 ∧
      W.verify (W.tweakPubkey snap.pubkeyPackage) message attributed.signature = .ok () ∧
      localNodeId ∈ attributed.participantNodeIds := by
  cases hSlot : slot with
  | error e =>
    rw [hSlot] at h
    cases h
  | ok snap =>
    rw [hSlot] at h
    cases hShare : localShare W snap with
    | error e =>
      unfold signRawWireAttributed at h
      simp only [hShare] at h
      cases h
    | ok own =>
      obtain ⟨localId, kp⟩ := own
      obtain ⟨peerCommits, p, peerShares, got, hRun⟩ := attributedRun_of_ok hShare h
      refine ⟨snap, rfl, ?_, ?_, ?_⟩
      · -- the local share is the only one
        unfold localShare at hShare
        split at hShare
        · rename_i hKeys
          rw [hKeys]
          rfl
        · cases hShare
      · unfold signRawWireAttributed at h
        simp only [hShare, hRun.commits, hRun.prepared, hRun.shares] at h
        exact aggregateShares_verified W h
      · rw [hRun.participants, sortDedup, List.mem_dedup, List.mem_insertionSort]
        exact readShares_participants hRun.read List.mem_cons_self

/-- A proof was made by the wire alone, from one local share, and its signature verifies
under the key of the slot that it was made from. The threshold and the key that go with
it are of the slot at the start of the call. -/
structure ProofMade (o : FrostTrBitcoinOrchestrator) (turn : FinancialTurn F W)
    (digest : List UInt8) (proof : FinancialQuorumProof) (snap used : FrostTrShareState F W)
    (signature : W.Signature) : Prop where
  wire : o.allowLocalMultisign = false ∧ o.cosign = true
  slot : turn.slot = .ok snap
  slotUsed : turn.raw.slot = .ok used
  oneShare : used.keyPackages.length = 1
  verified : W.verify (W.tweakPubkey used.pubkeyPackage) digest signature = .ok ()
  signatureHex : ∃ bytes, B.signatureBytes signature = .ok bytes ∧
    proof.signatureHex = hexText bytes
  verifyingKeyHex : ∃ bytes, B.verifyingKeyBytes (W.tweakPubkey snap.pubkeyPackage) = .ok bytes ∧
    proof.verifyingKeyHex = hexText bytes
  local_mem : o.localNodeId ∈ proof.participantNodeIds
  threshold : proof.requiredThreshold = snap.minSigners

variable {B} {sha256} {env : FinancialQuorumEnv F W} {body : Except String FinancialQuorumBody}
  {d : FinancialQuorumDecision}

/-- A proof that was made is of the slot's key, by the wire. -/
theorem signFinancialQuorumProof_made {o : FrostTrBitcoinOrchestrator} {turn : FinancialTurn F W}
    {digest : List UInt8} {proof : FinancialQuorumProof}
    (h : o.signFinancialQuorumProof B turn digest = .ok proof) :
    ∃ snap used signature, ProofMade B o turn digest proof snap used signature := by
  unfold FrostTrBitcoinOrchestrator.signFinancialQuorumProof at h
  -- the wire is there, then the slot, then the transport
  split at h
  · cases h
  · rename_i hWire
    obtain ⟨snap, hSnap, h⟩ := Results.bind_eq_ok.mp h
    split at h
    · cases h
    · rename_i hCosign
      dsimp only at h
      obtain ⟨attributed, hRun, h⟩ := Results.bind_eq_ok.mp h
      obtain ⟨sigBytes, hSig, h⟩ := Results.bind_eq_ok.mp h
      obtain ⟨keyBytes, hKey, h⟩ := Results.bind_eq_ok.mp h
      obtain rfl := Except.ok.inj h
      obtain ⟨used, hUsed, hOne, hVerified, hLocal⟩ := signRawWireAttributed_made hRun
      exact ⟨snap, used, attributed.signature,
        { wire := ⟨Bool.eq_false_iff.mpr hWire, Bool.eq_true_of_not_eq_false hCosign⟩
          slot := hSnap
          slotUsed := hUsed
          oneShare := hOne
          verified := hVerified
          signatureHex := ⟨sigBytes, mapErr_ok.mp hSig, rfl⟩
          verifyingKeyHex := ⟨keyBytes, mapErr_ok.mp hKey, rfl⟩
          local_mem := hLocal
          threshold := rfl }⟩

/-- What an answer to a proposal stands for. -/
structure Decided (B : BitcoinTr F W) (sha256 : List UInt8 → Digest)
    (env : FinancialQuorumEnv F W) (req : FinancialQuorumBody)
    (epoch : ConstitutionEpoch) (signer : FrostTrBitcoinOrchestrator)
    (proof : FinancialQuorumProof) (d : FinancialQuorumDecision) : Prop where
  authorized : env.authorizeTreasurySign = .ok ()
  hash : req.hashOk = true
  window : req.submittedAtEpochMs ≤ env.nowMs + 30000 ∧ env.nowMs < req.expiresAtEpochMs ∧
    req.submittedAtEpochMs < req.expiresAtEpochMs
  epochRead : env.epoch = .ok epoch
  constitution : req.constitutionHash = epoch.constitutionHash ∧
    req.constitutionEpoch.1 = epoch.number
  wired : env.frostTr = some signer
  proved : signer.signFinancialQuorumProof B env.turn (req.digest sha256) = .ok proof
  answer : d = proof.decision sha256 epoch env.nowMs req

/-- An answer comes from one path through the handler, and that path answers. -/
theorem v1FinancialQuorum_ok_iff :
    v1FinancialQuorum B sha256 env body = .ok d ↔
      ∃ req epoch signer proof, body = .ok req ∧ Decided B sha256 env req epoch signer proof d := by
  constructor
  · intro h
    -- the checks in their order
    unfold v1FinancialQuorum at h
    split at h
    · cases h
    · rename_i hAuthorized
      split at h
      · cases h
      · rename_i req
        split at h
        · cases h
        · rename_i hHash
          split at h
          · cases h
          · rename_i hWindow
            split at h
            · cases h
            · rename_i epoch hEpoch
              split at h
              · cases h
              · rename_i hMatch
                rw [not_or, not_not, not_not] at hMatch
                split at h
                · cases h
                · rename_i signer hSigner
                  split at h
                  · cases h
                  · rename_i proof hProof
                    have hInside := Bool.eq_true_of_not_eq_false hWindow
                    unfold FinancialQuorumBody.inWindow at hInside
                    simp only [Bool.not_eq_true', Bool.or_eq_false_iff, decide_eq_false_iff_not]
                      at hInside
                    exact ⟨req, epoch, signer, proof, rfl,
                      { authorized := hAuthorized
                        hash := Bool.eq_true_of_not_eq_false hHash
                        window := by omega
                        epochRead := hEpoch
                        constitution := hMatch
                        wired := hSigner
                        proved := hProof
                        answer := (Except.ok.inj h).symm }⟩
  · rintro ⟨req, epoch, signer, proof, rfl, hDecided⟩
    have hWindow : req.inWindow env.nowMs = true := by
      have hInside := hDecided.window
      unfold FinancialQuorumBody.inWindow
      simp only [Bool.not_eq_true', Bool.or_eq_false_iff, decide_eq_false_iff_not]
      omega
    unfold v1FinancialQuorum
    simp only [hDecided.authorized, hDecided.hash, hWindow, hDecided.epochRead, hDecided.wired,
      hDecided.proved, Bool.true_eq_false, if_false]
    rw [if_neg (by simp only [hDecided.constitution, ne_eq, not_true, or_self, not_false_eq_true]),
      hDecided.answer]

variable {req : FinancialQuorumBody}

/--
**Decisions.** An answer is for a proposal that stood under the constitution of the
ledger's epoch and inside its window. Its signature is over the digest of the proposal's
text and verifies under the USERS key, with which the answer comes where nobody exchanged
the shares during the call. The node itself took part, and of the active set the answer
names as unavailable exactly those that did not.
-/
theorem financialQuorum_decides (h : v1FinancialQuorum B sha256 env (.ok req) = .ok d) :
    ∃ epoch signer used signature, env.epoch = .ok epoch ∧ env.frostTr = some signer ∧
      d.constitutionHash = epoch.constitutionHash ∧ d.constitutionEpoch = epoch.number ∧
      req.submittedAtEpochMs ≤ d.decidedAtEpochMs + 30000 ∧
      d.decidedAtEpochMs < req.expiresAtEpochMs ∧
      env.turn.raw.slot = .ok used ∧
      W.verify (W.tweakPubkey used.pubkeyPackage) (req.digest sha256) signature = .ok () ∧
      (∃ bytes, B.signatureBytes signature = .ok bytes ∧ d.aggregateProof = hexText bytes) ∧
      (env.turn.slot = env.turn.raw.slot → d.requiredThreshold = used.minSigners ∧
        ∃ bytes, B.verifyingKeyBytes (W.tweakPubkey used.pubkeyPackage) = .ok bytes ∧
          d.verifyingKey = hexText bytes) ∧
      signer.localNodeId ∈ d.acceptedMembers ∧
      ∀ node, node ∈ d.unavailableMembers ↔
        node ∈ epoch.activeSet.map NodeId.text ∧ node ∉ d.acceptedMembers := by
  obtain ⟨req', epoch, signer, proof, hBody, hDecided⟩ := v1FinancialQuorum_ok_iff.mp h
  obtain rfl := Except.ok.inj hBody
  obtain ⟨snap, used, signature, hMade⟩ := signFinancialQuorumProof_made hDecided.proved
  obtain ⟨hHash, hNumber⟩ := hDecided.constitution
  obtain ⟨hSubmitted, hExpires, -⟩ := hDecided.window
  rw [hDecided.answer]
  refine ⟨epoch, signer, used, signature, hDecided.epochRead, hDecided.wired, hHash, hNumber,
    hSubmitted, hExpires, hMade.slotUsed, hMade.verified, hMade.signatureHex, ?_, hMade.local_mem,
    fun node => ?_⟩
  · intro hSame
    -- the slot did not change, so the answer's key and threshold are of the one slot
    obtain rfl : snap = used := Except.ok.inj (hMade.slot.symm.trans (hSame.trans hMade.slotUsed))
    exact ⟨hMade.threshold, hMade.verifyingKeyHex⟩
  · show node ∈ ((epoch.activeSet.map NodeId.text).filter
      fun node => !proof.participantNodeIds.contains node) ↔ _
    rw [List.mem_filter, Bool.not_eq_true', List.contains_eq_mem, decide_eq_false_iff_not]
    rfl

variable {env' : FinancialQuorumEnv F W} {req' : FinancialQuorumBody}
  {d' : FinancialQuorumDecision}

/--
**One digest, one proposal.** Answers of any two nodes, at any times and under any
constitutions, that name one signed digest are for one proposal: its hash, its
constitution with the epoch, and both ends of its window are the same. Else SHA-256 has
been made to collide.
-/
theorem financialQuorum_binds (h : v1FinancialQuorum B sha256 env (.ok req) = .ok d)
    (h' : v1FinancialQuorum B sha256 env' (.ok req') = .ok d')
    (hSame : d.signedDigest = d'.signedDigest) :
    req = req' ∨ (textBytes req.canonical ≠ textBytes req'.canonical ∧
      sha256 (textBytes req.canonical) = sha256 (textBytes req'.canonical)) := by
  obtain ⟨r, epoch, signer, proof, hBody, hDecided⟩ := v1FinancialQuorum_ok_iff.mp h
  obtain ⟨r', epoch', signer', proof', hBody', hDecided'⟩ := v1FinancialQuorum_ok_iff.mp h'
  obtain rfl := Except.ok.inj hBody
  obtain rfl := Except.ok.inj hBody'
  rw [hDecided.answer, hDecided'.answer] at hSame
  have hDigest : sha256 (textBytes req.canonical) = sha256 (textBytes req'.canonical) :=
    Subtype.ext (hexText_injective hSame)
  by_cases hText : req.canonical = req'.canonical
  · exact .inl (canonical_inj hDecided.hash hDecided'.hash hText)
  · exact .inr ⟨fun hBytes => hText (textBytes_inj.mp hBytes), hDigest⟩

end Proof

/-! ## A proposal to three nodes -/

open FrostTrBitcoinOrchestrator

/-- The first bytes of a text. -/
def plainSha256 (bytes : List UInt8) : Digest :=
  ⟨(bytes ++ List.replicate 32 0).take 32, by
    rw [List.length_take, List.length_append, List.length_replicate]
    omega⟩

def plainProposal : FinancialQuorumBody where
  proposalHash := String.ofList (List.replicate 64 'a')
  constitutionHash := "constitution-1"
  constitutionEpoch := ⟨3, by decide⟩
  submittedAtEpochMs := 1000
  expiresAtEpochMs := 61000

def plainKeys : Keyset plainFrost plainCoordinator := plainKeyset (fun i => 10 * i) 2

/-- The first of three nodes, whose peers are up; a fourth is in the active set and not
among the peers. -/
def plainQuorumEnv (nowMs : Int) : FinancialQuorumEnv plainFrost plainCoordinator where
  authorizeTreasurySign := .ok ()
  nowMs := nowMs
  epoch := .ok ⟨⟨3, [⟨"vault-1"⟩, ⟨"vault-2"⟩, ⟨"vault-3"⟩, ⟨"vault-4"⟩]⟩, "constitution-1"⟩
  frostTr := some { plainSigner with allowLocalMultisign := false, cosign := true }
  turn :=
    let digest := plainProposal.digest plainSha256
    let session := "financial-quorum-" ++ hexText digest
    ⟨.ok (plainKeys.state (1 : UInt8)),
      ⟨.ok (plainKeys.state (1 : UInt8)),
        (threeNodes.transport 3).toTransport (threeNodes.network plainKeys.key (fun _ => 5)
          (fun _ => ∅) (fun _ => .up 0) (fun _ => .up 0) ⟨session, hexText digest, "vault-1"⟩),
        5, fun _ => 5⟩⟩

/-- Inside its window the proposal is decided. -/
theorem v1FinancialQuorum_plain (nowMs : Int) (hNow : 0 ≤ nowMs ∧ nowMs < 61000) :
    ∃ d, v1FinancialQuorum (plainBitcoin plainUnsigned plainSigned) plainSha256
      (plainQuorumEnv nowMs) (.ok plainProposal) = .ok d ∧
      d.signedDigest = hexText (plainProposal.digest plainSha256) := by
  have hUp : ∀ i : UInt8, (Reach.up 0).Up 3 := fun _ => by decide
  -- all peers are up, so that the run ends with a signature
  obtain ⟨signature, hSigned⟩ := signRawWire_up (K := plainKeys)
    plainFrost_laws (plainKeyset_correct (by decide) _) (by decide)
    (threeNodes.serves_network plainKeys.key (fun _ => 5) (fun _ => ∅) (fun _ => .up 0)
      (fun _ => .up 0) ⟨"financial-quorum-" ++ hexText (plainProposal.digest plainSha256),
        hexText (plainProposal.digest plainSha256), "vault-1"⟩) (fun _ _ => rfl)
    (fun i _ => hUp i) fun i _ => hUp i
  obtain ⟨attributed, hRun⟩ := attributed_of_signRawWire _ hSigned
  refine ⟨_, v1FinancialQuorum_ok_iff.mpr ⟨plainProposal, _, _,
    ⟨hexText (plainSignatureBytes attributed.signature),
      hexText (List.replicate 32 0), attributed.participantNodeIds, 2⟩, rfl,
    { authorized := rfl
      hash := by decide +kernel
      window := ⟨by show (1000 : Int) ≤ nowMs + 30000; omega, hNow.2, by decide⟩
      epochRead := rfl
      constitution := ⟨rfl, rfl⟩
      wired := rfl
      proved := ?_
      answer := rfl }⟩, rfl⟩
  exact Results.bind_eq_ok.mpr ⟨_, rfl, Results.bind_eq_ok.mpr ⟨attributed, hRun,
    Results.bind_eq_ok.mpr ⟨_, rfl, rfl⟩⟩⟩

theorem financialQuorum_decides_plain : ∃ d, v1FinancialQuorum
    (plainBitcoin plainUnsigned plainSigned) plainSha256 (plainQuorumEnv 2000)
      (.ok plainProposal) = .ok d ∧ "vault-1" ∈ d.acceptedMembers ∧
    d.requiredThreshold = 2 ∧ "vault-5" ∉ d.unavailableMembers := by
  obtain ⟨d, hAnswer, -⟩ := v1FinancialQuorum_plain 2000 (by omega)
  obtain ⟨epoch, signer, used, signature, hEpoch, hSigner, -, -, -, -, hUsed, -, -, hSame, hLocal,
    hUnavailable⟩ := financialQuorum_decides hAnswer
  obtain rfl := Except.ok.inj hEpoch
  obtain rfl := Option.some.inj hSigner
  obtain rfl := Except.ok.inj hUsed
  refine ⟨d, hAnswer, hLocal, (hSame rfl).1, fun hNode => ?_⟩
  exact absurd ((hUnavailable _).mp hNode).1 (by decide)

/-- Decided at two times, the proposal is one. -/
theorem financialQuorum_binds_plain : ∃ d d',
    v1FinancialQuorum (plainBitcoin plainUnsigned plainSigned) plainSha256 (plainQuorumEnv 2000)
      (.ok plainProposal) = .ok d ∧
    v1FinancialQuorum (plainBitcoin plainUnsigned plainSigned) plainSha256 (plainQuorumEnv 3000)
      (.ok plainProposal) = .ok d' ∧
    (plainProposal = plainProposal ∨
      (textBytes plainProposal.canonical ≠ textBytes plainProposal.canonical ∧
        plainSha256 (textBytes plainProposal.canonical) =
          plainSha256 (textBytes plainProposal.canonical))) := by
  obtain ⟨d, hAnswer, hDigest⟩ := v1FinancialQuorum_plain 2000 (by omega)
  obtain ⟨d', hAnswer', hDigest'⟩ := v1FinancialQuorum_plain 3000 (by omega)
  exact ⟨d, d', hAnswer, hAnswer',
    financialQuorum_binds hAnswer hAnswer' (hDigest.trans hDigest'.symm)⟩

end KeroseneVault
