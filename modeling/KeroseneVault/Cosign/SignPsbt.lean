import KeroseneVault.Cosign.IntentSign
import KeroseneVault.Cosign.PlainFrost
import KeroseneVault.Domain.Outflow
import KeroseneVault.Domain.Prevouts

/-!
# The Taproot signer

`FrostTrBitcoinOrchestrator`: a call claims its session, reads the day, and has
the holders of the mesh key sign. `sign_psbt` decodes a PSBT, checks it against
the fee policy and the intent, and signs each input whose witness UTXO the mesh key
locks and that has no signature yet; `sign_sighash` signs 32 bytes as they are.

* `Transaction`, `TrPsbt` — a PSBT with what signing reads and writes of it;
* `BitcoinTr` — what the signer uses of `bitcoin` and of FROST's encodings;
* `destinationScriptPubkey` — the script of an intent's destination;
* `signRaw` — one FROST signature, by the wire or by local shares;
* `signPsbt`, `signSighash` — the calls;
* `PsbtSigned` — what a signed PSBT is to the PSBT that was sent in;
* `Signable` — what a call needs beside its session and the day.

Main results:

* `signRaw_verified` — a signature verifies under the key of the slot it was
  made from;
* `signPsbt_spends` — what comes back is the PSBT that was sent in, bound to the
  intent and within the policy, with a verified signature on exactly the inputs
  that were the signer's to sign;
* `signPsbt_not_twice` — what was signed is not signed again;
* `signPsbt_accepts_iff` — what is signed where the holders of the key sign
  (`signs_local`: local shares that reach the threshold do).
-/

namespace KeroseneVault

/-! ## Transactions and PSBTs -/

/-- `XOnlyPublicKey`, serialized. -/
structure XOnlyPublicKey where
  bytes : List UInt8
  length_bytes : bytes.length = 32
  deriving DecidableEq

/-- `ScriptBuf::new_p2tr_tweaked`: version one, and a push of the key. -/
def newP2trTweaked (key : XOnlyPublicKey) : Script := 0x51 :: 0x20 :: key.bytes

/-- `Script::is_p2tr`. -/
def isP2tr (script : Script) : Bool :=
  script.length == 34 && script[0]? == some 0x51 && script[1]? == some 0x20

/-- `script_matches_output_key`. -/
def scriptMatchesOutputKey (script : Script) (outputKey : XOnlyPublicKey) : Bool :=
  script == newP2trTweaked outputKey

structure OutPoint where
  txid : List UInt8
  vout : Nat
  deriving DecidableEq

/-- An input without its script and its witness: a PSBT is decoded only where
they are empty. -/
structure TxIn where
  previousOutput : OutPoint
  sequence : Nat
  deriving DecidableEq

structure Transaction where
  version : Int
  lockTime : Nat
  input : List TxIn
  output : List TxOut
  deriving DecidableEq

/-- A Schnorr signature of 64 bytes. -/
structure SchnorrSignature where
  bytes : List UInt8
  length_bytes : bytes.length = 64
  deriving DecidableEq

/-- `taproot::Signature`; `TapSighashType::Default` is zero. -/
structure TaprootSignature where
  signature : SchnorrSignature
  sighashType : Nat
  deriving DecidableEq

/-- The map of an input; `others` are the entries that signing leaves alone. -/
structure PsbtInputMap where
  witnessUtxo : Option TxOut
  nonWitnessUtxo : Option (List TxOut)
  tapKeySig : Option TaprootSignature
  others : List (List UInt8 × List UInt8)
  deriving DecidableEq

/-- A PSBT as it is decoded: each input of its transaction with its map. -/
structure TrPsbt where
  version : Int
  lockTime : Nat
  inputs : List (TxIn × PsbtInputMap)
  outputs : List TxOut
  others : List (List UInt8 × List UInt8)
  deriving DecidableEq

/-- `unsigned_tx`. -/
def TrPsbt.unsignedTx (p : TrPsbt) : Transaction :=
  ⟨p.version, p.lockTime, p.inputs.map Prod.fst, p.outputs⟩

/-! ## The crates -/

inductive BitcoinNetwork where
  | testnet3
  | mainnet
  deriving DecidableEq, Repr

def BitcoinNetwork.asStr : BitcoinNetwork → String
  | .testnet3 => "testnet3"
  | .mainnet => "mainnet"

/-- What the signer uses of `bitcoin` and `secp256k1`, and of FROST beside what a
coordinator does. An error is its text. -/
structure BitcoinTr (F : FrostTr) (W : FrostTrCoordinator F) where
  /-- `parse::<Address<NetworkUnchecked>>` and `require_network`: the script of an
  address on each network -/
  parseAddress : String → Option (BitcoinNetwork → Option Script)
  psbtFromStr : String → Except String TrPsbt
  psbtToString : TrPsbt → String
  weight : Transaction → Nat
  /-- `taproot_key_spend_signature_hash` over all prevouts, of type `Default` -/
  keySpendSighash : Transaction → Nat → List TxOut → Except String (List UInt8)
  verifyingKeyBytes : W.PubkeyPackage → Except String (List UInt8)
  xonlyFromSlice : List UInt8 → Except String XOnlyPublicKey
  /-- `tap_tweak` without a script tree -/
  tapTweak : XOnlyPublicKey → XOnlyPublicKey
  signatureBytes : W.Signature → Except String (List UInt8)
  schnorrFromSlice : List UInt8 → Except String SchnorrSignature
  /-- the first half of the `Sha256` digest -/
  sha2First16 : List UInt8 → List UInt8

section Destination

variable {F : FrostTr} {W : FrostTrCoordinator F} (B : BitcoinTr F W)

/-- `validate_destination`: what is no address passes as an opaque label. -/
def validateDestination (network : BitcoinNetwork) (destination : String) : Outcome :=
  let dest := strTrim destination
  if dest = "" then .error (.invalidIntent "empty destination")
  else if network = .testnet3 ∧
      ("bc1".toList.isPrefixOf dest.toList ∨ "BC1".toList.isPrefixOf dest.toList) then
    .error (.bitcoinNetworkMismatch "mainnet bc1 address rejected on BITCOIN_NETWORK=testnet3")
  else
    match B.parseAddress dest with
    | none => .ok ()
    | some unchecked =>
      match unchecked network with
      | none => .error (.bitcoinNetworkMismatch s!"address not valid for {network.asStr}")
      | some _ => .ok ()

/-- `destination_script_pubkey`. -/
def destinationScriptPubkey (network : BitcoinNetwork) (destination : String) :
    Except DomainError Script :=
  match validateDestination B network destination with
  | .error e => .error e
  | .ok () =>
    match B.parseAddress (strTrim destination) with
    | none =>
      .error (.invalidIntent ("PSBT Intent bind requires a Bitcoin address destination " ++
        "(opaque lab tags cannot bind outputs)"))
    | some unchecked =>
      match unchecked network with
      | none => .error (.bitcoinNetworkMismatch s!"address not valid for {network.asStr}")
      | some script => .ok script

end Destination

/-- The PSBT as the policy and the binding read it. -/
def TrPsbt.toPsbt {F : FrostTr} {W : FrostTrCoordinator F} (B : BitcoinTr F W) (p : TrPsbt) :
    Psbt where
  inputs := p.inputs.map fun e =>
    ⟨e.1.previousOutput.vout, e.1.sequence, e.2.witnessUtxo, e.2.nonWitnessUtxo⟩
  outputs := p.outputs
  lockTime := p.lockTime
  weightWu := B.weight p.unsignedTx

/-! ## One signature -/

/-- `FrostTrBitcoinOrchestrator`. The share slot and the transport are shared with
others: a call finds what they hold when it gets there. -/
structure FrostTrBitcoinOrchestrator where
  antiNonce : SigningAntiNonce
  rotation : DayNode
  network : BitcoinNetwork
  allowLocalMultisign : Bool
  localNodeId : String
  /-- was a transport configured? -/
  cosign : Bool
  psbtPolicy : PsbtPolicy

/-- What one `sign_raw_quorum` finds: the share slot, what the peers answer, and what
`round1::commit` draws, on the wire and for each local share. -/
structure RawTurn (F : FrostTr) (W : FrostTrCoordinator F) where
  slot : Except DomainError (FrostTrShareState F W)
  transport : TrCosignTransport
  wireRandomness : Nat
  localRandomness : F.Identifier → Nat

namespace FrostTrBitcoinOrchestrator

variable {F : FrostTr} {W : FrostTrCoordinator F} (B : BitcoinTr F W)

/-- The key packages in the order of their identifiers. -/
def sortKeys (keys : List (F.Identifier × F.KeyPackage)) : List (F.Identifier × F.KeyPackage) :=
  keys.mergeSort fun a b => decide (F.identifierBytes a.1 ≤ F.identifierBytes b.1)

/-- The part of `sign_raw_quorum` with local shares: the first `min_signers` of them
commit, sign and are aggregated. -/
def signRawLocal (snap : FrostTrShareState F W) (randomness : F.Identifier → Nat)
    (message : List UInt8) : Except DomainError W.Signature := do
  if snap.keyPackages.length < snap.minSigners then
    .error (.failStop snap.keyPackages.length snap.minSigners)
  else
    let signers := (sortKeys snap.keyPackages).take snap.minSigners
    let round1 := fun (e : F.Identifier × F.KeyPackage) =>
      F.commit (F.tweak e.2) (randomness e.1)
    let package : SigningPackage F.Identifier F.Commitments :=
      ⟨message, signers.map fun e => (e.1, (round1 e).2)⟩
    let shares ← signers.mapM fun e =>
      (mapErr "frost-tr round2" (F.sign package (round1 e).1 (F.tweak e.2))).map fun s => (e.1, s)
    let pubkey := W.tweakPubkey snap.pubkeyPackage
    let signature ← mapErr "frost-tr aggregate" (W.aggregate package shares pubkey)
    mapErr "frost-tr verify" (W.verify pubkey message signature)
    .ok signature

/-- `sign_raw_quorum`. -/
def signRaw (o : FrostTrBitcoinOrchestrator) (turn : RawTurn F W) (message : List UInt8) :
    Except DomainError W.Signature :=
  match turn.slot with
  | .error e => .error e
  | .ok snap =>
    if o.allowLocalMultisign then signRawLocal snap turn.localRandomness message
    else
      Coordinator.signRawQuorum W B.sha2First16 (.ok snap)
        (if o.cosign then some turn.transport else none) o.localNodeId message turn.wireRandomness

/-- A signature verifies under the key of the slot it was made from. -/
theorem signRaw_verified {o : FrostTrBitcoinOrchestrator} {turn : RawTurn F W}
    {message : List UInt8} {signature : W.Signature}
    (h : o.signRaw B turn message = .ok signature) :
    ∃ snap, turn.slot = .ok snap ∧
      W.verify (W.tweakPubkey snap.pubkeyPackage) message signature = .ok () := by
  unfold signRaw at h
  split at h
  · cases h
  · rename_i snap hSlot
    -- by the two ways to sign; on either one the check of the signature comes last
    refine ⟨snap, hSlot, ?_⟩
    split at h
    · -- local shares: the last step is the verification
      unfold signRawLocal at h
      split at h
      · cases h
      · dsimp only at h
        obtain ⟨shares, -, h⟩ := Results.bind_eq_ok.mp h
        obtain ⟨made, -, h⟩ := Results.bind_eq_ok.mp h
        obtain ⟨⟨⟩, hVerify, h⟩ := Results.bind_eq_ok.mp h
        obtain rfl := Except.ok.inj h
        exact mapErr_ok.mp hVerify
    · -- the wire: what the coordinator aggregates it verifies
      unfold Coordinator.signRawQuorum at h
      dsimp only at h
      split at h
      · cases h
      · split at h
        · cases h
        · obtain ⟨attributed, hRun⟩ := Coordinator.attributed_of_signRawWire W h
          unfold Coordinator.signRawWire at h
          rw [hRun] at h
          obtain rfl := Except.ok.inj h
          unfold Coordinator.signRawWireAttributed at hRun
          dsimp only at hRun
          split at hRun
          · cases hRun
          · split at hRun
            · cases hRun
            · split at hRun
              · cases hRun
              · split at hRun
                · cases hRun
                · exact Coordinator.aggregateShares_verified W hRun

/-! ## The calls -/

/-- `xonly_from_verifying_key`: the encoding has 32 bytes, or one more before them. -/
def xonlyFromVerifyingKey (pubkey : W.PubkeyPackage) : Except DomainError XOnlyPublicKey :=
  match B.verifyingKeyBytes pubkey with
  | .error e => .error (.thresholdError s!"verifying key serialize: {e}")
  | .ok bytes =>
    if bytes.length = 32 then mapErr "xonly" (B.xonlyFromSlice bytes)
    else if bytes.length = 33 then mapErr "xonly" (B.xonlyFromSlice (bytes.drop 1))
    else .error (.thresholdError s!"unexpected verifying key length {bytes.length}")

/-- The key that locks the mesh's deposits. -/
def meshOutputKey (pubkey : W.PubkeyPackage) : Except DomainError XOnlyPublicKey :=
  (xonlyFromVerifyingKey B pubkey).map B.tapTweak

structure InputSignature where
  inputIndex : Nat
  sighashHex : String
  signatureHex : String
  deriving DecidableEq

structure SignedPsbtResult where
  sessionId : String
  dayEpoch : String
  signedPsbt : String
  signatures : List InputSignature
  participants : Nat
  scheme : String
  deriving DecidableEq

structure BitcoinSighashSignature where
  sessionId : String
  dayEpoch : String
  signatureHex : String
  participants : Nat
  scheme : String
  deriving DecidableEq

/-- What surrounds one call: the write of the session id and what the peers answer, the
two readings of the clock with what others do to the rotation between them, the share
slot when the call reads it, and what each raw signature finds. -/
structure TrSignWorld (F : FrostTr) (W : FrostTrCoordinator F) where
  disk : Disk
  acks : Except DomainError (List PrepareAck)
  now : Nat
  meanwhile : List DayCall
  nowRequired : Nat
  slot : Except DomainError (FrostTrShareState F W)
  turn : Nat → RawTurn F W

/-- Is an input the signer's to sign: locked by the mesh key, as its witness UTXO has it, and
without a signature? An input that is given by its whole previous transaction alone is passed
over, whatever key locks it. -/
def isOurs (our : XOnlyPublicKey) (input : PsbtInputMap) : Bool :=
  match input.witnessUtxo with
  | none => false
  | some utxo =>
    isP2tr utxo.scriptPubkey && scriptMatchesOutputKey utxo.scriptPubkey our &&
      input.tapKeySig.isNone

/-- The turn of the loop that signs input `idx`. -/
def signInput (o : FrostTrBitcoinOrchestrator) (tx : Transaction) (prevouts : List TxOut)
    (turn : RawTurn F W) (idx : Nat) (input : PsbtInputMap) :
    Except DomainError (PsbtInputMap × InputSignature) := do
  let sighash ← mapErr "taproot sighash" (B.keySpendSighash tx idx prevouts)
  let signature ← o.signRaw B turn sighash
  let sigBytes ← mapErr "sig serialize" (B.signatureBytes signature)
  let schnorr ← mapErr "schnorr decode" (B.schnorrFromSlice sigBytes)
  .ok ({ input with tapKeySig := some ⟨schnorr, 0⟩ },
    ⟨idx, F.hexEncode sighash, F.hexEncode sigBytes⟩)

/-- The loop over the inputs, from input `idx` on. -/
def signInputs (o : FrostTrBitcoinOrchestrator) (our : XOnlyPublicKey) (tx : Transaction)
    (prevouts : List TxOut) (turn : Nat → RawTurn F W) :
    Nat → List (TxIn × PsbtInputMap) →
      Except DomainError (List (TxIn × PsbtInputMap) × List InputSignature)
  | _, [] => .ok ([], [])
  | idx, (txIn, input) :: inputs => do
    if isOurs our input then
      let signed ← o.signInput B tx prevouts (turn idx) idx input
      let rest ← signInputs o our tx prevouts turn (idx + 1) inputs
      .ok ((txIn, signed.1) :: rest.1, signed.2 :: rest.2)
    else
      let rest ← signInputs o our tx prevouts turn (idx + 1) inputs
      .ok ((txIn, input) :: rest.1, rest.2)

/-- `sign_psbt`, once the session is claimed. -/
def signPsbtClaimed (o : FrostTrBitcoinOrchestrator) (w : TrSignWorld F W)
    (sessionId psbtB64 destination : String) (amountSats : Nat) :
    Except DomainError SignedPsbtResult := do
  let dayEpoch ← o.rotation.rotation.currentDayEpoch w.now
  (Runs.run DayNode.step o.rotation w.meanwhile).rotation.requireEpoch w.nowRequired dayEpoch
  let psbt ← mapErr "invalid psbt" (B.psbtFromStr (strTrim psbtB64))
  if psbt.inputs = [] then .error (.thresholdError "psbt has no inputs")
  else
    o.psbtPolicy.validate (psbt.toPsbt B)
    let snap ← w.slot
    let our ← meshOutputKey B snap.pubkeyPackage
    let paymentSpk ← destinationScriptPubkey B o.network destination
    assertOutputsMatchIntent (psbt.toPsbt B).bindOutputs paymentSpk amountSats
      (some (newP2trTweaked our))
    let prevouts ← PsbtPolicy.collectPrevouts 0 (psbt.toPsbt B).inputs
    let signed ← o.signInputs B our psbt.unsignedTx prevouts w.turn 0 psbt.inputs
    if signed.2 = [] then
      .error (.thresholdError "no Taproot key-path inputs matched mesh deposit key")
    else
      .ok ⟨sessionId, String.ofList dayEpoch.text,
        B.psbtToString { psbt with inputs := signed.1 }, signed.2, snap.minSigners,
        "frost-secp256k1-tr-v3"⟩

/-- `sign_sighash`, once the session is claimed: the slot is read once more for the number
of signers. -/
def signSighashClaimed (o : FrostTrBitcoinOrchestrator) (w : TrSignWorld F W)
    (sessionId : String) (sighash32 : List UInt8) : Except DomainError BitcoinSighashSignature := do
  let dayEpoch ← o.rotation.rotation.currentDayEpoch w.now
  (Runs.run DayNode.step o.rotation w.meanwhile).rotation.requireEpoch w.nowRequired dayEpoch
  let signature ← o.signRaw B (w.turn 0) sighash32
  let sigBytes ← mapErr "sig serialize" (B.signatureBytes signature)
  let snap ← w.slot
  .ok ⟨sessionId, String.ofList dayEpoch.text, F.hexEncode sigBytes, snap.minSigners,
    "frost-secp256k1-tr-v3"⟩

/-- A call: it claims its session, and what comes after may fail. -/
def withClaim {R : Type} (o : FrostTrBitcoinOrchestrator) (w : TrSignWorld F W)
    (sessionId : String) (signed : Except DomainError R) :
    Except DomainError R × FrostTrBitcoinOrchestrator :=
  let claimed := o.antiNonce.claimSession w.disk w.acks sessionId
  match claimed.1 with
  | .error e => (.error e, { o with antiNonce := claimed.2 })
  | .ok () =>
    (signed, { o with
      antiNonce := claimed.2
      rotation := Runs.run DayNode.step o.rotation w.meanwhile })

def signPsbt (o : FrostTrBitcoinOrchestrator) (w : TrSignWorld F W)
    (sessionId psbtB64 destination : String) (amountSats : Nat) :
    Except DomainError SignedPsbtResult × FrostTrBitcoinOrchestrator :=
  o.withClaim w sessionId (o.signPsbtClaimed B w sessionId psbtB64 destination amountSats)

def signSighash (o : FrostTrBitcoinOrchestrator) (w : TrSignWorld F W) (sessionId : String)
    (sighash32 : List UInt8) :
    Except DomainError BitcoinSighashSignature × FrostTrBitcoinOrchestrator :=
  if sighash32.length ≠ 32 then
    (.error (.thresholdError "bitcoin sighash must be exactly 32 bytes"), o)
  else o.withClaim w sessionId (o.signSighashClaimed B w sessionId sighash32)

/-! ## What a call does to the store -/

/-- An answer is of a claim that went through, whatever came after it. -/
theorem withClaim_ok_iff {R : Type} {o : FrostTrBitcoinOrchestrator} {w : TrSignWorld F W}
    {sessionId : String} {signed : Except DomainError R} {r : R} :
    (o.withClaim w sessionId signed).1 = .ok r ↔
      (o.antiNonce.claimSession w.disk w.acks sessionId).1 = .ok () ∧ signed = .ok r := by
  unfold withClaim
  dsimp only
  cases (o.antiNonce.claimSession w.disk w.acks sessionId).1 with
  | error e => simp
  | ok => simp

/-- The store is that of the claim, also where nothing is signed. -/
theorem withClaim_antiNonce {R : Type} (o : FrostTrBitcoinOrchestrator) (w : TrSignWorld F W)
    (sessionId : String) (signed : Except DomainError R) :
    (o.withClaim w sessionId signed).2.antiNonce =
      (o.antiNonce.claimSession w.disk w.acks sessionId).2 := by
  unfold withClaim
  dsimp only
  cases (o.antiNonce.claimSession w.disk w.acks sessionId).1 with
  | error e => rfl
  | ok => rfl

/-! ## What is signed -/

/-- The inputs from `idx` on that are the signer's to sign, by their witness UTXOs. -/
def ourInputs (our : XOnlyPublicKey) (idx : Nat) (inputs : List (TxIn × PsbtInputMap)) :
    List Nat :=
  ((inputs.zipIdx idx).filter fun e => isOurs our e.1.2).map Prod.snd

/-- A signature of the answer: it verifies, for the sighash of its input, under the key of
the slot it was made from, and the map of the input carries it. -/
def InputSigned (tx : Transaction) (prevouts : List TxOut) (turn : RawTurn F W)
    (s : InputSignature) (before after : PsbtInputMap) : Prop :=
  ∃ snap sighash signature sigBytes schnorr,
    turn.slot = .ok snap ∧
    B.keySpendSighash tx s.inputIndex prevouts = .ok sighash ∧
    W.verify (W.tweakPubkey snap.pubkeyPackage) sighash signature = .ok () ∧
    B.signatureBytes signature = .ok sigBytes ∧
    B.schnorrFromSlice sigBytes = .ok schnorr ∧
    after = { before with tapKeySig := some ⟨schnorr, 0⟩ } ∧
    s.sighashHex = F.hexEncode sighash ∧ s.signatureHex = F.hexEncode sigBytes

/-- What the loop makes of the inputs from `idx` on: those that are ours carry a new
signature, and the others are as they were. -/
structure InputsSigned (our : XOnlyPublicKey) (tx : Transaction) (prevouts : List TxOut)
    (turn : Nat → RawTurn F W) (idx : Nat) (inputs outs : List (TxIn × PsbtInputMap))
    (sigs : List InputSignature) : Prop where
  sameInputs : outs.map Prod.fst = inputs.map Prod.fst
  signed : sigs.map InputSignature.inputIndex = ourInputs our idx inputs
  others : ∀ (i : Nat) (e : TxIn × PsbtInputMap),
    inputs[i]? = some e → isOurs our e.2 = false → outs[i]? = some e
  each : ∀ s ∈ sigs, ∃ i txIn before after, s.inputIndex = idx + i ∧
    inputs[i]? = some (txIn, before) ∧ isOurs our before = true ∧
    outs[i]? = some (txIn, after) ∧
    InputSigned B tx prevouts (turn s.inputIndex) s before after

/-- What a signed PSBT is to the PSBT that was sent in, for the intent and the key. -/
structure PsbtSigned (o : FrostTrBitcoinOrchestrator) (w : TrSignWorld F W)
    (destination : String) (amountSats : Nat) (our : XOnlyPublicKey) (p q : TrPsbt)
    (sigs : List InputSignature) : Prop where
  sameTx : q.unsignedTx = p.unsignedTx
  sameOthers : q.others = p.others
  policy : o.psbtPolicy.validate (p.toPsbt B) = .ok ()
  bound : ∃ paymentSpk, destinationScriptPubkey B o.network destination = .ok paymentSpk ∧
    OutputsBound (p.toPsbt B).bindOutputs paymentSpk amountSats (some (newP2trTweaked our))
  inputs : ∃ prevouts, PsbtPolicy.collectPrevouts 0 (p.toPsbt B).inputs = .ok prevouts ∧
    InputsSigned B our p.unsignedTx prevouts w.turn 0 p.inputs q.inputs sigs
  signed : sigs ≠ []

section Signed

variable {B} {o : FrostTrBitcoinOrchestrator} {our : XOnlyPublicKey} {tx : Transaction}
  {prevouts : List TxOut}

theorem signInput_ok {turn : RawTurn F W} {idx : Nat} {input after : PsbtInputMap}
    {s : InputSignature} (h : o.signInput B tx prevouts turn idx input = .ok (after, s)) :
    s.inputIndex = idx ∧ InputSigned B tx prevouts turn s input after := by
  unfold signInput at h
  obtain ⟨sighash, hHash, h⟩ := Results.bind_eq_ok.mp h
  obtain ⟨signature, hRaw, h⟩ := Results.bind_eq_ok.mp h
  obtain ⟨sigBytes, hBytes, h⟩ := Results.bind_eq_ok.mp h
  obtain ⟨schnorr, hSchnorr, h⟩ := Results.bind_eq_ok.mp h
  obtain ⟨rfl, rfl⟩ := Prod.mk.inj (Except.ok.inj h)
  obtain ⟨snap, hSlot, hVerify⟩ := signRaw_verified B hRaw
  exact ⟨rfl, snap, sighash, signature, sigBytes, schnorr, hSlot, mapErr_ok.mp hHash, hVerify,
    mapErr_ok.mp hBytes, mapErr_ok.mp hSchnorr, rfl, rfl, rfl⟩

theorem ourInputs_cons (our : XOnlyPublicKey) (idx : Nat) (e : TxIn × PsbtInputMap)
    (inputs : List (TxIn × PsbtInputMap)) :
    ourInputs our idx (e :: inputs) =
      (if isOurs our e.2 then [idx] else []) ++ ourInputs our (idx + 1) inputs := by
  unfold ourInputs
  rw [List.zipIdx_cons, List.filter_cons]
  cases isOurs our e.2 <;> rfl

/-- An input that is passed over. -/
theorem InputsSigned.left {turn : Nat → RawTurn F W} {idx : Nat} {e : TxIn × PsbtInputMap}
    {inputs outs : List (TxIn × PsbtInputMap)} {sigs : List InputSignature}
    (h : InputsSigned B our tx prevouts turn (idx + 1) inputs outs sigs)
    (hOther : isOurs our e.2 = false) :
    InputsSigned B our tx prevouts turn idx (e :: inputs) (e :: outs) sigs where
  sameInputs := by rw [List.map_cons, List.map_cons, h.sameInputs]
  signed := by
    rw [ourInputs_cons, hOther, h.signed]
    rfl
  others i e' hAt hOther' := by
    cases i with
    | zero => exact hAt
    | succ i => exact h.others i e' hAt hOther'
  each s hs := by
    obtain ⟨i, txIn, before, after, hIndex, hAt, hRest⟩ := h.each s hs
    exact ⟨i + 1, txIn, before, after, by omega, hAt, hRest⟩

/-- An input that is signed. -/
theorem InputsSigned.sign {turn : Nat → RawTurn F W} {idx : Nat} {txIn : TxIn}
    {before after : PsbtInputMap} {s : InputSignature}
    {inputs outs : List (TxIn × PsbtInputMap)} {sigs : List InputSignature}
    (h : InputsSigned B our tx prevouts turn (idx + 1) inputs outs sigs)
    (hOurs : isOurs our before = true) (hIndex : s.inputIndex = idx)
    (hSigned : InputSigned B tx prevouts (turn idx) s before after) :
    InputsSigned B our tx prevouts turn idx ((txIn, before) :: inputs) ((txIn, after) :: outs)
      (s :: sigs) where
  sameInputs := by rw [List.map_cons, List.map_cons, h.sameInputs]
  signed := by
    rw [ourInputs_cons, hOurs, List.map_cons, h.signed, hIndex]
    rfl
  others i e' hAt hOther := by
    cases i with
    | zero =>
      obtain rfl := Option.some.inj hAt
      rw [hOurs] at hOther
      cases hOther
    | succ i => exact h.others i e' hAt hOther
  each t ht := by
    rcases List.mem_cons.mp ht with rfl | hRest
    · exact ⟨0, txIn, before, after, hIndex, rfl, hOurs, rfl, hIndex ▸ hSigned⟩
    · obtain ⟨i, txIn', before', after', hIndex', hAt, hEach⟩ := h.each t hRest
      exact ⟨i + 1, txIn', before', after', by omega, hAt, hEach⟩

/-- A loop that went through has signed the inputs that were to be signed and left the others
as they were. By induction on the inputs, the place of the first of them counted along. -/
theorem signInputs_ok {turn : Nat → RawTurn F W} {idx : Nat}
    {inputs outs : List (TxIn × PsbtInputMap)} {sigs : List InputSignature}
    (h : o.signInputs B our tx prevouts turn idx inputs = .ok (outs, sigs)) :
    InputsSigned B our tx prevouts turn idx inputs outs sigs := by
  -- along the loop over the inputs, each with its own turn
  induction inputs generalizing idx outs sigs with
  | nil =>
    obtain ⟨rfl, rfl⟩ := Prod.mk.inj (Except.ok.inj h)
    exact ⟨rfl, rfl, nofun, nofun⟩
  | cons e inputs ih =>
    obtain ⟨txIn, input⟩ := e
    unfold signInputs at h
    split at h
    · rename_i hOurs
      obtain ⟨⟨after, s⟩, hInput, h⟩ := Results.bind_eq_ok.mp h
      obtain ⟨⟨outs', sigs'⟩, hRest, h⟩ := Results.bind_eq_ok.mp h
      obtain ⟨rfl, rfl⟩ := Prod.mk.inj (Except.ok.inj h)
      obtain ⟨hIndex, hSigned⟩ := signInput_ok hInput
      exact (ih hRest).sign hOurs hIndex hSigned
    · rename_i hOther
      obtain ⟨⟨outs', sigs'⟩, hRest, h⟩ := Results.bind_eq_ok.mp h
      obtain ⟨rfl, rfl⟩ := Prod.mk.inj (Except.ok.inj h)
      exact (ih hRest).left (Bool.eq_false_iff.mpr hOther)

theorem mem_ourInputs {i idx : Nat} {inputs : List (TxIn × PsbtInputMap)} :
    idx + i ∈ ourInputs our idx inputs ↔
      ∃ e, inputs[i]? = some e ∧ isOurs our e.2 = true := by
  unfold ourInputs
  rw [List.mem_map]
  constructor
  · rintro ⟨⟨e, j⟩, hMem, hIndex⟩
    obtain ⟨hAt, hOurs⟩ := List.mem_filter.mp hMem
    obtain ⟨hLe, hGet⟩ := List.mk_mem_zipIdx_iff_le_and_getElem?_sub.mp hAt
    have hPlace : j - idx = i := by
      dsimp only at hIndex
      omega
    exact ⟨e, hPlace ▸ hGet, hOurs⟩
  · rintro ⟨e, hAt, hOurs⟩
    refine ⟨(e, idx + i), List.mem_filter.mpr ⟨?_, hOurs⟩, rfl⟩
    rw [List.mk_mem_zipIdx_iff_le_and_getElem?_sub, Nat.add_sub_cancel_left]
    exact ⟨Nat.le_add_right .., hAt⟩

/-- Nothing is left to sign of what the loop has signed. -/
theorem InputsSigned.noneLeft {turn : Nat → RawTurn F W}
    {inputs outs : List (TxIn × PsbtInputMap)} {sigs : List InputSignature}
    (h : InputsSigned B our tx prevouts turn 0 inputs outs sigs) : ourInputs our 0 outs = [] := by
  rw [List.eq_nil_iff_forall_not_mem]
  intro i hMem
  rw [← Nat.zero_add i] at hMem
  obtain ⟨e, hOut, hOurs⟩ := mem_ourInputs.mp hMem
  -- the input it came from was not ours, or is signed
  have hLength : outs.length = inputs.length := by
    rw [← List.length_map (f := Prod.fst), h.sameInputs, List.length_map]
  obtain ⟨hLt, -⟩ := List.getElem?_eq_some_iff.mp hOut
  obtain ⟨e', hIn⟩ : ∃ e', inputs[i]? = some e' :=
    ⟨_, List.getElem?_eq_getElem (hLength ▸ hLt)⟩
  cases hBefore : isOurs our e'.2 with
  | false =>
    have hSame := h.others i e' hIn hBefore
    rw [hOut] at hSame
    obtain rfl := Option.some.inj hSame
    rw [hOurs] at hBefore
    cases hBefore
  | true =>
    have hIndex : 0 + i ∈ sigs.map InputSignature.inputIndex := by
      rw [h.signed]
      exact mem_ourInputs.mpr ⟨e', hIn, hBefore⟩
    obtain ⟨s, hs, hPlace⟩ := List.mem_map.mp hIndex
    obtain ⟨j, txIn, before, after, hAt, -, -, hAfter, hSigned⟩ := h.each s hs
    have hSame : j = i := by omega
    rw [hSame, hOut] at hAfter
    obtain rfl := Option.some.inj hAfter
    obtain ⟨snap, sighash, signature, sigBytes, schnorr, -, -, -, -, -, rfl, -, -⟩ := hSigned
    -- an input with a signature is not ours
    unfold isOurs at hOurs
    split at hOurs
    · cases hOurs
    · simp at hOurs

end Signed

section Calls

variable {B} {o : FrostTrBitcoinOrchestrator} {w : TrSignWorld F W}
  {sessionId psbtB64 destination : String} {amountSats : Nat} {r : SignedPsbtResult}

/-- What an answer is to the request: the steps before the loop went through, and the loop
signed. -/
theorem signPsbt_ok (h : (o.signPsbt B w sessionId psbtB64 destination amountSats).1 = .ok r) :
    ∃ p q snap our, B.psbtFromStr (strTrim psbtB64) = .ok p ∧ w.slot = .ok snap ∧
      meshOutputKey B snap.pubkeyPackage = .ok our ∧
      r = ⟨sessionId, String.ofList o.rotation.rotation.current.text, B.psbtToString q,
        r.signatures, snap.minSigners, "frost-secp256k1-tr-v3"⟩ ∧
      PsbtSigned B o w destination amountSats our p q r.signatures := by
  obtain ⟨-, hSigned⟩ := withClaim_ok_iff.mp h
  unfold signPsbtClaimed at hSigned
  -- the steps one after another, each of which may end the call
  obtain ⟨dayEpoch, hDay, hSigned⟩ := Results.bind_eq_ok.mp hSigned
  obtain ⟨⟨⟩, -, hSigned⟩ := Results.bind_eq_ok.mp hSigned
  obtain ⟨p, hDecode, hSigned⟩ := Results.bind_eq_ok.mp hSigned
  split at hSigned
  · cases hSigned
  · obtain ⟨⟨⟩, hPolicy, hSigned⟩ := Results.bind_eq_ok.mp hSigned
    obtain ⟨snap, hSlot, hSigned⟩ := Results.bind_eq_ok.mp hSigned
    obtain ⟨our, hOur, hSigned⟩ := Results.bind_eq_ok.mp hSigned
    obtain ⟨paymentSpk, hPayment, hSigned⟩ := Results.bind_eq_ok.mp hSigned
    obtain ⟨⟨⟩, hBound, hSigned⟩ := Results.bind_eq_ok.mp hSigned
    obtain ⟨prevouts, hPrevouts, hSigned⟩ := Results.bind_eq_ok.mp hSigned
    obtain ⟨⟨outs, sigs⟩, hLoop, hSigned⟩ := Results.bind_eq_ok.mp hSigned
    dsimp only at hSigned
    split at hSigned
    · cases hSigned
    · rename_i hSome
      obtain rfl := Except.ok.inj hSigned
      have hInputs := signInputs_ok hLoop
      obtain rfl := QuorumDailyRotation.currentDayEpoch_ok hDay
      refine ⟨p, { p with inputs := outs }, snap, our, mapErr_ok.mp hDecode, hSlot, hOur, rfl, ?_⟩
      exact {
        sameTx := by
          unfold TrPsbt.unsignedTx
          dsimp only
          rw [hInputs.sameInputs]
        sameOthers := rfl
        policy := hPolicy
        bound := ⟨paymentSpk, hPayment, assertOutputsMatchIntent_ok.mp hBound⟩
        inputs := ⟨prevouts, hPrevouts, hInputs⟩
        signed := hSome }

end Calls

/-! ## What is accepted -/

/-- What the encodings promise: an input of the transaction has a sighash over as many
prevouts, and what FROST has signed is encoded in 64 bytes. -/
structure BitcoinLaws : Prop where
  sighash : ∀ tx idx prevouts, idx < tx.input.length → prevouts.length = tx.input.length →
    ∃ sighash, B.keySpendSighash tx idx prevouts = .ok sighash
  signature : ∀ pubkey message signature, W.verify pubkey message signature = .ok () →
    ∃ sigBytes schnorr, B.signatureBytes signature = .ok sigBytes ∧
      B.schnorrFromSlice sigBytes = .ok schnorr

/-- The holders of the key sign whatever they are asked to. -/
def Signs (o : FrostTrBitcoinOrchestrator) (turn : RawTurn F W) : Prop :=
  ∀ message, ∃ signature, o.signRaw B turn message = .ok signature

/-- The day is the node's at both readings of the clock. -/
def DayHolds (o : FrostTrBitcoinOrchestrator) (w : TrSignWorld F W) : Prop :=
  ∃ dayEpoch, o.rotation.rotation.currentDayEpoch w.now = .ok dayEpoch ∧
    (Runs.run DayNode.step o.rotation w.meanwhile).rotation.requireEpoch w.nowRequired dayEpoch =
      .ok ()

section Accepted

variable {B} {o : FrostTrBitcoinOrchestrator} {our : XOnlyPublicKey} {tx : Transaction}
  {prevouts : List TxOut}

theorem signInput_signs (hLaws : BitcoinLaws B) {turn : RawTurn F W} (hTurn : Signs B o turn)
    {idx : Nat} (hIdx : idx < tx.input.length) (hPrevouts : prevouts.length = tx.input.length)
    (input : PsbtInputMap) : ∃ signed, o.signInput B tx prevouts turn idx input = .ok signed := by
  obtain ⟨sighash, hHash⟩ := hLaws.sighash tx idx prevouts hIdx hPrevouts
  obtain ⟨signature, hRaw⟩ := hTurn sighash
  obtain ⟨snap, -, hVerify⟩ := signRaw_verified B hRaw
  obtain ⟨sigBytes, schnorr, hBytes, hSchnorr⟩ := hLaws.signature _ _ _ hVerify
  exact ⟨_, Results.bind_eq_ok.mpr ⟨sighash, mapErr_ok.mpr hHash,
    Results.bind_eq_ok.mpr ⟨signature, hRaw,
      Results.bind_eq_ok.mpr ⟨sigBytes, mapErr_ok.mpr hBytes,
        Results.bind_eq_ok.mpr ⟨schnorr, mapErr_ok.mpr hSchnorr, rfl⟩⟩⟩⟩⟩

theorem signInputs_signs (hLaws : BitcoinLaws B) {turn : Nat → RawTurn F W}
    (hTurns : ∀ idx, Signs B o (turn idx)) (hPrevouts : prevouts.length = tx.input.length)
    {idx : Nat} {inputs : List (TxIn × PsbtInputMap)}
    (hWithin : idx + inputs.length ≤ tx.input.length) :
    ∃ outs sigs, o.signInputs B our tx prevouts turn idx inputs = .ok (outs, sigs) := by
  induction inputs generalizing idx with
  | nil => exact ⟨[], [], rfl⟩
  | cons e inputs ih =>
    obtain ⟨txIn, input⟩ := e
    rw [List.length_cons] at hWithin
    have hNext : idx + 1 + inputs.length ≤ tx.input.length := by omega
    obtain ⟨outs, sigs, hRest⟩ := ih hNext
    unfold signInputs
    split
    · have hIdx : idx < tx.input.length := by omega
      obtain ⟨signed, hInput⟩ := signInput_signs hLaws (hTurns idx) hIdx hPrevouts input
      exact ⟨_, _, Results.bind_eq_ok.mpr ⟨signed, hInput,
        Results.bind_eq_ok.mpr ⟨(outs, sigs), hRest, rfl⟩⟩⟩
    · exact ⟨_, _, Results.bind_eq_ok.mpr ⟨(outs, sigs), hRest, rfl⟩⟩

/-- What the policy accepts has a prevout for each input. -/
theorem collectPrevouts_of_validate {policy : PsbtPolicy} {psbt : Psbt}
    (h : policy.validate psbt = .ok ()) :
    ∃ outs, PsbtPolicy.collectPrevouts 0 psbt.inputs = .ok outs ∧
      outs.length = psbt.inputs.length := by
  cases hOuts : PsbtPolicy.collectPrevouts 0 psbt.inputs with
  | ok outs => exact ⟨outs, rfl, (PsbtPolicy.collectPrevouts_ok_iff.mp hOuts).length_eq.symm⟩
  | error e =>
    -- the policy has added up their values
    obtain ⟨sats, hSats, -⟩ := PsbtPolicy.validate_ok h
    obtain ⟨e', hFails⟩ := PsbtPolicy.inSats_collectPrevouts.2 e hOuts
    rw [hSats] at hFails
    cases hFails

/-- What a call needs beside its session and the day: a PSBT within the policy, bound to the
intent, with an input of ours. -/
def Signable (B : BitcoinTr F W) (o : FrostTrBitcoinOrchestrator) (w : TrSignWorld F W)
    (psbtB64 destination : String) (amountSats : Nat) : Prop :=
  ∃ p snap our paymentSpk, B.psbtFromStr (strTrim psbtB64) = .ok p ∧ w.slot = .ok snap ∧
    meshOutputKey B snap.pubkeyPackage = .ok our ∧
    o.psbtPolicy.validate (p.toPsbt B) = .ok () ∧
    destinationScriptPubkey B o.network destination = .ok paymentSpk ∧
    OutputsBound (p.toPsbt B).bindOutputs paymentSpk amountSats (some (newP2trTweaked our)) ∧
    ourInputs our 0 p.inputs ≠ []

/-- A call that has all it needs signs. -/
theorem signPsbt_signs (hLaws : BitcoinLaws B) {w : TrSignWorld F W}
    (hTurns : ∀ idx, Signs B o (w.turn idx)) {sessionId psbtB64 destination : String}
    {amountSats : Nat} (hClaim : (o.antiNonce.claimSession w.disk w.acks sessionId).1 = .ok ())
    (hDays : DayHolds o w) (hSignable : Signable B o w psbtB64 destination amountSats) :
    ∃ r, (o.signPsbt B w sessionId psbtB64 destination amountSats).1 = .ok r := by
  obtain ⟨dayEpoch, hDay, hRequired⟩ := hDays
  obtain ⟨p, snap, our, paymentSpk, hDecode, hSlot, hOur, hPolicy, hPayment, hBound, hSome⟩ :=
    hSignable
  obtain ⟨prevouts, hPrevouts, hLength⟩ := collectPrevouts_of_validate hPolicy
  have hLengthTx : prevouts.length = p.unsignedTx.input.length := by
    rw [hLength]
    unfold TrPsbt.toPsbt TrPsbt.unsignedTx
    rw [List.length_map, List.length_map]
  have hWithin : 0 + p.inputs.length ≤ p.unsignedTx.input.length := by
    unfold TrPsbt.unsignedTx
    rw [List.length_map]
    omega
  obtain ⟨outs, sigs, hLoop⟩ : ∃ outs sigs, o.signInputs B our p.unsignedTx prevouts w.turn 0
      p.inputs = .ok (outs, sigs) := signInputs_signs hLaws hTurns hLengthTx hWithin
  -- an input that is ours has its signature, so that the list is not empty
  have hSigs : sigs ≠ [] := by
    rintro rfl
    exact hSome (signInputs_ok hLoop).signed.symm
  have hInputs : p.inputs ≠ [] := by
    intro hNil
    rw [hNil] at hSome
    exact hSome rfl
  refine ⟨⟨sessionId, String.ofList dayEpoch.text, B.psbtToString { p with inputs := outs }, sigs,
    snap.minSigners, "frost-secp256k1-tr-v3"⟩, withClaim_ok_iff.mpr ⟨hClaim,
      Results.bind_eq_ok.mpr ⟨dayEpoch, hDay, Results.bind_eq_ok.mpr ⟨(), hRequired,
        Results.bind_eq_ok.mpr ⟨p, mapErr_ok.mpr hDecode, ?_⟩⟩⟩⟩⟩
  rw [if_neg hInputs]
  refine Results.bind_eq_ok.mpr ⟨(), hPolicy, Results.bind_eq_ok.mpr ⟨snap, hSlot,
    Results.bind_eq_ok.mpr ⟨our, hOur, Results.bind_eq_ok.mpr ⟨paymentSpk, hPayment,
      Results.bind_eq_ok.mpr ⟨(), assertOutputsMatchIntent_ok.mpr hBound,
        Results.bind_eq_ok.mpr ⟨prevouts, hPrevouts,
          Results.bind_eq_ok.mpr ⟨(outs, sigs), hLoop, ?_⟩⟩⟩⟩⟩⟩⟩
  exact if_neg hSigs

/-- A call that signs had all it needs. -/
theorem signable_of_signPsbt {w : TrSignWorld F W} {sessionId psbtB64 destination : String}
    {amountSats : Nat} {r : SignedPsbtResult}
    (h : (o.signPsbt B w sessionId psbtB64 destination amountSats).1 = .ok r) :
    DayHolds o w ∧ Signable B o w psbtB64 destination amountSats := by
  obtain ⟨-, hSigned⟩ := withClaim_ok_iff.mp h
  obtain ⟨p, q, snap, our, hDecode, hSlot, hOur, -, hSpend⟩ := signPsbt_ok h
  obtain ⟨paymentSpk, hPayment, hBound⟩ := hSpend.bound
  obtain ⟨prevouts, -, hInputs⟩ := hSpend.inputs
  obtain ⟨dayEpoch, hDay, hSigned⟩ := Results.bind_eq_ok.mp hSigned
  obtain ⟨⟨⟩, hRequired, -⟩ := Results.bind_eq_ok.mp hSigned
  refine ⟨⟨dayEpoch, hDay, hRequired⟩, p, snap, our, paymentSpk, hDecode, hSlot, hOur,
    hSpend.policy, hPayment, hBound, ?_⟩
  intro hNone
  -- there is a signature, and each is of an input of ours
  rw [← hInputs.signed] at hNone
  exact hSpend.signed (List.map_eq_nil_iff.mp hNone)

end Accepted

/-! ## Local shares -/

/-- Local shares that reach the threshold sign whatever they are asked to. -/
theorem signs_local {K : Keyset F W} {members : List F.Identifier} (hK : K.Correct members)
    (hNodup : members.Nodup) (hLength : K.threshold ≤ members.length)
    {o : FrostTrBitcoinOrchestrator} (hLocal : o.allowLocalMultisign = true) {turn : RawTurn F W}
    (hSlot : turn.slot = .ok ⟨members.map fun i => (i, K.key i), K.pubkey, K.threshold⟩) :
    Signs B o turn := by
  intro message
  set keys := members.map fun i => (i, K.key i) with hKeys
  set signers := (sortKeys keys).take K.threshold with hSigners
  have hSorted : (sortKeys keys).Perm keys := List.mergeSort_perm ..
  have hKeysLength : keys.length = members.length := List.length_map ..
  -- the signers are members, each with its own key, and as many as the threshold
  have hSub : signers ⊆ keys := fun e he => hSorted.subset (List.mem_of_mem_take he)
  have hIds : signers.map Prod.fst ⊆ members := by
    intro i hi
    obtain ⟨e, he, rfl⟩ := List.mem_map.mp hi
    obtain ⟨j, hj, rfl⟩ := List.mem_map.mp (hSub he)
    exact hj
  have hOwn : signers = (signers.map Prod.fst).map fun i => (i, K.key i) := by
    rw [List.map_map]
    refine (List.map_id signers).symm.trans (List.map_congr_left fun e he => ?_)
    obtain ⟨j, -, rfl⟩ := List.mem_map.mp (hSub he)
    rfl
  have hFst : keys.map Prod.fst = members := by
    rw [hKeys, List.map_map]
    exact List.map_id members
  have hIdsNodup : (signers.map Prod.fst).Nodup := by
    have hAll : ((sortKeys keys).map Prod.fst).Nodup := by
      rw [(hSorted.map Prod.fst).nodup_iff, hFst]
      exact hNodup
    rw [hSigners, List.map_take]
    exact hAll.sublist (List.take_sublist ..)
  have hCount : (signers.map Prod.fst).length = K.threshold := by
    rw [List.length_map, hSigners, List.length_take, hSorted.length_eq, hKeysLength]
    omega
  obtain ⟨s, hShares, hAggregates⟩ :=
    hK.shares hIdsNodup hIds (le_of_eq hCount.symm) turn.localRandomness message
  obtain ⟨signature, hAggregate, hVerify⟩ := hAggregates _ (List.Perm.refl _)
  refine ⟨signature, ?_⟩
  unfold signRaw
  rw [hSlot]
  dsimp only
  rw [if_pos hLocal]
  unfold signRawLocal
  have hEnough : ¬ keys.length < K.threshold := by omega
  rw [if_neg hEnough]
  dsimp only
  rw [← hSigners, hOwn]
  -- the package of these signers, their shares, and the signature they come to
  have hPackage : (((signers.map Prod.fst).map fun i => (i, K.key i)).map fun e =>
      (e.1, (F.commit (F.tweak e.2) (turn.localRandomness e.1)).2)) =
        (K.package turn.localRandomness message (signers.map Prod.fst)).commitments :=
    List.map_map ..
  rw [hPackage]
  refine Results.bind_eq_ok.mpr ⟨(signers.map Prod.fst).map fun i => (i, s i), ?_,
    Results.bind_eq_ok.mpr ⟨signature, mapErr_ok.mpr hAggregate,
      Results.bind_eq_ok.mpr ⟨(), mapErr_ok.mpr hVerify, rfl⟩⟩⟩
  refine Results.mapM_map_ok fun i hi => ?_
  exact Results.map_eq_ok.mpr ⟨s i, mapErr_ok.mpr (hShares i hi), rfl⟩

/-! ## A signer in plain FROST -/

/-- A plain signature, the message, with zeros up to 64 bytes. -/
def plainSignatureBytes (signature : List UInt8) : List UInt8 :=
  (signature ++ List.replicate 64 0).take 64

theorem length_plainSignatureBytes (signature : List UInt8) :
    (plainSignatureBytes signature).length = 64 := by
  rw [plainSignatureBytes, List.length_take, List.length_append, List.length_replicate]
  omega

/-- Encodings in plain FROST: a sighash is 32 times the place of its input, the mesh key is
the first secret, 32 times, and two PSBTs have a text. -/
def plainBitcoin (unsigned signed : TrPsbt) : BitcoinTr plainFrost plainCoordinator where
  parseAddress dest :=
    if dest = "tb1qpayment" then
      some fun network => if network = .testnet3 then some paymentScript else none
    else none
  psbtFromStr text :=
    if text = "unsigned" then .ok unsigned
    else if text = "signed" then .ok signed
    else .error "invalid base64"
  psbtToString p := if p = unsigned then "unsigned" else "signed"
  weight _ := 400
  keySpendSighash _ idx _ := .ok (List.replicate 32 (UInt8.ofNat idx))
  verifyingKeyBytes pubkey := .ok (List.replicate 32 ((pubkey : UInt8 → UInt8) 0))
  xonlyFromSlice bytes :=
    if h : bytes.length = 32 then .ok ⟨bytes, h⟩ else .error "malformed public key"
  tapTweak key := key
  signatureBytes signature := .ok (plainSignatureBytes signature)
  schnorrFromSlice bytes :=
    if h : bytes.length = 64 then .ok ⟨bytes, h⟩ else .error "malformed signature"
  sha2First16 := List.take 16

theorem plainBitcoin_laws (unsigned signed : TrPsbt) :
    BitcoinLaws (plainBitcoin unsigned signed) where
  sighash _ _ _ _ _ := ⟨_, rfl⟩
  signature _ _ signature _ :=
    ⟨_, _, rfl, dif_pos (length_plainSignatureBytes signature)⟩

/-- The mesh key of the secret 0xbb. -/
def plainMeshKey : XOnlyPublicKey := ⟨List.replicate 32 0xbb, rfl⟩

/-- An input of the mesh, and one of somebody else; a payment of 100000 sats with change. -/
def plainUnsigned : TrPsbt where
  version := 2
  lockTime := 0
  inputs :=
    [(⟨⟨[1], 0⟩, 0xfffffffd⟩, ⟨some ⟨[0x00], 600500⟩, none, none, []⟩),
      (⟨⟨[2], 1⟩, 0xfffffffd⟩, ⟨some ⟨meshChangeScript, 500000⟩, none, none, []⟩)]
  outputs := [⟨paymentScript, 100000⟩, ⟨meshChangeScript, 1000000⟩]
  others := []

/-- Its second input with the signature of the sighash. -/
def plainSigned : TrPsbt := { plainUnsigned with
  inputs :=
    [(⟨⟨[1], 0⟩, 0xfffffffd⟩, ⟨some ⟨[0x00], 600500⟩, none, none, []⟩),
      (⟨⟨[2], 1⟩, 0xfffffffd⟩, ⟨some ⟨meshChangeScript, 500000⟩, none,
        some ⟨⟨List.replicate 32 1 ++ List.replicate 32 0, rfl⟩, 0⟩, []⟩)] }

/-- A node with two local shares, which has claimed no session, on its first day. -/
def plainSigner : FrostTrBitcoinOrchestrator where
  antiNonce := ⟨PersistedAntiNonce.openStore .empty, none⟩
  rotation := DayNode.boot DayNode.soloBoot
  network := .testnet3
  allowLocalMultisign := true
  localNodeId := "vault-1"
  cosign := false
  psbtPolicy := .labDefaults

/-- The secrets of the two shares. -/
def plainSecret (id : UInt8) : UInt8 := if id = 0 then 0xbb else id

def plainMembers : List UInt8 := [1, 2]

def plainShares : FrostTrShareState plainFrost plainCoordinator where
  keyPackages := plainMembers.map fun i => (i, (plainKeyset plainSecret 2).key i)
  pubkeyPackage := plainSecret
  minSigners := 2

/-- The hour of the boot, with nobody else about. -/
def plainSignWorld : TrSignWorld plainFrost plainCoordinator where
  disk := .ok
  acks := .ok []
  now := 1704067200
  meanwhile := []
  nowRequired := 1704067200
  slot := .ok plainShares
  turn _ := ⟨.ok plainShares, ⟨fun _ => .ok [], fun _ => .ok []⟩, 0, fun _ => 7⟩

theorem plainMembers_nodup : plainMembers.Nodup := by decide

theorem signs_plainSigner (idx : Nat) :
    Signs (plainBitcoin plainUnsigned plainSigned) plainSigner (plainSignWorld.turn idx) :=
  signs_local _ (plainKeyset_correct (le_refl 2) plainMembers) plainMembers_nodup (le_refl 2)
    rfl rfl

/-- The plain PSBT has what it takes. -/
theorem signable_plain : Signable (plainBitcoin plainUnsigned plainSigned) plainSigner
    plainSignWorld "unsigned" "tb1qpayment" 100000 := by
  refine ⟨plainUnsigned, plainShares, plainMeshKey, paymentScript, by decide +kernel, rfl,
    by decide +kernel, by decide +kernel, by decide +kernel, ?_, by decide +kernel⟩
  exact assertOutputsMatchIntent_ok.mp (by decide +kernel)

theorem dayHolds_plain : DayHolds plainSigner plainSignWorld :=
  ⟨⟨"2024-01-01".toList⟩, by decide +kernel, by decide +kernel⟩

/-- The plain signer signs the plain PSBT. -/
theorem signPsbt_plain : ∃ r, (plainSigner.signPsbt (plainBitcoin plainUnsigned plainSigned)
    plainSignWorld "withdraw-1" "unsigned" "tb1qpayment" 100000).1 = .ok r :=
  signPsbt_signs (plainBitcoin_laws plainUnsigned plainSigned) signs_plainSigner rfl
    dayHolds_plain signable_plain

theorem signRawLocal_plain (message : List UInt8) :
    signRawLocal plainShares (fun _ => 7) message = .ok message := by
  have hSorted : sortKeys plainShares.keyPackages = plainShares.keyPackages :=
    List.mergeSort_of_pairwise (by decide)
  have hVerify : plainCoordinator.verify plainSecret message message = .ok () := if_pos rfl
  unfold signRawLocal
  rw [hSorted]
  refine Results.bind_eq_ok.mpr ⟨[((1 : UInt8), (8 : UInt8)), ((2 : UInt8), (9 : UInt8))], rfl,
    Results.bind_eq_ok.mpr ⟨message, rfl, Results.bind_eq_ok.mpr ⟨(), mapErr_ok.mpr hVerify, rfl⟩⟩⟩

/-- The second input of the plain PSBT is signed, and the first is left. -/
theorem signInputs_plain (prevouts : List TxOut) :
    plainSigner.signInputs (plainBitcoin plainUnsigned plainSigned) plainMeshKey
      plainUnsigned.unsignedTx prevouts plainSignWorld.turn 0 plainUnsigned.inputs =
        .ok (plainSigned.inputs, [⟨1, hexText (List.replicate 32 1),
          hexText (List.replicate 32 1 ++ List.replicate 32 0)⟩]) := by
  have hRaw : plainSigner.signRaw (plainBitcoin plainUnsigned plainSigned) (plainSignWorld.turn 1)
      (List.replicate 32 1) = .ok (List.replicate 32 1 : List UInt8) := signRawLocal_plain _
  have hInput : plainSigner.signInput (plainBitcoin plainUnsigned plainSigned)
      plainUnsigned.unsignedTx prevouts (plainSignWorld.turn 1) 1
      ⟨some ⟨meshChangeScript, 500000⟩, none, none, []⟩ = .ok
        (⟨some ⟨meshChangeScript, 500000⟩, none,
          some ⟨⟨List.replicate 32 1 ++ List.replicate 32 0, rfl⟩, 0⟩, []⟩,
        ⟨1, hexText (List.replicate 32 1), hexText (List.replicate 32 1 ++ List.replicate 32 0)⟩) :=
    Results.bind_eq_ok.mpr ⟨List.replicate 32 1, rfl, Results.bind_eq_ok.mpr ⟨_, hRaw, rfl⟩⟩
  have hSecond : plainSigner.signInputs (plainBitcoin plainUnsigned plainSigned) plainMeshKey
      plainUnsigned.unsignedTx prevouts plainSignWorld.turn 1
      [(⟨⟨[2], 1⟩, 0xfffffffd⟩, ⟨some ⟨meshChangeScript, 500000⟩, none, none, []⟩)] = _ :=
    Results.bind_eq_ok.mpr ⟨_, hInput, rfl⟩
  exact Results.bind_eq_ok.mpr ⟨_, hSecond, rfl⟩

/-- What the plain signer makes of the plain PSBT. -/
theorem psbtSigned_plain : PsbtSigned (plainBitcoin plainUnsigned plainSigned) plainSigner
    plainSignWorld "tb1qpayment" 100000 plainMeshKey plainUnsigned plainSigned
    [⟨1, hexText (List.replicate 32 1), hexText (List.replicate 32 1 ++ List.replicate 32 0)⟩] where
  sameTx := rfl
  sameOthers := rfl
  policy := by decide +kernel
  bound := ⟨paymentScript, by decide +kernel, assertOutputsMatchIntent_ok.mp (by decide +kernel)⟩
  inputs := ⟨[⟨[0x00], 600500⟩, ⟨meshChangeScript, 500000⟩], by decide +kernel,
    signInputs_ok (signInputs_plain _)⟩
  signed := nofun

/-! ## The signer -/

section Signer

variable {B} {o : FrostTrBitcoinOrchestrator} {w : TrSignWorld F W}
  {sessionId psbtB64 destination : String} {amountSats : Nat} {r : SignedPsbtResult}

/--
**What is signed is what was sent in.** An answer of `sign_psbt` holds the PSBT of the
request, its transaction and its other entries unchanged: the policy accepts it and its
outputs are bound to the intent, so that they are the amount and change to the mesh. Of its
inputs exactly those whose witness UTXO the mesh key locks and that had no signature carry one
now, which verifies for their sighash, and none of that kind is left.
-/
theorem signPsbt_spends (h : (o.signPsbt B w sessionId psbtB64 destination amountSats).1 = .ok r) :
    ∃ p q snap our, B.psbtFromStr (strTrim psbtB64) = .ok p ∧ w.slot = .ok snap ∧
      meshOutputKey B snap.pubkeyPackage = .ok our ∧
      r = ⟨sessionId, String.ofList o.rotation.rotation.current.text, B.psbtToString q,
        r.signatures, snap.minSigners, "frost-secp256k1-tr-v3"⟩ ∧
      PsbtSigned B o w destination amountSats our p q r.signatures ∧
      ourInputs our 0 q.inputs = [] ∧
      (destinationScriptPubkey B o.network destination ≠ .ok (newP2trTweaked our) →
        (p.toPsbt B).outTotal = (p.toPsbt B).changeTotal (newP2trTweaked our) + amountSats) := by
  obtain ⟨p, q, snap, our, hDecode, hSlot, hOur, hAnswer, hSigned⟩ := signPsbt_ok h
  obtain ⟨prevouts, -, hInputs⟩ := hSigned.inputs
  obtain ⟨paymentSpk, hPayment, hBound⟩ := hSigned.bound
  refine ⟨p, q, snap, our, hDecode, hSlot, hOur, hAnswer, hSigned, hInputs.noneLeft, ?_⟩
  intro hOther
  have hNe : paymentSpk ≠ newP2trTweaked our := by
    rintro rfl
    exact hOther hPayment
  exact outTotal_eq_of_bound hNe (assertOutputsMatchIntent_ok.mpr hBound)

theorem signPsbt_spends_plain : ∃ r p q our,
    (plainBitcoin plainUnsigned plainSigned).psbtFromStr (strTrim "unsigned") = .ok p ∧
      PsbtSigned (plainBitcoin plainUnsigned plainSigned) plainSigner plainSignWorld
        "tb1qpayment" 100000 our p q (SignedPsbtResult.signatures r) := by
  obtain ⟨r, hOk⟩ := signPsbt_plain
  obtain ⟨p, q, snap, our, hDecode, -, -, -, hSigned, -⟩ := signPsbt_spends hOk
  exact ⟨r, p, q, our, hDecode, hSigned⟩

/--
**What was signed is not signed again.** A text that decodes to a PSBT as it was signed is
refused by every later call, in any session, by any orchestrator of the same key.
-/
theorem signPsbt_not_twice {our : XOnlyPublicKey} {p q : TrPsbt} {sigs : List InputSignature}
    (hSigned : PsbtSigned B o w destination amountSats our p q sigs) {text : String}
    (hText : B.psbtFromStr (strTrim text) = .ok q) {w' : TrSignWorld F W}
    (hKey : ∀ snap, w'.slot = .ok snap → meshOutputKey B snap.pubkeyPackage = .ok our)
    (o' : FrostTrBitcoinOrchestrator) (sessionId' destination' : String) (amountSats' : Nat)
    (r' : SignedPsbtResult) :
    (o'.signPsbt B w' sessionId' text destination' amountSats').1 ≠ .ok r' := by
  intro hAgain
  obtain ⟨p', q', snap, our', hDecode, hSlot, hOur, -, hSigned'⟩ := signPsbt_ok hAgain
  rw [hText] at hDecode
  obtain rfl := Except.ok.inj hDecode
  rw [hKey snap hSlot] at hOur
  obtain rfl := Except.ok.inj hOur
  -- the second call signs something, and the first has left nothing
  obtain ⟨_, -, hFirst⟩ := hSigned.inputs
  obtain ⟨_, -, hSecond⟩ := hSigned'.inputs
  have hNone := hSecond.signed
  rw [hFirst.noneLeft] at hNone
  exact hSigned'.signed (List.map_eq_nil_iff.mp hNone)

theorem signPsbt_not_twice_plain :
    (plainSigner.signPsbt (plainBitcoin plainUnsigned plainSigned) plainSignWorld
      "withdraw-2" "signed" "tb1qpayment" 100000).1.toOption = none := by
  have hKey (snap : FrostTrShareState plainFrost plainCoordinator)
      (hSlot : plainSignWorld.slot = .ok snap) :
      meshOutputKey (plainBitcoin plainUnsigned plainSigned) snap.pubkeyPackage =
        .ok plainMeshKey := by
    obtain rfl := Except.ok.inj hSlot
    decide +kernel
  have hText : (plainBitcoin plainUnsigned plainSigned).psbtFromStr (strTrim "signed") =
      .ok plainSigned := by decide +kernel
  have hRefused := signPsbt_not_twice psbtSigned_plain hText hKey plainSigner "withdraw-2"
    "tb1qpayment" 100000
  cases hAnswer : (plainSigner.signPsbt (plainBitcoin plainUnsigned plainSigned) plainSignWorld
      "withdraw-2" "signed" "tb1qpayment" 100000).1 with
  | error e => rfl
  | ok r => exact absurd hAnswer (hRefused r)

/--
**What is accepted.** Where the holders of the key sign whatever they are asked to, a call
that claims its session signs exactly the PSBTs that decode, keep the policy, are bound to
the intent, and have an input whose witness UTXO is locked by the mesh key and that is not
signed yet.
-/
theorem signPsbt_accepts_iff (hLaws : BitcoinLaws B) (hTurns : ∀ idx, Signs B o (w.turn idx)) :
    (∃ r, (o.signPsbt B w sessionId psbtB64 destination amountSats).1 = .ok r) ↔
      (o.antiNonce.claimSession w.disk w.acks sessionId).1 = .ok () ∧ DayHolds o w ∧
        Signable B o w psbtB64 destination amountSats := by
  constructor
  · rintro ⟨r, hOk⟩
    exact ⟨(withClaim_ok_iff.mp hOk).1, signable_of_signPsbt hOk⟩
  · rintro ⟨hClaim, hDays, hSignable⟩
    exact signPsbt_signs hLaws hTurns hClaim hDays hSignable

theorem signPsbt_accepts_plain :
    (∃ r, (plainSigner.signPsbt (plainBitcoin plainUnsigned plainSigned) plainSignWorld
        "withdraw-1" "unsigned" "tb1qpayment" 100000).1 = .ok r) ↔
      (plainSigner.antiNonce.claimSession plainSignWorld.disk plainSignWorld.acks "withdraw-1").1 =
          .ok () ∧ DayHolds plainSigner plainSignWorld ∧
        Signable (plainBitcoin plainUnsigned plainSigned) plainSigner plainSignWorld "unsigned"
          "tb1qpayment" 100000 :=
  signPsbt_accepts_iff (plainBitcoin_laws plainUnsigned plainSigned) signs_plainSigner

end Signer

end FrostTrBitcoinOrchestrator

end KeroseneVault
