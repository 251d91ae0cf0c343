import KeroseneVault.Domain.IntentBind

/-!
# The PSBT policy

`PsbtPolicy`: bounds on fee, fee rate, locktime and replace-by-fee signalling
of a PSBT, and `validateIndependent`, the policy together with the binding of
the outputs to an intent. A PSBT is decoded by a crate outside the repository;
`Psbt` keeps what the policy reads of it.

Main result: `validateIndependent_ok` — an accepted PSBT keeps the fee bounds
and pays at most the intent's amount to others than the mesh key.
-/

namespace KeroseneVault

/-! ## PSBTs -/

structure TxOut where
  scriptPubkey : Script
  value : Nat
  deriving DecidableEq

/-- An input with the outpoint index it spends and what is known of its prevout. -/
structure PsbtInput where
  vout : Nat
  sequence : Nat
  witnessUtxo : Option TxOut
  nonWitnessUtxo : Option (List TxOut)
  deriving DecidableEq

/-- A PSBT; the weight of its transaction is the decoding crate's to count. -/
structure Psbt where
  inputs : List PsbtInput
  outputs : List TxOut
  lockTime : Nat
  weightWu : Nat
  deriving DecidableEq

/-! ## The policy -/

inductive RbfPolicy where
  | allow
  | require
  | forbid
  deriving DecidableEq, Repr

structure PsbtPolicy where
  maxFeeSats : Nat
  maxFeeRateSatVb : Nat
  maxLocktime : Nat
  rbf : RbfPolicy
  deriving DecidableEq

/-- BIP-125: `nSequence < 0xfffffffe` signals replaceability. -/
def isRbfSignal (sequence : Nat) : Bool := sequence < 0xfffffffe

namespace PsbtPolicy

def labDefaults : PsbtPolicy := ⟨50000, 250, 0, .allow⟩

/-- The value of the prevout of input `i`. -/
def prevoutValue (i : Nat) (input : PsbtInput) : Except DomainError Nat :=
  match input.witnessUtxo with
  | some utxo => .ok utxo.value
  | none =>
    match input.nonWitnessUtxo with
    | some prev =>
      match prev[input.vout]? with
      | some out => .ok out.value
      | none => .error (.invalidIntent s!"psbt input {i} missing prevout value")
    | none => .error (.invalidIntent s!"psbt input {i} missing witness_utxo for fee policy")

/-- The loop over the inputs from index `i` on; the sum saturates. -/
def inSats (i acc : Nat) : List PsbtInput → Except DomainError Nat
  | [] => .ok acc
  | input :: inputs =>
    match prevoutValue i input with
    | .error e => .error e
    | .ok value => inSats (i + 1) (satAdd acc value) inputs

/-- The sum over the outputs wraps in a release build. -/
def outSats (outputs : List TxOut) : Nat := (outputs.map TxOut.value).sum % (u64Max + 1)

def checkLocktime (policy : PsbtPolicy) (raw : Nat) : Outcome :=
  if raw = 0 then .ok ()
  else if policy.maxLocktime = 0 then
    .error (.invalidIntent s!"psbt locktime {raw} refused (policy requires LockTime::ZERO)")
  else if raw > policy.maxLocktime then
    .error (.invalidIntent s!"psbt locktime {raw} exceeds max {policy.maxLocktime}")
  else .ok ()

/-- The loop over the sequences from index `i` on. -/
def checkRbf (policy : PsbtPolicy) (i : Nat) : List PsbtInput → Outcome
  | [] => .ok ()
  | input :: inputs =>
    match policy.rbf, isRbfSignal input.sequence with
    | .require, false =>
      .error (.invalidIntent s!"psbt input {i} must signal RBF (policy=require)")
    | .forbid, true => .error (.invalidIntent s!"psbt input {i} RBF signalling forbidden")
    | _, _ => checkRbf policy (i + 1) inputs

def validate (policy : PsbtPolicy) (psbt : Psbt) : Outcome :=
  match inSats 0 0 psbt.inputs with
  | .error e => .error e
  | .ok inSats =>
    let outSats := outSats psbt.outputs
    if outSats > inSats then .error (.invalidIntent "psbt outputs exceed inputs")
    else
      let fee := inSats - outSats
      if fee > policy.maxFeeSats then
        .error (.invalidIntent s!"psbt fee {fee} sats exceeds max_fee_sats {policy.maxFeeSats}")
      else
        let vbytes := max ((psbt.weightWu + 3) / 4) 1
        let feeRate := fee / vbytes
        if feeRate > policy.maxFeeRateSatVb then
          .error (.invalidIntent
            s!"psbt fee rate ~{feeRate} sat/vB exceeds max {policy.maxFeeRateSatVb}")
        else
          match policy.checkLocktime psbt.lockTime with
          | .error e => .error e
          | .ok () => policy.checkRbf 0 psbt.inputs

/-- `validate_independent`. -/
def validateIndependent (policy : PsbtPolicy) (psbt : Psbt) (paymentScript : Script)
    (amountSats : Nat) (changeScript : Option Script) : Outcome :=
  match policy.validate psbt with
  | .error e => .error e
  | .ok () =>
    assertOutputsMatchIntent (psbt.outputs.map fun o => (o.scriptPubkey, o.value)) paymentScript
      amountSats changeScript

/-- What the policy accepts keeps the fee bound. -/
theorem validate_ok {policy : PsbtPolicy} {psbt : Psbt} (h : policy.validate psbt = .ok ()) :
    ∃ sats, inSats 0 0 psbt.inputs = .ok sats ∧ outSats psbt.outputs ≤ sats ∧
      sats - outSats psbt.outputs ≤ policy.maxFeeSats := by
  unfold validate at h
  split at h
  · cases h
  · rename_i sats hIn
    dsimp only at h
    split at h
    · cases h
    · rename_i hExceed
      split at h
      · cases h
      · rename_i hFee
        exact ⟨sats, hIn, by omega, by omega⟩

/-- What `validate_independent` accepts keeps the fee bound and pays at most
the intent's amount to others than the mesh key. -/
theorem validateIndependent_ok {policy : PsbtPolicy} {psbt : Psbt} {payment change : Script}
    {amountSats : Nat}
    (h : policy.validateIndependent psbt payment amountSats (some change) = .ok ()) :
    (∃ sats, inSats 0 0 psbt.inputs = .ok sats ∧ sats - outSats psbt.outputs ≤ policy.maxFeeSats) ∧
      payout change (psbt.outputs.map fun o => (o.scriptPubkey, o.value)) ≤ amountSats := by
  unfold validateIndependent at h
  split at h
  · cases h
  · rename_i hValid
    obtain ⟨sats, hIn, -, hFee⟩ := validate_ok hValid
    exact ⟨⟨sats, hIn, hFee⟩, payout_le h⟩

end PsbtPolicy

end KeroseneVault
