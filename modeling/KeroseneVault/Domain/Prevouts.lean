import KeroseneVault.Domain.PsbtPolicy
import Mathlib.Data.List.Forall2

/-!
# The prevouts of a PSBT

The policy reads a value of each input for the fee, and `collect_prevouts` an output
of each for the sighash, which commits to all of them. Both take the witness UTXO
where there is one, and look at the previous transaction only where there is none.

* `prevout`, `collectPrevouts` — what is committed to;
* `Committed` — what the two have to do with each other.

Main results:

* `prevouts_agree` — they lack the same inputs, and agree on the values of the others;
* `prevouts_disagree` — an input whose previous transaction says otherwise is taken.
-/

namespace KeroseneVault

namespace PsbtPolicy

/-! ## What is committed to -/

/-- One turn of the loop of `collect_prevouts`. -/
def prevout (i : Nat) (input : PsbtInput) : Except DomainError TxOut :=
  match input.witnessUtxo with
  | some utxo => .ok utxo
  | none =>
    match input.nonWitnessUtxo with
    | some tx =>
      match tx[input.vout]? with
      | some txout => .ok txout
      | none => .error (.thresholdError s!"missing prevout {i}")
    | none => .error (.thresholdError s!"psbt input {i} missing witness_utxo")

/-- `collect_prevouts`, from input `i` on. -/
def collectPrevouts (i : Nat) : List PsbtInput → Except DomainError (List TxOut)
  | [] => .ok []
  | input :: inputs =>
    match prevout i input with
    | .error e => .error e
    | .ok utxo => (collectPrevouts (i + 1) inputs).map (utxo :: ·)

/-! ## The two loops -/

variable {i acc : Nat} {input : PsbtInput} {inputs : List PsbtInput}

/-- The value for the fee is that of the output for the sighash. -/
theorem prevoutValue_ok_iff {value : Nat} :
    prevoutValue i input = .ok value ↔ ∃ utxo, prevout i input = .ok utxo ∧ utxo.value = value := by
  unfold prevoutValue prevout
  cases input.witnessUtxo with
  | some utxo => simp
  | none =>
    cases input.nonWitnessUtxo with
    | none => simp
    | some tx =>
      dsimp only
      cases tx[input.vout]? with
      | none => simp
      | some txout => simp

/-- One of them lacks the input where the other does. -/
theorem prevoutValue_error_iff :
    (∃ e, prevoutValue i input = .error e) ↔ ∃ e, prevout i input = .error e := by
  cases hValue : prevoutValue i input with
  | ok value =>
    obtain ⟨utxo, hUtxo, -⟩ := prevoutValue_ok_iff.mp hValue
    rw [hUtxo]
    simp
  | error e =>
    refine iff_of_true ⟨e, rfl⟩ ?_
    -- each of the two errors says that no output was taken
    cases hUtxo : prevout i input with
    | error e' => exact ⟨e', rfl⟩
    | ok utxo =>
      rw [prevoutValue_ok_iff.mpr ⟨utxo, hUtxo, rfl⟩] at hValue
      cases hValue

/-- Which output is taken does not depend on the place of the input. -/
theorem prevout_place {j : Nat} {utxo : TxOut} (h : prevout i input = .ok utxo) :
    prevout j input = .ok utxo := by
  unfold prevout at h ⊢
  split at h
  · exact h
  · split at h
    · split at h
      · exact h
      · cases h
    · cases h

/-- The outputs that are collected are those of the inputs, one by one. -/
theorem collectPrevouts_ok_iff {outs : List TxOut} :
    collectPrevouts i inputs = .ok outs ↔
      List.Forall₂ (fun input utxo => prevout 0 input = .ok utxo) inputs outs := by
  induction inputs generalizing i outs with
  | nil =>
    rw [List.forall₂_nil_left_iff]
    exact ⟨fun h => (Except.ok.inj h).symm, fun h => congrArg _ h.symm⟩
  | cons input inputs ih =>
    rw [List.forall₂_cons_left_iff]
    unfold collectPrevouts
    cases hUtxo : prevout i input with
    | error e =>
      refine iff_of_false nofun ?_
      rintro ⟨utxo, -, hFirst, -⟩
      -- the place is in the text of the error only
      rw [prevout_place hFirst] at hUtxo
      cases hUtxo
    | ok utxo =>
      dsimp only
      constructor
      · intro h
        cases hRest : collectPrevouts (i + 1) inputs with
        | error e =>
          rw [hRest] at h
          cases h
        | ok rest =>
          rw [hRest] at h
          obtain rfl := Except.ok.inj h
          exact ⟨utxo, rest, prevout_place hUtxo, ih.mp hRest, rfl⟩
      · rintro ⟨utxo', rest, hFirst, hRest, rfl⟩
        obtain rfl := Except.ok.inj ((prevout_place hFirst).symm.trans hUtxo)
        rw [ih.mpr hRest]
        rfl

/-- The policy adds up the values of what is collected, and stops where the other does. -/
theorem inSats_collectPrevouts :
    (∀ outs, collectPrevouts i inputs = .ok outs →
      inSats i acc inputs = .ok ((outs.map TxOut.value).foldl satAdd acc)) ∧
      ∀ e, collectPrevouts i inputs = .error e → ∃ e', inSats i acc inputs = .error e' := by
  induction inputs generalizing i acc with
  | nil =>
    refine ⟨fun outs h => ?_, nofun⟩
    obtain rfl := Except.ok.inj h
    rfl
  | cons input inputs ih =>
    unfold collectPrevouts inSats
    cases hUtxo : prevout i input with
    | error e =>
      obtain ⟨e', hValue⟩ := prevoutValue_error_iff.mpr ⟨e, hUtxo⟩
      rw [hValue]
      exact ⟨nofun, fun _ _ => ⟨e', rfl⟩⟩
    | ok utxo =>
      rw [prevoutValue_ok_iff.mpr ⟨utxo, hUtxo, rfl⟩]
      dsimp only
      -- the value of the first is added before the others are looked at
      obtain ⟨ihOk, ihError⟩ := @ih (i + 1) (satAdd acc utxo.value)
      cases hRest : collectPrevouts (i + 1) inputs with
      | error e =>
        obtain ⟨e', hSats⟩ := ihError e hRest
        exact ⟨nofun, fun _ _ => ⟨e', hSats⟩⟩
      | ok rest =>
        refine ⟨fun outs h => ?_, nofun⟩
        obtain rfl := Except.ok.inj h
        exact ihOk rest hRest

/-! ## The two together -/

/-- The policy and the sighash take the inputs alike. -/
structure Committed (policy : PsbtPolicy) (psbt : Psbt) : Prop where
  /-- Neither of them takes an input that the other lacks. -/
  missing : ∀ i input, (∃ e, prevoutValue i input = .error e) ↔ ∃ e, prevout i input = .error e
  /-- A PSBT that lacks one is refused by the policy. -/
  refused : ∀ e, collectPrevouts 0 psbt.inputs = .error e → ∃ e', policy.validate psbt = .error e'
  /-- The fee is of the values that are committed to. -/
  values : ∀ outs, collectPrevouts 0 psbt.inputs = .ok outs →
    List.Forall₂ (fun input utxo => prevoutValue 0 input = .ok utxo.value) psbt.inputs outs ∧
      inSats 0 0 psbt.inputs = .ok ((outs.map TxOut.value).foldl satAdd 0)
  /-- A witness UTXO is taken, whatever else the input carries. -/
  witness : ∀ input utxo, input.witnessUtxo = some utxo → ∀ i,
    prevout i input = .ok utxo ∧ prevoutValue i input = .ok utxo.value

/--
**Prevouts.** The policy and the sighash lack the same inputs, agree on the values of
the others, and take a witness UTXO before a previous transaction.
-/
theorem prevouts_agree (policy : PsbtPolicy) (psbt : Psbt) : Committed policy psbt := by
  refine ⟨fun i input => prevoutValue_error_iff, fun e hLacks => ?_, fun outs hOuts => ⟨?_, ?_⟩,
    fun input utxo hWitness i => ?_⟩
  · obtain ⟨e', hSats⟩ := inSats_collectPrevouts.2 e hLacks
    refine ⟨e', ?_⟩
    unfold validate
    rw [hSats]
  · exact (collectPrevouts_ok_iff.mp hOuts).imp fun input utxo hUtxo =>
      prevoutValue_ok_iff.mpr ⟨utxo, hUtxo, rfl⟩
  · exact inSats_collectPrevouts.1 outs hOuts
  · have hUtxo : prevout i input = .ok utxo := by
      unfold prevout
      rw [hWitness]
    exact ⟨hUtxo, prevoutValue_ok_iff.mpr ⟨utxo, hUtxo, rfl⟩⟩

/-- An input of ten thousand, by its witness UTXO, and of a hundred thousand, by its
previous transaction. -/
def twoTales : Psbt :=
  { inputs := [⟨0, 0xffffffff, some ⟨[1], 10000⟩, some [⟨[1], 100000⟩]⟩]
    outputs := [⟨[2], 9500⟩]
    lockTime := 0
    weightWu := 400 }

theorem prevouts_disagree :
    ¬ ∀ (policy : PsbtPolicy) (psbt : Psbt) outs, policy.validate psbt = .ok () →
      collectPrevouts 0 psbt.inputs = .ok outs → ∀ input ∈ psbt.inputs, ∀ utxo tx,
        input.witnessUtxo = some utxo → input.nonWitnessUtxo = some tx →
          tx[input.vout]? = some utxo := by
  intro h
  have hSame := h labDefaults twoTales [⟨[1], 10000⟩] (by decide) rfl _ List.mem_cons_self _ _ rfl
    rfl
  exact absurd hSame (by decide)

end PsbtPolicy

end KeroseneVault
