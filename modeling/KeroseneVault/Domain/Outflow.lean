import KeroseneVault.Domain.PsbtPolicy

/-!
# What an accepted PSBT lets leave the mesh

`validate` and `assert_outputs_match_intent` together bound what a PSBT takes
from the mesh key: the inputs less the change are the intent's amount and a
fee, and the fee is bounded twice. Over exact integers this holds only where
the machine sums are exact: the input sum saturates, the output sum wraps, and
the fee rate is rounded down before it is compared.

* `inTotal`, `outTotal`, `changeTotal` — the exact sums;
* `NoOverflow` — no partial sum leaves `u64`;
* `OutflowBound` — the bound over exact integers.

Main results:

* `outTotal_eq_of_bound` — the outputs are the change and the amount;
* `outflowBound_iff` — an accepted PSBT keeps the bound exactly when both sums
  fit and a fee at the rate's cap leaves no remainder.
-/

namespace KeroseneVault

open Tally

/-! ## Exact sums -/

/-- The value of the prevout, where it is known. -/
def PsbtInput.prevoutSats (input : PsbtInput) : Nat :=
  match PsbtPolicy.prevoutValue 0 input with
  | .ok value => value
  | .error _ => 0

namespace Psbt

def inTotal (psbt : Psbt) : Nat := (psbt.inputs.map PsbtInput.prevoutSats).sum

def outTotal (psbt : Psbt) : Nat := (psbt.outputs.map TxOut.value).sum

/-- What the outputs pay to the mesh change script. -/
def changeTotal (psbt : Psbt) (change : Script) : Nat :=
  tally (fun o : TxOut => o.scriptPubkey = change) TxOut.value psbt.outputs

/-- `weight_wu.div_ceil(4).max(1)`. -/
def vbytes (psbt : Psbt) : Nat := max ((psbt.weightWu + 3) / 4) 1

/-- The outputs as the binding reads them. -/
def bindOutputs (psbt : Psbt) : List (Script × Nat) :=
  psbt.outputs.map fun o => (o.scriptPubkey, o.value)

/-- No partial sum over the inputs saturates, none over the outputs wraps. -/
def NoOverflow (psbt : Psbt) : Prop :=
  (∀ n, ((psbt.inputs.take n).map PsbtInput.prevoutSats).sum ≤ u64Max) ∧
    ∀ n, ((psbt.outputs.take n).map TxOut.value).sum ≤ u64Max

/-- Partial sums are at most the whole. -/
theorem sum_take_le {α : Type} (f : α → Nat) (l : List α) (n : Nat) :
    ((l.take n).map f).sum ≤ (l.map f).sum := by
  rw [List.map_take]
  exact List.Sublist.sum_le_sum (List.take_sublist n _) fun _ _ => Nat.zero_le _

theorem noOverflow_iff (psbt : Psbt) :
    psbt.NoOverflow ↔ psbt.inTotal ≤ u64Max ∧ psbt.outTotal ≤ u64Max := by
  constructor
  · rintro ⟨hIn, hOut⟩
    have hInAll := hIn psbt.inputs.length
    have hOutAll := hOut psbt.outputs.length
    rw [List.take_length] at hInAll hOutAll
    exact ⟨hInAll, hOutAll⟩
  · rintro ⟨hIn, hOut⟩
    exact ⟨fun n => (sum_take_le _ _ n).trans hIn, fun n => (sum_take_le _ _ n).trans hOut⟩

end Psbt

/-! ## What the checks compute -/

theorem prevoutValue_ok {i : Nat} {input : PsbtInput} {value : Nat}
    (h : PsbtPolicy.prevoutValue i input = .ok value) : input.prevoutSats = value := by
  unfold PsbtInput.prevoutSats
  unfold PsbtPolicy.prevoutValue at h ⊢
  split at h
  · cases h
    rfl
  · split at h
    · split at h
      · cases h
        simp [*]
      · cases h
    · cases h

/-- The loop over the inputs saturates the exact sum. -/
theorem inSats_ok {inputs : List PsbtInput} {i acc sats : Nat} (hAcc : acc ≤ u64Max)
    (h : PsbtPolicy.inSats i acc inputs = .ok sats) :
    sats = satAdd acc (inputs.map PsbtInput.prevoutSats).sum := by
  induction inputs generalizing i acc with
  | nil =>
    cases h
    simp only [List.map_nil, List.sum_nil, satAdd]
    omega
  | cons input inputs ih =>
    rw [PsbtPolicy.inSats] at h
    split at h
    · cases h
    · rename_i value hValue
      have hNext : satAdd acc value ≤ u64Max := Nat.min_le_right ..
      rw [ih hNext h, List.map_cons, List.sum_cons, prevoutValue_ok hValue]
      unfold satAdd
      omega

/-- The outputs the loop lets through are change, and the payment once. -/
theorem sum_of_matchOutputs {payment change : Script} (hNe : payment ≠ change) {amount : Nat}
    {outputs : List (Script × Nat)} {matched result : Bool}
    (h : matchOutputs payment amount (some change) matched outputs = .ok result) :
    (outputs.map Prod.snd).sum = tally (fun o => o.1 = change) Prod.snd outputs +
        (if result = true ∧ matched = false then amount else 0) ∧
      (matched = true → result = true) := by
  -- along the loop over the outputs, whatever it has matched so far
  induction outputs generalizing matched with
  | nil =>
    cases h
    cases result <;> simp
  | cons o outputs ih =>
    obtain ⟨spk, value⟩ := o
    rw [matchOutputs] at h
    rw [tally_cons, List.map_cons, List.sum_cons]
    dsimp only
    split at h
    · rename_i hSpk
      subst hSpk
      split at h
      · cases h
      · rename_i hValue
        rw [not_not] at hValue
        subst hValue
        split at h
        · cases h
        · -- the payment: from here on the loop has seen it
          rename_i hFirst
          rw [Bool.not_eq_true] at hFirst
          subst hFirst
          obtain ⟨hSum, hResult⟩ := ih h
          rw [hResult rfl] at hSum ⊢
          rw [if_neg hNe, hSum]
          simp
          omega
    · split at h
      · rename_i hChange
        obtain ⟨hSum, hResult⟩ := ih h
        rw [if_pos hChange, hSum]
        exact ⟨by omega, hResult⟩
      · cases h

/-- The outputs are the change and the intent's amount. -/
theorem outTotal_eq_of_bound {psbt : Psbt} {payment change : Script} (hNe : payment ≠ change)
    {amount : Nat}
    (h : assertOutputsMatchIntent psbt.bindOutputs payment amount (some change) = .ok ()) :
    psbt.outTotal = psbt.changeTotal change + amount := by
  have hTotal : psbt.outTotal = (psbt.bindOutputs.map Prod.snd).sum := by
    simp [Psbt.outTotal, Psbt.bindOutputs, Function.comp_def]
  have hChange : psbt.changeTotal change =
      tally (fun o => o.1 = change) Prod.snd psbt.bindOutputs := by
    simp [Psbt.changeTotal, Psbt.bindOutputs, tally, List.filter_map, Function.comp_def]
  unfold assertOutputsMatchIntent at h
  split at h
  · cases h
  · split at h
    · cases h
    · split at h
      · cases h
      · rename_i hLoop
        rw [hTotal, hChange, (sum_of_matchOutputs hNe hLoop).1]
        simp
      · cases h

/-- What `validate` has compared of an accepted PSBT. -/
theorem validate_checked {policy : PsbtPolicy} {psbt : Psbt} (h : policy.validate psbt = .ok ()) :
    psbt.outTotal % (u64Max + 1) ≤ min psbt.inTotal u64Max ∧
      min psbt.inTotal u64Max - psbt.outTotal % (u64Max + 1) ≤ policy.maxFeeSats ∧
      (min psbt.inTotal u64Max - psbt.outTotal % (u64Max + 1)) / psbt.vbytes ≤
        policy.maxFeeRateSatVb := by
  unfold PsbtPolicy.validate at h
  split at h
  · cases h
  · rename_i sats hIn
    have hSats : sats = min psbt.inTotal u64Max := by
      rw [inSats_ok (Nat.zero_le _) hIn, satAdd, Nat.zero_add]
      rfl
    -- each check in turn, on the exact input sum or on the largest number
    subst hSats
    dsimp only at h
    split at h
    · cases h
    · rename_i hExceed
      split at h
      · cases h
      · rename_i hFee
        split at h
        · cases h
        · rename_i hRate
          exact ⟨Nat.le_of_not_lt hExceed, Nat.le_of_not_lt hFee, Nat.le_of_not_lt hRate⟩

/-! ## The bound -/

/-- The inputs less the change are the amount and a fee, the fee is within the
policy, and no machine sum was inexact. -/
structure OutflowBound (policy : PsbtPolicy) (psbt : Psbt) (amount : Nat) (change : Script) :
    Prop where
  noOverflow : psbt.NoOverflow
  outflow : ∃ fee : Int, (psbt.inTotal : Int) - psbt.changeTotal change = amount + fee ∧
    0 ≤ fee ∧ fee ≤ policy.maxFeeSats ∧ fee ≤ policy.maxFeeRateSatVb * psbt.vbytes

/-- A fee of at most the rate, rounded down, is at most the rate's own unless
it leaves a remainder at the cap. -/
theorem le_mul_iff_of_div_le {fee rate vbytes : Nat} (hPos : 0 < vbytes)
    (h : fee / vbytes ≤ rate) :
    fee ≤ rate * vbytes ↔ (fee / vbytes = rate → fee % vbytes = 0) := by
  have hSplit := Nat.div_add_mod fee vbytes
  rw [Nat.mul_comm] at hSplit
  have hRest := Nat.mod_lt fee hPos
  constructor
  · intro hLe hCap
    rw [hCap] at hSplit
    omega
  · intro hCap
    rcases Nat.lt_or_eq_of_le h with hLt | hEq
    · have hNext : (fee / vbytes + 1) * vbytes ≤ rate * vbytes := Nat.mul_le_mul_right _ hLt
      rw [Nat.add_mul] at hNext
      omega
    · rw [hEq, hCap hEq] at hSplit
      omega

/--
**When the outflow of an accepted PSBT is bounded.** A PSBT that passes
`validate` and the binding of its outputs keeps the bound over exact integers
exactly when its inputs and its outputs each sum to a `u64` and a fee whose
rate, rounded down, is the cap leaves no remainder.
-/
theorem outflowBound_iff {policy : PsbtPolicy} {psbt : Psbt} {payment change : Script}
    {amount : Nat} (hNe : payment ≠ change) (hValid : policy.validate psbt = .ok ())
    (hBind : assertOutputsMatchIntent psbt.bindOutputs payment amount (some change) = .ok ()) :
    OutflowBound policy psbt amount change ↔
      psbt.inTotal ≤ u64Max ∧ psbt.outTotal ≤ u64Max ∧
        ((psbt.inTotal - psbt.outTotal) / psbt.vbytes = policy.maxFeeRateSatVb →
          (psbt.inTotal - psbt.outTotal) % psbt.vbytes = 0) := by
  have hTotal := outTotal_eq_of_bound hNe hBind
  have hPos : 0 < psbt.vbytes := Nat.lt_of_lt_of_le Nat.zero_lt_one (Nat.le_max_right ..)
  constructor
  · rintro ⟨hExact, fee, hFee, -, -, hRate⟩
    obtain ⟨hIn, hOut⟩ := psbt.noOverflow_iff.mp hExact
    obtain ⟨hLe, -, hDiv⟩ := validate_checked hValid
    rw [Nat.min_eq_left hIn, Nat.mod_eq_of_lt (by omega)] at hLe hDiv
    refine ⟨hIn, hOut, (le_mul_iff_of_div_le hPos hDiv).mp ?_⟩
    -- the fee over the integers is the fee the policy computed
    have hEq : fee = ((psbt.inTotal - psbt.outTotal : Nat) : Int) := by omega
    rw [hEq] at hRate
    exact_mod_cast hRate
  · rintro ⟨hIn, hOut, hCap⟩
    obtain ⟨hLe, hFee, hDiv⟩ := validate_checked hValid
    rw [Nat.min_eq_left hIn, Nat.mod_eq_of_lt (by omega)] at hLe hFee hDiv
    refine ⟨psbt.noOverflow_iff.mpr ⟨hIn, hOut⟩,
      ((psbt.inTotal - psbt.outTotal : Nat) : Int), by omega, by omega, by omega, ?_⟩
    have hRate := (le_mul_iff_of_div_le hPos hDiv).mpr hCap
    exact_mod_cast hRate

/-! ## Accepted and out of bounds -/

/-- A payment of 100000 sats, and change to the mesh key. -/
def paymentScript : Script := 0x00 :: 0x14 :: List.replicate 20 0xaa
def meshChangeScript : Script := 0x51 :: 0x20 :: List.replicate 32 0xbb

/-- A PSBT that spends the inputs `ins`, pays 100000 sats and has `change`. -/
def spending (ins : List Nat) (amount change : Nat) : Psbt where
  inputs := ins.map fun value => ⟨0, 0xfffffffd, some ⟨meshChangeScript, value⟩, none⟩
  outputs := [⟨paymentScript, amount⟩, ⟨meshChangeScript, change⟩]
  lockTime := 0
  weightWu := 400

/-- Three PSBTs the default policy and the binding accept: a fee of 25001 sats
on 100 virtual bytes at a cap of 250, inputs whose sum saturates, outputs
whose sum wraps. None keeps the bound. -/
theorem accepted_without_outflowBound :
    (PsbtPolicy.labDefaults.validateIndependent (spending [1025001] 100000 900000) paymentScript
        100000 (some meshChangeScript) = .ok () ∧
      ¬ OutflowBound .labDefaults (spending [1025001] 100000 900000) 100000 meshChangeScript) ∧
    (PsbtPolicy.labDefaults.validateIndependent (spending [u64Max, u64Max] 100000
        (u64Max - 100000)) paymentScript 100000 (some meshChangeScript) = .ok () ∧
      ¬ OutflowBound .labDefaults (spending [u64Max, u64Max] 100000 (u64Max - 100000)) 100000
        meshChangeScript) ∧
    (PsbtPolicy.labDefaults.validateIndependent (spending [10] u64Max 5) paymentScript u64Max
        (some meshChangeScript) = .ok () ∧
      ¬ OutflowBound .labDefaults (spending [10] u64Max 5) u64Max meshChangeScript) := by
  refine ⟨⟨by decide, ?_⟩, ⟨by decide, ?_⟩, by decide, ?_⟩
  · rintro ⟨-, fee, hFee, -, -, hRate⟩
    have hIn : (spending [1025001] 100000 900000).inTotal = 1025001 := by decide
    have hChange : (spending [1025001] 100000 900000).changeTotal meshChangeScript = 900000 := by
      decide
    have hCap : PsbtPolicy.labDefaults.maxFeeRateSatVb * (spending [1025001] 100000 900000).vbytes =
        25000 := by decide
    rw [hIn, hChange] at hFee
    rw [← Nat.cast_mul, hCap] at hRate
    omega
  · rintro ⟨hExact, -⟩
    exact absurd ((Psbt.noOverflow_iff _).mp hExact).1 (by decide)
  · rintro ⟨hExact, -⟩
    exact absurd ((Psbt.noOverflow_iff _).mp hExact).2 (by decide)

/-- A fee of 1000 sats on 100 virtual bytes keeps the bound. -/
theorem outflowBound_spending :
    OutflowBound .labDefaults (spending [1001000] 100000 900000) 100000 meshChangeScript := by
  have hNe : paymentScript ≠ meshChangeScript := by decide
  exact (outflowBound_iff hNe (by decide) (by decide)).mpr (by decide)

end KeroseneVault
