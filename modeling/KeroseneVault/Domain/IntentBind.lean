import KeroseneVault.Domain.Basic
import KeroseneVault.Lib.Tally

/-!
# Binding an intent to the outputs of a PSBT

`assertOutputsMatchIntent`: exactly one output pays the intent's destination
its amount, all others are change to the mesh key. Scripts are byte strings.

* `OutputsBound` — what the outputs are bound to.

Main results:

* `assertOutputsMatchIntent_iff` — the check accepts exactly what is bound, in
  whatever order;
* `payout_le` — what leaves the mesh key is at most the amount.
-/

namespace KeroseneVault

open Tally

abbrev Script := List UInt8

/-- The loop over the outputs; `matched` says whether the payment was seen. -/
def matchOutputs (paymentScript : Script) (amountSats : Nat) (changeScript : Option Script) :
    Bool → List (Script × Nat) → Except DomainError Bool
  | matched, [] => .ok matched
  | matched, (spk, value) :: outputs =>
    if spk = paymentScript then
      if value ≠ amountSats then
        .error (.invalidIntent
          s!"PSBT payment output amount {value} != Intent amount_sats {amountSats}")
      else if matched then
        .error (.invalidIntent "PSBT has multiple outputs to Intent destination")
      else matchOutputs paymentScript amountSats changeScript true outputs
    else
      match changeScript with
      | some change =>
        if spk = change then matchOutputs paymentScript amountSats changeScript matched outputs
        else
          .error (.invalidIntent
            "PSBT change output is not mesh Taproot deposit key (non-tr / unbound change escape)")
      | none =>
        .error (.invalidIntent
          "PSBT has non-payment output but no mesh change script configured (unbound spend)")

def assertOutputsMatchIntent (outputs : List (Script × Nat)) (paymentScript : Script)
    (amountSats : Nat) (changeScript : Option Script) : Outcome :=
  if outputs = [] then .error (.invalidIntent "PSBT has no outputs to bind to Intent")
  else if amountSats = 0 then
    .error (.invalidIntent "Intent amount_sats must be > 0 for PSBT bind")
  else
    match matchOutputs paymentScript amountSats changeScript false outputs with
    | .error e => .error e
    | .ok true => .ok ()
    | .ok false =>
      .error (.invalidIntent "PSBT missing output matching Intent destination and amount_sats")

/-- What the outputs pay to scripts other than the mesh change script. -/
def payout (change : Script) (outputs : List (Script × Nat)) : Nat :=
  tally (fun o => o.1 ≠ change) Prod.snd outputs

/-- Once the payment was seen only change may follow. -/
theorem payout_le_of_matchOutputs {payment change : Script} {amount : Nat}
    {outputs : List (Script × Nat)} {matched result : Bool}
    (h : matchOutputs payment amount (some change) matched outputs = .ok result) :
    payout change outputs ≤ if matched then 0 else amount := by
  -- the flag is set by the payment, and from then on nothing leaves the mesh key
  induction outputs generalizing matched with
  | nil => exact Nat.zero_le _
  | cons o outputs ih =>
    obtain ⟨spk, value⟩ := o
    have hCons : payout change ((spk, value) :: outputs) =
        (if spk ≠ change then value else 0) + payout change outputs := tally_cons ..
    rw [matchOutputs] at h
    rw [hCons]
    split at h
    · split at h
      · cases h
      · rename_i hValue
        split at h
        · cases h
        · -- the payment: nothing after it leaves the mesh key
          rename_i hFirst
          have hRest := ih h
          rw [if_pos rfl] at hRest
          rw [if_neg hFirst]
          split <;> omega
    · split at h
      · rename_i hChange
        have hRest := ih h
        rw [if_neg (not_not_intro hChange)]
        omega
      · cases h

/-- What leaves the mesh key is at most the intent's amount. -/
theorem payout_le {outputs : List (Script × Nat)} {payment change : Script} {amount : Nat}
    (h : assertOutputsMatchIntent outputs payment amount (some change) = .ok ()) :
    payout change outputs ≤ amount := by
  unfold assertOutputsMatchIntent at h
  split at h
  · cases h
  · split at h
    · cases h
    · cases hLoop : matchOutputs payment amount (some change) false outputs with
      | error e => simp [hLoop] at h
      | ok matched => exact payout_le_of_matchOutputs hLoop

/-! ## What is accepted -/

/-- All of these are change, and none of them is the payment. -/
def AllChange (payment : Script) (change : Option Script) (outputs : List (Script × Nat)) : Prop :=
  ∀ o ∈ outputs, o.1 ≠ payment ∧ change = some o.1

/-- The amount is positive, one output pays it to the intent's destination, and every
other one is change. -/
structure OutputsBound (outputs : List (Script × Nat)) (payment : Script) (amount : Nat)
    (change : Option Script) : Prop where
  nonempty : outputs ≠ []
  positive : 0 < amount
  paid : ∃ before after, outputs = before ++ (payment, amount) :: after ∧
    AllChange payment change (before ++ after)

section Accepted

variable {payment : Script} {amount : Nat} {change : Option Script} {outputs : List (Script × Nat)}

theorem allChange_cons {o : Script × Nat} :
    AllChange payment change (o :: outputs) ↔
      (o.1 ≠ payment ∧ change = some o.1) ∧ AllChange payment change outputs :=
  List.forall_mem_cons

/-- The loop passes over change, and over one payment if it has seen none. -/
theorem matchOutputs_ok_iff {matched result : Bool} :
    matchOutputs payment amount change matched outputs = .ok result ↔
      (result = matched ∧ AllChange payment change outputs) ∨
        matched = false ∧ result = true ∧ ∃ before after,
          outputs = before ++ (payment, amount) :: after ∧
            AllChange payment change (before ++ after) := by
  -- by the outputs, with what the loop has seen before them
  induction outputs generalizing matched with
  | nil =>
    unfold matchOutputs
    constructor
    · rintro hOk
      obtain rfl := Except.ok.inj hOk
      exact .inl ⟨rfl, nofun⟩
    · rintro (⟨rfl, -⟩ | ⟨-, -, before, after, hSplit, -⟩)
      · rfl
      · exact absurd hSplit.symm (by simp)
  | cons o outputs ih =>
    obtain ⟨spk, value⟩ := o
    unfold matchOutputs
    rw [allChange_cons]
    by_cases hPay : spk = payment
    · subst hPay
      rw [if_pos rfl]
      by_cases hValue : value = amount
      · subst hValue
        rw [if_neg (not_not.mpr rfl)]
        cases matched with
        | true => simp
        | false =>
          rw [if_neg Bool.false_ne_true, ih]
          constructor
          · rintro (⟨rfl, hRest⟩ | ⟨hSeen, -⟩)
            · exact .inr ⟨rfl, rfl, [], outputs, rfl, hRest⟩
            · cases hSeen
          · rintro (⟨-, ⟨hNe, -⟩, -⟩ | ⟨-, rfl, before, after, hSplit, hRest⟩)
            · exact absurd rfl hNe
            · -- the payment is the first output: it is among no others
              cases before with
              | nil =>
                obtain ⟨-, rfl⟩ := List.cons.inj hSplit
                exact .inl ⟨rfl, hRest⟩
              | cons b before =>
                obtain ⟨rfl, -⟩ := List.cons.inj hSplit
                exact absurd rfl (hRest _ List.mem_cons_self).1
      · rw [if_pos hValue]
        refine iff_of_false nofun ?_
        rintro (⟨-, ⟨hNe, -⟩, -⟩ | ⟨-, -, before, after, hSplit, hRest⟩)
        · exact absurd rfl hNe
        · cases before with
          | nil =>
            -- a first output of the payment script has another amount
            obtain ⟨hFirst, -⟩ := List.cons.inj hSplit
            exact hValue (Prod.mk.inj hFirst).2
          | cons b before =>
            obtain ⟨rfl, -⟩ := List.cons.inj hSplit
            exact absurd rfl (hRest _ List.mem_cons_self).1
    · rw [if_neg hPay]
      by_cases hChange : change = some spk
      · subst hChange
        dsimp only
        rw [if_pos rfl, ih]
        refine or_congr (by simp [hPay]) (and_congr_right fun _ => and_congr_right fun _ => ?_)
        constructor
        · rintro ⟨before, after, rfl, hRest⟩
          exact ⟨(spk, value) :: before, after, rfl, allChange_cons.mpr ⟨⟨hPay, rfl⟩, hRest⟩⟩
        · rintro ⟨before, after, hSplit, hRest⟩
          cases before with
          | nil => exact absurd (Prod.mk.inj (List.cons.inj hSplit).1).1 hPay
          | cons b before =>
            obtain ⟨rfl, hTail⟩ := List.cons.inj hSplit
            exact ⟨before, after, hTail, (allChange_cons.mp hRest).2⟩
      · refine iff_of_false ?_ ?_
        · cases change with
          | none => exact nofun
          | some other =>
            dsimp only
            rw [if_neg fun hEq => hChange (congrArg _ hEq.symm)]
            exact nofun
        · rintro (⟨-, ⟨-, hSome⟩, -⟩ | ⟨-, -, before, after, hSplit, hRest⟩)
          · exact hChange hSome
          · cases before with
            | nil => exact hPay (Prod.mk.inj (List.cons.inj hSplit).1).1
            | cons b before =>
              obtain ⟨rfl, -⟩ := List.cons.inj hSplit
              exact hChange (hRest _ List.mem_cons_self).2

/-- What is bound is bound in whatever order. -/
theorem OutputsBound.perm (h : OutputsBound outputs payment amount change)
    {outputs' : List (Script × Nat)} (hPerm : outputs.Perm outputs') :
    OutputsBound outputs' payment amount change := by
  obtain ⟨hSome, hPositive, before, after, rfl, hRest⟩ := h
  refine ⟨fun hNil => hSome (hNil ▸ hPerm).eq_nil, hPositive, ?_⟩
  obtain ⟨before', after', rfl⟩ := List.append_of_mem
    (hPerm.mem_iff.mp (List.mem_append_right before List.mem_cons_self))
  -- the others are the same ones
  have hOthers : (before ++ after).Perm (before' ++ after') := by
    have hFront := (List.perm_middle.symm.trans hPerm).trans List.perm_middle
    exact hFront.cons_inv
  exact ⟨before', after', rfl, fun o ho => hRest o (hOthers.mem_iff.mpr ho)⟩

/-- The check accepts what is bound, and nothing else. By induction on the outputs, once before
the payment was seen and once after. -/
theorem assertOutputsMatchIntent_ok :
    assertOutputsMatchIntent outputs payment amount change = .ok () ↔
      OutputsBound outputs payment amount change := by
  unfold assertOutputsMatchIntent
  by_cases hNil : outputs = []
  · rw [if_pos hNil]
    exact iff_of_false nofun fun h => h.nonempty hNil
  rw [if_neg hNil]
  by_cases hZero : amount = 0
  · rw [if_pos hZero]
    exact iff_of_false nofun fun h => h.positive.ne' hZero
  rw [if_neg hZero]
  have hLoop := @matchOutputs_ok_iff payment amount change outputs false true
  constructor
  · intro h
    cases hResult : matchOutputs payment amount change false outputs with
    | error e =>
      rw [hResult] at h
      cases h
    | ok result =>
      rw [hResult] at h
      cases result with
      | false => cases h
      | true =>
        -- the loop started with no payment seen, so that it has passed one
        rcases hLoop.mp hResult with ⟨hSeen, -⟩ | ⟨-, -, hPaid⟩
        · cases hSeen
        · exact ⟨hNil, Nat.pos_of_ne_zero hZero, hPaid⟩
  · intro h
    rw [hLoop.mpr (.inr ⟨rfl, rfl, h.paid⟩)]

/--
**Output binding.** The check accepts exactly the outputs that are bound, whatever the
payment and the change scripts are, and answers alike in every order of the outputs.
-/
theorem assertOutputsMatchIntent_iff (outputs : List (Script × Nat)) (payment : Script)
    (amount : Nat) (change : Option Script) :
    (assertOutputsMatchIntent outputs payment amount change = .ok () ↔
        OutputsBound outputs payment amount change) ∧
      ∀ outputs', outputs.Perm outputs' →
        returnedOk (assertOutputsMatchIntent outputs' payment amount change) =
          returnedOk (assertOutputsMatchIntent outputs payment amount change) := by
  refine ⟨assertOutputsMatchIntent_ok, fun outputs' hPerm => ?_⟩
  have hOk (os : List (Script × Nat)) :
      returnedOk (assertOutputsMatchIntent os payment amount change) = true ↔
        OutputsBound os payment amount change := by
    rw [← assertOutputsMatchIntent_ok]
    cases assertOutputsMatchIntent os payment amount change with
    | ok u => exact iff_of_true rfl rfl
    | error e => exact iff_of_false nofun nofun
  rw [Bool.eq_iff_iff, hOk, hOk]
  exact ⟨fun h => h.perm hPerm.symm, fun h => h.perm hPerm⟩

/-- A payment after its change, and before it. -/
theorem assertOutputsMatchIntent_iff_change :
    returnedOk (assertOutputsMatchIntent [([1], 1000), ([2], 500)] [1] 1000 (some [2])) =
      returnedOk (assertOutputsMatchIntent [([2], 500), ([1], 1000)] [1] 1000 (some [2])) :=
  (assertOutputsMatchIntent_iff [([2], 500), ([1], 1000)] [1] 1000 (some [2])).2 _
    (List.Perm.swap ..)

end Accepted

end KeroseneVault
