import KeroseneVault.Ledger.Refinement
import KeroseneVault.Ledger.Accounting
import KeroseneVault.Ledger.Transport
import KeroseneVault.Mesh.Membership

/-!
# Does a solo quorum ledger refine the durable one?

A node without peers has `quorum_t = 1` and its rounds ask nobody. Its quorum
ledger and a durable ledger run the same calls, with the same clock and the
same disk. A claim and a release do the same to both. The quorum ledger
refuses the resume of a reservation, its commit asks for no reservation, and
it does not sweep.

* `SoloTwin` — the two ledgers and what they answered;
* `InStep` — same answers, same consumed ids, reservations and spend;
* `StaysInStep` — the condition on one call.

Main results:

* `inStep_step_iff` — a call keeps the twins in step exactly under `StaysInStep`;
* `solo_inStep_iff` — so does a run, exactly when each of its calls meets it,
  and then every commit without a reservation is refused by both.
-/

namespace KeroseneVault

open BucketState

/-! ## Twins -/

/-- The calls both ledgers are given. A look at the reservations
(`has_reservation`) drops what is past its TTL. -/
inductive SoloOp where
  | reserveSpend (id : String) (kind : BucketKind) (amount : Nat) (validate : Validate)
  | commitConsume (id : String)
  | releaseReservation (id : String) (kind : BucketKind) (amount : Nat)
  | tryConsume (id : String)
  | ttlExpiry

def SoloOp.toLedgerOp : SoloOp → LedgerOp
  | .reserveSpend id kind amount validate => .reserveSpend id kind amount validate
  | .commitConsume id => .commitConsume id
  | .releaseReservation id kind amount => .releaseReservation id kind amount
  | .tryConsume id => .tryConsume id
  | .ttlExpiry => .sweepExpired

/-- One call: the clock and the disk both ledgers see, and the method. -/
structure SoloCall where
  now : Nat
  disk : Disk
  op : SoloOp

/-- What a durable prepare leaves of the policies. -/
theorem prepareConsume_policies (l : PersistedBucketLedger) (disk : Disk) (id : String) :
    (l.prepareConsume disk id).2.inner.policies = l.inner.policies := by
  rcases prepareConsume_inner l disk id with h | ⟨-, h⟩
  · rw [h]
  · rw [h, burn_policies]

/-- What a round yields where there are no peers (`postPrepare_nil`). -/
def soloRound : Round := .ok []

/-- A call on a quorum ledger with `peer_count = 0`. -/
def soloPerform (a : SoloCall) (l : PersistedBucketLedger) : Outcome × PersistedBucketLedger :=
  QuorumBucketLedger.perform (quorumT 0) a.now a.disk soloRound soloRound l a.op.toLedgerOp

/-- A call on a durable ledger. -/
def durablePerform (a : SoloCall) (l : PersistedBucketLedger) : Outcome × PersistedBucketLedger :=
  l.perform a.now a.disk a.op.toLedgerOp

/-- A durable and a solo quorum ledger that run the same calls. The answers
list the latest first. -/
structure SoloTwin where
  durable : PersistedBucketLedger
  quorum : PersistedBucketLedger
  durableAnswers : List Bool
  quorumAnswers : List Bool

namespace SoloTwin

/-- Twins that start alike. -/
def start (l : PersistedBucketLedger) : SoloTwin := ⟨l, l, [], []⟩

def step (s : SoloTwin) (a : SoloCall) : SoloTwin where
  durable := (durablePerform a s.durable).2
  quorum := (soloPerform a s.quorum).2
  durableAnswers := returnedOk (durablePerform a s.durable).1 :: s.durableAnswers
  quorumAnswers := returnedOk (soloPerform a s.quorum).1 :: s.quorumAnswers

/-- Same answers, same consumed ids, reservations and spend. -/
structure InStep (s : SoloTwin) : Prop where
  answers : s.quorumAnswers = s.durableAnswers
  consumed : s.quorum.inner.consumed = s.durable.inner.consumed
  reserved : s.quorum.inner.reserved = s.durable.inner.reserved
  spentToday : s.quorum.inner.spentToday = s.durable.inner.spentToday

/-- The id was never consumed and has no live reservation. -/
def Unbacked (g : BucketState) (now : Nat) (id : String) : Prop :=
  id ∉ g.consumed ∧ (g.sweepExpired now).reserved.lookup id = none

instance (g : BucketState) (now : Nat) (id : String) : Decidable (Unbacked g now id) :=
  inferInstanceAs (Decidable (_ ∧ _))

/-- A commit of an id that is unbacked in both ledgers is refused by both. -/
def RefusesUnbacked (s : SoloTwin) (a : SoloCall) : Prop :=
  match a.op with
  | .commitConsume id =>
    Unbacked s.durable.inner a.now id → Unbacked s.quorum.inner a.now id →
      returnedOk (durablePerform a s.durable).1 = false ∧
        returnedOk (soloPerform a s.quorum).1 = false
  | _ => True

/-- What one call must meet. -/
def StaysInStep (s : SoloTwin) (a : SoloCall) : Prop :=
  let g := s.durable.inner.sweepExpired a.now
  match a.op with
  | .reserveSpend id kind amount _ =>
    -- no resume of a live reservation
    g.heldOn id kind amount = true → id ∈ g.consumed
  | .commitConsume id =>
    -- nothing past its TTL; the id consumed or reserved, or nothing written
    (∀ j r, s.durable.inner.reserved.lookup j = some r → a.now < r.expires) ∧
      (id ∈ s.durable.inner.consumed ∨ (s.durable.inner.reserved.lookup id).isSome ∨
        a.disk ≠ .ok)
  | .releaseReservation .. | .tryConsume _ | .ttlExpiry => True

/-! ## One call on one state -/

theorem soloRound_passes (id : String) : soloRound.Passes (quorumT 0) id :=
  ⟨[], rfl, rfl⟩

/-- A solo reservation is the part under the mutex alone. -/
theorem solo_reserveSpend_cases (now : Nat) (id : String) (kind : BucketKind) (amount : Nat)
    (validate : Validate) (l : PersistedBucketLedger) :
    let g₁ := l.inner.sweepExpired now
    let r := QuorumBucketLedger.reserveSpend (quorumT 0) now soloRound id kind amount validate l
    (¬ g₁.Accepts id kind validate ∧ ∃ e, r = (.error e, { l with inner := g₁ })) ∨
      (g₁.Accepts id kind validate ∧
        r = (.ok (), { l with inner := held now id kind amount g₁ })) := by
  rcases quorum_reserveSpend_cases l (quorumT 0) now soloRound id kind amount validate with
    hRefused | ⟨hAccepts, ⟨-, h⟩ | ⟨hFails, -⟩ | ⟨hRefused, -⟩⟩
  · exact Or.inl hRefused
  · exact Or.inr ⟨hAccepts, h⟩
  · obtain ⟨e, h⟩ := hFails
    cases h
  · obtain ⟨acks, h, hRefused⟩ := hRefused
    cases h
    exact absurd rfl hRefused

/-- A reservation that is not let through is answered Ok exactly when it
resumes one on the same terms. -/
theorem returnedOk_reserveSpend_refused {now : Nat} {id : String} {kind : BucketKind}
    {amount : Nat} {validate : Validate} {g : BucketState}
    (h : ¬ (g.sweepExpired now).Accepts id kind validate) :
    returnedOk (g.reserveSpend now id kind amount validate).1 = true ↔
      id ∉ (g.sweepExpired now).consumed ∧ (g.sweepExpired now).heldOn id kind amount = true := by
  unfold BucketState.reserveSpend
  generalize g.sweepExpired now = g₁ at h
  by_cases hConsumed : id ∈ g₁.consumed
  · simp [hConsumed, returnedOk]
  · cases hReserved : g₁.reserved.lookup id with
    | some r =>
      by_cases hTerms : r.kind = kind ∧ r.amount = amount
      · simp [hConsumed, hReserved, hTerms, heldOn, returnedOk]
      · simp [hConsumed, hReserved, hTerms, heldOn, returnedOk]
    | none =>
      cases hValid : g₁.validated kind validate with
      | ok => exact absurd ⟨hConsumed, hReserved, hValid⟩ h
      | error e => simp [hConsumed, hReserved, hValid, heldOn, returnedOk]

section Calls

variable {l q : PersistedBucketLedger} (hInner : q.inner = l.inner) (now : Nat) (disk : Disk)
  (id : String)

/-- The result of a durable call, its log aside. -/
def inMemory (r : Outcome × PersistedBucketLedger) : Outcome × BucketState := (r.1, r.2.inner)

include hInner

/-- The quorum ledger does not resume a reservation. -/
theorem sameEffect_reserveSpend_iff (kind : BucketKind) (amount : Nat) (validate : Validate) :
    Twin.SameEffect (inMemory (l.reserveSpend now id kind amount validate))
        (QuorumBucketLedger.reserveSpend (quorumT 0) now soloRound id kind amount validate q) ↔
      ((l.inner.sweepExpired now).heldOn id kind amount = true →
        id ∈ (l.inner.sweepExpired now).consumed) := by
  have hCases := solo_reserveSpend_cases now id kind amount validate q
  rw [hInner] at hCases
  -- what the quorum ledger refuses the durable one may resume
  rcases hCases with ⟨hRefused, e, hQuorum⟩ | ⟨hAccepts, hQuorum⟩
  · rcases l.inner.reserveSpend_cases now id kind amount validate with
      ⟨hAccepts, -⟩ | ⟨-, hState⟩
    · exact absurd hAccepts hRefused
    · -- both leave the swept ledger; they differ where the durable one resumes
      have hOk : returnedOk (l.inner.reserveSpend now id kind amount validate).1 = true ↔
          id ∉ (l.inner.sweepExpired now).consumed ∧
            (l.inner.sweepExpired now).heldOn id kind amount = true :=
        returnedOk_reserveSpend_refused hRefused
      rw [hQuorum]
      constructor
      · intro hSame hHeld
        by_contra hFree
        have hAnswer : returnedOk (l.inner.reserveSpend now id kind amount validate).1 = false :=
          hSame.answer
        rw [hOk.mpr ⟨hFree, hHeld⟩] at hAnswer
        cases hAnswer
      · intro hNoResume
        refine Twin.SameEffect.of_eq ?_ hState
        show returnedOk (l.inner.reserveSpend now id kind amount validate).1 = false
        rw [← Bool.not_eq_true, hOk]
        rintro ⟨hFree, hHeld⟩
        exact hFree (hNoResume hHeld)
  · rcases l.inner.reserveSpend_cases now id kind amount validate with
      ⟨-, hDurable⟩ | ⟨hRefused, -⟩
    · rw [hQuorum]
      refine ⟨fun _ hHeld => ?_, fun _ => ?_⟩
      · rw [heldOn_of_lookup_none hAccepts.2.1] at hHeld
        cases hHeld
      · refine Twin.SameEffect.of_eq ?_ ?_
        · exact congrArg (fun r => returnedOk r.1) hDurable
        · exact congrArg Prod.snd hDurable
    · exact absurd hAccepts hRefused

/-- A sweep on one side only shows exactly when there is something to drop. -/
theorem sameEffect_swept_iff {o o' : Outcome} (hAnswer : returnedOk o = returnedOk o') :
    Twin.SameEffect (o, l.inner.sweepExpired now) (o', q) ↔
      ∀ j r, l.inner.reserved.lookup j = some r → now < r.expires := by
  constructor
  · intro hSame j r hr
    by_contra hExpired
    refine Twin.not_sameEffect_of_expired now l rfl ?_ hr (by omega) hSame
    show q.inner.reserved.lookup j = l.inner.reserved.lookup j
    rw [hInner]
  · intro hNone
    refine Twin.SameEffect.of_eq hAnswer ?_
    rw [sweepExpired_eq_self hNone]
    exact hInner.symm

/-- A claim on its own is the durable one. -/
theorem sameEffect_tryConsume :
    Twin.SameEffect (inMemory (l.tryConsume disk id))
      (QuorumBucketLedger.tryConsume (quorumT 0) disk soloRound id q) := by
  rw [l.tryConsume_eq_prepareConsume]
  unfold QuorumBucketLedger.tryConsume
  -- an id that is consumed is refused by both
  by_cases hConsumed : id ∈ l.inner.consumed
  · have hDurable : l.prepareConsume disk id = (.ok true, l) := by
      simp [PersistedBucketLedger.prepareConsume, hConsumed]
    have hQuorum : QuorumBucketLedger.claimConsume (quorumT 0) disk soloRound id q =
        (.error (.intentReplay id), q) := by
      simp [QuorumBucketLedger.claimConsume, PersistedBucketLedger.prepareConsume, hInner,
        hConsumed]
    rw [hDurable, hQuorum]
    exact Twin.SameEffect.of_eq rfl hInner.symm
  · rcases l.prepareConsume_cases disk id with
      ⟨hSeen, -⟩ | ⟨-, hDisk, e, log, -, hDurable⟩ | ⟨-, hDisk, hDurable⟩
    · exact absurd hSeen hConsumed
    · rcases claimConsume_cases q (quorumT 0) disk soloRound id (hInner ▸ hConsumed) with
        ⟨-, e', q', hLeft, hQuorum⟩ | ⟨hOk, -⟩
      · rw [hDurable, hQuorum]
        exact Twin.SameEffect.of_eq rfl (hLeft.trans hInner).symm
      · exact absurd hOk hDisk
    · rcases claimConsume_cases q (quorumT 0) disk soloRound id (hInner ▸ hConsumed) with
        ⟨hFails, -⟩ | ⟨-, q', hLeft, ⟨-, hQuorum⟩ | ⟨hNot, -⟩⟩
      · exact absurd hDisk hFails
      · rw [hDurable, hQuorum]
        refine Twin.SameEffect.of_eq rfl ?_
        rw [hLeft, hInner]
        rfl
      · exact absurd (soloRound_passes id) hNot

/-- The quorum commit neither sweeps nor asks for a reservation. -/
theorem sameEffect_commitConsume_iff :
    Twin.SameEffect (inMemory (l.commitConsume now disk id))
        (QuorumBucketLedger.commitConsume (quorumT 0) disk soloRound id q) ↔
      (∀ j r, l.inner.reserved.lookup j = some r → now < r.expires) ∧
        (id ∈ l.inner.consumed ∨ (l.inner.reserved.lookup id).isSome ∨ disk ≠ .ok) := by
  unfold inMemory QuorumBucketLedger.commitConsume PersistedBucketLedger.isConsumed
  rw [hInner]
  -- by what the durable ledger does: a retry, nothing to commit, a commit, or a failed write
  rcases l.commitConsume_cases now disk id with ⟨hConsumed, h⟩ | ⟨hFree, hMissing, h⟩ |
    ⟨hFree, r, hr, ⟨hDisk, h⟩ | ⟨hDisk, e, log, h⟩⟩
  · -- a commit retry on both sides
    rw [h]
    simp only [hConsumed, decide_true, if_true, true_or, and_true]
    exact sameEffect_swept_iff hInner now rfl
  · rw [h]
    simp only [hFree, decide_false, Bool.false_eq_true, if_false, false_or]
    rcases claimConsume_cases q (quorumT 0) disk soloRound id (hInner ▸ hFree) with
      ⟨hDisk, e, q', hLeft, hQuorum⟩ | ⟨hDisk, q', hLeft, ⟨-, hQuorum⟩ | ⟨hNot, -⟩⟩
    · rw [hQuorum]
      simp only [ne_eq, hDisk, not_false_eq_true, or_true, and_true]
      exact sameEffect_swept_iff (hLeft.trans hInner) now rfl
    · -- refused here, burned there
      rw [hQuorum]
      constructor
      · intro hSame
        exact absurd hSame.answer (by simp [returnedOk])
      · rintro ⟨hNone, hReserved⟩
        rw [sweepExpired_eq_self hNone] at hMissing
        simp [hMissing, hDisk] at hReserved
    · exact absurd (soloRound_passes id) hNot
  · rw [h]
    have hLive := lookup_sweepExpired_some.mp hr
    simp only [hFree, decide_false, Bool.false_eq_true, if_false, hLive.1, Option.isSome_some,
      true_or, or_true, and_true]
    rcases claimConsume_cases q (quorumT 0) disk soloRound id (hInner ▸ hFree) with
      ⟨hFails, -⟩ | ⟨-, q', hLeft, ⟨-, hQuorum⟩ | ⟨hNot, -⟩⟩
    · exact absurd hDisk hFails
    · rw [hQuorum]
      constructor
      · -- the id's own reservation is live, so what was dropped is another's
        intro hSame j r' hr'
        by_contra hExpired
        have hNe : j ≠ id := by
          rintro rfl
          rw [hLive.1] at hr'
          cases hr'
          omega
        refine Twin.not_sameEffect_of_expired now l ?_ ?_ hr' (by omega) hSame
        · simp [AList.lookup_erase_ne hNe]
        · simp [hLeft, hInner, AList.lookup_erase_ne hNe]
      · intro hNone
        refine Twin.SameEffect.of_eq rfl ?_
        rw [hLeft, hInner, sweepExpired_eq_self hNone]
    · exact absurd (soloRound_passes id) hNot
  · rw [h]
    have hLive := lookup_sweepExpired_some.mp hr
    simp only [hFree, decide_false, Bool.false_eq_true, if_false, hLive.1, Option.isSome_some,
      true_or, or_true, and_true]
    rcases claimConsume_cases q (quorumT 0) disk soloRound id (hInner ▸ hFree) with
      ⟨-, e', q', hLeft, hQuorum⟩ | ⟨hOk, -⟩
    · rw [hQuorum]
      exact sameEffect_swept_iff (hLeft.trans hInner) now rfl
    · exact absurd hOk hDisk

end Calls

/-! ## What holds in every run -/

/-- A call leaves the policies as they are. -/
theorem durablePerform_policies (a : SoloCall) (l : PersistedBucketLedger) :
    (durablePerform a l).2.inner.policies = l.inner.policies := by
  obtain ⟨now, disk, op⟩ := a
  cases op with
  | reserveSpend id kind amount validate =>
    exact l.inner.perform_policies now (.reserveSpend id kind amount validate)
  | commitConsume id =>
    show (l.commitConsume now disk id).2.inner.policies = l.inner.policies
    rcases l.commitConsume_cases now disk id with ⟨-, h⟩ | ⟨-, -, h⟩ |
      ⟨-, r, -, ⟨-, h⟩ | ⟨-, e, log, h⟩⟩ <;> rw [h] <;> simp
  | releaseReservation id kind amount =>
    exact l.inner.perform_policies now (.releaseReservation id kind amount)
  | tryConsume id =>
    show (l.tryConsume disk id).2.inner.policies = l.inner.policies
    rw [l.tryConsume_eq_prepareConsume]
    exact prepareConsume_policies l disk id
  | ttlExpiry => exact sweepExpired_policies now l.inner

/-- No call moves a policy. -/
theorem soloPerform_policies (a : SoloCall) (l : PersistedBucketLedger) :
    (soloPerform a l).2.inner.policies = l.inner.policies := by
  obtain ⟨now, disk, op⟩ := a
  -- each call is one of the durable ledger's updates
  cases op with
  | reserveSpend id kind amount validate =>
    show (QuorumBucketLedger.reserveSpend (quorumT 0) now soloRound id kind amount validate
      l).2.inner.policies = l.inner.policies
    rcases solo_reserveSpend_cases now id kind amount validate l with ⟨-, e, h⟩ | ⟨-, h⟩
    · rw [h]
      exact sweepExpired_policies now l.inner
    · rw [h]
      exact sweepExpired_policies now l.inner
  | commitConsume id =>
    show (QuorumBucketLedger.commitConsume (quorumT 0) disk soloRound id l).2.inner.policies =
      l.inner.policies
    unfold QuorumBucketLedger.commitConsume
    split
    · rfl
    · rw [claimConsume_ledger]
      exact prepareConsume_policies l disk id
  | releaseReservation id kind amount =>
    exact l.inner.perform_policies now (.releaseReservation id kind amount)
  | tryConsume id =>
    show (QuorumBucketLedger.claimConsume (quorumT 0) disk soloRound id l).2.inner.policies =
      l.inner.policies
    rw [claimConsume_ledger]
    exact prepareConsume_policies l disk id
  | ttlExpiry => exact sweepExpired_policies now l.inner

/-- The twins check reservations with the same policies. -/
def Linked (s : SoloTwin) : Prop := s.quorum.inner.policies = s.durable.inner.policies

theorem linked_step (s : SoloTwin) (a : SoloCall) (h : Linked s) : Linked (s.step a) :=
  (soloPerform_policies a s.quorum).trans (h.trans (durablePerform_policies a s.durable).symm)

/-- Twins in step hold the same in-memory state. -/
theorem inner_eq {s : SoloTwin} (hLinked : Linked s) (h : InStep s) :
    s.quorum.inner = s.durable.inner := by
  obtain ⟨⟨durable, _⟩, ⟨quorum, _⟩, _, _⟩ := s
  obtain ⟨policies, spentToday, consumed, reserved⟩ := durable
  obtain ⟨policies', spentToday', consumed', reserved'⟩ := quorum
  have hPolicies : policies' = policies := hLinked
  have hConsumed : consumed' = consumed := h.consumed
  have hReserved : reserved' = reserved := h.reserved
  have hSpent : spentToday' = spentToday := h.spentToday
  subst hPolicies hConsumed hReserved hSpent
  rfl

/-! ## In step -/

/-- A call keeps twins in step exactly when its effects agree. -/
theorem inStep_step {s : SoloTwin} (h : InStep s) (a : SoloCall) :
    InStep (s.step a) ↔
      Twin.SameEffect (inMemory (durablePerform a s.durable)) (soloPerform a s.quorum) := by
  constructor
  · intro hNext
    exact ⟨(List.cons.inj hNext.answers).1.symm, hNext.consumed.symm, hNext.reserved.symm,
      hNext.spentToday.symm⟩
  · intro hSame
    refine ⟨?_, hSame.consumed.symm, hSame.reserved.symm, hSame.spentToday.symm⟩
    have hAnswer : returnedOk (durablePerform a s.durable).1 =
        returnedOk (soloPerform a s.quorum).1 := hSame.answer
    show _ :: s.quorumAnswers = _ :: s.durableAnswers
    rw [h.answers, hAnswer]

/-- One call keeps the twins in step exactly when it meets `StaysInStep`. -/
theorem inStep_step_iff (s : SoloTwin) (a : SoloCall) (hLinked : Linked s) (h : InStep s) :
    InStep (s.step a) ↔ StaysInStep s a := by
  rw [inStep_step h]
  have hInner := inner_eq hLinked h
  obtain ⟨now, disk, op⟩ := a
  -- each call by its own comparison
  cases op with
  | reserveSpend id kind amount validate =>
    exact sameEffect_reserveSpend_iff hInner now id kind amount validate
  | commitConsume id => exact sameEffect_commitConsume_iff hInner now disk id
  | releaseReservation id kind amount =>
    refine iff_of_true (Twin.SameEffect.of_eq ?_ ?_) trivial
    · show returnedOk (s.durable.inner.releaseReservation id kind amount).1 =
        returnedOk (s.quorum.inner.releaseReservation id kind amount).1
      rw [hInner]
    · show (s.durable.inner.releaseReservation id kind amount).2 =
        (s.quorum.inner.releaseReservation id kind amount).2
      rw [hInner]
  | tryConsume id => exact iff_of_true (sameEffect_tryConsume hInner disk id) trivial
  | ttlExpiry =>
    refine iff_of_true (Twin.SameEffect.of_eq rfl ?_) trivial
    show s.durable.inner.sweepExpired now = s.quorum.inner.sweepExpired now
    rw [hInner]

/-- Between two states in step a commit of an unbacked id is refused by both. -/
theorem refusesUnbacked_of_inStep (s : SoloTwin) (a : SoloCall) (hNext : InStep (s.step a)) :
    RefusesUnbacked s a := by
  obtain ⟨now, disk, op⟩ := a
  cases op with
  | commitConsume id =>
    intro hDurable _
    have hRefused : returnedOk (durablePerform ⟨now, disk, .commitConsume id⟩ s.durable).1 =
        false := by
      show returnedOk (s.durable.commitConsume now disk id).1 = false
      rcases s.durable.commitConsume_cases now disk id with ⟨hConsumed, -⟩ | ⟨-, -, h⟩ |
        ⟨-, r, hr, -⟩
      · exact absurd hConsumed hDurable.1
      · rw [h]
        rfl
      · rw [hDurable.2] at hr
        cases hr
    refine ⟨hRefused, ?_⟩
    rw [(List.cons.inj hNext.answers).1]
    exact hRefused
  | _ => trivial

/--
**When a solo quorum ledger refines the durable one.** Twins stay in step along
a run (same answers, same consumed ids, reservations and spend), and every
commit of an unbacked id is refused by both, exactly when each call meets
`StaysInStep`.
-/
theorem solo_inStep_iff (l : PersistedBucketLedger) (calls : List SoloCall) :
    (Runs.EveryState step InStep (start l) calls ∧
        Runs.EveryStep step RefusesUnbacked (start l) calls) ↔
      Runs.EveryStep step StaysInStep (start l) calls := by
  have hIff : Runs.EveryState step InStep (start l) calls ↔
      Runs.EveryStep step StaysInStep (start l) calls := by
    have hStart : Linked (start l) := rfl
    exact Runs.everyState_iff_everyStep linked_step inStep_step_iff hStart
      ⟨rfl, rfl, rfl, rfl⟩ calls
  constructor
  · rintro ⟨hInStep, -⟩
    exact hIff.mp hInStep
  · intro hSteps
    refine ⟨hIff.mpr hSteps, ?_⟩
    exact Runs.EveryStep.of_everyState
      (fun s a _ hNext _ => refusesUnbacked_of_inStep s a hNext) (hIff.mpr hSteps) hSteps

/-- A commit of an id nobody reserved. -/
def commitUnreserved : List SoloCall := [⟨0, .ok, .commitConsume "intent-1"⟩]

/-- A reservation, and its resume on the same terms. -/
def resumeReserved : List SoloCall :=
  [⟨0, .ok, .reserveSpend "intent-1" .users 5 fun _ _ => .ok ()⟩,
    ⟨1, .ok, .reserveSpend "intent-1" .users 5 fun _ _ => .ok ()⟩]

/-- The quorum ledger burns an id nobody reserved, and refuses a resume. -/
theorem solo_not_inStep :
    ¬ Runs.EveryState step InStep (start (.openLedger .empty 1000 10000)) commitUnreserved ∧
      ¬ Runs.EveryStep step RefusesUnbacked (start (.openLedger .empty 1000 10000))
        commitUnreserved ∧
      ¬ Runs.EveryState step InStep (start (.openLedger .empty 1000 10000)) resumeReserved := by
  refine ⟨fun h => ?_, fun h => ?_, fun h => ?_⟩
  · exact absurd h.last.answers (by decide)
  · have hQuorum := (h.1 (by decide) (by decide)).2
    exact absurd hQuorum (by decide)
  · exact absurd h.last.answers (by decide)

end SoloTwin

end KeroseneVault
