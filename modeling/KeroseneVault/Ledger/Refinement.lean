import KeroseneVault.Ledger.Persisted
import KeroseneVault.Lib.Runs

/-!
# Does the durable ledger refine the in-memory one?

Both ledgers run the same calls with the same clock, the durable one on a
disk that never fails. `reserveSpend`, `commitConsume`, `releaseReservation`
and a sweep do the same to both. `tryConsume` and `authorizeSpendAndConsume`
are written anew in the durable ledger without the sweep, the second also
without the look at the reservations, so they agree only where a sweep would
drop nothing and the id is not reserved.

* `Twin` — the two ledgers and what they answered;
* `InStep` — same answers, same consumed ids, reservations and spend, and no
  id both reserved-then-committed and authorized;
* `StaysInStep` — the condition on one call.

Main results:

* `inStep_perform_iff` — a call keeps the twins in step exactly under `StaysInStep`;
* `inStep_iff` — so does a run, exactly when each of its calls meets it.
-/

namespace KeroseneVault

/-! ## Twins -/

/-- One call: the clock it reads and the method. -/
structure TimedOp where
  now : Nat
  op : LedgerOp

/-- An in-memory and a durable ledger that run the same calls. The answers
list the latest first. -/
structure Twin where
  mem : BucketState
  dur : PersistedBucketLedger
  memAnswers : List (LedgerOp × Bool)
  durAnswers : List (LedgerOp × Bool)

namespace Twin

/-- Twins that start alike. -/
def start (l : PersistedBucketLedger) : Twin := ⟨l.inner, l, [], []⟩

/-- Both ledgers run the call; the disk does not fail. -/
def step (s : Twin) (a : TimedOp) : Twin where
  mem := (s.mem.perform a.now a.op).2
  dur := (s.dur.perform a.now .ok a.op).2
  memAnswers := (a.op, returnedOk (s.mem.perform a.now a.op).1) :: s.memAnswers
  durAnswers := (a.op, returnedOk (s.dur.perform a.now .ok a.op).1) :: s.durAnswers

/-! ## What an id went through -/

/-- `reserveSpend` of the id returned Ok. -/
def ReservedOk (id : String) (answers : List (LedgerOp × Bool)) : Prop :=
  ∃ kind amount validate, (.reserveSpend id kind amount validate, true) ∈ answers

/-- `authorizeSpendAndConsume` of the id returned Ok. -/
def AuthorizedOk (id : String) (answers : List (LedgerOp × Bool)) : Prop :=
  ∃ kind amount validate, (.authorizeSpendAndConsume id kind amount validate, true) ∈ answers

/-- `reserveSpend` of the id returned Ok and, afterwards, `commitConsume`. -/
def PairOk (id : String) : List (LedgerOp × Bool) → Prop
  | [] => False
  | (.commitConsume id', true) :: earlier => (id' = id ∧ ReservedOk id earlier) ∨ PairOk id earlier
  | _ :: earlier => PairOk id earlier

/-- Same answers, same consumed ids, reservations and spend; no id has both a
reserve-then-commit pair and an authorize that succeeded. -/
structure InStep (s : Twin) : Prop where
  answers : s.memAnswers = s.durAnswers
  consumed : s.mem.consumed = s.dur.inner.consumed
  reserved : s.mem.reserved = s.dur.inner.reserved
  spentToday : s.mem.spentToday = s.dur.inner.spentToday
  once : ∀ id, ¬ (PairOk id s.durAnswers ∧ AuthorizedOk id s.durAnswers)

/-- What one call must meet. -/
def StaysInStep (s : Twin) (a : TimedOp) : Prop :=
  match a.op with
  | .tryConsume id =>
    -- nothing past its TTL but, at most, a void reservation of the id itself
    ∀ j r, s.dur.inner.reserved.lookup j = some r → r.expires ≤ a.now →
      j = id ∧ id ∉ s.dur.inner.consumed ∧ (r.amount = 0 ∨ s.dur.inner.spentToday r.kind = 0)
  | .authorizeSpendAndConsume id kind _ validate =>
    (∀ j r, s.dur.inner.reserved.lookup j = some r → a.now < r.expires) ∧
      (id ∈ s.dur.inner.consumed ∨ s.dur.inner.reserved.lookup id = none ∨
        returnedOk (s.dur.inner.validated kind validate) = false)
  | .commitConsume id =>
    -- no commit retry of an id that was reserved and consumed by an authorize
    id ∈ s.dur.inner.consumed → ¬ (ReservedOk id s.durAnswers ∧ AuthorizedOk id s.durAnswers)
  | _ => True

/-- What holds of the twins in every run. -/
structure Linked (s : Twin) : Prop where
  policies : s.mem.policies = s.dur.inner.policies
  paired : ∀ id, PairOk id s.durAnswers → id ∈ s.dur.inner.consumed
  authorized : ∀ id, AuthorizedOk id s.durAnswers → id ∈ s.dur.inner.consumed

/-! ## One call on one state -/

/-- The two calls answer alike and leave the same consumed ids, reservations
and spend. -/
structure SameEffect (m : Outcome × BucketState) (d : Outcome × PersistedBucketLedger) : Prop where
  answer : returnedOk m.1 = returnedOk d.1
  consumed : m.2.consumed = d.2.inner.consumed
  reserved : m.2.reserved = d.2.inner.reserved
  spentToday : m.2.spentToday = d.2.inner.spentToday

theorem SameEffect.of_eq {m : Outcome × BucketState} {d : Outcome × PersistedBucketLedger}
    (hAnswer : returnedOk m.1 = returnedOk d.1) (hState : m.2 = d.2.inner) : SameEffect m d := by
  refine ⟨hAnswer, ?_, ?_, ?_⟩ <;> rw [hState]

variable (now : Nat) (l : PersistedBucketLedger)

/-- The durable commit does what the in-memory one does. -/
theorem sameEffect_commitConsume (id : String) :
    SameEffect (l.inner.commitConsume now id) (l.commitConsume now .ok id) := by
  unfold BucketState.commitConsume PersistedBucketLedger.commitConsume
  by_cases hConsumed : id ∈ l.inner.consumed
  · simpa [hConsumed] using SameEffect.of_eq rfl rfl
  · cases hReserved : (l.inner.sweepExpired now).reserved.lookup id with
    | none => simpa [hConsumed, hReserved] using SameEffect.of_eq rfl rfl
    | some r =>
      simpa [hConsumed, hReserved, PersistedBucketLedger.tryConsume,
        PersistedBucketLedger.appendConsumed] using SameEffect.of_eq rfl rfl

/-- A reservation that a sweep drops is gone from the one ledger and still in
the other. -/
theorem not_sameEffect_of_expired {m : Outcome × BucketState}
    {d : Outcome × PersistedBucketLedger} {j : String} {r : Reservation}
    (hMem : m.2.reserved.lookup j = (l.inner.sweepExpired now).reserved.lookup j)
    (hDur : d.2.inner.reserved.lookup j = l.inner.reserved.lookup j)
    (hr : l.inner.reserved.lookup j = some r) (hExpired : r.expires ≤ now) :
    ¬ SameEffect m d := by
  intro hSame
  have hEq : (l.inner.sweepExpired now).reserved.lookup j = some r := by
    rw [← hMem, hSame.reserved, hDur, hr]
  have hLive := (BucketState.lookup_sweepExpired_some.mp hEq).2
  omega

/-- The durable one-shot claim has no sweep: it agrees where nothing is past
its TTL but a void reservation of the id itself. -/
theorem sameEffect_tryConsume_iff (id : String) :
    SameEffect (l.inner.tryConsume now id) (l.tryConsume .ok id) ↔
      ∀ j r, l.inner.reserved.lookup j = some r → r.expires ≤ now →
        j = id ∧ id ∉ l.inner.consumed ∧ (r.amount = 0 ∨ l.inner.spentToday r.kind = 0) := by
  by_cases hConsumed : id ∈ l.inner.consumed
  · -- both refuse; only the sweep can tell them apart
    have hMem : l.inner.tryConsume now id =
        (.error (.intentReplay id), l.inner.sweepExpired now) := by
      simp [BucketState.tryConsume, hConsumed]
    have hDur : l.tryConsume .ok id = (.error (.intentReplay id), l) := by
      simp [PersistedBucketLedger.tryConsume, hConsumed]
    rw [hMem, hDur]
    constructor
    · intro hSame j r hr hExpired
      exact absurd hSame (not_sameEffect_of_expired now l rfl rfl hr hExpired)
    · intro hNone
      refine SameEffect.of_eq rfl (BucketState.sweepExpired_eq_self fun j r hr => ?_)
      by_contra hExpired
      exact (hNone j r hr (by omega)).2.1 hConsumed
  · have hMem : l.inner.tryConsume now id =
        (.ok (), (l.inner.sweepExpired now).burn id) := by
      simp [BucketState.tryConsume, hConsumed]
    have hDur : l.tryConsume .ok id = (.ok (), ⟨l.inner.burn id, l.log.append id.toList⟩) := by
      simp [PersistedBucketLedger.tryConsume, hConsumed, PersistedBucketLedger.appendConsumed]
    rw [hMem, hDur]
    constructor
    · intro hSame j r hr hExpired
      -- another id's expired reservation shows in the tables
      have hOnly : ∀ j r, l.inner.reserved.lookup j = some r → r.expires ≤ now → j = id := by
        intro j r hr hExpired
        by_contra hNe
        refine not_sameEffect_of_expired now l ?_ ?_ hr hExpired hSame
        · simp [AList.lookup_erase_ne hNe]
        · simp [AList.lookup_erase_ne hNe]
      have hj := hOnly j r hr hExpired
      subst hj
      -- its own shows in the counter
      have hSpent := congrFun hSame.spentToday r.kind
      simp only [BucketState.burn_spentToday] at hSpent
      rw [BucketState.sweepExpired_eq_dropReservation hr hExpired hOnly,
        BucketState.dropReservation, hr] at hSpent
      simp only [BucketState.refund_spentToday, if_true] at hSpent
      exact ⟨rfl, hConsumed, by omega⟩
    · intro hOnly
      cases hr : l.inner.reserved.lookup id with
      | none =>
        -- then nothing at all is past its TTL
        refine SameEffect.of_eq rfl ?_
        rw [BucketState.sweepExpired_eq_self]
        intro j r hr'
        by_contra hExpired
        have hj := (hOnly j r hr' (by omega)).1
        rw [hj, hr] at hr'
        cases hr'
      | some r =>
        by_cases hExpired : r.expires ≤ now
        · -- the sweep drops the id's own entry, which the burn takes anyway
          have hVoid := (hOnly id r hr hExpired).2.2
          rw [BucketState.sweepExpired_eq_dropReservation hr hExpired
            fun j r' hr' hExp => (hOnly j r' hr' hExp).1]
          refine ⟨rfl, by simp, ?_, ?_⟩
          · simp only [BucketState.burn_reserved, BucketState.dropReservation_reserved]
            exact Table.erase_of_lookup_none (by simp)
          · funext k
            simp only [BucketState.burn_spentToday, BucketState.dropReservation, hr,
              BucketState.refund_spentToday]
            split
            · rename_i hk
              subst hk
              omega
            · rfl
        · refine SameEffect.of_eq rfl ?_
          rw [BucketState.sweepExpired_eq_self]
          intro j r' hr'
          by_contra hExp
          have hj := (hOnly j r' hr' (by omega)).1
          rw [hj, hr] at hr'
          cases hr'
          omega

/-- The durable authorize has neither the sweep nor the look at the
reservations: it agrees where nothing is past its TTL and the id is not
reserved, unless both refuse for another reason. -/
theorem sameEffect_authorize_iff (id : String) (kind : BucketKind) (amount : Nat)
    (validate : Validate) :
    SameEffect (l.inner.authorizeSpendAndConsume now id kind amount validate)
        (l.authorizeSpendAndConsume .ok id kind amount validate) ↔
      (∀ j r, l.inner.reserved.lookup j = some r → now < r.expires) ∧
        (id ∈ l.inner.consumed ∨ l.inner.reserved.lookup id = none ∨
          returnedOk (l.inner.validated kind validate) = false) := by
  -- neither ledger's authorize touches the table after its sweep
  have hMemReserved : (l.inner.authorizeSpendAndConsume now id kind amount validate).2.reserved =
      (l.inner.sweepExpired now).reserved := by
    simp only [BucketState.authorizeSpendAndConsume]
    split
    · rfl
    · split <;> rfl
  have hDurReserved : (l.authorizeSpendAndConsume .ok id kind amount validate).2.inner.reserved =
      l.inner.reserved := by
    simp only [PersistedBucketLedger.authorizeSpendAndConsume,
      PersistedBucketLedger.appendConsumed]
    split
    · rfl
    · split <;> rfl
  by_cases hNone : ∀ j r, l.inner.reserved.lookup j = some r → now < r.expires
  · -- the sweep is idle: the two differ in the look at the reservations only
    simp only [BucketState.authorizeSpendAndConsume,
      PersistedBucketLedger.authorizeSpendAndConsume, PersistedBucketLedger.appendConsumed,
      BucketState.sweepExpired_eq_self hNone]
    by_cases hConsumed : id ∈ l.inner.consumed
    · simp only [hConsumed, true_or, if_true]
      exact ⟨fun _ => ⟨hNone, trivial⟩, fun _ => SameEffect.of_eq rfl rfl⟩
    · cases hValid : l.inner.validated kind validate with
      | error e =>
        cases hReserved : l.inner.reserved.lookup id with
        | none =>
          simp only [hConsumed, if_false, Option.isSome_none, Bool.false_eq_true, or_self,
            returnedOk]
          exact ⟨fun _ => ⟨hNone, by simp⟩, fun _ => SameEffect.of_eq rfl rfl⟩
        | some r =>
          simp only [hConsumed, if_false, Option.isSome_some, or_true, if_true, returnedOk]
          exact ⟨fun _ => ⟨hNone, by simp⟩, fun _ => SameEffect.of_eq rfl rfl⟩
      | ok u =>
        cases hReserved : l.inner.reserved.lookup id with
        | none =>
          simp only [hConsumed, if_false, Option.isSome_none, Bool.false_eq_true, or_self]
          exact ⟨fun _ => ⟨hNone, by simp⟩, fun _ => SameEffect.of_eq rfl rfl⟩
        | some r =>
          -- reserved: the in-memory ledger refuses, the durable one accepts
          simp only [hConsumed, if_false, Option.isSome_some, or_true, if_true, returnedOk]
          constructor
          · intro hSame
            exact absurd hSame.answer (by simp [returnedOk])
          · rintro ⟨-, hNot⟩
            simp at hNot
  · -- a reservation past its TTL is gone from one table only
    constructor
    · intro hSame
      push Not at hNone
      obtain ⟨j, r, hr, hExpired⟩ := hNone
      exact absurd hSame (not_sameEffect_of_expired now l (by rw [hMemReserved])
        (by rw [hDurReserved]) hr hExpired)
    · rintro ⟨hAll, -⟩
      exact absurd hAll hNone

end Twin

namespace Twin

/-! ## What holds in every run -/

theorem returnedOk_eq_true {o : Outcome} : returnedOk o = true ↔ o = .ok () := by
  cases o <;> simp [returnedOk]

/-- An answer that is no commit that returned Ok makes no pair. -/
theorem pairOk_cons {id : String} {op : LedgerOp} {ok : Bool} {answers : List (LedgerOp × Bool)} :
    PairOk id ((op, ok) :: answers) ↔
      (op = .commitConsume id ∧ ok = true ∧ ReservedOk id answers) ∨ PairOk id answers := by
  cases op <;> cases ok <;> simp [PairOk]

theorem authorizedOk_cons {id : String} {op : LedgerOp} {ok : Bool}
    {answers : List (LedgerOp × Bool)} :
    AuthorizedOk id ((op, ok) :: answers) ↔
      (ok = true ∧ ∃ kind amount validate, op = .authorizeSpendAndConsume id kind amount validate) ∨
        AuthorizedOk id answers := by
  constructor
  · rintro ⟨kind, amount, validate, h⟩
    rcases List.mem_cons.mp h with h | h
    · cases h
      exact Or.inl ⟨rfl, kind, amount, validate, rfl⟩
    · exact Or.inr ⟨kind, amount, validate, h⟩
  · rintro (⟨rfl, kind, amount, validate, rfl⟩ | ⟨kind, amount, validate, h⟩)
    · exact ⟨kind, amount, validate, List.mem_cons_self ..⟩
    · exact ⟨kind, amount, validate, List.mem_cons_of_mem _ h⟩

theorem linked_start (l : PersistedBucketLedger) : Linked (start l) where
  policies := rfl
  paired id h := absurd h not_false
  authorized id h := by
    obtain ⟨kind, amount, validate, h⟩ := h
    cases h

/-- Whatever has been committed or authorized is consumed. -/
theorem linked_step (s : Twin) (a : TimedOp) (h : Linked s) : Linked (s.step a) where
  policies := by
    have hMem := s.mem.perform_policies a.now a.op
    have hDur := s.dur.perform_policies a.now a.op
    exact hMem.trans (h.policies.trans hDur.symm)
  -- what was committed after a reservation is consumed, by the call itself or before it
  paired id hPair := by
    have hGrow := s.dur.perform_consumed a.now a.op
    rcases pairOk_cons.mp hPair with ⟨hOp, hOk, -⟩ | hOld
    · rw [returnedOk_eq_true] at hOk
      show id ∈ (s.dur.perform a.now .ok a.op).2.inner.consumed
      rw [hOp] at hOk ⊢
      exact PersistedBucketLedger.mem_consumed_of_commitConsume_ok hOk
    · exact hGrow (h.paired id hOld)
  authorized id hAuth := by
    have hGrow := s.dur.perform_consumed a.now a.op
    rcases authorizedOk_cons.mp hAuth with ⟨hOk, kind, amount, validate, hOp⟩ | hOld
    · rw [returnedOk_eq_true] at hOk
      show id ∈ (s.dur.perform a.now .ok a.op).2.inner.consumed
      rw [hOp] at hOk ⊢
      exact (PersistedBucketLedger.authorizeSpendAndConsume_ok hOk).2
    · exact hGrow (h.authorized id hOld)

/-- Twins in step hold the same in-memory state. -/
theorem mem_eq {s : Twin} (hLinked : Linked s) (h : InStep s) : s.mem = s.dur.inner := by
  obtain ⟨mem, dur, memAnswers, durAnswers⟩ := s
  obtain ⟨policies, spentToday, consumed, reserved⟩ := mem
  obtain ⟨⟨policies', spentToday', consumed', reserved'⟩, log⟩ := dur
  have hPolicies : policies = policies' := hLinked.policies
  have hConsumed : consumed = consumed' := h.consumed
  have hReserved : reserved = reserved' := h.reserved
  have hSpent : spentToday = spentToday' := h.spentToday
  subst hPolicies hConsumed hReserved hSpent
  rfl

/-! ## In step -/

/-- A call keeps twins in step when its effects agree and no id is doubled. -/
theorem inStep_step {s : Twin} (hLinked : Linked s) (h : InStep s) (a : TimedOp) :
    InStep (s.step a) ↔
      SameEffect (s.dur.inner.perform a.now a.op) (s.dur.perform a.now .ok a.op) ∧
        ∀ id, ¬ (PairOk id (s.step a).durAnswers ∧ AuthorizedOk id (s.step a).durAnswers) := by
  have hMem := mem_eq hLinked h
  constructor
  · intro hNext
    refine ⟨⟨?_, ?_, ?_, ?_⟩, hNext.once⟩ <;> rw [← hMem]
    · exact congrArg Prod.snd (List.cons.inj hNext.answers).1
    · exact hNext.consumed
    · exact hNext.reserved
    · exact hNext.spentToday
  · rintro ⟨hSame, hOnce⟩
    rw [← hMem] at hSame
    refine ⟨?_, hSame.consumed, hSame.reserved, hSame.spentToday, hOnce⟩
    show (a.op, _) :: s.memAnswers = (a.op, _) :: s.durAnswers
    rw [h.answers, hSame.answer]

/-- No id gets doubled by a call, except by a commit retry of an id that was
reserved and authorized. -/
theorem once_step_iff {s : Twin} (hLinked : Linked s) (h : InStep s) (a : TimedOp) :
    (∀ id, ¬ (PairOk id (s.step a).durAnswers ∧ AuthorizedOk id (s.step a).durAnswers)) ↔
      ∀ id, a.op = .commitConsume id → id ∈ s.dur.inner.consumed →
        ¬ (ReservedOk id s.durAnswers ∧ AuthorizedOk id s.durAnswers) := by
  constructor
  · rintro hOnce id hOp hConsumed ⟨hReserved, hAuth⟩
    refine hOnce id ⟨pairOk_cons.mpr (Or.inl ⟨hOp, ?_, hReserved⟩),
      authorizedOk_cons.mpr (Or.inr hAuth)⟩
    rw [returnedOk_eq_true, hOp]
    exact PersistedBucketLedger.commitConsume_of_consumed hConsumed
  · rintro hRetry id ⟨hPair, hAuth⟩
    rcases pairOk_cons.mp hPair with ⟨hOp, -, hReserved⟩ | hPairOld
    · rcases authorizedOk_cons.mp hAuth with ⟨-, kind, amount, validate, hOp'⟩ | hAuthOld
      · rw [hOp] at hOp'
        cases hOp'
      · exact hRetry id hOp (hLinked.authorized id hAuthOld) ⟨hReserved, hAuthOld⟩
    · rcases authorizedOk_cons.mp hAuth with ⟨hOk, kind, amount, validate, hOp⟩ | hAuthOld
      · -- a paired id is consumed, so its authorize is refused
        rw [returnedOk_eq_true, hOp] at hOk
        exact (PersistedBucketLedger.authorizeSpendAndConsume_ok hOk).1 (hLinked.paired id hPairOld)
      · exact h.once id ⟨hPairOld, hAuthOld⟩

/-- One call keeps the twins in step exactly when it meets `StaysInStep`. -/
theorem inStep_perform_iff (s : Twin) (a : TimedOp) (hLinked : Linked s) (h : InStep s) :
    InStep (s.step a) ↔ StaysInStep s a := by
  rw [inStep_step hLinked h a, once_step_iff hLinked h a]
  obtain ⟨now, op⟩ := a
  cases op with
  | reserveSpend id kind amount validate =>
    simpa [StaysInStep] using SameEffect.of_eq rfl rfl
  | commitConsume id =>
    have hSame := sameEffect_commitConsume now s.dur id
    simpa [StaysInStep, BucketState.perform, PersistedBucketLedger.perform] using fun _ => hSame
  | tryConsume id =>
    have hIff := sameEffect_tryConsume_iff now s.dur id
    simpa [StaysInStep, BucketState.perform, PersistedBucketLedger.perform] using hIff
  | releaseReservation id kind amount =>
    simpa [StaysInStep] using SameEffect.of_eq rfl rfl
  | authorizeSpendAndConsume id kind amount validate =>
    have hIff := sameEffect_authorize_iff now s.dur id kind amount validate
    simpa [StaysInStep, BucketState.perform, PersistedBucketLedger.perform] using hIff
  | sweepExpired =>
    simpa [StaysInStep] using SameEffect.of_eq rfl rfl

/--
**When the durable ledger refines the in-memory one.** Twins stay in step
along a run (same answers, same consumed ids, reservations and spend, no id
both paired and authorized) exactly when each call meets `StaysInStep`.
-/
theorem inStep_iff (l : PersistedBucketLedger) (ops : List TimedOp) :
    Runs.EveryState step InStep (start l) ops ↔
      Runs.EveryStep step StaysInStep (start l) ops := by
  refine Runs.everyState_iff_everyStep linked_step inStep_perform_iff (linked_start l) ?_ ops
  refine ⟨rfl, rfl, rfl, rfl, fun id h => ?_⟩
  exact absurd h.1 not_false

/-- A reservation, an authorize of the same id, the commit. -/
def authorizeWhileReserved : List TimedOp :=
  [⟨0, .reserveSpend "intent-1" .users 5 fun _ _ => .ok ()⟩,
    ⟨1, .authorizeSpendAndConsume "intent-1" .users 5 fun _ _ => .ok ()⟩,
    ⟨2, .commitConsume "intent-1"⟩]

/-- The durable ledger authorizes an id that is reserved, the in-memory one
refuses it. -/
theorem authorizeWhileReserved_not_inStep :
    ¬ Runs.EveryState step InStep (start (.openLedger .empty 1000 10000))
      authorizeWhileReserved := by
  intro h
  have hAnswers := congrArg (List.map Prod.snd) h.last.answers
  have hMem : (Runs.run step (start (.openLedger .empty 1000 10000))
      authorizeWhileReserved).memAnswers.map Prod.snd = [true, false, true] := by decide
  have hDur : (Runs.run step (start (.openLedger .empty 1000 10000))
      authorizeWhileReserved).durAnswers.map Prod.snd = [true, true, true] := by decide
  rw [hMem, hDur] at hAnswers
  exact absurd hAnswers (by decide)

end Twin

end KeroseneVault
