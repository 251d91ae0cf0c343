import KeroseneVault.Application.GateIntent
import KeroseneVault.Ledger.Accounting
import KeroseneVault.Lib.Tally
import KeroseneVault.Rotation.Daily

/-!
# Daily caps and the day epoch

A vault gates intents on its bucket ledger and advances its `DayEpoch` now
and then. An advance touches the votes and the current day only: nothing
resets the ledger's counters, so the cap the gate checks is a cap on all that
was counted since the process started.

* `DayVault`, `DayVault.step` — ledger calls and advances;
* `DayVault.today`, `DayVault.earlier` — what the book counts for a bucket,
  parted by whether it was reserved or settled in the current day epoch.

Main results:

* `Kept.spentToday_le` — the counter is at most today's and earlier days' spends;
* `perDay_of_earlierFits` — while what earlier days left fits as well, no
  intent within the cap by today's spends is refused for it;
* `nextDay_refused` — otherwise the new day pays for the old one.
-/

namespace KeroseneVault

open BucketState Tally

/-! ## The vault -/

/-- A ledger with its book, the day each id's reservation was made on, the
day each settled id was settled on, and the rotation. -/
structure DayVault where
  accounts : Accounts BucketState
  madeOn : String → Option DayEpoch
  settledOn : String → Option DayEpoch
  rotation : QuorumDailyRotation

/-- A gate call that reaches the ledger, any other port call, or an advance. -/
inductive DayOp where
  | gate (now : Nat) (phase : GateIntent.Phase) (intent : SettlementIntent)
      (economy : Option EconomyState) (policyHash : String)
      (isU64 : intent.amountSats ≤ u64Max)
  | port (c : MemCall)
  | advance (dawn : Dawn)

theorem GateIntent.portOp_amount (phase : GateIntent.Phase) (intent : SettlementIntent)
    (validate : Validate) :
    (GateIntent.portOp phase intent validate).amount = intent.amountSats := by
  cases phase <;> rfl

namespace DayVault

/-- The port call of a gate call. -/
def gateCall (isAddress : String → Bool) (now : Nat) (phase : GateIntent.Phase)
    (intent : SettlementIntent) (economy : Option EconomyState) (policyHash : String)
    (isU64 : intent.amountSats ≤ u64Max) : MemCall where
  now := now
  op := GateIntent.portOp phase intent (gateValidate isAddress intent economy policyHash)
  isU64 := by rwa [GateIntent.portOp_amount]

/-- A port call, its new reservations and settlements dated. -/
def portStep (s : DayVault) (c : MemCall) : DayVault :=
  let found := s.accounts.ledger.sweepExpired c.now
  let next := memStep s.accounts c
  { s with
    accounts := next
    madeOn := fun id =>
      if found.reserved.lookup id = none ∧ next.ledger.reserved.lookup id ≠ none then
        some s.rotation.current
      else s.madeOn id
    settledOn := fun id =>
      if id ∈ next.book.settled ∧ id ∉ s.accounts.book.settled then some s.rotation.current
      else s.settledOn id }

def step (isAddress : String → Bool) (s : DayVault) : DayOp → DayVault
  | .gate now phase intent economy policyHash isU64 =>
    s.portStep (gateCall isAddress now phase intent economy policyHash isU64)
  | .port c => s.portStep c
  | .advance dawn => { s with rotation := (s.rotation.advance dawn).2 }

def start (maxTx maxDay : Nat) (rotation : QuorumDailyRotation) : DayVault where
  accounts := ⟨.fromConstitutionCaps maxTx maxDay, .empty⟩
  madeOn _ := none
  settledOn _ := none
  rotation := rotation

/-! ## Today and earlier -/

/-- The id's live reservation was made in the current day epoch. -/
def MadeToday (s : DayVault) (id : String) : Prop := s.madeOn id = some s.rotation.current

/-- The id was reserved or settled in the current day epoch. -/
def CountsToday (s : DayVault) (id : String) : Prop :=
  s.settledOn id = some s.rotation.current ∨ s.MadeToday id

instance (s : DayVault) (id : String) : Decidable (s.MadeToday id) :=
  inferInstanceAs (Decidable (s.madeOn id = some s.rotation.current))

instance (s : DayVault) (id : String) : Decidable (s.CountsToday id) :=
  inferInstanceAs (Decidable (_ ∨ _))

/-- What was reserved or settled for bucket `k` in the current day epoch, with
the live reservations of `g`. -/
def today (s : DayVault) (g : BucketState) (k : BucketKind) : Nat :=
  tally (fun e => s.CountsToday e.1) (fun e => e.2.share k) s.accounts.book.settled.entries +
    tally (fun e => s.MadeToday e.1) (fun e => e.2.share k) g.reserved.entries

/-- What is counted for bucket `k` from earlier day epochs. -/
def earlier (s : DayVault) (g : BucketState) (k : BucketKind) : Nat :=
  tally (fun e => ¬ s.CountsToday e.1) (fun e => e.2.share k) s.accounts.book.settled.entries +
    tally (fun e => ¬ s.MadeToday e.1) (fun e => e.2.share k) g.reserved.entries

/-- Together they are all that is settled and held. -/
theorem today_add_earlier (s : DayVault) (g : BucketState) (k : BucketKind) :
    s.today g k + s.earlier g k = s.accounts.book.committed k + g.live k := by
  have hSettled := tally_add_tally_not (fun e => s.CountsToday e.1)
    (fun e => Terms.share k e.2) s.accounts.book.settled.entries
  have hLive := tally_add_tally_not (fun e => s.MadeToday e.1)
    (fun e => Reservation.share k e.2) g.reserved.entries
  rw [Book.committed, live, Table.total, Table.total, ← hSettled, ← hLive, today, earlier]
  omega

/-! ## The property and its condition -/

/-- A gate call is refused for the daily cap only if today's spends and its
amount exceed the cap. -/
def PerDay (isAddress : String → Bool) (s : DayVault) : DayOp → Prop
  | .gate now phase intent economy policyHash isU64 =>
    let c := gateCall isAddress now phase intent economy policyHash isU64
    let g := s.accounts.ledger.sweepExpired now
    ∀ policy, g.policies intent.bucket = some policy →
      refusedPerDay (s.accounts.ledger.perform now c.op).1 = true →
        policy.maxPerDaySats < s.today g intent.bucket + intent.amountSats
  | _ => True

/-- What earlier days left fits beside today's spends and the amount, unless
these exceed the cap alone. -/
def EarlierFits (s : DayVault) : DayOp → Prop
  | .gate now _ intent _ _ _ =>
    let g := s.accounts.ledger.sweepExpired now
    ∀ policy, g.policies intent.bucket = some policy →
      s.today g intent.bucket + intent.amountSats ≤ policy.maxPerDaySats →
        s.earlier g intent.bucket + (s.today g intent.bucket + intent.amountSats) ≤
          policy.maxPerDaySats
  | _ => True

end DayVault

/-! ## What the ledger answers -/

/-- A policy refusal reaches the caller only from the closure. -/
theorem BucketState.validated_perDay {g : BucketState} {kind : BucketKind} {validate : Validate}
    (h : refusedPerDay (g.validated kind validate) = true) :
    ∃ policy, g.policies kind = some policy ∧
      refusedPerDay (validate policy (g.spentToday kind)) = true := by
  unfold BucketState.validated at h
  cases hPolicy : g.policies kind with
  | none => simp [hPolicy, refusedPerDay] at h
  | some policy => exact ⟨policy, rfl, by simpa [hPolicy] using h⟩

/-- A gate call refused for the daily cap was checked against the swept
ledger's counter. -/
theorem perform_portOp_perDay {g : BucketState} {now : Nat} {phase : GateIntent.Phase}
    {intent : SettlementIntent} {validate : Validate}
    (h : refusedPerDay (g.perform now (GateIntent.portOp phase intent validate)).1 = true) :
    refusedPerDay ((g.sweepExpired now).validated intent.bucket validate) = true := by
  cases phase with
  | reserve =>
    -- a replay is no policy refusal: the closure is what is left
    simp only [GateIntent.portOp, perform, reserveSpend] at h
    split at h
    · simp [refusedPerDay] at h
    · split at h
      · split at h <;> simp [refusedPerDay] at h
      · split at h
        · rename_i hValid
          rwa [hValid]
        · simp [refusedPerDay] at h
  | consume =>
    simp only [GateIntent.portOp, perform, authorizeSpendAndConsume] at h
    split at h
    · simp [refusedPerDay] at h
    · split at h
      · rename_i hValid
        rwa [hValid]
      · simp [refusedPerDay] at h

/-- The closure refuses for the daily cap only above it. -/
theorem gateValidate_perDay (isAddress : String → Bool) {intent : SettlementIntent}
    {economy : Option EconomyState} {policyHash : String} {policy : BucketPolicy} {spent : Nat}
    (h : refusedPerDay (gateValidate isAddress intent economy policyHash policy spent) = true) :
    policy.maxPerDaySats < spent + intent.amountSats := by
  have hAbove := evaluateIntent_perDay isAddress h
  rw [admitOperators_maxPerDaySats] at hAbove
  exact hAbove.trans_le (satAdd_le_add ..)

/-! ## Runs -/

namespace DayVault

/-- The book fits the ledger and covers its counters. -/
structure Kept (s : DayVault) : Prop where
  book : BookOk s.accounts.ledger s.accounts.book
  covered : Covered s.accounts.ledger s.accounts.book

theorem kept_start (maxTx maxDay : Nat) (rotation : QuorumDailyRotation) :
    Kept (start maxTx maxDay rotation) :=
  ⟨bookOk_fresh rfl, fun _ => Nat.zero_le _⟩

theorem kept_step (isAddress : String → Bool) (s : DayVault) (op : DayOp) (h : s.Kept) :
    (s.step isAddress op).Kept := by
  -- a gate call is a port call here: each is one entry
  have hPort : ∀ c, (s.portStep c).Kept := fun c =>
    ⟨(entry_memory s.accounts c).book h.book, (entry_memory s.accounts c).covered h.book h.covered⟩
  cases op with
  | gate now phase intent economy policyHash isU64 => exact hPort _
  | port c => exact hPort c
  | advance dawn => exact ⟨h.book, h.covered⟩

/-- The counter a gate call is checked against is at most today's and earlier
days' spends. -/
theorem Kept.spentToday_le {s : DayVault} (h : s.Kept) (now : Nat) (k : BucketKind) :
    (s.accounts.ledger.sweepExpired now).spentToday k ≤
      s.today (s.accounts.ledger.sweepExpired now) k +
        s.earlier (s.accounts.ledger.sweepExpired now) k := by
  rw [today_add_earlier]
  exact h.covered.sweepExpired now k

theorem perDay_step (isAddress : String → Bool) (s : DayVault) (op : DayOp) (h : s.Kept)
    (hFits : s.EarlierFits op) : s.PerDay isAddress op := by
  cases op with
  | gate now phase intent economy policyHash isU64 =>
    intro policy hPolicy hRefused
    have hValid := perform_portOp_perDay hRefused
    obtain ⟨policy', hPolicy', hClosure⟩ := validated_perDay hValid
    have hSame : policy' = policy := Option.some.inj (hPolicy'.symm.trans hPolicy)
    subst hSame
    have hAbove := gateValidate_perDay isAddress hClosure
    have hSpent := h.spentToday_le now intent.bucket
    have hFit := hFits policy' hPolicy
    -- within the cap today, the sum that was refused would fit as well
    by_contra hWithin
    have hAll := hFit (Nat.le_of_not_lt hWithin)
    omega
  | port c => trivial
  | advance dawn => trivial

end DayVault

open DayVault in
/--
**Caps per day.** In a run whose gate calls come while what earlier day
epochs left fits beside today's spends and the amount, no intent that is
within the daily cap by today's spends alone is refused for it.
-/
theorem perDay_of_earlierFits (isAddress : String → Bool) (maxTx maxDay : Nat)
    (rotation : QuorumDailyRotation) (ops : List DayOp)
    (h : Runs.EveryStep (step isAddress) EarlierFits (start maxTx maxDay rotation) ops) :
    Runs.EveryStep (step isAddress) (PerDay isAddress) (start maxTx maxDay rotation) ops :=
  h.of_invariant (kept_step isAddress) (perDay_step isAddress) (kept_start maxTx maxDay rotation)

/-- A rotation that needs its own vote only, on 1970-01-01. -/
def soloRotation : QuorumDailyRotation := ⟨1, "vault-1", ∅, ⟨"1970-01-01".toList⟩⟩

/-- Authorize an amount, move to the next day, authorize the amount again. -/
def nextDay (amount : Nat) (isU64 : amount ≤ u64Max) : List DayOp :=
  let intent (id : String) : SettlementIntent :=
    ⟨id, .users, "tb1q-users-withdraw", amount, "policy-1", none⟩
  [.gate 0 .consume (intent "intent-1") none "policy-1" isU64,
    .advance ⟨86400, .ok [], fun _ => .ok (), fun _ _ _ => .ok ()⟩,
    .gate 86400 .consume (intent "intent-2") none "policy-1" isU64]

example : ((soloRotation.advance ⟨86400, .ok [], fun _ => .ok (), fun _ _ _ => .ok ()⟩).2).current =
    ⟨"1970-01-02".toList⟩ := by decide

/-- 40 of a cap of 100 on each of two days: both fit together. -/
theorem perDay_nextDay :
    Runs.EveryStep (DayVault.step fun _ => false) (DayVault.PerDay fun _ => false)
      (DayVault.start 100 100 soloRotation) (nextDay 40 (by decide)) := by
  refine perDay_of_earlierFits _ _ _ _ _ ⟨?_, trivial, ?_, trivial⟩
  · intro policy hPolicy
    cases hPolicy
    decide
  · intro policy hPolicy
    cases hPolicy
    decide

/-- 60 of a cap of 100 on each of two days: the second is refused. -/
theorem nextDay_refused :
    ¬ Runs.EveryStep (DayVault.step fun _ => false) (DayVault.PerDay fun _ => false)
      (DayVault.start 100 100 soloRotation) (nextDay 60 (by decide)) := by
  intro h
  have hSecond := h.2.2.1 (.labDefaults .users 100 100) rfl
  revert hSecond
  decide

end KeroseneVault
