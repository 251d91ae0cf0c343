import KeroseneVault.Application.GateIntent
import KeroseneVault.Ledger.Accounts
import KeroseneVault.Lib.Runs
import KeroseneVault.Lib.Tally

/-!
# The daily cap across restarts

A process gates intents on a durable ledger and restarts now and then on the
same log. The log brings back the consumed ids and nothing else: the counters
the cap is checked against start over.

* `Process`, `Process.step` — gate calls, commits and restarts;
* `committedIn`, `committedOn` — the amounts committed in one process
  lifetime, on one calendar day.

Main results:

* `committed_le_dailyCap` — one lifetime commits at most the cap, so a day at
  most the cap for each lifetime that committed on it;
* `restarted_exceeds_dailyCap` — with a restart a day can exceed the cap, and at
  `u64::MAX` without one.
-/

namespace KeroseneVault

open BucketState Tally

/-! ## The process -/

/-- An intent that was committed: in which lifetime, on which day, from which
bucket and how much. -/
structure Committed where
  life : Nat
  day : Nat
  kind : BucketKind
  amount : Nat
  deriving DecidableEq

/-- A process with its ledger, the number of restarts before it, and all that
was ever committed, the latest first. -/
structure Process where
  ledger : PersistedBucketLedger
  life : Nat
  history : List Committed

inductive ProcessOp where
  | reserve (intent : SettlementIntent)
  | execute (intent : SettlementIntent)
  | commit (id : String)
  | admitDestinations (kind : BucketKind) (dests : List String)
  | restart

/-- One call with all its surroundings: the clock in seconds, the disk, and
what the constitution and the economy answer. -/
structure ProcessCall where
  now : Nat
  disk : Disk
  constitution : Except DomainError Constitution
  economy : Except DomainError EconomyState
  op : ProcessOp

/-- The calendar day of a clock reading. -/
def calendarDay (now : Nat) : Nat := now / 86400

/-- What was committed for a bucket in one lifetime. -/
def committedIn (life : Nat) (kind : BucketKind) (history : List Committed) : Nat :=
  tally (fun e => e.kind = kind ∧ e.life = life) Committed.amount history

/-- What was committed for a bucket on one day. -/
def committedOn (day : Nat) (kind : BucketKind) (history : List Committed) : Nat :=
  tally (fun e => e.kind = kind ∧ e.day = day) Committed.amount history

/-- The lifetimes that committed for the bucket on the day. -/
def livesOn (day : Nat) (kind : BucketKind) (history : List Committed) : Finset Nat :=
  ((history.filter fun e => decide (e.kind = kind ∧ e.day = day)).map Committed.life).toFinset

/-- The `max_per_day_sats` a process starts a bucket with. -/
def dailyCap (maxTx maxDay : Nat) (kind : BucketKind) : Nat :=
  ((fromConstitutionCaps maxTx maxDay).policies kind).elim 0 BucketPolicy.maxPerDaySats

namespace Process

variable (isAddress : String → Bool) (maxTx maxDay : Nat)

/-- The first process on a log. -/
def boot (log : LineLog.Log) : Process := ⟨.openLedger log maxTx maxDay, 0, []⟩

/-- The reservation a commit turns into a consumed id, if it does. A commit
retry turns none. -/
def promoted (l : PersistedBucketLedger) (now : Nat) (disk : Disk) (id : String) :
    Option Reservation :=
  if returnedOk (l.commitConsume now disk id).1 ∧ id ∉ l.inner.consumed then
    (l.inner.sweepExpired now).reserved.lookup id
  else none

def step (s : Process) (c : ProcessCall) : Process :=
  let perform l op := PersistedBucketLedger.perform c.now c.disk l op
  let gate := GateIntent.run isAddress c.constitution c.economy perform
  match c.op with
  | .reserve intent => { s with ledger := (gate .reserve intent s.ledger).2 }
  | .execute intent =>
    let r := gate .consume intent s.ledger
    match r.1 with
    | .error _ => { s with ledger := r.2 }
    | .ok _ =>
      ⟨r.2, s.life, ⟨s.life, calendarDay c.now, intent.bucket, intent.amountSats⟩ :: s.history⟩
  | .commit id =>
    let l := (s.ledger.commitConsume c.now c.disk id).2
    match promoted s.ledger c.now c.disk id with
    | none => { s with ledger := l }
    | some r => ⟨l, s.life, ⟨s.life, calendarDay c.now, r.kind, r.amount⟩ :: s.history⟩
  | .admitDestinations kind dests => { s with ledger := (s.ledger.admitDestinations kind dests).2 }
  | .restart => ⟨.openLedger s.ledger.log maxTx maxDay, s.life + 1, s.history⟩

/-! ## What a process never exceeds -/

/-- A ledger within its caps: the policies it started with, the counters
balanced by `settled` and none above its cap. -/
structure Within (g : BucketState) (settled : BucketKind → Nat) : Prop where
  policies : ∀ kind, (g.policies kind).map BucketPolicy.maxPerDaySats =
    some (dailyCap maxTx maxDay kind)
  balanced : BalancedBy g settled
  spent : ∀ kind, g.spentToday kind ≤ dailyCap maxTx maxDay kind

/-- The current lifetime is within the caps, and so was every one before. -/
structure Capped (s : Process) : Prop where
  within : Within maxTx maxDay s.ledger.inner fun kind => committedIn s.life kind s.history
  past : ∀ e ∈ s.history, e.life ≤ s.life
  lives : ∀ life kind, committedIn life kind s.history ≤ dailyCap maxTx maxDay kind

end Process

/-! ## Caps of a ledger -/

theorem dailyCap_lt_u64Max (maxTx : Nat) {maxDay : Nat} (hDay : maxDay < u64Max)
    (kind : BucketKind) :
    dailyCap maxTx maxDay kind < u64Max := by
  have hOne : 1 < u64Max := by decide
  cases kind <;> simp only [dailyCap, fromConstitutionCaps, BucketPolicy.labDefaults, Option.elim]
  all_goals omega

theorem fromConstitutionCaps_dailyCap (maxTx maxDay : Nat) (kind : BucketKind) :
    ((fromConstitutionCaps maxTx maxDay).policies kind).map BucketPolicy.maxPerDaySats =
      some (dailyCap maxTx maxDay kind) := by
  cases kind <;> rfl

/-- Dropping a reservation raises no counter. -/
theorem BucketState.dropReservation_spentToday_le (g : BucketState) (id : String)
    (kind : BucketKind) : (g.dropReservation id).spentToday kind ≤ g.spentToday kind := by
  unfold BucketState.dropReservation
  split
  · rw [refund_spentToday]
    exact Nat.sub_le ..
  · exact le_rfl

/-- A sweep raises no counter. -/
theorem BucketState.sweepExpired_spentToday_le (now : Nat) (g : BucketState) (kind : BucketKind) :
    (g.sweepExpired now).spentToday kind ≤ g.spentToday kind := by
  refine BucketState.sweepExpired_preserves (P := fun g' => g'.spentToday kind ≤ g.spentToday kind)
    (fun id _ _ _ g' h => ?_) le_rfl
  exact (g'.dropReservation_spentToday_le id kind).trans h

namespace Process

section Within

variable (isAddress : String → Bool) {maxTx maxDay : Nat} {g : BucketState}
  {f : BucketKind → Nat}

theorem within_fresh (log : LineLog.Log) :
    Within maxTx maxDay (PersistedBucketLedger.openLedger log maxTx maxDay).inner fun _ => 0 := by
  refine ⟨fromConstitutionCaps_dailyCap maxTx maxDay, fun kind => ?_, fun kind => ?_⟩
  · rfl
  · exact Nat.zero_le _

theorem Within.sweep (h : Within maxTx maxDay g f) (now : Nat) :
    Within maxTx maxDay (g.sweepExpired now) f := by
  refine ⟨?_, h.balanced.sweepExpired now, fun kind => ?_⟩
  · simpa using h.policies
  · exact (g.sweepExpired_spentToday_le now kind).trans (h.spent kind)

/-- Below its cap a counter does not saturate. -/
theorem Within.fits (h : Within maxTx maxDay g f) (hDay : maxDay < u64Max)
    {intent : SettlementIntent} {eco : Option EconomyState} {hash : String}
    (hValid : g.validated intent.bucket (gateValidate isAddress intent eco hash) = .ok ()) :
    g.spentToday intent.bucket + intent.amountSats ≤ dailyCap maxTx maxDay intent.bucket := by
  have hPolicy := h.policies intent.bucket
  unfold BucketState.validated at hValid
  cases hFound : g.policies intent.bucket with
  | none =>
    rw [hFound] at hPolicy
    cases hPolicy
  | some policy =>
    rw [hFound] at hPolicy hValid
    have hCap : policy.maxPerDaySats = dailyCap maxTx maxDay intent.bucket :=
      Option.some.inj hPolicy
    obtain ⟨-, hSat⟩ := gateValidate_ok isAddress hValid
    have hMax := dailyCap_lt_u64Max maxTx hDay intent.bucket
    rw [hCap, satAdd] at hSat
    omega

/-- A charge within the cap. -/
theorem Within.charge_spent (h : Within maxTx maxDay g f) {kind : BucketKind} {amount : Nat}
    (hFits : g.spentToday kind + amount ≤ dailyCap maxTx maxDay kind) (k : BucketKind) :
    (g.charge kind amount).spentToday k ≤ dailyCap maxTx maxDay k := by
  by_cases hk : k = kind
  · subst hk
    rw [charge_spentToday_self]
    exact (satAdd_le_add _ _).trans hFits
  · rw [charge_spentToday_ne g kind amount hk]
    exact h.spent k

theorem Within.reserve (h : Within maxTx maxDay g f) (hDay : maxDay < u64Max) (now : Nat)
    (intent : SettlementIntent) (eco : Option EconomyState) (hash : String) :
    Within maxTx maxDay (g.reserveSpend now intent.intentId intent.bucket intent.amountSats
      (gateValidate isAddress intent eco hash)).2 f := by
  have hSwept := h.sweep now
  rcases g.reserveSpend_cases now intent.intentId intent.bucket intent.amountSats
    (gateValidate isAddress intent eco hash) with ⟨⟨-, hNone, hValid⟩, hOk⟩ | ⟨-, hSame⟩
  · rw [hOk]
    have hFits := hSwept.fits isAddress hDay hValid
    have hMax := dailyCap_lt_u64Max maxTx hDay intent.bucket
    refine ⟨by simpa using hSwept.policies, ?_, fun k => ?_⟩
    · exact (balanced_charge_hold_iff hSwept.balanced hNone _ _ _).mpr (by omega)
    · rw [hold_spentToday]
      exact hSwept.charge_spent hFits k
  · rwa [hSame]

/-- A commit moves what it promotes from the reservations to the settled. -/
theorem Within.commit {l : PersistedBucketLedger} (h : Within maxTx maxDay l.inner f) (now : Nat)
    (disk : Disk) (id : String) :
    Within maxTx maxDay (l.commitConsume now disk id).2.inner
      fun k => f k + (promoted l now disk id).elim 0 (Reservation.share k) := by
  have hSwept := h.sweep now
  rcases l.commitConsume_cases now disk id with ⟨hConsumed, hRetry⟩ | ⟨hFree, -, hMissing⟩ |
    ⟨hFree, r, hr, ⟨-, hOk⟩ | ⟨-, e, log, hFailed⟩⟩
  · -- a retry promotes nothing, only the sweep shows
    have hNone : promoted l now disk id = none := by simp [promoted, hConsumed]
    rw [hRetry, hNone]
    exact hSwept
  · have hNone : promoted l now disk id = none := by simp [promoted, hMissing, returnedOk]
    rw [hMissing, hNone]
    exact hSwept
  · -- the reservation's share leaves the table and its charge stays
    have hSome : promoted l now disk id = some r := by
      simp [promoted, hOk, returnedOk, hFree, hr]
    rw [hOk, hSome]
    exact ⟨hSwept.policies, hSwept.balanced.burn hr, hSwept.spent⟩
  · have hNone : promoted l now disk id = none := by simp [promoted, hFailed, returnedOk]
    rw [hFailed, hNone]
    exact hSwept

/-- An authorization that returns Ok settles its amount, any other nothing. -/
theorem Within.execute {l : PersistedBucketLedger} (h : Within maxTx maxDay l.inner f)
    (hDay : maxDay < u64Max) (disk : Disk) (intent : SettlementIntent)
    (eco : Option EconomyState) (hash : String) :
    let r := l.authorizeSpendAndConsume disk intent.intentId intent.bucket intent.amountSats
      (gateValidate isAddress intent eco hash)
    Within maxTx maxDay r.2.inner fun k =>
      f k + if returnedOk r.1 = true ∧ intent.bucket = k then intent.amountSats else 0 := by
  intro r
  -- refused before the charge, or charged and consumed, or charged and taken back
  rcases l.authorizeSpendAndConsume_cases disk intent.intentId intent.bucket intent.amountSats
    (gateValidate isAddress intent eco hash) with
    ⟨-, e, hRefused⟩ | ⟨⟨-, hValid⟩, ⟨-, hOk⟩ | ⟨-, e, log, hFailed⟩⟩
  · simpa [r, hRefused, returnedOk] using h
  · have hFits := h.fits isAddress hDay hValid
    have hMax := dailyCap_lt_u64Max maxTx hDay intent.bucket
    simp only [r, hOk, returnedOk, true_and]
    refine ⟨h.policies, ?_, h.charge_spent hFits⟩
    exact (balanced_charge_iff h.balanced (fun _ => rfl) rfl rfl).mpr (by omega)
  · have hFits := h.fits isAddress hDay hValid
    have hMax := dailyCap_lt_u64Max maxTx hDay intent.bucket
    simp only [r, hFailed, returnedOk, Bool.false_eq_true, false_and, if_false, Nat.add_zero]
    refine ⟨h.policies, ?_, fun k => ?_⟩
    · -- below the cap nothing saturates, so what is taken back is what was charged
      have hAmount : intent.amountSats ≤ u64Max := by omega
      exact (balanced_charge_refund_iff h.balanced hAmount rfl rfl).mpr (by omega)
    · rw [refund_spentToday]
      exact (Nat.sub_le ..).trans (h.charge_spent hFits k)

/-- Admitting destinations moves no cap. -/
theorem Within.admitDestinations {l : PersistedBucketLedger} (h : Within maxTx maxDay l.inner f)
    (kind : BucketKind) (dests : List String) :
    Within maxTx maxDay (l.admitDestinations kind dests).2.inner f := by
  unfold PersistedBucketLedger.admitDestinations
  cases hFound : l.inner.policies kind with
  | none => exact h
  | some policy =>
    refine ⟨fun k => ?_, h.balanced, h.spent⟩
    have hPolicy := h.policies k
    by_cases hk : k = kind
    · subst hk
      rw [hFound] at hPolicy
      simpa [BucketPolicy.extendDestinations_maxPerDaySats] using hPolicy
    · simpa [hk] using hPolicy

end Within

/-! ## Steps -/

section Steps

variable {isAddress : String → Bool} {maxTx maxDay : Nat} {s : Process}

/-- A step that commits nothing. -/
theorem Capped.of_ledger (h : Capped maxTx maxDay s) {l : PersistedBucketLedger}
    (hWithin : Within maxTx maxDay l.inner fun kind => committedIn s.life kind s.history) :
    Capped maxTx maxDay { s with ledger := l } :=
  ⟨hWithin, h.past, h.lives⟩

/-- A step that commits an intent of the current lifetime. -/
theorem Capped.of_committed (h : Capped maxTx maxDay s) {l : PersistedBucketLedger}
    {day amount : Nat} {kind : BucketKind}
    (hWithin : Within maxTx maxDay l.inner fun k =>
      committedIn s.life k s.history + if kind = k then amount else 0) :
    Capped maxTx maxDay ⟨l, s.life, ⟨s.life, day, kind, amount⟩ :: s.history⟩ := by
  have hNow : ∀ k, committedIn s.life k (⟨s.life, day, kind, amount⟩ :: s.history) =
      committedIn s.life k s.history + if kind = k then amount else 0 := by
    intro k
    rw [committedIn, tally_cons, committedIn, Nat.add_comm]
    simp
  refine ⟨?_, ?_, fun life k => ?_⟩
  · simpa only [hNow] using hWithin
  · intro e he
    rcases List.mem_cons.mp he with rfl | he
    · exact le_rfl
    · exact h.past e he
  · by_cases hLife : life = s.life
    · subst hLife
      -- the balance bounds what the counter has settled
      have hSpent := hWithin.spent k
      have hBalanced := hWithin.balanced k
      rw [hNow]
      omega
    · have hSame : committedIn life k (⟨s.life, day, kind, amount⟩ :: s.history) =
          committedIn life k s.history := by
        rw [committedIn, tally_cons]
        simp [committedIn, Ne.symm hLife]
      rw [hSame]
      exact h.lives life k

/-- A restart starts over with nothing committed. -/
theorem Capped.restart (h : Capped maxTx maxDay s) :
    Capped maxTx maxDay ⟨.openLedger s.ledger.log maxTx maxDay, s.life + 1, s.history⟩ := by
  -- the new lifetime is later than every one in the history
  have hNothing : ∀ kind, committedIn (s.life + 1) kind s.history = 0 := by
    intro kind
    refine tally_eq_zero _ _ fun e he hLife => ?_
    have hPast := h.past e he
    omega
  refine ⟨?_, fun e he => (h.past e he).trans (Nat.le_succ _), h.lives⟩
  simpa only [hNothing] using within_fresh s.ledger.log

theorem capped_boot (log : LineLog.Log) : Capped maxTx maxDay (boot maxTx maxDay log) := by
  refine ⟨within_fresh log, fun e he => ?_, fun life kind => Nat.zero_le _⟩
  cases he

/-- Each step of the process keeps what was committed within the caps. -/
theorem capped_step (hDay : maxDay < u64Max) (s : Process) (c : ProcessCall)
    (h : Capped maxTx maxDay s) : Capped maxTx maxDay (step isAddress maxTx maxDay s c) := by
  obtain ⟨now, disk, constitution, economy, op⟩ := c
  cases op with
  | reserve intent =>
    -- only the ledger moves: a reservation counts before it is committed
    refine h.of_ledger ?_
    rcases GateIntent.run_cases isAddress constitution economy
      (fun l op => PersistedBucketLedger.perform now disk l op) .reserve intent s.ledger with
      ⟨e, hRefused⟩ | ⟨eco, hash, hLedger, -⟩
    · rw [hRefused]
      exact h.within
    · rw [hLedger]
      exact h.within.reserve isAddress hDay now intent eco hash
  | execute intent =>
    have hCases := GateIntent.run_cases isAddress constitution economy
      (fun l op => PersistedBucketLedger.perform now disk l op) .consume intent s.ledger
    simp only [step]
    -- the answer and the ledger after it, as one pair
    generalize GateIntent.run isAddress constitution economy
      (fun l op => PersistedBucketLedger.perform now disk l op) .consume intent s.ledger = r
      at hCases
    rcases hCases with ⟨e, rfl⟩ | ⟨eco, hash, hLedger, hAnswer⟩
    · exact h.of_ledger h.within
    · have hExecute := h.within.execute isAddress hDay disk intent eco hash
      change r.2 = (s.ledger.authorizeSpendAndConsume disk _ _ _ _).2 at hLedger
      change r.1 = (s.ledger.authorizeSpendAndConsume disk _ _ _ _).1.map _ at hAnswer
      rw [hAnswer, hLedger]
      generalize s.ledger.authorizeSpendAndConsume disk intent.intentId intent.bucket
        intent.amountSats (gateValidate isAddress intent eco hash) = answer at hExecute
      obtain ⟨outcome, l⟩ := answer
      cases outcome with
      | error e => exact h.of_ledger (by simpa [returnedOk] using hExecute)
      | ok => exact h.of_committed (by simpa [returnedOk] using hExecute)
  | commit id =>
    have hCommit := h.within.commit now disk id
    simp only [step]
    -- a commit counts where it promotes a reservation
    cases hPromoted : promoted s.ledger now disk id with
    | none =>
      rw [hPromoted] at hCommit
      exact h.of_ledger hCommit
    | some r =>
      rw [hPromoted] at hCommit
      exact h.of_committed hCommit
  | admitDestinations kind dests =>
    exact h.of_ledger (h.within.admitDestinations kind dests)
  | restart => exact h.restart

end Steps

end Process

/-! ## Runs -/

open Process in
/--
**The cap of a lifetime.** However gate calls, commits and restarts
interleave, what one process lifetime commits for a bucket is at most the
bucket's daily cap; so a calendar day's sum is at most the cap for each
lifetime that committed for the bucket on it.
-/
theorem committed_le_dailyCap (isAddress : String → Bool) {maxTx maxDay : Nat}
    (hDay : maxDay < u64Max) (log : LineLog.Log) (calls : List ProcessCall) (kind : BucketKind) :
    let s := Runs.run (step isAddress maxTx maxDay) (boot maxTx maxDay log) calls
    (∀ life, committedIn life kind s.history ≤ dailyCap maxTx maxDay kind) ∧
    (∀ day, committedOn day kind s.history ≤
      dailyCap maxTx maxDay kind * (livesOn day kind s.history).card) := by
  intro s
  have hCapped : Capped maxTx maxDay s :=
    Runs.run_preserves (capped_step hDay) (capped_boot log) calls
  refine ⟨fun life => hCapped.lives life kind, fun day => ?_⟩
  refine tally_le_mul_card _ _ Committed.life fun life => ?_
  calc tally (fun e => (e.kind = kind ∧ e.day = day) ∧ e.life = life) Committed.amount s.history
      ≤ committedIn life kind s.history := by
        refine tally_mono _ _ ?_ _
        rintro e ⟨⟨hKind, -⟩, hLife⟩
        exact ⟨hKind, hLife⟩
    _ ≤ dailyCap maxTx maxDay kind := hCapped.lives life kind

/-- Authorize an amount, do `between`, authorize the amount again, all on one
day. -/
def twiceInADay (amount : Nat) (between : List ProcessOp) : List ProcessCall :=
  let intent (id : String) : SettlementIntent :=
    ⟨id, .users, "tb1q-users-withdraw", amount, "policy-1", none⟩
  let call (op : ProcessOp) : ProcessCall :=
    ⟨0, .ok, .ok ⟨"policy-1", ⟨0, 5000, 5000⟩⟩, .error (.peerNotFound "economy"), op⟩
  call (.execute (intent "intent-1")) :: between.map call ++ [call (.execute (intent "intent-2"))]

/-- What the USERS bucket commits on a day with two authorizations. -/
def committedTwice (maxTx maxDay amount : Nat) (between : List ProcessOp) : Nat :=
  committedOn 0 .users (Runs.run (Process.step (fun _ => false) maxTx maxDay)
    (Process.boot maxTx maxDay .empty) (twiceInADay amount between)).history

/-- 60 of a cap of 100, a restart, 60 again: two lifetimes, within twice the cap. -/
theorem committed_le_dailyCap_restarted :
    committedTwice 100 100 60 [.restart] ≤
      dailyCap 100 100 .users * (livesOn 0 .users (Runs.run (Process.step (fun _ => false) 100 100)
        (Process.boot 100 100 .empty) (twiceInADay 60 [.restart])).history).card :=
  (committed_le_dailyCap _ (by decide) .empty (twiceInADay 60 [.restart]) .users).2 0

/-- With a restart in between a day's commits can exceed the cap. So they can
without one where the cap is `u64::MAX`: the sum it is compared with saturates. -/
theorem restarted_exceeds_dailyCap :
    ¬ committedTwice 100 100 60 [.restart] ≤ dailyCap 100 100 .users ∧
      ¬ committedTwice u64Max u64Max u64Max [] ≤ dailyCap u64Max u64Max .users := by
  decide

end KeroseneVault
