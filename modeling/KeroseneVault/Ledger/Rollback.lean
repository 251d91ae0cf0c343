import KeroseneVault.Ledger.Accounting
import KeroseneVault.Ledger.Transport
import KeroseneVault.Mesh.Membership

/-!
# Does a failed quorum reservation leave anything behind?

`reserveSpend` and `authorizeSpendAndConsume` charge and hold the intent
before they ask the peers. A refusal drops the reservation again and takes the
charge back. A transport error returns at once, with both in place, and a
charge that saturated the counter is not what the rollback takes back.

* `LeavesNothing` — an Err leaves spend and reservations as the sweep did.

Main results:

* `leavesNothing_iff` — exactly when the two calls do, for every ledger and
  every outcome of the two rounds and of the disk;
* `malformed_answer_leaves_charge` — one malformed answer, and the charge and
  the reservation stay.
-/

namespace KeroseneVault

open BucketState

/-- A call that returned Err left spend and reservations as before, expired
reservations aside. -/
def LeavesNothing (now : Nat) (l : PersistedBucketLedger)
    (r : Outcome × PersistedBucketLedger) : Prop :=
  returnedOk r.1 = false →
    r.2.inner.spentToday = (l.inner.sweepExpired now).spentToday ∧
      r.2.inner.reserved = (l.inner.sweepExpired now).reserved

theorem leavesNothing_error {now : Nat} {l l' : PersistedBucketLedger} {e : DomainError} :
    LeavesNothing now l (.error e, l') ↔
      l'.inner.spentToday = (l.inner.sweepExpired now).spentToday ∧
        l'.inner.reserved = (l.inner.sweepExpired now).reserved :=
  ⟨fun h => h rfl, fun h _ => h⟩

theorem leavesNothing_ok {now : Nat} {l l' : PersistedBucketLedger} :
    LeavesNothing now l (.ok (), l') :=
  fun hErr => by cases hErr

section Rollback

variable {g : BucketState} (now : Nat) (id : String) (kind : BucketKind) {amount : Nat}

/-- Charging and taking back is nothing exactly when the counter takes the
charge without saturating. -/
theorem charge_refund_spentToday_iff (hU64 : amount ≤ u64Max) :
    ((g.charge kind amount).refund kind amount).spentToday = g.spentToday ↔
      g.Fits kind amount := by
  unfold Fits
  constructor
  · intro h
    have hKind := congrFun h kind
    rw [refund_spentToday, if_pos rfl, charge_spentToday_self] at hKind
    unfold satAdd at hKind
    omega
  · intro hFits
    funext k
    rw [refund_spentToday]
    by_cases hk : k = kind
    · subst hk
      rw [if_pos rfl, charge_spentToday_self, satAdd_eq_add_iff.mpr hFits]
      omega
    · rw [if_neg hk, charge_spentToday_ne g kind amount hk]
      omega

/-- A reservation that is kept shows in the table. -/
theorem held_reserved_ne (hNone : g.reserved.lookup id = none) :
    (held now id kind amount g).reserved ≠ g.reserved := by
  intro h
  have hFound : (held now id kind amount g).reserved.lookup id ≠ none := by simp [held]
  exact hFound (by rw [h, hNone])

/-- A reservation that is dropped again takes exactly its own charge back. -/
theorem held_dropReservation_spentToday :
    ((held now id kind amount g).dropReservation id).spentToday =
      ((g.charge kind amount).refund kind amount).spentToday := by
  simp [held, BucketState.dropReservation, refund]

/-- After the drop the table is as before, and so is the spend where the
counter took the charge. -/
theorem dropped_iff (hU64 : amount ≤ u64Max) (hNone : g.reserved.lookup id = none) :
    (((held now id kind amount g).dropReservation id).spentToday = g.spentToday ∧
        ((held now id kind amount g).dropReservation id).reserved = g.reserved) ↔
      g.Fits kind amount := by
  have hReserved : ((held now id kind amount g).dropReservation id).reserved = g.reserved := by
    rw [dropReservation_reserved]
    exact erase_held_reserved now id kind amount hNone
  rw [held_dropReservation_spentToday, charge_refund_spentToday_iff kind hU64]
  exact and_iff_left hReserved

end Rollback

/-! ## Rounds -/

theorem Round.Passes.not_fails {t : Nat} {id : String} {r : Round} (h : r.Passes t id) :
    ¬ r.Fails := by
  obtain ⟨acks, rfl, -⟩ := h
  simp [Round.Fails]

theorem Round.Refused.not_fails {t : Nat} {id : String} {r : Round} (h : r.Refused t id) :
    ¬ r.Fails := by
  obtain ⟨acks, rfl, -⟩ := h
  simp [Round.Fails]

theorem Round.Refused.not_passes {t : Nat} {id : String} {r : Round} (h : r.Refused t id) :
    ¬ r.Passes t id := by
  rintro ⟨acks, hr, hPass⟩
  obtain ⟨acks', hr', hRefused⟩ := h
  rw [hr] at hr'
  cases hr'
  exact hRefused hPass

/-! ## The two calls -/

section Calls

variable (t now : Nat) (disk : Disk) (soft durable : Round) (id : String) (kind : BucketKind)
  (validate : Validate) (l : PersistedBucketLedger)

/-- What a reservation that returned Err must meet. -/
theorem reserveSpend_leavesNothing_iff {amount : Nat} (hU64 : amount ≤ u64Max) :
    LeavesNothing now l (QuorumBucketLedger.reserveSpend t now soft id kind amount validate l) ↔
      ((l.inner.sweepExpired now).Accepts id kind validate →
        ¬ soft.Fails ∧ (soft.Passes t id ∨ (l.inner.sweepExpired now).Fits kind amount)) := by
  rcases quorum_reserveSpend_cases l t now soft id kind amount validate with ⟨hRefused, e, h⟩ |
    ⟨hAccepts, ⟨hPasses, h⟩ | ⟨hFails, e, h⟩ | ⟨hRefused, e, h⟩⟩
  · rw [h, leavesNothing_error]
    exact ⟨fun _ hAccepts => absurd hAccepts hRefused, fun _ => ⟨rfl, rfl⟩⟩
  · rw [h]
    exact ⟨fun _ _ => ⟨hPasses.not_fails, Or.inl hPasses⟩, fun _ => leavesNothing_ok⟩
  · -- the reservation is still there
    rw [h, leavesNothing_error]
    constructor
    · intro hSame
      exact absurd hSame.2 (held_reserved_ne now id kind hAccepts.2.1)
    · intro hCond
      exact absurd hFails (hCond hAccepts).1
  · rw [h, leavesNothing_error, dropped_iff now id kind hU64 hAccepts.2.1]
    simp [hAccepts, hRefused.not_fails, hRefused.not_passes]

/-- What an authorization that returned Err must meet. -/
theorem authorize_leavesNothing_iff {amount : Nat} (hU64 : amount ≤ u64Max) :
    LeavesNothing now l (QuorumBucketLedger.authorizeSpendAndConsume t now disk soft durable id
        kind amount validate l) ↔
      ((l.inner.sweepExpired now).Accepts id kind validate →
        ¬ soft.Fails ∧ ((soft.Passes t id ∧ disk = .ok ∧ durable.Passes t id) ∨
          (l.inner.sweepExpired now).Fits kind amount)) := by
  have hCases := quorum_authorize_cases l t now disk soft durable id kind amount validate
  generalize QuorumBucketLedger.authorizeSpendAndConsume t now disk soft durable id kind amount
    validate l = r at hCases
  obtain ⟨result, l'⟩ := r
  -- refused before the hold, failed with it, rolled back, passed, or burned
  rcases hCases with ⟨hRefused, ⟨e, rfl⟩, hInner⟩ | ⟨hAccepts, ⟨hFails, ⟨e, rfl⟩, hInner⟩ |
    ⟨hSoft, ⟨e, rfl⟩, hInner⟩ | ⟨hSoft, hDisk, hDurable, rfl, hInner⟩ |
    ⟨hSoft, hDisk, hDurable, ⟨e, rfl⟩, hInner⟩⟩
  · rw [leavesNothing_error, hInner]
    exact ⟨fun _ hAccepts => absurd hAccepts hRefused, fun _ => ⟨rfl, rfl⟩⟩
  · -- the reservation is still there
    rw [leavesNothing_error, hInner]
    constructor
    · intro hSame
      exact absurd hSame.2 (held_reserved_ne now id kind hAccepts.2.1)
    · intro hCond
      exact absurd hFails (hCond hAccepts).1
  · rw [leavesNothing_error, hInner, dropped_iff now id kind hU64 hAccepts.2.1]
    rcases hSoft with hRefused | ⟨hPasses, hDisk⟩
    · simp [hAccepts, hRefused.not_fails, hRefused.not_passes]
    · simp [hAccepts, hPasses.not_fails, hDisk]
  · exact ⟨fun _ _ => ⟨hSoft.not_fails, Or.inl ⟨hSoft, hDisk, hDurable⟩⟩,
      fun _ => leavesNothing_ok⟩
  · -- the burn removed the reservation; the caller's amount is taken back
    have hReserved : ((held now id kind amount (l.inner.sweepExpired now)).burn id).reserved =
        (l.inner.sweepExpired now).reserved := erase_held_reserved now id kind amount hAccepts.2.1
    have hSpent : (((held now id kind amount (l.inner.sweepExpired now)).burn id).refund kind
        amount).spentToday =
        (((l.inner.sweepExpired now).charge kind amount).refund kind amount).spentToday := rfl
    rw [leavesNothing_error, hInner, refund_reserved, hReserved, hSpent,
      charge_refund_spentToday_iff kind hU64]
    simp [hAccepts, hSoft.not_fails, hDurable]

/--
**When a failed quorum reservation leaves nothing behind.** Let the id be let
through. A reservation leaves nothing exactly when the soft round is no
transport error and either passes or the counter takes the amount without
saturating; an authorization exactly when the soft round is no transport error
and either everything passes or the counter takes the amount.
-/
theorem leavesNothing_iff {amount : Nat} (hU64 : amount ≤ u64Max) :
    (LeavesNothing now l (QuorumBucketLedger.reserveSpend t now soft id kind amount validate l) ↔
      ((l.inner.sweepExpired now).Accepts id kind validate →
        ¬ soft.Fails ∧ (soft.Passes t id ∨ (l.inner.sweepExpired now).Fits kind amount))) ∧
    (LeavesNothing now l (QuorumBucketLedger.authorizeSpendAndConsume t now disk soft durable id
        kind amount validate l) ↔
      ((l.inner.sweepExpired now).Accepts id kind validate →
        ¬ soft.Fails ∧ ((soft.Passes t id ∧ disk = .ok ∧ durable.Passes t id) ∨
          (l.inner.sweepExpired now).Fits kind amount))) :=
  ⟨reserveSpend_leavesNothing_iff t now soft id kind validate l hU64,
    authorize_leavesNothing_iff t now disk soft durable id kind validate l hU64⟩

end Calls

/-! ## One malformed answer -/

/-- Two peers: the first acknowledges, the second answers a success without
the field. -/
def malformedRound : Round :=
  postPrepare
    (fun body => if body = "\x7b\"already_seen\":false\x7d" then some false else none)
    ⟨["http://beta/v1/intent/consume/prepare", "http://gamma/v1/intent/consume/prepare"], 1⟩
    ⟨.ok (), fun i _ => .response 200 (if i = 0 then "\x7b\"already_seen\":false\x7d" else "")⟩

/-- The charge and the reservation stay though both calls return Err. -/
theorem malformed_answer_leaves_charge :
    ¬ LeavesNothing 0 (.openLedger .empty 1000 10000)
        (QuorumBucketLedger.reserveSpend (quorumT 2) 0 malformedRound "intent-1" .users 5
          (fun _ _ => .ok ()) (.openLedger .empty 1000 10000)) ∧
      ¬ LeavesNothing 0 (.openLedger .empty 1000 10000)
        (QuorumBucketLedger.authorizeSpendAndConsume (quorumT 2) 0 .ok malformedRound
          malformedRound "intent-1" .users 5 (fun _ _ => .ok ())
          (.openLedger .empty 1000 10000)) := by
  constructor
  · intro h
    have hSpent := congrFun (h (by decide)).1 .users
    exact absurd hSpent (by decide)
  · intro h
    have hSpent := congrFun (h (by decide)).1 .users
    exact absurd hSpent (by decide)

/-- A mesh of three whose peers both acknowledge. -/
theorem leavesNothing_acknowledged :
    (5 : Nat) ≤ u64Max ∧
      LeavesNothing 0 (.openLedger .empty 1000 10000)
        (QuorumBucketLedger.reserveSpend (quorumT 2) 0 (.ok [⟨false⟩, ⟨false⟩]) "intent-1" .users 5
          (fun _ _ => .ok ()) (.openLedger .empty 1000 10000)) :=
  ⟨by decide, (leavesNothing_iff (quorumT 2) 0 .ok (.ok [⟨false⟩, ⟨false⟩]) (.ok []) "intent-1"
    .users (fun _ _ => .ok ()) (.openLedger .empty 1000 10000) (by decide)).1.mpr fun _ =>
      ⟨by simp [Round.Fails], Or.inl ⟨_, rfl, by decide⟩⟩⟩

end KeroseneVault
