import KeroseneVault.Ledger.Persisted

/-!
# Accounts of a bucket ledger

What the daily counter is meant to be, told by a book the ledger does not
keep: the terms (bucket and amount) each intent was last held with, and the
intents that were committed or authorized with the terms they had then. A
ledger is balanced when each bucket's counter is the sum of what it settled
and of what its live reservations hold.

* `Book`, `Book.settle` — the book and its one entry;
* `BalancedBy`, `Balanced` — the accounting law, by what the book has settled;
* `BookOk` — settled ids are consumed, live reservations carry their terms.

Main results: for each update a ledger method makes, when it keeps the
balance — a sweep always does (`BalancedBy.sweepExpired`), a charge unless the
counter saturates (`balanced_charge_hold_iff`), a refund only if it is void
(`balanced_refund_iff`), a burn only of what it settles
(`balanced_burn_settle_iff`, `balanced_burn_iff`).
-/

namespace KeroseneVault

/-! ## The book -/

/-- Bucket and amount of an intent. -/
abbrev Terms := BucketKind × Nat

/-- What an intent on these terms takes of bucket `k`. -/
def Terms.share (k : BucketKind) (t : Terms) : Nat := if t.1 = k then t.2 else 0

/-- What a reservation holds of bucket `k`. -/
def Reservation.share (k : BucketKind) (r : Reservation) : Nat := if r.kind = k then r.amount else 0

/-- The terms an intent was last held with, and the settled intents. -/
structure Book where
  terms : String → Option Terms
  settled : Table String Terms

namespace Book

def empty : Book := ⟨fun _ => none, ∅⟩

def setTerms (b : Book) (id : String) (t : Terms) : Book :=
  { b with terms := Function.update b.terms id (some t) }

/-- The terms of an id; one that was never held has none and counts nothing. -/
def termsOf (b : Book) (id : String) : Terms := (b.terms id).getD (.users, 0)

/-- The intent is committed, once, on its terms. -/
def settle (b : Book) (id : String) : Book :=
  if id ∈ b.settled then b else { b with settled := b.settled.insert id (b.termsOf id) }

/-- The sum of the settled amounts of bucket `k`. -/
def committed (b : Book) (k : BucketKind) : Nat := b.settled.total (Terms.share k)

@[simp] theorem setTerms_settled (b : Book) (id : String) (t : Terms) :
    (b.setTerms id t).settled = b.settled := rfl

@[simp] theorem setTerms_committed (b : Book) (id : String) (t : Terms) (k : BucketKind) :
    (b.setTerms id t).committed k = b.committed k := rfl

@[simp] theorem setTerms_termsOf_self (b : Book) (id : String) (t : Terms) :
    (b.setTerms id t).termsOf id = t := by
  simp [setTerms, termsOf]

theorem settle_of_settled {b : Book} {id : String} (h : id ∈ b.settled) : b.settle id = b := by
  simp [settle, h]

@[simp] theorem settle_terms (b : Book) (id : String) : (b.settle id).terms = b.terms := by
  unfold settle
  split <;> rfl

theorem mem_settle {b : Book} {id j : String} :
    j ∈ (b.settle id).settled ↔ j ∈ b.settled ∨ j = id := by
  unfold settle
  split
  · rename_i h
    constructor
    · exact Or.inl
    · rintro (hj | rfl)
      · exact hj
      · exact h
  · rw [AList.mem_insert]
    exact or_comm

/-- Settling adds the intent's amount, once. -/
theorem settle_committed {b : Book} {id : String} (h : id ∉ b.settled) (k : BucketKind) :
    (b.settle id).committed k = b.committed k + (b.termsOf id).share k := by
  have hLookup : b.settled.lookup id = none := AList.lookup_eq_none.mpr h
  rw [settle, if_neg h, committed, Table.total_insert _ hLookup, committed, Nat.add_comm]

/-- Settling takes nothing out of the book. -/
theorem committed_le_settle (b : Book) (id : String) (k : BucketKind) :
    b.committed k ≤ (b.settle id).committed k := by
  by_cases h : id ∈ b.settled
  · rw [settle_of_settled h]
  · rw [settle_committed h]
    omega

end Book

/-! ## The balance -/

namespace BucketState

/-- What the live reservations hold of bucket `k`. -/
def live (g : BucketState) (k : BucketKind) : Nat := g.reserved.total (Reservation.share k)

@[simp] theorem charge_live (g : BucketState) (kind : BucketKind) (amount : Nat) (k : BucketKind) :
    (g.charge kind amount).live k = g.live k := rfl

@[simp] theorem refund_live (g : BucketState) (kind : BucketKind) (amount : Nat)
    (k : BucketKind) : (g.refund kind amount).live k = g.live k := rfl

/-- A new reservation holds its share. -/
theorem hold_live {g : BucketState} {id : String} (h : g.reserved.lookup id = none)
    (r : Reservation) (k : BucketKind) : (g.hold id r).live k = r.share k + g.live k :=
  Table.total_insert _ h r

/-- A burned reservation holds its share no more. -/
theorem burn_live {g : BucketState} {id : String} {r : Reservation}
    (h : g.reserved.lookup id = some r) (k : BucketKind) :
    g.live k = r.share k + (g.burn id).live k :=
  Table.total_erase _ h

theorem burn_live_of_none {g : BucketState} {id : String} (h : g.reserved.lookup id = none)
    (k : BucketKind) : (g.burn id).live k = g.live k := by
  rw [live, burn_reserved, Table.erase_of_lookup_none h, live]

theorem dropReservation_of_none {g : BucketState} {id : String}
    (h : g.reserved.lookup id = none) : g.dropReservation id = g := by
  simp [BucketState.dropReservation, h]

/-- A dropped reservation's share comes off the counter. -/
theorem dropReservation_spentToday {g : BucketState} {id : String} {r : Reservation}
    (h : g.reserved.lookup id = some r) (k : BucketKind) :
    (g.dropReservation id).spentToday k = g.spentToday k - r.share k := by
  simp only [BucketState.dropReservation, h, refund_spentToday, Reservation.share]
  by_cases hk : k = r.kind
  · simp [hk]
  · simp [hk, Ne.symm hk]

theorem dropReservation_live {g : BucketState} {id : String} {r : Reservation}
    (h : g.reserved.lookup id = some r) (k : BucketKind) :
    g.live k = r.share k + (g.dropReservation id).live k := by
  rw [live, live, dropReservation_reserved]
  exact Table.total_erase _ h

/-- What comes off the counter was live, whether the reservation was there or not. -/
theorem dropReservation_charge (g : BucketState) (id : String) (k : BucketKind) :
    ∃ charge, (g.dropReservation id).spentToday k = g.spentToday k - charge ∧
      g.live k = charge + (g.dropReservation id).live k := by
  cases hr : g.reserved.lookup id with
  | none =>
    rw [dropReservation_of_none hr]
    exact ⟨0, rfl, (Nat.zero_add _).symm⟩
  | some r => exact ⟨r.share k, dropReservation_spentToday hr k, dropReservation_live hr k⟩

end BucketState

open BucketState

/-- Each bucket's counter is `settled` and what the live reservations hold. -/
def BalancedBy (g : BucketState) (settled : BucketKind → Nat) : Prop :=
  ∀ k, g.spentToday k = settled k + g.live k

/-- Balanced by what the book has settled. -/
abbrev Balanced (g : BucketState) (b : Book) : Prop := BalancedBy g b.committed

/-- No bucket's counter is above what the book has settled and what the live
reservations hold. -/
def Covered (g : BucketState) (b : Book) : Prop :=
  ∀ k, g.spentToday k ≤ b.committed k + g.live k

/-- Only the counters and the reservations matter. -/
theorem BalancedBy.congr {g g' : BucketState} {f f' : BucketKind → Nat}
    (hSpent : g'.spentToday = g.spentToday) (hReserved : g'.reserved = g.reserved)
    (hSettled : f' = f) : BalancedBy g' f' ↔ BalancedBy g f := by
  simp only [BalancedBy, live, hSpent, hReserved, hSettled]

theorem Balanced.congr {g g' : BucketState} {b b' : Book} (hSpent : g'.spentToday = g.spentToday)
    (hReserved : g'.reserved = g.reserved) (hSettled : b'.settled = b.settled) :
    Balanced g' b' ↔ Balanced g b := by
  refine BalancedBy.congr hSpent hReserved ?_
  funext k
  simp only [Book.committed, hSettled]

theorem Terms.share_eq_zero {t : Terms} (h : t.2 = 0) (k : BucketKind) : t.share k = 0 := by
  simp [Terms.share, h]

theorem Reservation.share_eq_zero {r : Reservation} (h : r.amount = 0) (k : BucketKind) :
    r.share k = 0 := by
  simp [Reservation.share, h]

/-! ## Updates that always keep the balance -/

/-- A dropped reservation takes its own charge with it. -/
theorem BalancedBy.dropReservation {g : BucketState} {f : BucketKind → Nat}
    (h : BalancedBy g f) (id : String) : BalancedBy (g.dropReservation id) f := by
  intro k
  have hOld := h k
  obtain ⟨charge, hSpent, hLive⟩ := dropReservation_charge g id k
  omega

/-- A sweep keeps the balance. -/
theorem BalancedBy.sweepExpired {g : BucketState} {f : BucketKind → Nat}
    (h : BalancedBy g f) (now : Nat) : BalancedBy (g.sweepExpired now) f :=
  sweepExpired_preserves (P := fun g => BalancedBy g f)
    (fun id _ _ _ _ hBal => hBal.dropReservation id) h

/-- A soft prepare holds nothing. -/
theorem BalancedBy.hold_void {g : BucketState} {f : BucketKind → Nat} (h : BalancedBy g f)
    {id : String} (hNone : g.reserved.lookup id = none) {r : Reservation} (hVoid : r.amount = 0) :
    BalancedBy (g.hold id r) f := by
  intro k
  rw [hold_spentToday, hold_live hNone, Reservation.share_eq_zero hVoid, Nat.zero_add]
  exact h k

/-- What a burned reservation held is settled from here on. -/
theorem BalancedBy.burn {g : BucketState} {f : BucketKind → Nat} (h : BalancedBy g f)
    {id : String} {r : Reservation} (hr : g.reserved.lookup id = some r) :
    BalancedBy (g.burn id) fun k => f k + r.share k := by
  intro k
  have hOld := h k
  have hLive := burn_live hr k
  show g.spentToday k = f k + r.share k + (g.burn id).live k
  omega

/-! ## Updates that keep it under a condition -/

/-- A charge for a new reservation keeps the balance unless the counter saturates. -/
theorem balanced_charge_hold_iff {g : BucketState} {f : BucketKind → Nat} (h : BalancedBy g f)
    {id : String} (hNone : g.reserved.lookup id = none) (kind : BucketKind)
    (amount expires : Nat) :
    BalancedBy ((g.charge kind amount).hold id ⟨kind, amount, expires⟩) f ↔
      g.spentToday kind + amount ≤ u64Max := by
  rw [← satAdd_eq_add_iff]
  -- the reservation holds exactly what was to be charged
  have hHold : ∀ k, ((g.charge kind amount).hold id ⟨kind, amount, expires⟩).live k =
      (if kind = k then amount else 0) + g.live k :=
    fun k => hold_live (g := g.charge kind amount) hNone ⟨kind, amount, expires⟩ k
  constructor
  · intro hNext
    have hKind := hNext kind
    rw [hHold, if_pos rfl, hold_spentToday, charge_spentToday_self] at hKind
    have := h kind
    omega
  · intro hSat k
    rw [hHold, hold_spentToday]
    have hk := h k
    by_cases hKind : k = kind
    · subst hKind
      rw [charge_spentToday_self, if_pos rfl]
      omega
    · rw [charge_spentToday_ne g kind amount hKind, if_neg (Ne.symm hKind)]
      omega

/-- A refund that no reservation backs keeps the balance only if it is void. -/
theorem balanced_refund_iff {g : BucketState} {b : Book} (h : Balanced g b) (kind : BucketKind)
    (amount : Nat) :
    Balanced (g.refund kind amount) b ↔ amount = 0 ∨ g.spentToday kind = 0 := by
  constructor
  · intro hNext
    -- the refunded bucket's counter must not have moved
    have hKind := hNext kind
    rw [refund_spentToday, refund_live, if_pos rfl] at hKind
    have := h kind
    omega
  · intro hVoid k
    have hk := h k
    rw [refund_spentToday, refund_live]
    split
    · rename_i hKind
      subst hKind
      omega
    · omega

/-- Burning an id without settling it keeps the balance only if its
reservation holds nothing. -/
theorem balanced_burn_iff {g : BucketState} {b : Book} (h : Balanced g b) (id : String) :
    Balanced (g.burn id) b ↔ ∀ r, g.reserved.lookup id = some r → r.amount = 0 := by
  constructor
  · intro hNext r hr
    have hOld := h r.kind
    have hNew := hNext r.kind
    have hLive := burn_live hr r.kind
    rw [burn_spentToday] at hNew
    rw [Reservation.share, if_pos rfl] at hLive
    omega
  · intro hVoid k
    cases hr : g.reserved.lookup id with
    | none =>
      rw [burn_live_of_none hr]
      exact h k
    | some r =>
      have hLive := burn_live hr k
      rw [Reservation.share_eq_zero (hVoid r hr)] at hLive
      have := h k
      rw [burn_spentToday]
      omega

/-- Settling an id whose reservation is gone keeps the balance only if its
terms are void. -/
theorem balanced_settle_iff {g : BucketState} {b : Book} (h : Balanced g b) {id : String}
    (hNew : id ∉ b.settled) : Balanced g (b.settle id) ↔ (b.termsOf id).2 = 0 := by
  constructor
  · intro hNext
    have hKind := hNext (b.termsOf id).1
    rw [Book.settle_committed hNew, Terms.share, if_pos rfl] at hKind
    have := h (b.termsOf id).1
    omega
  · intro hVoid k
    rw [Book.settle_committed hNew, Terms.share_eq_zero hVoid, Nat.add_zero]
    exact h k

/-- The id is held on its terms, or its terms are void. -/
def HeldOnTerms (g : BucketState) (b : Book) (id : String) : Prop :=
  (b.termsOf id).2 = 0 ∨
    ∃ r, g.reserved.lookup id = some r ∧ r.kind = (b.termsOf id).1 ∧ r.amount = (b.termsOf id).2

/-- Settled ids are consumed; a live reservation of another id is void or on
the id's terms. -/
structure BookOk (g : BucketState) (b : Book) : Prop where
  consumed : ∀ id, id ∈ b.settled → id ∈ g.consumed
  held : ∀ id r, g.reserved.lookup id = some r → id ∉ b.settled →
    r.amount = 0 ∨ b.terms id = some (r.kind, r.amount)

/-- Burning an id and settling it keeps the balance exactly when it is held on
its terms. -/
theorem balanced_burn_settle_iff {g : BucketState} {b : Book} (h : Balanced g b)
    (hBook : BookOk g b) {id : String} (hNew : id ∉ b.settled) :
    Balanced (g.burn id) (b.settle id) ↔ HeldOnTerms g b id := by
  cases hr : g.reserved.lookup id with
  | none =>
    have hSame : Balanced (g.burn id) (b.settle id) ↔ Balanced g (b.settle id) :=
      Balanced.congr rfl (Table.erase_of_lookup_none hr) rfl
    rw [hSame, balanced_settle_iff h hNew, HeldOnTerms, hr]
    simp
  | some r =>
    -- the reservation's share moves to the book
    have hMove : Balanced (g.burn id) (b.settle id) ↔ ∀ k, r.share k = (b.termsOf id).share k := by
      refine forall_congr' fun k => ?_
      have hLive := burn_live hr k
      have := h k
      rw [burn_spentToday, Book.settle_committed hNew]
      omega
    rw [hMove]
    constructor
    · intro hShares
      -- compare the shares in the bucket of the id's terms
      have hKind := hShares (b.termsOf id).1
      rw [Terms.share, if_pos rfl, Reservation.share] at hKind
      by_cases hVoid : (b.termsOf id).2 = 0
      · exact Or.inl hVoid
      · split at hKind
        · rename_i hEq
          exact Or.inr ⟨r, hr, hEq, hKind⟩
        · exact absurd hKind.symm hVoid
    · rintro (hVoid | ⟨r', hr', hKind, hAmount⟩) k
      · -- void terms leave room for a void reservation only
        have hAmount : r.amount = 0 := by
          rcases hBook.held id r hr hNew with hZero | hTerms
          · exact hZero
          · have hTermsOf : b.termsOf id = (r.kind, r.amount) := by simp [Book.termsOf, hTerms]
            rw [hTermsOf] at hVoid
            exact hVoid
        rw [Reservation.share_eq_zero hAmount, Terms.share_eq_zero hVoid]
      · rw [hr] at hr'
        cases hr'
        rw [Reservation.share, Terms.share, hKind, hAmount]

/-- A charge that is settled at once keeps the balance unless the counter
saturates. -/
theorem balanced_charge_iff {g g' : BucketState} {f f' : BucketKind → Nat} (h : BalancedBy g f)
    {kind : BucketKind} {amount : Nat}
    (hSettled : ∀ k, f' k = f k + if kind = k then amount else 0)
    (hSpent : g'.spentToday = (g.charge kind amount).spentToday)
    (hReserved : g'.reserved = g.reserved) :
    BalancedBy g' f' ↔ g.spentToday kind + amount ≤ u64Max := by
  rw [← satAdd_eq_add_iff, BalancedBy.congr (g := g.charge kind amount) hSpent hReserved rfl]
  constructor
  · intro hNext
    have hKind := hNext kind
    rw [hSettled, if_pos rfl, charge_spentToday_self, charge_live] at hKind
    have hOld := h kind
    omega
  · intro hSat k
    rw [hSettled, charge_live]
    have hk := h k
    by_cases hKind : k = kind
    · subst hKind
      rw [charge_spentToday_self, if_pos rfl]
      omega
    · rw [charge_spentToday_ne g kind amount hKind, if_neg (Ne.symm hKind)]
      omega

/-- What settling an id on new terms adds to the book. -/
theorem Book.setTerms_settle_committed {b : Book} {id : String} (hNew : id ∉ b.settled)
    (kind : BucketKind) (amount : Nat) (k : BucketKind) :
    ((b.setTerms id (kind, amount)).settle id).committed k =
      b.committed k + if kind = k then amount else 0 := by
  have hNew' : id ∉ (b.setTerms id (kind, amount)).settled := hNew
  rw [Book.settle_committed hNew', Book.setTerms_termsOf_self, Book.setTerms_committed]
  rfl

/-- A charge that is taken back keeps the balance unless the counter
saturated in between. -/
theorem balanced_charge_refund_iff {g g' : BucketState} {f : BucketKind → Nat} (h : BalancedBy g f)
    {kind : BucketKind} {amount : Nat} (hAmount : amount ≤ u64Max)
    (hSpent : g'.spentToday = ((g.charge kind amount).refund kind amount).spentToday)
    (hReserved : g'.reserved = g.reserved) :
    BalancedBy g' f ↔ g.spentToday kind + amount ≤ u64Max := by
  rw [BalancedBy.congr (g := (g.charge kind amount).refund kind amount) hSpent hReserved rfl]
  constructor
  · intro hNext
    have hKind := hNext kind
    rw [refund_spentToday, refund_live, charge_live, if_pos rfl, charge_spentToday_self,
      satAdd] at hKind
    have hOld := h kind
    -- a saturated counter falls short of what it was by the overflow
    omega
  · intro hSat k
    have hk := h k
    rw [refund_spentToday, refund_live, charge_live]
    by_cases hKind : k = kind
    · subst hKind
      rw [charge_spentToday_self, if_pos rfl, satAdd_eq_add_iff.mpr hSat]
      omega
    · rw [charge_spentToday_ne g kind amount hKind, if_neg hKind]
      omega

end KeroseneVault
