import KeroseneVault.Ledger.Accounts

/-!
# Entries: what one call does to ledger and book

Every call on a bucket ledger, whichever of the three it is, comes down to
one entry, after the sweep if the method makes one. An entry takes ledger and
book to their next values, keeps the book well-formed and keeps the balance
exactly under its own condition:

* `Entry.nothing`, `Entry.sweep`, `Entry.drop`, `Entry.holdVoid`,
  `Entry.resume`, `Entry.burn` — always;
* `Entry.hold`, `Entry.spend`, `Entry.takeBack` — unless the counter saturates;
* `Entry.refund` — only if there is nothing to take back;
* `Entry.commit`, `Entry.retry` — only of what is held or already settled.
-/

namespace KeroseneVault

open BucketState

/-- A call takes ledger and book from `g`, `b` to `g'`, `b'` and keeps the
balance exactly when `C`; no counter rises above its cover in any case. -/
structure Entry (g : BucketState) (b : Book) (g' : BucketState) (b' : Book) (C : Prop) :
    Prop where
  book : BookOk g b → BookOk g' b'
  covered : BookOk g b → Covered g b → Covered g' b'
  balanced : BookOk g b → Balanced g b → (Balanced g' b' ↔ C)

namespace Entry

theorem congr {g g' : BucketState} {b b' : Book} {C C' : Prop} (h : Entry g b g' b' C)
    (hC : C ↔ C') : Entry g b g' b' C' :=
  ⟨h.book, h.covered, fun hBook hBal => (h.balanced hBook hBal).trans hC⟩

end Entry

/-! ## The book along an update -/

/-- The book fits a ledger with more consumed ids and fewer reservations. -/
theorem BookOk.mono {g g' : BucketState} {b : Book} (h : BookOk g b)
    (hConsumed : g.consumed ⊆ g'.consumed)
    (hReserved : ∀ id r, g'.reserved.lookup id = some r → g.reserved.lookup id = some r) :
    BookOk g' b := by
  constructor
  · intro id hId
    exact hConsumed (h.consumed id hId)
  · intro id r hr hNew
    exact h.held id r (hReserved id r hr) hNew

theorem BookOk.sweepExpired {g : BucketState} {b : Book} (h : BookOk g b) (now : Nat) :
    BookOk (g.sweepExpired now) b :=
  h.mono (by simp) fun _ _ hr => (lookup_sweepExpired_some.mp hr).1

/-- Settling a consumed id keeps the book. -/
theorem BookOk.settle {g : BucketState} {b : Book} (h : BookOk g b) {id : String}
    (hId : id ∈ g.consumed) : BookOk g (b.settle id) := by
  constructor
  · intro j hj
    rcases Book.mem_settle.mp hj with hOld | rfl
    · exact h.consumed j hOld
    · exact hId
  · intro j r hr hNew
    rw [Book.settle_terms]
    exact h.held j r hr fun hOld => hNew (Book.mem_settle.mpr (Or.inl hOld))

/-- New terms for an id that holds nothing, or holds on these very terms. -/
theorem BookOk.setTerms {g : BucketState} {b : Book} (h : BookOk g b) {id : String}
    {kind : BucketKind} {amount : Nat}
    (hId : ∀ r, g.reserved.lookup id = some r → id ∉ b.settled →
      r.kind = kind ∧ r.amount = amount) :
    BookOk g (b.setTerms id (kind, amount)) := by
  constructor
  · exact h.consumed
  · intro j r hr hNew
    have hTerms := h.held j r hr hNew
    by_cases hj : j = id
    · subst hj
      obtain ⟨hKind, hAmount⟩ := hId r hr hNew
      exact Or.inr (by simp [Book.setTerms, hKind, hAmount])
    · simpa [Book.setTerms, hj] using hTerms

/-- A new reservation on the id's terms, or a void one. -/
theorem BookOk.hold {g : BucketState} {b : Book} (h : BookOk g b) {id : String} {r : Reservation}
    (hTerms : r.amount = 0 ∨ b.terms id = some (r.kind, r.amount)) : BookOk (g.hold id r) b := by
  constructor
  · exact h.consumed
  · intro j r' hr' hNew
    rw [hold_reserved] at hr'
    rcases Table.lookup_insert_eq_some.mp hr' with ⟨rfl, rfl⟩ | ⟨-, hOld⟩
    · exact hTerms
    · exact h.held j r' hOld hNew

/-- Burning an id takes its reservation with it. -/
theorem BookOk.burn {g : BucketState} {b : Book} (h : BookOk g b) (id : String) :
    BookOk (g.burn id) b := by
  refine h.mono (by simp) ?_
  intro j r hr
  have hNe : j ≠ id := by
    rintro rfl
    simp at hr
  rwa [burn_reserved, AList.lookup_erase_ne hNe] at hr

/-! ## The cover along an update -/

theorem Covered.dropReservation {g : BucketState} {b : Book} (h : Covered g b) (id : String) :
    Covered (g.dropReservation id) b := by
  intro k
  have hOld := h k
  obtain ⟨charge, hSpent, hLive⟩ := dropReservation_charge g id k
  omega

theorem Covered.sweepExpired {g : BucketState} {b : Book} (h : Covered g b) (now : Nat) :
    Covered (g.sweepExpired now) b :=
  sweepExpired_preserves (P := fun g => Covered g b)
    (fun id _ _ _ _ hCov => hCov.dropReservation id) h

/-- A burned reservation is covered by the terms its id is settled on. -/
theorem Covered.burn_settle {g : BucketState} {b : Book} (h : Covered g b) (hBook : BookOk g b)
    {id : String} (hFree : id ∉ g.consumed) : Covered (g.burn id) (b.settle id) := by
  intro k
  have hOld := h k
  have hNew : id ∉ b.settled := fun hId => hFree (hBook.consumed id hId)
  rw [burn_spentToday, Book.settle_committed hNew]
  cases hr : g.reserved.lookup id with
  | none =>
    rw [burn_live_of_none hr]
    omega
  | some r =>
    have hLive := burn_live hr k
    -- what the reservation held the book settles, or it was void
    have hShare : r.share k ≤ (b.termsOf id).share k := by
      rcases hBook.held id r hr hNew with hVoid | hTerms
      · rw [Reservation.share_eq_zero hVoid]
        exact Nat.zero_le _
      · simp [Book.termsOf, hTerms, Reservation.share, Terms.share]
    omega

/-- A charge is covered by what holds or settles its amount. -/
theorem charge_spentToday_le (g : BucketState) (kind : BucketKind) (amount : Nat)
    (k : BucketKind) :
    (g.charge kind amount).spentToday k ≤ g.spentToday k + if kind = k then amount else 0 := by
  by_cases hk : k = kind
  · subst hk
    rw [charge_spentToday_self, if_pos rfl]
    exact satAdd_le_add ..
  · rw [charge_spentToday_ne g kind amount hk]
    exact Nat.le_add_right ..

/-- What was charged and taken back is no more than it was. -/
theorem charge_refund_spentToday_le (g : BucketState) (kind : BucketKind) (amount : Nat)
    (k : BucketKind) :
    ((g.charge kind amount).refund kind amount).spentToday k ≤ g.spentToday k := by
  have hCharge := charge_spentToday_le g kind amount k
  rw [refund_spentToday]
  by_cases hk : k = kind
  · subst hk
    rw [if_pos rfl] at hCharge ⊢
    omega
  · rw [if_neg (Ne.symm hk)] at hCharge
    rw [if_neg hk]
    omega

namespace Entry

variable {g g' : BucketState} {b b' : Book} {C : Prop}

/-! ## Entries that always keep the balance -/

/-- A sweep before an entry changes nothing about it. -/
theorem sweep_first (now : Nat) (h : Entry (g.sweepExpired now) b g' b' C) :
    Entry g b g' b' C where
  book hBook := h.book (hBook.sweepExpired now)
  covered hBook hCov := h.covered (hBook.sweepExpired now) (hCov.sweepExpired now)
  balanced hBook hBal := h.balanced (hBook.sweepExpired now) (hBal.sweepExpired now)

theorem nothing (g : BucketState) (b : Book) : Entry g b g b True :=
  ⟨id, fun _ => id, fun _ hBal => iff_true_intro hBal⟩

theorem sweep (g : BucketState) (b : Book) (now : Nat) : Entry g b (g.sweepExpired now) b True :=
  sweep_first now (nothing _ b)

/-- A reservation released with its charge. -/
theorem drop (g : BucketState) (b : Book) (id : String) :
    Entry g b (g.dropReservation id) b True where
  book hBook := by
    refine hBook.mono (by simp) ?_
    intro j r hr
    have hNe : j ≠ id := by
      rintro rfl
      simp at hr
    rwa [dropReservation_reserved, AList.lookup_erase_ne hNe] at hr
  covered _ hCov := hCov.dropReservation id
  balanced _ hBal := iff_true_intro (hBal.dropReservation id)

/-- A soft prepare. -/
theorem holdVoid {id : String} (hNone : g.reserved.lookup id = none) {r : Reservation}
    (hVoid : r.amount = 0) : Entry g b (g.hold id r) b True where
  book hBook := hBook.hold (Or.inl hVoid)
  covered _ hCov k := by
    rw [hold_spentToday, hold_live hNone, Reservation.share_eq_zero hVoid, Nat.zero_add]
    exact hCov k
  balanced _ hBal := iff_true_intro (hBal.hold_void hNone hVoid)

/-- The id is reserved on these terms already. -/
theorem resume {id : String} {kind : BucketKind} {amount : Nat}
    (hHeld : ∀ r, g.reserved.lookup id = some r → r.kind = kind ∧ r.amount = amount) :
    Entry g b g (b.setTerms id (kind, amount)) True where
  book hBook := hBook.setTerms fun r hr _ => hHeld r hr
  covered _ hCov := hCov
  balanced _ hBal := iff_true_intro ((Balanced.congr rfl rfl rfl).mpr hBal)

/-- An id is consumed that no commit asked for here: a reservation it burns
that holds an amount is settled, a void one or none is not. -/
theorem burn {id : String} (hFree : id ∉ g.consumed)
    (hBurned : ∀ r, g.reserved.lookup id = some r → 0 < r.amount → b' = b.settle id)
    (hOther : (∀ r, g.reserved.lookup id = some r → r.amount = 0) → b' = b) :
    Entry g b (g.burn id) b' True := by
  -- to burn a reservation without an amount changes no side of the balance
  by_cases hVoid : ∀ r, g.reserved.lookup id = some r → r.amount = 0
  · rw [hOther hVoid]
    refine ⟨fun hBook => hBook.burn id, fun _ hCov k => ?_, fun _ hBal => iff_true_intro ?_⟩
    · -- nothing held is lost
      have hOld := hCov k
      rw [burn_spentToday]
      cases hr : g.reserved.lookup id with
      | none => rwa [burn_live_of_none hr]
      | some r =>
        have hLive := burn_live hr k
        rw [Reservation.share_eq_zero (hVoid r hr)] at hLive
        omega
    · exact (balanced_burn_iff hBal id).mpr hVoid
  · -- a spend reservation: the book has its terms
    obtain ⟨r, hr, hPos⟩ : ∃ r, g.reserved.lookup id = some r ∧ r.amount ≠ 0 := by
      simpa using hVoid
    rw [hBurned r hr (Nat.pos_of_ne_zero hPos)]
    refine ⟨fun hBook => (hBook.burn id).settle (by simp),
      fun hBook hCov => hCov.burn_settle hBook hFree, fun hBook hBal => iff_true_intro ?_⟩
    have hNew : id ∉ b.settled := fun hId => hFree (hBook.consumed id hId)
    have hTerms : b.terms id = some (r.kind, r.amount) :=
      (hBook.held id r hr hNew).resolve_left hPos
    have hHeld : HeldOnTerms g b id := Or.inr ⟨r, hr, by simp [Book.termsOf, hTerms]⟩
    exact (balanced_burn_settle_iff hBal hBook hNew).mpr hHeld

/-! ## Entries that keep it under a condition -/

/-- A reservation with its charge. -/
theorem hold {id : String} (hNone : g.reserved.lookup id = none)
    (kind : BucketKind) (amount expires : Nat) :
    Entry g b ((g.charge kind amount).hold id ⟨kind, amount, expires⟩)
      (b.setTerms id (kind, amount)) (g.spentToday kind + amount ≤ u64Max) where
  book hBook := by
    have hCharged : BookOk (g.charge kind amount) b := hBook.mono subset_rfl (by simp)
    have hTerms : BookOk (g.charge kind amount) (b.setTerms id (kind, amount)) :=
      hCharged.setTerms fun r hr _ => by simp [hNone] at hr
    exact hTerms.hold (Or.inr (by simp [Book.setTerms]))
  covered _ hCov k := by
    have hOld := hCov k
    have hCharge := charge_spentToday_le g kind amount k
    have hLive : ((g.charge kind amount).hold id ⟨kind, amount, expires⟩).live k =
        (if kind = k then amount else 0) + g.live k :=
      hold_live (g := g.charge kind amount) hNone ⟨kind, amount, expires⟩ k
    rw [hold_spentToday, Book.setTerms_committed, hLive]
    omega
  balanced _ hBal :=
    (Balanced.congr rfl rfl rfl).trans (balanced_charge_hold_iff hBal hNone kind amount expires)

/-- A refund that no reservation backs. -/
theorem refund (g : BucketState) (b : Book) (kind : BucketKind) (amount : Nat) :
    Entry g b (g.refund kind amount) b (amount = 0 ∨ g.spentToday kind = 0) where
  book hBook := hBook.mono subset_rfl (by simp)
  covered _ hCov k := by
    have hOld := hCov k
    rw [refund_spentToday, refund_live]
    omega
  balanced _ hBal := balanced_refund_iff hBal kind amount

/-- A commit of an id that is not consumed yet. -/
theorem commit {id : String} (hFree : id ∉ g.consumed) :
    Entry g b (g.burn id) (b.settle id) (HeldOnTerms g b id) where
  book hBook := (hBook.burn id).settle (by simp)
  covered hBook hCov := hCov.burn_settle hBook hFree
  balanced hBook hBal :=
    balanced_burn_settle_iff hBal hBook fun hId => hFree (hBook.consumed id hId)

/-- A commit of an id that is consumed. -/
theorem retry {id : String} (hConsumed : id ∈ g.consumed) :
    Entry g b g (b.settle id) (id ∈ b.settled ∨ (b.termsOf id).2 = 0) where
  book hBook := hBook.settle hConsumed
  covered _ hCov k := by
    have hOld := hCov k
    have hMore := b.committed_le_settle id k
    omega
  balanced _ hBal := by
    by_cases hOld : id ∈ b.settled
    · rw [Book.settle_of_settled hOld]
      simp [hBal, hOld]
    · rw [balanced_settle_iff hBal hOld]
      simp [hOld]

/-- A charge settled at once. -/
theorem spend {id : String} (hFree : id ∉ g.consumed) (kind : BucketKind) (amount : Nat)
    (hSpent : g'.spentToday = (g.charge kind amount).spentToday)
    (hReserved : g'.reserved = g.reserved) (hConsumed : g'.consumed = insert id g.consumed) :
    Entry g b g' ((b.setTerms id (kind, amount)).settle id)
      (g.spentToday kind + amount ≤ u64Max) where
  book hBook := by
    -- a reservation may be left under the id: it is settled from here on
    constructor
    · intro j hj
      rw [hConsumed, Finset.mem_insert]
      rcases Book.mem_settle.mp hj with hOld | rfl
      · exact Or.inr (hBook.consumed j hOld)
      · exact Or.inl rfl
    · intro j r hr hNew
      have hNe : j ≠ id := fun hEq => hNew (Book.mem_settle.mpr (Or.inr hEq))
      rw [hReserved] at hr
      have hTerms := hBook.held j r hr fun hId => hNew (Book.mem_settle.mpr (Or.inl hId))
      simpa [Book.settle_terms, Book.setTerms, hNe] using hTerms
  covered hBook hCov k := by
    have hOld := hCov k
    have hNew : id ∉ b.settled := fun hId => hFree (hBook.consumed id hId)
    have hCharge := charge_spentToday_le g kind amount k
    have hLive : g'.live k = g.live k := by rw [live, hReserved, live]
    rw [hSpent, Book.setTerms_settle_committed hNew, hLive]
    omega
  balanced hBook hBal := by
    have hNew : id ∉ b.settled := fun hId => hFree (hBook.consumed id hId)
    have hSettled := Book.setTerms_settle_committed hNew kind amount
    exact balanced_charge_iff hBal hSettled hSpent hReserved

/-- A charge that is taken back, whether or not the id stays consumed; the
book may note its terms if they fit what is left reserved. -/
theorem takeBack (id : String) (kind : BucketKind) {amount : Nat} (hAmount : amount ≤ u64Max)
    (hSpent : g'.spentToday = ((g.charge kind amount).refund kind amount).spentToday)
    (hReserved : g'.reserved = g.reserved) (hConsumed : g.consumed ⊆ g'.consumed)
    (hNoted : b' = b ∨ (b' = b.setTerms id (kind, amount) ∧
      ∀ r, g.reserved.lookup id = some r → r.kind = kind ∧ r.amount = amount)) :
    Entry g b g' b' (g.spentToday kind + amount ≤ u64Max) := by
  have hSettled : b'.settled = b.settled := by
    rcases hNoted with rfl | ⟨rfl, -⟩ <;> rfl
  refine ⟨fun hBook => ?_, fun _ hCov k => ?_, fun _ hBal => ?_⟩
  · -- the table is what it was, so the noted terms must fit it
    have hLeft : BookOk g' b := hBook.mono hConsumed (by simp [hReserved])
    rcases hNoted with rfl | ⟨rfl, hHeld⟩
    · exact hLeft
    · exact hLeft.setTerms fun r hr _ => hHeld r (hReserved ▸ hr)
  · have hOld := hCov k
    have hBack := charge_refund_spentToday_le g kind amount k
    have hLive : g'.live k = g.live k := by rw [live, hReserved, live]
    have hCommitted : b'.committed k = b.committed k := by
      rw [Book.committed, hSettled, Book.committed]
    rw [hSpent, hLive, hCommitted]
    omega
  · exact (Balanced.congr rfl rfl hSettled).trans
      (balanced_charge_refund_iff hBal hAmount hSpent hReserved)

end Entry

end KeroseneVault
