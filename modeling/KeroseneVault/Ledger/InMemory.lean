import KeroseneVault.Domain.Bucket
import KeroseneVault.Lib.Table

/-!
# The in-memory bucket ledger

`InMemoryBucketLedger`: per-bucket policies and spend, the consumed intent
ids and the soft reservations, all under one mutex, so each method is one
atomic function of the `BucketState`. `now` is the clock the method reads, in
seconds.

* `sweepExpired` — drops every reservation whose TTL has run out, with its charge;
* `tryConsume`, `hasReservation`, `reserveSpend`, `commitConsume`,
  `releaseReservation`, `authorizeSpendAndConsume` — the port methods;
* `fromConstitutionCaps` — the state a process starts with;
* `LedgerOp`, `perform` — the methods as one action type.

Main results:

* `sweepExpired_preserves` — the induction rule of a sweep;
* `lookup_sweepExpired` — a sweep leaves the reservations whose TTL has not
  run out;
* `sweepExpired_eq_self_iff` — a sweep changes nothing exactly when there is
  nothing to drop.
-/

namespace KeroseneVault

/-! ## State -/

/-- A soft reservation: `(BucketKind, u64, Instant)`. -/
structure Reservation where
  kind : BucketKind
  amount : Nat
  expires : Nat
  deriving DecidableEq

/-- `BucketState`. A bucket without an entry in `spent_today` reads 0. -/
structure BucketState where
  policies : BucketKind → Option BucketPolicy
  spentToday : BucketKind → Nat
  consumed : Finset String
  reserved : Table String Reservation

/-- `DEFAULT_RESERVE_TTL`, in seconds. -/
def defaultReserveTtl : Nat := 300

/-- The closure a reservation is checked with: policy and spend so far. -/
abbrev Validate := BucketPolicy → Nat → Outcome

namespace BucketState

/-- `InMemoryBucketLedger::from_constitution_caps`. -/
def fromConstitutionCaps (maxTx maxDay : Nat) : BucketState where
  policies kind :=
    let (tx, day) := match kind with
      | .users => (maxTx, maxDay)
      | .profit => (maxTx, maxDay)
      | .miners => (maxTx / 10, maxDay / 10)
      | .channels => (maxTx, maxDay)
      | .infra => (maxTx / 5, maxDay / 5)
    some (.labDefaults kind (max tx 1) (max day 1))
  spentToday _ := 0
  consumed := ∅
  reserved := ∅

/-! ## Updates -/

/-- Add to a bucket's spend. -/
def charge (g : BucketState) (kind : BucketKind) (amount : Nat) : BucketState :=
  { g with spentToday :=
      Function.update g.spentToday kind (satAdd (g.spentToday kind) amount) }

/-- Take back from a bucket's spend; it stops at 0. -/
def refund (g : BucketState) (kind : BucketKind) (amount : Nat) : BucketState :=
  { g with spentToday := Function.update g.spentToday kind (g.spentToday kind - amount) }

/-- Put a reservation in the table. -/
def hold (g : BucketState) (id : String) (r : Reservation) : BucketState :=
  { g with reserved := g.reserved.insert id r }

/-- Consume an intent id: its reservation goes, its charge stays. -/
def burn (g : BucketState) (id : String) : BucketState :=
  { g with reserved := g.reserved.erase id, consumed := insert id g.consumed }

/-- Remove a reservation with its charge. -/
def dropReservation (g : BucketState) (id : String) : BucketState :=
  match g.reserved.lookup id with
  | some r => { g with reserved := g.reserved.erase id }.refund r.kind r.amount
  | none => g

section Fields

variable (g : BucketState) (kind : BucketKind) (amount : Nat) (id : String) (r : Reservation)

@[simp] theorem charge_policies : (g.charge kind amount).policies = g.policies := rfl
@[simp] theorem charge_consumed : (g.charge kind amount).consumed = g.consumed := rfl
@[simp] theorem charge_reserved : (g.charge kind amount).reserved = g.reserved := rfl
@[simp] theorem refund_policies : (g.refund kind amount).policies = g.policies := rfl
@[simp] theorem refund_consumed : (g.refund kind amount).consumed = g.consumed := rfl
@[simp] theorem refund_reserved : (g.refund kind amount).reserved = g.reserved := rfl
@[simp] theorem hold_policies : (g.hold id r).policies = g.policies := rfl
@[simp] theorem hold_spentToday : (g.hold id r).spentToday = g.spentToday := rfl
@[simp] theorem hold_consumed : (g.hold id r).consumed = g.consumed := rfl
@[simp] theorem hold_reserved : (g.hold id r).reserved = g.reserved.insert id r := rfl
@[simp] theorem burn_policies : (g.burn id).policies = g.policies := rfl
@[simp] theorem burn_spentToday : (g.burn id).spentToday = g.spentToday := rfl
@[simp] theorem burn_consumed : (g.burn id).consumed = insert id g.consumed := rfl
@[simp] theorem burn_reserved : (g.burn id).reserved = g.reserved.erase id := rfl

@[simp] theorem charge_spentToday_self :
    (g.charge kind amount).spentToday kind = satAdd (g.spentToday kind) amount := by
  simp [charge]

theorem charge_spentToday_ne {k : BucketKind} (h : k ≠ kind) :
    (g.charge kind amount).spentToday k = g.spentToday k := by
  simp [charge, h]

theorem refund_spentToday (k : BucketKind) :
    (g.refund kind amount).spentToday k =
      g.spentToday k - if k = kind then amount else 0 := by
  by_cases h : k = kind
  · subst h
    simp [refund]
  · simp [refund, h]

@[simp] theorem dropReservation_policies : (g.dropReservation id).policies = g.policies := by
  unfold dropReservation
  split <;> rfl

@[simp] theorem dropReservation_consumed : (g.dropReservation id).consumed = g.consumed := by
  unfold dropReservation
  split <;> rfl

@[simp] theorem dropReservation_reserved :
    (g.dropReservation id).reserved = g.reserved.erase id := by
  unfold dropReservation
  split
  · rfl
  · exact (Table.erase_of_lookup_none ‹_›).symm

end Fields

/-! ## Sweeping expired reservations -/

/-- `sweep_expired`. -/
def sweepExpired (now : Nat) (g : BucketState) : BucketState :=
  (g.reserved.keysWhere fun r => decide (r.expires ≤ now)).foldl dropReservation g

/-- What dropping any of the expired reservations preserves, a sweep preserves. -/
theorem sweepExpired_preserves {P : BucketState → Prop} {now : Nat} {g : BucketState}
    (hDrop : ∀ id r, g.reserved.lookup id = some r → r.expires ≤ now →
      ∀ g', P g' → P (g'.dropReservation id)) (h : P g) : P (g.sweepExpired now) := by
  have hKeys : ∀ id ∈ g.reserved.keysWhere fun r => decide (r.expires ≤ now),
      ∀ g', P g' → P (g'.dropReservation id) := by
    intro id hId
    obtain ⟨r, hr, hExpired⟩ := Table.mem_keysWhere.mp hId
    exact hDrop id r hr (by simpa using hExpired)
  -- which ids are swept is fixed before the first of them goes
  unfold sweepExpired
  clear hDrop
  revert hKeys
  generalize (g.reserved.keysWhere fun r => decide (r.expires ≤ now)) = ids
  intro hKeys
  induction ids generalizing g with
  | nil => exact h
  | cons id ids ih =>
    have hFirst := hKeys id (List.mem_cons_self ..) g h
    exact ih hFirst fun j hj => hKeys j (List.mem_cons_of_mem _ hj)

theorem foldl_dropReservation_reserved (ids : List String) (g : BucketState) :
    (ids.foldl dropReservation g).reserved = g.reserved.eraseAll ids := by
  induction ids generalizing g with
  | nil => rfl
  | cons id ids ih => rw [List.foldl_cons, ih, dropReservation_reserved]; rfl

@[simp] theorem sweepExpired_policies (now : Nat) (g : BucketState) :
    (g.sweepExpired now).policies = g.policies :=
  sweepExpired_preserves (P := fun g' => g'.policies = g.policies)
    (fun id _ _ _ g' h => (dropReservation_policies g' id).trans h) rfl

@[simp] theorem sweepExpired_consumed (now : Nat) (g : BucketState) :
    (g.sweepExpired now).consumed = g.consumed :=
  sweepExpired_preserves (P := fun g' => g'.consumed = g.consumed)
    (fun id _ _ _ g' h => (dropReservation_consumed g' id).trans h) rfl

/-- A sweep leaves the reservations whose TTL has not run out. -/
theorem lookup_sweepExpired (now : Nat) (g : BucketState) (id : String) :
    (g.sweepExpired now).reserved.lookup id =
      (g.reserved.lookup id).filter fun r => decide (now < r.expires) := by
  rw [sweepExpired, foldl_dropReservation_reserved, Table.lookup_eraseAll]
  cases h : g.reserved.lookup id with
  | none => simp
  | some r =>
    -- the id is swept exactly when its own entry is past its TTL
    by_cases hr : r.expires ≤ now
    · have hMem : id ∈ g.reserved.keysWhere fun r => decide (r.expires ≤ now) :=
        Table.mem_keysWhere.mpr ⟨r, h, by simpa using hr⟩
      simp [hMem, Option.filter, hr]
    · have hMem : id ∉ g.reserved.keysWhere fun r => decide (r.expires ≤ now) := by
        intro hMem
        obtain ⟨r', hr', hExp⟩ := Table.mem_keysWhere.mp hMem
        rw [h] at hr'
        cases hr'
        exact hr (by simpa using hExp)
      simp [hMem, Option.filter, Nat.lt_of_not_le hr]

theorem lookup_sweepExpired_some {now : Nat} {g : BucketState} {id : String} {r : Reservation} :
    (g.sweepExpired now).reserved.lookup id = some r ↔
      g.reserved.lookup id = some r ∧ now < r.expires := by
  rw [lookup_sweepExpired, Option.filter_eq_some_iff]
  simp

/-- With nothing to drop a sweep changes nothing. -/
theorem sweepExpired_eq_self {now : Nat} {g : BucketState}
    (h : ∀ id r, g.reserved.lookup id = some r → now < r.expires) :
    g.sweepExpired now = g := by
  have hNil : (g.reserved.keysWhere fun r => decide (r.expires ≤ now)) = [] := by
    apply Table.keysWhere_eq_nil
    intro id r hr
    simpa using h id r hr
  rw [sweepExpired, hNil]
  rfl

/-- A sweep changes nothing exactly when there is nothing to drop. -/
theorem sweepExpired_eq_self_iff {now : Nat} {g : BucketState} :
    g.sweepExpired now = g ↔ ∀ id r, g.reserved.lookup id = some r → now < r.expires := by
  constructor
  · intro h id r hr
    rw [← h] at hr
    exact (lookup_sweepExpired_some.mp hr).2
  · exact sweepExpired_eq_self

/-- When one reservation alone is past its TTL a sweep drops just that one. -/
theorem sweepExpired_eq_dropReservation {now : Nat} {g : BucketState} {id : String}
    {r : Reservation} (hId : g.reserved.lookup id = some r) (hExpired : r.expires ≤ now)
    (hOnly : ∀ j r, g.reserved.lookup j = some r → r.expires ≤ now → j = id) :
    g.sweepExpired now = g.dropReservation id := by
  have hAll : ∀ j ∈ g.reserved.keysWhere fun r => decide (r.expires ≤ now), j = id := by
    intro j hj
    obtain ⟨r', hr', hExp⟩ := Table.mem_keysWhere.mp hj
    exact hOnly j r' hr' (by simpa using hExp)
  have hMem : id ∈ g.reserved.keysWhere fun r => decide (r.expires ≤ now) :=
    Table.mem_keysWhere.mpr ⟨r, hId, by simpa using hExpired⟩
  have hKeys : (g.reserved.keysWhere fun r => decide (r.expires ≤ now)) = [id] := by
    have hNodup := Table.keysWhere_nodup (fun r => decide (r.expires ≤ now)) g.reserved
    revert hAll hMem hNodup
    generalize (g.reserved.keysWhere fun r => decide (r.expires ≤ now)) = keys
    intro hAll hMem hNodup
    match keys with
    | [] => cases hMem
    | [j] => rw [hAll j (by simp)]
    | j :: j' :: _ =>
      -- two expired keys would both be `id`
      have hEq : j = j' := (hAll j (by simp)).trans (hAll j' (by simp)).symm
      simp [hEq] at hNodup
  rw [sweepExpired, hKeys]
  rfl

/-! ## The port methods -/

/-- The policy lookup and the check every reservation passes. -/
def validated (g : BucketState) (kind : BucketKind) (validate : Validate) : Outcome :=
  match g.policies kind with
  | none => .error (.invalidBucket kind.asStr)
  | some policy => validate policy (g.spentToday kind)

def recordSpend (kind : BucketKind) (amount : Nat) (g : BucketState) : BucketState :=
  g.charge kind amount

def tryConsume (now : Nat) (id : String) (g : BucketState) : Outcome × BucketState :=
  let g := g.sweepExpired now
  if id ∈ g.consumed then (.error (.intentReplay id), g)
  else (.ok (), g.burn id)

def hasReservation (now : Nat) (id : String) (g : BucketState) : Bool × BucketState :=
  let g := g.sweepExpired now
  ((g.reserved.lookup id).isSome, g)

def reserveSpend (now : Nat) (id : String) (kind : BucketKind) (amount : Nat)
    (validate : Validate) (g : BucketState) : Outcome × BucketState :=
  let g := g.sweepExpired now
  if id ∈ g.consumed then (.error (.intentReplay id), g)
  else
    match g.reserved.lookup id with
    | some r =>
      -- idempotent resume: same bucket, same amount
      if r.kind = kind ∧ r.amount = amount then (.ok (), g)
      else (.error (.intentReplay id), g)
    | none =>
      match g.validated kind validate with
      | .error e => (.error e, g)
      | .ok () => (.ok (), (g.charge kind amount).hold id ⟨kind, amount, now + defaultReserveTtl⟩)

def commitConsume (now : Nat) (id : String) (g : BucketState) : Outcome × BucketState :=
  let g := g.sweepExpired now
  if id ∈ g.consumed then (.ok (), g)
  else
    match g.reserved.lookup id with
    | none => (.error (.reservationMissing id), g)
    | some _ => (.ok (), g.burn id)

/-- Without a reservation under this id the caller's own bucket and amount
are taken back. -/
def releaseReservation (id : String) (kind : BucketKind) (amount : Nat) (g : BucketState) :
    Outcome × BucketState :=
  match g.reserved.lookup id with
  | some _ => (.ok (), g.dropReservation id)
  | none => (.ok (), g.refund kind amount)

def authorizeSpendAndConsume (now : Nat) (id : String) (kind : BucketKind) (amount : Nat)
    (validate : Validate) (g : BucketState) : Outcome × BucketState :=
  let g := g.sweepExpired now
  if id ∈ g.consumed ∨ (g.reserved.lookup id).isSome then (.error (.intentReplay id), g)
  else
    match g.validated kind validate with
    | .error e => (.error e, g)
    | .ok () =>
      (.ok (), { g.charge kind amount with consumed := insert id g.consumed })

/-! ## What the methods do -/

/-- The ledger lets a new reservation of the id through. -/
def Accepts (g : BucketState) (id : String) (kind : BucketKind) (validate : Validate) : Prop :=
  id ∉ g.consumed ∧ g.reserved.lookup id = none ∧ g.validated kind validate = .ok ()

section Cases

variable (g : BucketState) (now : Nat) (id : String) (kind : BucketKind) (amount : Nat)
  (validate : Validate)

/-- All a reservation can do after the sweep: it is let through, or nothing. -/
theorem reserveSpend_cases :
    let g₁ := g.sweepExpired now
    (g₁.Accepts id kind validate ∧ g.reserveSpend now id kind amount validate =
      (.ok (), (g₁.charge kind amount).hold id ⟨kind, amount, now + defaultReserveTtl⟩)) ∨
    (¬ g₁.Accepts id kind validate ∧ (g.reserveSpend now id kind amount validate).2 = g₁) := by
  simp only [BucketState.reserveSpend]
  generalize g.sweepExpired now = g₁
  by_cases hConsumed : id ∈ g₁.consumed
  · exact Or.inr ⟨fun h => h.1 hConsumed, by simp [hConsumed]⟩
  · cases hReserved : g₁.reserved.lookup id with
    | some r =>
      -- a resume or a replay: either way nothing is charged
      refine Or.inr ⟨fun h => by simp [Accepts, hReserved] at h, ?_⟩
      simp only [hConsumed, if_false]
      split <;> rfl
    | none =>
      cases hValid : g₁.validated kind validate with
      | error e => exact Or.inr ⟨fun h => by simp [Accepts, hValid] at h, by simp [hConsumed]⟩
      | ok => exact Or.inl ⟨⟨hConsumed, hReserved, hValid⟩, by simp [hConsumed]⟩

/-- All an authorization can do after the sweep. -/
theorem authorizeSpendAndConsume_cases :
    let g₁ := g.sweepExpired now
    (g₁.Accepts id kind validate ∧ g.authorizeSpendAndConsume now id kind amount validate =
      (.ok (), { g₁.charge kind amount with consumed := insert id g₁.consumed })) ∨
    (¬ g₁.Accepts id kind validate ∧
      ∃ e, g.authorizeSpendAndConsume now id kind amount validate = (.error e, g₁)) := by
  simp only [BucketState.authorizeSpendAndConsume]
  generalize g.sweepExpired now = g₁
  by_cases hSeen : id ∈ g₁.consumed ∨ (g₁.reserved.lookup id).isSome
  · refine Or.inr ⟨?_, _, by rw [if_pos hSeen]⟩
    rintro ⟨hFree, hNone, -⟩
    simp [hFree, hNone] at hSeen
  · rw [if_neg hSeen]
    rw [not_or, Option.not_isSome_iff_eq_none] at hSeen
    cases hValid : g₁.validated kind validate with
    | error e => exact Or.inr ⟨fun h => by simp [Accepts, hValid] at h, e, rfl⟩
    | ok => exact Or.inl ⟨⟨hSeen.1, hSeen.2, hValid⟩, rfl⟩

end Cases

/-! ## The methods as actions -/

end BucketState

/-- A call of a port method, or a look at the reservations that sweeps the
expired ones (`has_reservation`). -/
inductive LedgerOp where
  | reserveSpend (id : String) (kind : BucketKind) (amount : Nat) (validate : Validate)
  | commitConsume (id : String)
  | tryConsume (id : String)
  | releaseReservation (id : String) (kind : BucketKind) (amount : Nat)
  | authorizeSpendAndConsume (id : String) (kind : BucketKind) (amount : Nat)
      (validate : Validate)
  | sweepExpired

namespace BucketState

def perform (now : Nat) (g : BucketState) : LedgerOp → Outcome × BucketState
  | .reserveSpend id kind amount validate => g.reserveSpend now id kind amount validate
  | .commitConsume id => g.commitConsume now id
  | .tryConsume id => g.tryConsume now id
  | .releaseReservation id kind amount => g.releaseReservation id kind amount
  | .authorizeSpendAndConsume id kind amount validate =>
    g.authorizeSpendAndConsume now id kind amount validate
  | .sweepExpired => (.ok (), g.sweepExpired now)

/-- No method touches the policies. -/
theorem perform_policies (now : Nat) (g : BucketState) (op : LedgerOp) :
    (g.perform now op).2.policies = g.policies := by
  -- each method is made of updates that move no policy
  cases op with
  | reserveSpend id kind amount validate =>
    simp only [perform, reserveSpend]
    split
    · simp
    · split
      · split <;> simp
      · split <;> simp
  | commitConsume id =>
    simp only [perform, commitConsume]
    split
    · simp
    · split <;> simp
  | tryConsume id =>
    simp only [perform, tryConsume]
    split <;> simp
  | releaseReservation id kind amount =>
    simp only [perform, releaseReservation]
    split <;> simp
  | authorizeSpendAndConsume id kind amount validate =>
    simp only [perform, authorizeSpendAndConsume]
    split
    · simp
    · split <;> simp
  | sweepExpired => simp [perform]

end BucketState

end KeroseneVault
