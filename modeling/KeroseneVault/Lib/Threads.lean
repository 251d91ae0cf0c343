import KeroseneVault.Lib.Runs
import Mathlib.Algebra.BigOperators.Group.Finset.Basic

/-!
# Threads over a shared store

Threads with states of their own take turns on a shared store: one turn is one
atomic call of a thread, and an action says whose turn it is and what the
environment supplies to it. A run of `step` is one interleaving.

* `State`, `step` — the store and the threads, and one turn;
* `Holds G L` — `G` of the store, and `L` of each thread over the store;
* `Held`, `Exclusive` — the tokens that threads hold, none held twice;
* `Total` — the amount that the threads hold between them.

Main results:

* `Holds.step` — a turn that keeps its own thread's part, and changes the store
  only as the other threads rely on, keeps all parts;
* `held_same`, `held_take`, `held_drop` — the tokens after a turn;
* `Total.step` — the amount after a turn;
* `run_alone` — a thread that has all the turns runs as a sequential program.
-/

namespace Threads

variable {σ τ ι : Type*}

/-- The shared store, and the state of each thread. -/
structure State (σ τ : Type*) where
  store : σ
  threads : Nat → τ

/-- The turn of the thread `a.1`, on the input `a.2`. -/
def step (turn : ι → τ → σ → τ × σ) (s : State σ τ) (a : Nat × ι) : State σ τ :=
  let r := turn a.2 (s.threads a.1) s.store
  { store := r.2, threads := fun n => if n = a.1 then r.1 else s.threads n }

section Step

variable (turn : ι → τ → σ → τ × σ) (s : State σ τ) (n : Nat) (i : ι)

@[simp] theorem step_store : (step turn s (n, i)).store = (turn i (s.threads n) s.store).2 := rfl

@[simp] theorem step_threads_self :
    (step turn s (n, i)).threads n = (turn i (s.threads n) s.store).1 := if_pos rfl

theorem step_threads_ne {m : Nat} (h : m ≠ n) : (step turn s (n, i)).threads m = s.threads m :=
  if_neg h

/-- What all threads have after a turn: its thread has it then, the others had it before. -/
theorem forall_step {P : τ → Prop} (hSelf : P (turn i (s.threads n) s.store).1)
    (hOthers : ∀ m, m ≠ n → P (s.threads m)) (m : Nat) : P ((step turn s (n, i)).threads m) := by
  by_cases hm : m = n
  · rw [hm, step_threads_self]
    exact hSelf
  · rw [step_threads_ne turn s n i hm]
    exact hOthers m hm

/-- Turns of others leave a thread. -/
theorem run_threads_of_ne {m : Nat} {as : List (Nat × ι)} (h : ∀ a ∈ as, a.1 ≠ m) :
    (Runs.run (step turn) s as).threads m = s.threads m := by
  induction as generalizing s with
  | nil => rfl
  | cons a as ih =>
    obtain ⟨hFirst, hRest⟩ := List.forall_mem_cons.mp h
    rw [Runs.run_cons, ih (step turn s a) hRest]
    exact step_threads_ne turn s a.1 a.2 hFirst.symm

end Step

/-- `G` of the store, and `L` of each thread over it. -/
structure Holds (G : σ → Prop) (L : σ → τ → Prop) (s : State σ τ) : Prop where
  store : G s.store
  threads : ∀ n, L s.store (s.threads n)

/-- A turn keeps all parts where it keeps its own, and changes the store only as
the parts of the others rely on. -/
theorem Holds.step {turn : ι → τ → σ → τ × σ} {G : σ → Prop} {L : σ → τ → Prop}
    {rely : σ → σ → Prop} (hStable : ∀ {st st' t}, rely st st' → L st t → L st' t)
    {s : State σ τ} {n : Nat} {i : ι} (h : Holds G L s)
    (hOwn : G (turn i (s.threads n) s.store).2 ∧
      L (turn i (s.threads n) s.store).2 (turn i (s.threads n) s.store).1 ∧
      rely s.store (turn i (s.threads n) s.store).2) :
    Holds G L (Threads.step turn s (n, i)) := by
  obtain ⟨hStore, hThread, hRely⟩ := hOwn
  refine ⟨hStore, fun m => ?_⟩
  by_cases hm : m = n
  · subst hm
    rw [step_threads_self]
    exact hThread
  · rw [step_threads_ne turn s n i hm]
    exact hStable hRely (h.threads m)

/-! ## Tokens -/

section Tokens

variable {κ : Type*} (held : τ → Option κ)

/-- A thread holds the token. -/
def Held (s : State σ τ) (k : κ) : Prop := ∃ n, held (s.threads n) = some k

/-- No token is held twice. -/
def Exclusive (s : State σ τ) : Prop :=
  ∀ n m k, held (s.threads n) = some k → held (s.threads m) = some k → n = m

variable {held} {turn : ι → τ → σ → τ × σ} {s : State σ τ} {n : Nat} {i : ι} {j k : κ}

/-- A turn leaves the tokens where it leaves that of its thread. -/
theorem held_threads_same (h : held (turn i (s.threads n) s.store).1 = held (s.threads n))
    (m : Nat) : held ((step turn s (n, i)).threads m) = held (s.threads m) := by
  by_cases hm : m = n
  · subst hm
    rw [step_threads_self, h]
  · rw [step_threads_ne turn s n i hm]

theorem held_same (h : held (turn i (s.threads n) s.store).1 = held (s.threads n)) :
    Held held (step turn s (n, i)) k ↔ Held held s k :=
  exists_congr fun m => by rw [held_threads_same h m]

theorem Exclusive.same (hs : Exclusive held s)
    (h : held (turn i (s.threads n) s.store).1 = held (s.threads n)) :
    Exclusive held (step turn s (n, i)) := by
  intro a b k ha hb
  rw [held_threads_same h] at ha hb
  exact hs a b k ha hb

/-- A turn that takes a token. -/
theorem held_take (hBefore : held (s.threads n) = none)
    (hAfter : held (turn i (s.threads n) s.store).1 = some j) :
    Held held (step turn s (n, i)) k ↔ k = j ∨ Held held s k := by
  constructor
  · rintro ⟨m, hm⟩
    by_cases hn : m = n
    · subst hn
      rw [step_threads_self, hAfter] at hm
      exact .inl (Option.some.inj hm).symm
    · rw [step_threads_ne turn s n i hn] at hm
      exact .inr ⟨m, hm⟩
  · rintro (rfl | ⟨m, hm⟩)
    · exact ⟨n, by rw [step_threads_self, hAfter]⟩
    · have hn : m ≠ n := by
        rintro rfl
        rw [hBefore] at hm
        cases hm
      exact ⟨m, by rw [step_threads_ne turn s n i hn, hm]⟩

theorem Exclusive.take (hs : Exclusive held s) (hFree : ¬ Held held s j)
    (hAfter : held (turn i (s.threads n) s.store).1 = some j) :
    Exclusive held (step turn s (n, i)) := by
  have hCases (m : Nat) (k : κ) (h : held ((step turn s (n, i)).threads m) = some k) :
      m = n ∧ k = j ∨ m ≠ n ∧ held (s.threads m) = some k := by
    by_cases hm : m = n
    · subst hm
      rw [step_threads_self, hAfter] at h
      exact .inl ⟨rfl, (Option.some.inj h).symm⟩
    · rw [step_threads_ne turn s n i hm] at h
      exact .inr ⟨hm, h⟩
  intro a b k ha hb
  rcases hCases a k ha with ⟨rfl, rfl⟩ | ⟨-, ha'⟩
  · rcases hCases b k hb with ⟨rfl, -⟩ | ⟨-, hb'⟩
    · rfl
    · exact absurd ⟨b, hb'⟩ hFree
  · rcases hCases b k hb with ⟨rfl, rfl⟩ | ⟨-, hb'⟩
    · exact absurd ⟨a, ha'⟩ hFree
    · exact hs a b k ha' hb'

/-- A turn that gives a token up. -/
theorem held_drop (hs : Exclusive held s) (hBefore : held (s.threads n) = some j)
    (hAfter : held (turn i (s.threads n) s.store).1 = none) :
    Held held (step turn s (n, i)) k ↔ k ≠ j ∧ Held held s k := by
  constructor
  · rintro ⟨m, hm⟩
    have hn : m ≠ n := by
      rintro rfl
      rw [step_threads_self, hAfter] at hm
      cases hm
    rw [step_threads_ne turn s n i hn] at hm
    refine ⟨?_, m, hm⟩
    rintro rfl
    exact hn (hs m n k hm hBefore)
  · rintro ⟨hne, m, hm⟩
    have hn : m ≠ n := by
      rintro rfl
      exact hne (Option.some.inj (hm.symm.trans hBefore))
    exact ⟨m, by rw [step_threads_ne turn s n i hn, hm]⟩

theorem Exclusive.drop (hs : Exclusive held s)
    (hAfter : held (turn i (s.threads n) s.store).1 = none) :
    Exclusive held (step turn s (n, i)) := by
  have hOld (m : Nat) (k : κ) (h : held ((step turn s (n, i)).threads m) = some k) :
      held (s.threads m) = some k := by
    by_cases hm : m = n
    · subst hm
      rw [step_threads_self, hAfter] at h
      cases h
    · rwa [step_threads_ne turn s n i hm] at h
  exact fun a b k ha hb => hs a b k (hOld a k ha) (hOld b k hb)

end Tokens

/-! ## Amounts -/

section Amounts

variable (amount : τ → Nat)

/-- What the threads hold between them. -/
def Total (s : State σ τ) (total : Nat) : Prop :=
  ∃ bound, (∀ n, bound ≤ n → amount (s.threads n) = 0) ∧
    ∑ n ∈ Finset.range bound, amount (s.threads n) = total

variable {amount} {turn : ι → τ → σ → τ × σ} {s : State σ τ} {n : Nat} {i : ι} {total : Nat}

theorem total_zero (h : ∀ n, amount (s.threads n) = 0) : Total amount s 0 :=
  ⟨0, fun n _ => h n, rfl⟩

theorem Total.eq_zero (hTotal : Total amount s total) (h : ∀ n, amount (s.threads n) = 0) :
    total = 0 := by
  obtain ⟨bound, -, rfl⟩ := hTotal
  exact Finset.sum_eq_zero fun n _ => h n

/-- The range of the sum can be as long as is needed. -/
theorem Total.up_to (hTotal : Total amount s total) (least : Nat) :
    ∃ bound, least ≤ bound ∧ (∀ n, bound ≤ n → amount (s.threads n) = 0) ∧
      ∑ n ∈ Finset.range bound, amount (s.threads n) = total := by
  obtain ⟨bound, hRest, rfl⟩ := hTotal
  refine ⟨max bound least, le_max_right _ _, fun n hn => hRest n (le_of_max_le_left hn), ?_⟩
  symm
  refine Finset.sum_subset (Finset.range_subset_range.mpr (le_max_left _ _)) fun n _ hn => ?_
  exact hRest n (Nat.le_of_not_lt fun hLt => hn (Finset.mem_range.mpr hLt))

/-- A thread holds no more than all of them. -/
theorem Total.le (hTotal : Total amount s total) (n : Nat) : amount (s.threads n) ≤ total := by
  obtain ⟨bound, hBound, -, rfl⟩ := hTotal.up_to (n + 1)
  rw [← Finset.add_sum_erase _ _ (Finset.mem_range.mpr hBound)]
  exact Nat.le_add_right ..

/-- The amount changes by that of the thread whose turn it is. -/
theorem Total.step {total' : Nat} (hTotal : Total amount s total)
    (h : total' + amount (s.threads n) = total + amount (turn i (s.threads n) s.store).1) :
    Total amount (Threads.step turn s (n, i)) total' := by
  obtain ⟨bound, hBound, hRest, hSum⟩ := hTotal.up_to (n + 1)
  refine ⟨bound, fun m hm => ?_, ?_⟩
  · rw [step_threads_ne turn s n i (by omega)]
    exact hRest m hm
  · have hMem : n ∈ Finset.range bound := Finset.mem_range.mpr hBound
    -- the amounts of the other threads, before and after
    have hOthers : ∑ m ∈ (Finset.range bound).erase n,
        amount ((Threads.step turn s (n, i)).threads m) =
        ∑ m ∈ (Finset.range bound).erase n, amount (s.threads m) :=
      Finset.sum_congr rfl fun m hm => by
        rw [step_threads_ne turn s n i (Finset.ne_of_mem_erase hm)]
    rw [← Finset.add_sum_erase _ _ hMem] at hSum
    rw [← Finset.add_sum_erase _ _ hMem, hOthers, step_threads_self]
    omega

end Amounts

/-! ## A thread alone -/

/-- The thread and the store after turns of its own, one after the other. -/
def alone (turn : ι → τ → σ → τ × σ) : τ × σ → List ι → τ × σ
  | r, [] => r
  | r, i :: is => alone turn (turn i r.1 r.2) is

theorem alone_append (turn : ι → τ → σ → τ × σ) (r : τ × σ) (is js : List ι) :
    alone turn r (is ++ js) = alone turn (alone turn r is) js := by
  induction is generalizing r with
  | nil => rfl
  | cons i is ih => exact ih (turn i r.1 r.2)

/-- A thread whose turn does nothing stays, however many turns it has. -/
theorem alone_fixed {turn : ι → τ → σ → τ × σ} {i : ι} {r : τ × σ} (h : turn i r.1 r.2 = r)
    (n : Nat) : alone turn r (List.replicate n i) = r := by
  induction n with
  | zero => rfl
  | succ n ih =>
    show alone turn (turn i r.1 r.2) (List.replicate n i) = r
    rw [h]
    exact ih

/-- A thread that has all the turns runs as a sequential program. -/
theorem run_alone (turn : ι → τ → σ → τ × σ) (s : State σ τ) (n : Nat) (is : List ι) :
    ((Runs.run (step turn) s (is.map (n, ·))).threads n,
      (Runs.run (step turn) s (is.map (n, ·))).store) =
      alone turn (s.threads n, s.store) is := by
  induction is generalizing s with
  | nil => rfl
  | cons i is ih =>
    rw [List.map_cons, Runs.run_cons, ih (step turn s (n, i)), step_threads_self, step_store]
    rfl

end Threads
