import Mathlib.Data.List.Basic
import Mathlib.Logic.Basic

/-!
# Runs of a deterministic step function

A system is a step function `σ → α → σ`: the actions carry every choice the
environment makes (which process moves, what the clock shows, whether a
message arrives), so a run is a list of actions and a statement about every
interleaving is a statement about every list.

* `run` — the state after a list of actions;
* `EveryStep C` — each action of the run meets `C` in the state it is taken in;
* `EveryState P` — `P` holds in each state the run passes through;
* `emits` — what the actions of a run give off, each in its state;
* `Simulates` — each step, seen through a view, is a step of another system, or none.

Main results:

* `EveryState.of_everyStep` — what every step that meets `C` preserves holds
  along every run whose steps meet `C`;
* `everyState_iff_everyStep` — where a step preserves `P` exactly when it
  meets `C`, a run keeps `P` exactly when all its steps meet `C`;
* `nodup_emits` — what spends its key is given off once;
* `Simulates.run`, `.everyState`, `.everyStep` — a simulation of steps is one of runs, and of
  what holds along them.
-/

namespace Runs

variable {σ α : Type*}

/-! ## Runs -/

/-- The state after the actions `as`, taken from `s` in order. -/
def run (step : σ → α → σ) (s : σ) (as : List α) : σ := as.foldl step s

@[simp] theorem run_nil (step : σ → α → σ) (s : σ) : run step s [] = s := rfl

@[simp] theorem run_cons (step : σ → α → σ) (s : σ) (a : α) (as : List α) :
    run step s (a :: as) = run step (step s a) as := rfl

theorem run_append (step : σ → α → σ) (s : σ) (as bs : List α) :
    run step s (as ++ bs) = run step (run step s as) bs := List.foldl_append ..

/-- Each action of the run meets `C` in the state it is taken in. -/
def EveryStep (step : σ → α → σ) (C : σ → α → Prop) : σ → List α → Prop
  | _, [] => True
  | s, a :: as => C s a ∧ EveryStep step C (step s a) as

@[simp] theorem everyStep_nil (step : σ → α → σ) (C : σ → α → Prop) (s : σ) :
    EveryStep step C s [] := trivial

@[simp] theorem everyStep_cons (step : σ → α → σ) (C : σ → α → Prop) (s : σ) (a : α)
    (as : List α) :
    EveryStep step C s (a :: as) ↔ C s a ∧ EveryStep step C (step s a) as := Iff.rfl

theorem EveryStep.mono {step : σ → α → σ} {C D : σ → α → Prop}
    (hCD : ∀ s a, C s a → D s a) {s : σ} {as : List α}
    (h : EveryStep step C s as) : EveryStep step D s as := by
  induction as generalizing s with
  | nil => trivial
  | cons a as ih => exact ⟨hCD s a h.1, ih h.2⟩

theorem everyStep_append (step : σ → α → σ) (C : σ → α → Prop) (s : σ) (as bs : List α) :
    EveryStep step C s (as ++ bs) ↔
      EveryStep step C s as ∧ EveryStep step C (run step s as) bs := by
  induction as generalizing s with
  | nil => simp
  | cons a as ih => rw [List.cons_append, everyStep_cons, everyStep_cons, ih, run_cons, and_assoc]

instance decidableEveryStep (step : σ → α → σ) (C : σ → α → Prop)
    [∀ s a, Decidable (C s a)] : ∀ s as, Decidable (EveryStep step C s as)
  | _, [] => isTrue trivial
  | s, a :: as => @instDecidableAnd _ _ _ (decidableEveryStep step C (step s a) as)

/-- `P` holds in each state the run passes through, its first and last included. -/
def EveryState (step : σ → α → σ) (P : σ → Prop) (s : σ) (as : List α) : Prop :=
  ∀ n, P (run step s (as.take n))

theorem EveryState.last {step : σ → α → σ} {P : σ → Prop} {s : σ} {as : List α}
    (h : EveryState step P s as) : P (run step s as) := by
  have := h as.length
  rwa [List.take_length] at this

theorem EveryState.mono {step : σ → α → σ} {P Q : σ → Prop} (hPQ : ∀ s, P s → Q s) {s : σ}
    {as : List α} (h : EveryState step P s as) : EveryState step Q s as :=
  fun n => hPQ _ (h n)

@[simp] theorem everyState_nil (step : σ → α → σ) (P : σ → Prop) (s : σ) :
    EveryState step P s [] ↔ P s := by
  simp [EveryState]

theorem everyState_cons (step : σ → α → σ) (P : σ → Prop) (s : σ) (a : α) (as : List α) :
    EveryState step P s (a :: as) ↔ P s ∧ EveryState step P (step s a) as := by
  constructor
  · intro h
    exact ⟨h 0, fun n => h (n + 1)⟩
  · rintro ⟨hs, h⟩ n
    cases n with
    | zero => exact hs
    | succ n => exact h n

/-! ## What a run gives off -/

/-- What the actions of a run give off, in order. -/
def emits {β : Type*} (step : σ → α → σ) (out : σ → α → Option β) : σ → List α → List β
  | _, [] => []
  | s, a :: as => (out s a).toList ++ emits step out (step s a) as

theorem emits_append {β : Type*} (step : σ → α → σ) (out : σ → α → Option β) (s : σ)
    (as bs : List α) :
    emits step out s (as ++ bs) = emits step out s as ++ emits step out (run step s as) bs := by
  induction as generalizing s with
  | nil => rfl
  | cons a as ih => rw [List.cons_append, emits, emits, ih, run_cons, List.append_assoc]

theorem emits_concat {β : Type*} (step : σ → α → σ) (out : σ → α → Option β) (s : σ)
    (as : List α) (a : α) :
    emits step out s (as ++ [a]) = emits step out s as ++ (out (run step s as) a).toList := by
  rw [emits_append, emits, emits, List.append_nil]

theorem emits_sublist {β : Type*} {step : σ → α → σ} {out out' : σ → α → Option β}
    (h : ∀ s a b, out s a = some b → out' s a = some b) (s : σ) (as : List α) :
    (emits step out s as).Sublist (emits step out' s as) := by
  induction as generalizing s with
  | nil => exact List.Sublist.refl []
  | cons a as ih =>
    refine List.Sublist.append ?_ (ih (step s a))
    cases hOut : out s a with
    | none => exact List.nil_sublist _
    | some b => rw [h s a b hOut]

/-! ## Invariants -/

/-- What every step that meets `C` preserves holds along a run whose steps
meet `C`. -/
theorem EveryState.of_everyStep {step : σ → α → σ} {P : σ → Prop} {C : σ → α → Prop}
    (hStep : ∀ s a, P s → C s a → P (step s a))
    {s : σ} {as : List α} (hs : P s) (h : EveryStep step C s as) :
    EveryState step P s as := by
  induction as generalizing s with
  | nil => simpa using hs
  | cons a as ih =>
    rw [everyState_cons]
    exact ⟨hs, ih (hStep s a hs h.1) h.2⟩

/-- What every step preserves holds along every run. -/
theorem EveryState.of_preserved {step : σ → α → σ} {P : σ → Prop}
    (hStep : ∀ s a, P s → P (step s a)) {s : σ} (hs : P s) (as : List α) :
    EveryState step P s as := by
  induction as generalizing s with
  | nil => simpa using hs
  | cons a as ih =>
    rw [everyState_cons]
    exact ⟨hs, ih (hStep s a hs)⟩

/-- What every step preserves holds at the end of every run. -/
theorem run_preserves {step : σ → α → σ} {P : σ → Prop}
    (hStep : ∀ s a, P s → P (step s a)) {s : σ} (hs : P s) (as : List α) :
    P (run step s as) :=
  (EveryState.of_preserved hStep hs as).last

/-- Where, under an invariant `J` of every run, a step that meets `C` meets
`D`, so does every step of a run whose steps meet `C`. -/
theorem EveryStep.of_invariant {step : σ → α → σ} {J : σ → Prop} {C D : σ → α → Prop}
    (hJ : ∀ s a, J s → J (step s a)) (hCD : ∀ s a, J s → C s a → D s a) {s : σ} (hs : J s)
    {as : List α} (h : EveryStep step C s as) : EveryStep step D s as := by
  induction as generalizing s with
  | nil => trivial
  | cons a as ih => exact ⟨hCD s a hs h.1, ih (hJ s a hs) h.2⟩

/-- Where a run keeps `P` in all its states, a step that meets `C` between two
states with `P` meets `D`. -/
theorem EveryStep.of_everyState {step : σ → α → σ} {P : σ → Prop} {C D : σ → α → Prop}
    (hCD : ∀ s a, P s → P (step s a) → C s a → D s a) {s : σ} {as : List α}
    (hP : EveryState step P s as) (h : EveryStep step C s as) : EveryStep step D s as := by
  induction as generalizing s with
  | nil => trivial
  | cons a as ih =>
    rw [everyState_cons] at hP
    exact ⟨hCD s a hP.1 (hP.2 0) h.1, ih hP.2 h.2⟩

/--
**Exactness.** Where, under an invariant `J` of every run, a step from a
state with `P` keeps `P` exactly when it meets `C`, a run keeps `P` in all
its states exactly when all its steps meet `C`.
-/
theorem everyState_iff_everyStep {step : σ → α → σ} {J P : σ → Prop} {C : σ → α → Prop}
    (hJ : ∀ s a, J s → J (step s a))
    (hExact : ∀ s a, J s → P s → (P (step s a) ↔ C s a))
    {s : σ} (hs : J s) (hP : P s) (as : List α) :
    EveryState step P s as ↔ EveryStep step C s as := by
  induction as generalizing s with
  | nil => simpa using hP
  | cons a as ih =>
    rw [everyState_cons, everyStep_cons]
    constructor
    · rintro ⟨-, hRest⟩
      have hNext : P (step s a) := hRest 0
      exact ⟨(hExact s a hs hP).mp hNext, (ih (hJ s a hs) hNext).mp hRest⟩
    · rintro ⟨hC, hRest⟩
      have hNext : P (step s a) := (hExact s a hs hP).mpr hC
      exact ⟨hP, (ih (hJ s a hs) hNext).mpr hRest⟩

/-! ## What is given off once -/

/-- Where what is given off spends its key, what is spent stays spent, and nothing is given
off with a spent key, no two outputs of a run have one key. -/
theorem nodup_emits {β κ : Type*} {step : σ → α → σ} {out : σ → α → Option β} {key : β → κ}
    {Spent : σ → κ → Prop} {p : β → Bool}
    (hKeeps : ∀ s a k, Spent s k → Spent (step s a) k)
    (hSpends : ∀ s a b, out s a = some b → p b = true →
      ¬ Spent s (key b) ∧ Spent (step s a) (key b)) (s : σ) (as : List α) :
    (((emits step out s as).filter p).map key).Nodup ∧
      ∀ b ∈ emits step out s as, p b = true → ¬ Spent s (key b) := by
  induction as generalizing s with
  | nil => exact ⟨List.nodup_nil, nofun⟩
  | cons a as ih =>
    obtain ⟨hRest, hFree⟩ := ih (step s a)
    -- a key that is spent before the step is spent after it
    have hLater : ∀ b ∈ emits step out (step s a) as, p b = true → ¬ Spent s (key b) :=
      fun b hb hp hSpent => hFree b hb hp (hKeeps s a _ hSpent)
    rw [emits]
    cases hOut : out s a with
    | none =>
      rw [Option.toList_none, List.nil_append]
      exact ⟨hRest, hLater⟩
    | some b =>
      rw [Option.toList_some, List.singleton_append, List.filter_cons]
      constructor
      · split
        · rename_i hp
          rw [List.map_cons, List.nodup_cons]
          refine ⟨fun hMem => ?_, hRest⟩
          obtain ⟨b', hb', hKey⟩ := List.mem_map.mp hMem
          obtain ⟨hEmitted, hp'⟩ := List.mem_filter.mp hb'
          exact hFree b' hEmitted hp' (hKey ▸ (hSpends s a b hOut hp).2)
        · exact hRest
      · intro b' hb' hp'
        rcases List.mem_cons.mp hb' with rfl | hMem
        · exact (hSpends s a b' hOut hp').1
        · exact hLater b' hMem hp'

/-! ## Simulation -/

section Simulation

variable {τ β : Type*} {step : σ → α → σ} {step' : τ → β → τ} {view : σ → τ}
  {act : σ → α → Option β} {J : σ → Prop} {s : σ}

/-- Seen through `view`, each step from a state with `J` is the step that `act` names, or
none. -/
structure Simulates (step : σ → α → σ) (step' : τ → β → τ) (view : σ → τ)
    (act : σ → α → Option β) (J : σ → Prop) : Prop where
  keeps : ∀ s a, J s → J (step s a)
  step : ∀ s a, J s → view (step s a) = (act s a).elim (view s) (step' (view s))

/-- A run, seen through `view`, is the run of the steps that it names. -/
theorem Simulates.run (h : Simulates step step' view act J) (hs : J s) (as : List α) :
    view (run step s as) = run step' (view s) (emits step act s as) := by
  induction as generalizing s with
  | nil => rfl
  | cons a as ih =>
    rw [run_cons, ih (h.keeps s a hs), h.step s a hs, emits]
    cases act s a with
    | none => rfl
    | some b => rfl

end Simulation

end Runs
