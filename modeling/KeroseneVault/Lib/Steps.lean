import Mathlib.Data.List.Infix

/-!
# Steps that can fail

A call that changes a state and answers Ok or an error is a function
`σ → Except ε Unit × σ`: the state it leaves stays where it fails. A sequence of
calls, each run only where the one before answered Ok, is one of them again.

* `andThen` — one step after the other;
* `Succeeds` — the step answers Ok;
* `Preserves` — the step keeps a property, whatever it answers;
* `AtomicAt view` — a step that fails leaves what `view` shows.

Main results:

* `andThen_cases` — what a sequence comes to;
* `succeeds_andThen` — a sequence succeeds where both of its steps do;
* `atomicAt_andThen_iff` — where the second step cannot undo what the first
  left, a sequence is atomic exactly when the first step is and, if it
  succeeds, so does the second.
-/

namespace Steps

variable {ε σ ω : Type*}

/-- The second step is run where the first answered Ok. -/
def andThen (f g : σ → Except ε Unit × σ) (s : σ) : Except ε Unit × σ :=
  match f s with
  | (.error e, s) => (.error e, s)
  | (.ok (), s) => g s

def Succeeds (f : σ → Except ε Unit × σ) (s : σ) : Prop := (f s).1 = .ok ()

/-- The step keeps `P`, whatever it answers. -/
def Preserves (P : σ → Prop) (f : σ → Except ε Unit × σ) : Prop := ∀ s, P s → P (f s).2

/-- A step that fails leaves what `view` shows. -/
def AtomicAt (view : σ → ω) (f : σ → Except ε Unit × σ) (s : σ) : Prop :=
  Succeeds f s ∨ view (f s).2 = view s

variable {f g : σ → Except ε Unit × σ} {s : σ}

theorem andThen_cases (f g : σ → Except ε Unit × σ) (s : σ) :
    (Succeeds f s ∧ andThen f g s = g (f s).2) ∨
    (¬ Succeeds f s ∧ andThen f g s = f s) := by
  unfold andThen Succeeds
  rcases f s with ⟨_ | _, s'⟩
  · exact .inr ⟨nofun, rfl⟩
  · exact .inl ⟨rfl, rfl⟩

theorem succeeds_andThen :
    Succeeds (andThen f g) s ↔ Succeeds f s ∧ Succeeds g (f s).2 := by
  rcases andThen_cases f g s with ⟨hf, hEq⟩ | ⟨hf, hEq⟩
  · rw [Succeeds, hEq]
    exact ⟨fun h => ⟨hf, h⟩, fun h => h.2⟩
  · rw [Succeeds, hEq]
    exact ⟨fun h => absurd h hf, fun h => absurd h.1 hf⟩

theorem Preserves.andThen {P : σ → Prop} (hf : Preserves P f) (hg : Preserves P g) :
    Preserves P (andThen f g) := by
  intro s hs
  rcases andThen_cases f g s with ⟨-, hEq⟩ | ⟨-, hEq⟩
  · rw [hEq]
    exact hg _ (hf s hs)
  · rw [hEq]
    exact hf s hs

/-- Where the second step cannot undo what the first left, a sequence is atomic
exactly when the first step is and, if it succeeds, so does the second. -/
theorem atomicAt_andThen_iff {view : σ → ω}
    (hMark : Succeeds f s → view (g (f s).2).2 ≠ view s) :
    AtomicAt view (andThen f g) s ↔
      AtomicAt view f s ∧ (Succeeds f s → Succeeds g (f s).2) := by
  unfold AtomicAt
  rw [succeeds_andThen]
  rcases andThen_cases f g s with ⟨hf, hEq⟩ | ⟨hf, hEq⟩
  · rw [hEq]
    simp [hf, hMark hf]
  · rw [hEq]
    simp [hf]

end Steps
