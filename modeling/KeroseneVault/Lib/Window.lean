import Mathlib.Data.List.Count
import Mathlib.Data.List.Basic

/-!
# Sliding windows over timed events

Events are logged in the order of their times. An event still counts at a later
instant while less than the length of the window has passed.

* `recent` — the events that still count at an instant;
* `inside` — the events of a half-open interval.

Main results:

* `recent_recent` — what was dropped earlier does not count later;
* `countP_inside_append_le` — an event that comes where fewer than the limit
  count keeps every interval of the window's length within the limit.
-/

namespace Window

variable {β : Type*} (time : β → ℕ) (len : ℕ)

/-- The event still counts at `now`. -/
def recent (now : ℕ) (b : β) : Bool := now - time b < len

/-- The event is in the half-open interval from `start` on. -/
def inside (start : ℕ) (b : β) : Bool := start ≤ time b && time b < start + len

variable {time len}

theorem recent_of_recent_later {now later : ℕ} (h : now ≤ later) {b : β}
    (hLater : recent time len later b = true) : recent time len now b = true := by
  simp only [recent, decide_eq_true_eq] at *
  omega

/-- What was dropped at `now` would be dropped later. -/
theorem recent_recent {now later : ℕ} (h : now ≤ later) (l : List β) :
    (l.filter (recent time len now)).filter (recent time len later) =
      l.filter (recent time len later) := by
  rw [List.filter_filter]
  refine List.filter_congr fun b _ => ?_
  cases hLater : recent time len later b with
  | false => rfl
  | true => rw [recent_of_recent_later h hLater]; rfl

/-- Before an event, all that shares an interval with it counts at its instant. -/
theorem recent_of_inside {start : ℕ} {b c : β} (hOrder : time c ≤ time b)
    (hb : inside time len start b = true) (hc : inside time len start c = true) :
    recent time len (time b) c = true := by
  simp only [inside, recent, Bool.and_eq_true, decide_eq_true_eq] at *
  omega

/-- An event that comes where fewer than `limit` count keeps every interval within `limit`. -/
theorem countP_inside_append_le {limit : ℕ} {p : β → Bool} {l : List β} {b : β}
    (hOrder : ∀ c ∈ l, time c ≤ time b)
    (hWithin : ∀ start, l.countP (fun c => p c && inside time len start c) ≤ limit)
    (hRoom : p b = true → l.countP (fun c => p c && recent time len (time b) c) < limit)
    (start : ℕ) : (l ++ [b]).countP (fun c => p c && inside time len start c) ≤ limit := by
  rw [List.countP_append, List.countP_singleton]
  split
  · rename_i hb
    rw [Bool.and_eq_true] at hb
    have hMono : l.countP (fun c => p c && inside time len start c) ≤
        l.countP fun c => p c && recent time len (time b) c := by
      refine List.countP_mono_left fun c hc hIn => ?_
      rw [Bool.and_eq_true] at hIn ⊢
      exact ⟨hIn.1, recent_of_inside (hOrder c hc) hb.2 hIn.2⟩
    have hLt := hRoom hb.1
    omega
  · exact hWithin start

end Window
