import KeroseneVault.Domain.Basic
import KeroseneVault.Lib.Decimal
import KeroseneVault.Lib.Runs
import KeroseneVault.Lib.Table
import KeroseneVault.Lib.Window

/-!
# The sliding window limiter

`SlidingWindowLimiter` keeps, for each principal, the instants of the calls it
let through. A check drops those that have left the window and lets the call
through where fewer than the limit are left. The length of a window and the
instants are in nanoseconds.

* `SlidingWindowLimiter.check` — a call at an instant;
* `Recalls` — the limiter has let through a log, and nothing later than `last`;
* `RateCall`, `accepted` — a run of calls, and those of them let through;
* `Exact` — what the limiter owes to a run of calls.

Main results:

* `Recalls.check_of_hasRoom`, `Recalls.check_of_full` — what one check keeps;
* `recalls_run` — along a run, the limiter knows what it let through;
* `exact_of_inOrder` — the limiter is exact along every run of calls in order.
-/

namespace KeroseneVault

/-! ## The text of a duration -/

/-- `fmt_decimal`: of the fraction, only the digits up to the last that counts. -/
def fmtDecimal (integerPart fractionalPart width : Nat) : String :=
  let digits := (Decimal.digits width fractionalPart).rdropWhile (· == '0')
  toString integerPart ++ if digits = [] then "" else "." ++ String.ofList digits

/-- `Debug` of a `Duration`. -/
def durationDebug (nanos : Nat) : String :=
  if 10 ^ 9 ≤ nanos then fmtDecimal (nanos / 10 ^ 9) (nanos % 10 ^ 9) 9 ++ "s"
  else if 10 ^ 6 ≤ nanos then fmtDecimal (nanos / 10 ^ 6) (nanos % 10 ^ 6) 6 ++ "ms"
  else if 10 ^ 3 ≤ nanos then fmtDecimal (nanos / 10 ^ 3) (nanos % 10 ^ 3) 3 ++ "µs"
  else toString nanos ++ "ns"

example : durationDebug (60 * 10 ^ 9) = "60s" ∧ durationDebug 1050000 = "1.05ms" := by
  decide +kernel

/-! ## The limiter -/

/-- `SlidingWindowLimiter`. -/
structure SlidingWindowLimiter where
  limit : UInt32
  window : Nat
  inner : Table String (List Nat)

namespace SlidingWindowLimiter

def new (limit : UInt32) (window : Nat) : SlidingWindowLimiter := ⟨max limit 1, window, ∅⟩

def authDefaults : SlidingWindowLimiter := new 60 (60 * 10 ^ 9)

def prepareDefaults : SlidingWindowLimiter := new 30 (60 * 10 ^ 9)

/-- The instants stored for a key. -/
def stored (l : SlidingWindowLimiter) (principal : String) : List Nat :=
  (l.inner.lookup principal).getD []

/-- The instant `t` still counts at `now`. -/
def inWindow (l : SlidingWindowLimiter) (now t : Nat) : Bool := now - t < l.window

/-- The instants of a key that still count. -/
def retained (l : SlidingWindowLimiter) (now : Nat) (principal : String) : List Nat :=
  (l.stored principal).filter (l.inWindow now)

def check (l : SlidingWindowLimiter) (now : Nat) (principal : String) :
    Outcome × SlidingWindowLimiter :=
  let entry := l.retained now principal
  -- the length is compared as a `u32`
  if entry.length.toUInt32 ≥ l.limit then
    (.error (.requestRejected
      s!"rate limit exceeded for principal (max {l.limit}/{durationDebug l.window})"),
      { l with inner := l.inner.insert principal entry })
  else (.ok (), { l with inner := l.inner.insert principal (entry ++ [now]) })

/-! ### One check -/

variable {l l' : SlidingWindowLimiter} {now : Nat} {key : String}

/-- Fewer than the limit count at `now`. -/
def hasRoom (l : SlidingWindowLimiter) (now : Nat) (key : String) : Bool :=
  (l.retained now key).length.toUInt32 < l.limit

theorem check_of_hasRoom (h : l.hasRoom now key = true) : l.check now key =
    (.ok (), { l with inner := l.inner.insert key (l.retained now key ++ [now]) }) := by
  have hLt : (l.retained now key).length.toUInt32 < l.limit := by simpa [hasRoom] using h
  unfold check
  exact if_neg (UInt32.not_le.mpr hLt)

theorem check_of_full (h : l.hasRoom now key = false) : l.check now key =
    (.error (.requestRejected
      s!"rate limit exceeded for principal (max {l.limit}/{durationDebug l.window})"),
      { l with inner := l.inner.insert key (l.retained now key) }) := by
  have hGe : l.limit ≤ (l.retained now key).length.toUInt32 := by simpa [hasRoom] using h
  unfold check
  exact if_pos hGe

theorem check_ok_iff : (l.check now key).1 = .ok () ↔ l.hasRoom now key = true := by
  cases h : l.hasRoom now key with
  | true => simp [check_of_hasRoom h]
  | false => simp [check_of_full h]

@[simp] theorem check_limit : (l.check now key).2.limit = l.limit := by
  unfold check
  dsimp only
  split <;> rfl

@[simp] theorem check_window : (l.check now key).2.window = l.window := by
  unfold check
  dsimp only
  split <;> rfl

/-- Two limiters of one limit and one window answer alike where both have room or neither. -/
theorem check_congr (hLimit : l.limit = l'.limit) (hWindow : l.window = l'.window)
    (hSame : l.hasRoom now key = l'.hasRoom now key) : (l.check now key).1 = (l'.check now key).1 := by
  cases hRoom : l.hasRoom now key with
  | true => rw [check_of_hasRoom hRoom, check_of_hasRoom (hSame ▸ hRoom)]
  | false => rw [check_of_full hRoom, check_of_full (hSame ▸ hRoom), hLimit, hWindow]

/-! ### The length of what is stored -/

/-- No key has more instants than the limit. -/
def Bounded (l : SlidingWindowLimiter) : Prop := ∀ key, (l.stored key).length ≤ l.limit.toNat

theorem bounded_new (limit : UInt32) (window : Nat) : (new limit window).Bounded :=
  fun _ => Nat.zero_le _

theorem stored_insert (times : List Nat) (key' : String) :
    stored { l with inner := l.inner.insert key times } key' =
      if key' = key then times else l.stored key' := by
  unfold stored
  split
  · rename_i hKey
    rw [hKey, AList.lookup_insert, Option.getD_some]
  · rename_i hKey
    rw [AList.lookup_insert_ne hKey]

theorem Bounded.retained_le (h : l.Bounded) (now : Nat) (key : String) :
    (l.retained now key).length ≤ l.limit.toNat :=
  (List.length_filter_le _ _).trans (h key)

/-- Within the limit, the comparison as a `u32` is that of the lengths. -/
theorem Bounded.hasRoom_iff (h : l.Bounded) (now : Nat) (key : String) :
    l.hasRoom now key = true ↔ (l.retained now key).length < l.limit.toNat := by
  have hLe := h.retained_le now key
  have hLimit := l.limit.toNat_lt
  unfold hasRoom
  rw [decide_eq_true_eq, UInt32.lt_iff_toNat_lt]
  show (l.retained now key).length % 2 ^ 32 < _ ↔ _
  rw [Nat.mod_eq_of_lt (by omega)]

/-- What a check stores is within the limit, whatever the clock shows. -/
theorem Bounded.check (h : l.Bounded) (now : Nat) (key : String) : (l.check now key).2.Bounded := by
  have hInsert : ∀ times : List Nat, times.length ≤ l.limit.toNat →
      Bounded { l with inner := l.inner.insert key times } := by
    intro times hTimes key'
    rw [stored_insert]
    split
    · exact hTimes
    · exact h key'
  cases hRoom : l.hasRoom now key with
  | true =>
    rw [check_of_hasRoom hRoom]
    have hLt := (h.hasRoom_iff now key).mp hRoom
    exact hInsert _ (by rw [List.length_append, List.length_singleton]; omega)
  | false =>
    rw [check_of_full hRoom]
    exact hInsert _ (h.retained_le now key)

/-! ### What a limiter lets through -/

section Log

variable {β : Type*} {time : β → Nat} {keyOf : β → String}

/-- Of what was let through, the entries of a key that still count. -/
def counted (time : β → Nat) (keyOf : β → String) (len : Nat) (log : List β) (now : Nat)
    (key : String) : Nat :=
  log.countP fun b => keyOf b == key && Window.recent time len now b

/-- The limiter has let through `log`, all of it by the instant `last`. -/
structure Recalls (time : β → Nat) (keyOf : β → String) (l : SlidingWindowLimiter) (last : Nat)
    (log : List β) : Prop where
  bounded : l.Bounded
  times : ∀ b ∈ log, time b ≤ last
  retained : ∀ now, last ≤ now → ∀ key, l.retained now key =
    ((log.filter fun b => keyOf b == key).filter (Window.recent time l.window now)).map time

namespace Recalls

variable {last : Nat} {log : List β}

theorem new (limit : UInt32) (window last : Nat) :
    Recalls time keyOf (.new limit window) last [] where
  bounded := bounded_new limit window
  times := nofun
  retained _ _ _ := rfl

theorem later (h : Recalls time keyOf l last log) (hLast : last ≤ now) :
    Recalls time keyOf l now log where
  bounded := h.bounded
  times b hb := (h.times b hb).trans hLast
  retained later hLater := h.retained later (hLast.trans hLater)

/-- There is room while fewer than the limit count. -/
theorem hasRoom_iff (h : Recalls time keyOf l last log) (hLast : last ≤ now) :
    l.hasRoom now key = true ↔ counted time keyOf l.window log now key < l.limit.toNat := by
  have hCount : (l.retained now key).length = counted time keyOf l.window log now key := by
    rw [h.retained now hLast, List.length_map, List.filter_filter, counted,
      List.countP_eq_length_filter]
    simp only [Bool.and_comm]
  rw [h.bounded.hasRoom_iff, hCount]

/-- A check that stores what counted under its key, and `times` after it. -/
theorem retained_insert (h : Recalls time keyOf l last log) (hLast : last ≤ now) (times : List Nat)
    {later : Nat} (hLater : now ≤ later) (key' : String) :
    SlidingWindowLimiter.retained
        { l with inner := l.inner.insert key (l.retained now key ++ times) } later key' =
      l.retained later key' ++ if key' = key then times.filter (l.inWindow later) else [] := by
  show (stored { l with inner := l.inner.insert key _ } key').filter (l.inWindow later) = _
  rw [stored_insert]
  split
  · rename_i hKey
    -- what was dropped at `now` is dropped later
    have hDropped : (l.retained now key).filter (l.inWindow later) = l.retained later key := by
      rw [h.retained now hLast, h.retained later (hLast.trans hLater), List.filter_map]
      congr 1
      exact Window.recent_recent hLater _
    rw [List.filter_append, hDropped, hKey]
  · rw [List.append_nil]
    rfl

/-- A check that finds room is one more that was let through. -/
theorem check_of_hasRoom (h : Recalls time keyOf l last log) (hLast : last ≤ now)
    (hRoom : l.hasRoom now key = true) {b : β} (hTime : time b = now) (hKey : keyOf b = key) :
    Recalls time keyOf (l.check now key).2 now (log ++ [b]) := by
  have hBounded := h.bounded.check now key
  rw [SlidingWindowLimiter.check_of_hasRoom hRoom] at hBounded ⊢
  refine ⟨hBounded, fun c hc => ?_, fun later hLater key' => ?_⟩
  · rcases List.mem_append.mp hc with hc | hc
    · exact (h.times c hc).trans hLast
    · rw [List.mem_singleton.mp hc, hTime]
  · rw [h.retained_insert hLast [now] hLater, h.retained later (hLast.trans hLater),
      List.filter_append, List.filter_append, List.map_append]
    congr 1
    subst hTime hKey
    -- only the window of `key` has one more
    by_cases hSame : key' = keyOf b
    · subst hSame
      rw [if_pos rfl, List.filter_singleton, List.filter_singleton, beq_self_eq_true]
      simp only [Bool.cond_true, List.filter_singleton, inWindow, Window.recent]
      cases decide (later - time b < l.window) <;> rfl
    · have hNe : (keyOf b == key') = false := beq_false_of_ne fun hEq => hSame hEq.symm
      rw [if_neg hSame, List.filter_singleton, hNe]
      rfl

/-- A check that finds none leaves what was let through. -/
theorem check_of_full (h : Recalls time keyOf l last log) (hLast : last ≤ now)
    (hFull : l.hasRoom now key = false) : Recalls time keyOf (l.check now key).2 now log := by
  have hBounded := h.bounded.check now key
  rw [SlidingWindowLimiter.check_of_full hFull] at hBounded ⊢
  refine ⟨hBounded, (h.later hLast).times, fun later hLater key' => ?_⟩
  have hInsert : SlidingWindowLimiter.retained
      { l with inner := l.inner.insert key (l.retained now key ++ []) } later key' = _ :=
    h.retained_insert hLast [] hLater key'
  rw [List.append_nil] at hInsert
  rw [hInsert, List.filter_nil, ite_self, List.append_nil]
  exact h.retained later (hLast.trans hLater) key'

end Recalls

end Log

end SlidingWindowLimiter

/-! ## Runs of calls -/

/-- A call of `check`, and what the clock shows at it. -/
structure RateCall where
  now : Nat
  principal : String
  deriving DecidableEq

namespace SlidingWindowLimiter

/-- The limiter after a call. -/
def next (l : SlidingWindowLimiter) (c : RateCall) : SlidingWindowLimiter :=
  (l.check c.now c.principal).2

/-- The answer to a call after others. -/
def answer (l : SlidingWindowLimiter) (before : List RateCall) (c : RateCall) : Outcome :=
  ((Runs.run next l before).check c.now c.principal).1

/-- The calls of a run that are let through. -/
def accepted (l : SlidingWindowLimiter) (calls : List RateCall) : List RateCall :=
  Runs.emits next (fun l c => if (l.check c.now c.principal).1 = .ok () then some c else none) l calls

/-- The calls come at nondecreasing instants. -/
def InOrder (calls : List RateCall) : Prop := calls.Pairwise fun c c' => c.now ≤ c'.now

instance (calls : List RateCall) : Decidable (InOrder calls) :=
  inferInstanceAs (Decidable (calls.Pairwise _))

/-- What a limiter owes to a run of calls. -/
structure Exact (l : SlidingWindowLimiter) (calls : List RateCall) : Prop where
  /-- Of one principal, no half-open window of the length has more calls than the limit. -/
  atMost : ∀ principal start, (l.accepted calls).countP (fun c =>
    c.principal == principal && Window.inside RateCall.now l.window start c) ≤ l.limit.toNat
  /-- A call is refused exactly where the window that ends at it has as many as the limit. -/
  full : ∀ before c after, calls = before ++ c :: after →
    (l.answer before c ≠ .ok () ↔ l.limit.toNat ≤ (l.accepted before).countP fun a =>
      a.principal == c.principal && Window.recent RateCall.now l.window c.now a)
  /-- The refused calls before a call do not matter to its answer. -/
  uncounted : ∀ before c after, calls = before ++ c :: after →
    l.answer before c = l.answer (l.accepted before) c
  /-- Nor do those of other principals. -/
  own : ∀ before c after, calls = before ++ c :: after →
    l.answer before c = l.answer (before.filter fun a => a.principal == c.principal) c

/-! ### The limiter after a run -/

variable {limit : UInt32} {window last now : Nat} {key : String} {calls calls' : List RateCall}
  {c : RateCall}

theorem run_limit (l : SlidingWindowLimiter) (calls : List RateCall) :
    (Runs.run next l calls).limit = l.limit ∧ (Runs.run next l calls).window = l.window := by
  refine Runs.run_preserves (P := fun m : SlidingWindowLimiter =>
    m.limit = l.limit ∧ m.window = l.window) ?_ ⟨rfl, rfl⟩ calls
  intro m c h
  exact ⟨check_limit.trans h.1, check_window.trans h.2⟩

theorem accepted_concat (l : SlidingWindowLimiter) (calls : List RateCall) (c : RateCall) :
    l.accepted (calls ++ [c]) = l.accepted calls ++
      if (Runs.run next l calls).hasRoom c.now c.principal then [c] else [] := by
  unfold accepted
  rw [Runs.emits_concat]
  congr 1
  by_cases hOk : ((Runs.run next l calls).check c.now c.principal).1 = .ok ()
  · rw [if_pos hOk, if_pos (check_ok_iff.mp hOk)]
    rfl
  · rw [if_neg hOk, if_neg fun hRoom => hOk (check_ok_iff.mpr hRoom)]
    rfl

theorem InOrder.concat (h : InOrder (calls ++ [c])) :
    InOrder calls ∧ ∀ a ∈ calls, a.now ≤ c.now := by
  obtain ⟨hCalls, -, hSplit⟩ := List.pairwise_append.mp h
  exact ⟨hCalls, fun a ha => hSplit a ha c (List.mem_singleton_self c)⟩

theorem InOrder.sublist (h : InOrder calls) (hSub : calls'.Sublist calls) : InOrder calls' :=
  List.Pairwise.sublist hSub h

theorem accepted_sublist (l : SlidingWindowLimiter) (calls : List RateCall) :
    (l.accepted calls).Sublist calls := by
  induction calls using List.reverseRecOn with
  | nil => exact List.Sublist.refl []
  | append_singleton calls c ih =>
    rw [accepted_concat]
    refine List.Sublist.append ih ?_
    split
    · exact List.Sublist.refl _
    · exact List.nil_sublist _

/-- After a run in order, the limiter knows what it let through. -/
theorem recalls_run (hOrder : InOrder calls) (hLast : ∀ a ∈ calls, a.now ≤ last) :
    Recalls RateCall.now RateCall.principal (Runs.run next (new limit window) calls) last
      ((new limit window).accepted calls) := by
  induction calls using List.reverseRecOn generalizing last with
  | nil => exact Recalls.new limit window last
  | append_singleton calls c ih =>
    obtain ⟨hCalls, hBefore⟩ := hOrder.concat
    have hKnows := ih hCalls hBefore
    rw [accepted_concat, Runs.run_append, Runs.run_cons, Runs.run_nil]
    refine Recalls.later ?_ (hLast c (by simp))
    cases hRoom : (Runs.run next (new limit window) calls).hasRoom c.now c.principal with
    | true => exact hKnows.check_of_hasRoom (le_refl _) hRoom rfl rfl
    | false =>
      rw [if_neg Bool.false_ne_true, List.append_nil]
      exact hKnows.check_of_full (le_refl _) hRoom

/-- There is room for a call while fewer than the limit count at it. -/
theorem hasRoom_run_iff (hOrder : InOrder calls) (hNow : ∀ a ∈ calls, a.now ≤ now) :
    (Runs.run next (new limit window) calls).hasRoom now key = true ↔
      counted RateCall.now RateCall.principal window ((new limit window).accepted calls) now key <
        (new limit window).limit.toNat := by
  obtain ⟨hLimit, hWindow⟩ := run_limit (new limit window) calls
  rw [(recalls_run hOrder hNow).hasRoom_iff (le_refl _), hLimit, hWindow]
  rfl

/-- Two runs that let the same calls of a principal through leave it the same room. -/
theorem hasRoom_run_congr (hOrder : InOrder calls) (hNow : ∀ a ∈ calls, a.now ≤ now)
    (hSub : calls'.Sublist calls)
    (hSame : ((new limit window).accepted calls').filter (fun a => a.principal == key) =
      ((new limit window).accepted calls).filter fun a => a.principal == key) :
    (Runs.run next (new limit window) calls').hasRoom now key =
      (Runs.run next (new limit window) calls).hasRoom now key := by
  have hCount : ∀ log : List RateCall, counted RateCall.now RateCall.principal window log now key =
      (log.filter fun a => a.principal == key).countP (Window.recent RateCall.now window now) := by
    intro log
    rw [counted, List.countP_filter]
    exact List.countP_congr fun a _ => by rw [Bool.and_comm]
  rw [Bool.eq_iff_iff, hasRoom_run_iff (hOrder.sublist hSub) fun a ha => hNow a (hSub.subset ha),
    hasRoom_run_iff hOrder hNow, hCount, hCount, hSame]

/-- So they answer it alike. -/
theorem answer_congr (hOrder : InOrder calls) (hNow : ∀ a ∈ calls, a.now ≤ c.now)
    (hSub : calls'.Sublist calls)
    (hSame : ((new limit window).accepted calls').filter (fun a => a.principal == c.principal) =
      ((new limit window).accepted calls).filter fun a => a.principal == c.principal) :
    (new limit window).answer calls c = (new limit window).answer calls' c := by
  obtain ⟨hLimit, hWindow⟩ := run_limit (new limit window) calls
  obtain ⟨hLimit', hWindow'⟩ := run_limit (new limit window) calls'
  exact check_congr (hLimit.trans hLimit'.symm) (hWindow.trans hWindow'.symm)
    (hasRoom_run_congr hOrder hNow hSub hSame).symm

/-! ### What does not matter -/

/-- The calls that are let through are let through without the refused ones. -/
theorem accepted_accepted (hOrder : InOrder calls) :
    (new limit window).accepted ((new limit window).accepted calls) =
      (new limit window).accepted calls := by
  -- on the last call: the limiter that saw only what was let through has the same room for it
  induction calls using List.reverseRecOn with
  | nil => rfl
  | append_singleton calls c ih =>
    obtain ⟨hCalls, hBefore⟩ := hOrder.concat
    have hSame : ((new limit window).accepted ((new limit window).accepted calls)).filter
        (fun a => a.principal == c.principal) =
          ((new limit window).accepted calls).filter fun a => a.principal == c.principal := by
      rw [ih hCalls]
    have hRoom := hasRoom_run_congr hCalls hBefore (accepted_sublist (new limit window) calls) hSame
    rw [accepted_concat]
    split
    · rename_i hHasRoom
      rw [accepted_concat, ih hCalls, hRoom, if_pos hHasRoom]
    · rw [List.append_nil]
      exact ih hCalls

/-- Of one principal, the same calls are let through where it calls alone. -/
theorem accepted_filter (hOrder : InOrder calls) (key : String) :
    (new limit window).accepted (calls.filter fun a => a.principal == key) =
      ((new limit window).accepted calls).filter fun a => a.principal == key := by
  induction calls using List.reverseRecOn with
  | nil => rfl
  | append_singleton calls c ih =>
    obtain ⟨hCalls, hBefore⟩ := hOrder.concat
    rw [accepted_concat, List.filter_append, List.filter_append, List.filter_singleton]
    -- a call of the principal sees what it would see alone, and another one is filtered out
    by_cases hOwn : c.principal = key
    · subst hOwn
      have hSame : ((new limit window).accepted
          (calls.filter fun a => a.principal == c.principal)).filter
            (fun a => a.principal == c.principal) =
          ((new limit window).accepted calls).filter fun a => a.principal == c.principal := by
        rw [ih hCalls, List.filter_filter]
        simp only [Bool.and_self]
      have hRoom := hasRoom_run_congr hCalls hBefore List.filter_sublist hSame
      rw [beq_self_eq_true, Bool.cond_true, accepted_concat, ih hCalls, hRoom]
      congr 1
      split <;> simp
    · -- a call of another leaves both sides as they are
      have hOther : (c.principal == key) = false := beq_false_of_ne hOwn
      rw [hOther, Bool.cond_false, List.append_nil, ih hCalls]
      split <;> simp [hOther]

/-! ### Exactness -/

/-- No window has more calls of a principal than the limit. -/
theorem atMost_accepted (hOrder : InOrder calls) (key : String) (start : Nat) :
    ((new limit window).accepted calls).countP (fun a =>
      a.principal == key && Window.inside RateCall.now window start a) ≤
        (new limit window).limit.toNat := by
  induction calls using List.reverseRecOn generalizing start with
  | nil => exact Nat.zero_le _
  | append_singleton calls c ih =>
    obtain ⟨hCalls, hBefore⟩ := hOrder.concat
    rw [accepted_concat]
    split
    · -- a window with the last call in it lies within the one that the check counted
      rename_i hRoom
      refine Window.countP_inside_append_le
        (fun a ha => hBefore a ((accepted_sublist _ calls).subset ha)) (ih hCalls) (fun hOwn => ?_)
        start
      obtain rfl : c.principal = key := by simpa using hOwn
      exact (hasRoom_run_iff hCalls hBefore).mp hRoom
    · rw [List.append_nil]
      exact ih hCalls start

end SlidingWindowLimiter

open SlidingWindowLimiter

/--
**The limiter is exact.** Along every run of calls at nondecreasing instants, of
any principals, no half-open window has more calls of one principal than the
limit, a call is refused only where the window that ends at it is full, and
neither refused calls nor those of others matter.
-/
theorem exact_of_inOrder (limit : UInt32) (window : Nat) (calls : List RateCall)
    (hOrder : InOrder calls) : Exact (new limit window) calls := by
  -- each call meets a run in order, none of it later
  have hSplit : ∀ before c after, calls = before ++ c :: after →
      InOrder before ∧ ∀ a ∈ before, a.now ≤ c.now := by
    intro before c after hCalls
    have hUpTo : (before ++ [c]).Sublist calls := by
      rw [hCalls]
      exact List.Sublist.append_left (List.singleton_sublist.mpr List.mem_cons_self) before
    exact (hOrder.sublist hUpTo).concat
  refine ⟨atMost_accepted hOrder, ?_, ?_, ?_⟩
  · intro before c after hCalls
    obtain ⟨hBefore, hNow⟩ := hSplit before c after hCalls
    unfold answer
    rw [ne_eq, check_ok_iff, hasRoom_run_iff hBefore hNow, not_lt]
    rfl
  · intro before c after hCalls
    obtain ⟨hBefore, hNow⟩ := hSplit before c after hCalls
    exact answer_congr hBefore hNow (accepted_sublist _ before)
      (congrArg _ (accepted_accepted hBefore))
  · intro before c after hCalls
    obtain ⟨hBefore, hNow⟩ := hSplit before c after hCalls
    refine answer_congr hBefore hNow List.filter_sublist ?_
    rw [accepted_filter hBefore, List.filter_filter]
    simp only [Bool.and_self]

/-- Two calls of one principal fill the minute for a third, and not for another. -/
theorem exact_twoInAMinute : Exact (new 2 (60 * 10 ^ 9)) [⟨0, "a"⟩, ⟨1, "a"⟩, ⟨2, "a"⟩, ⟨2, "b"⟩] :=
  exact_of_inOrder 2 (60 * 10 ^ 9) [⟨0, "a"⟩, ⟨1, "a"⟩, ⟨2, "a"⟩, ⟨2, "b"⟩] (by decide)

example : (new 2 (60 * 10 ^ 9)).accepted [⟨0, "a"⟩, ⟨1, "a"⟩, ⟨2, "a"⟩, ⟨2, "b"⟩] =
    [⟨0, "a"⟩, ⟨1, "a"⟩, ⟨2, "b"⟩] := by
  decide +kernel

end KeroseneVault
