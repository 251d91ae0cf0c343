import Mathlib.Order.Monotone.Basic
import Mathlib.Tactic.IntervalCases
import Mathlib.Tactic.Push

/-!
# The Gregorian calendar

Dates of the proleptic Gregorian calendar, one day after the other. A date of the first
of January 1970 or later is counted from 0000-03-01, which makes the leap day the last day
of its year.

* `Date.next` — the day after;
* `dateOf` — the date so many days after 1970-01-01;
* `ordinal` — the number of days from 0000-03-01;
* `ofOrdinal` — the date of such a number by eras of 400 years, without a loop.

Main results:

* `ofOrdinal_ordinal` — the two undo one another;
* `ofOrdinal_dateOf` — so the era arithmetic gives the calendar date;
* `code_dateOf_lt_iff` — dates, read as numbers of eight digits, order as days do.
-/

namespace Gregorian

-- ---------------------------------------------------------------------------
-- Dates
-- ---------------------------------------------------------------------------

/-- Every fourth year, of the centuries every fourth. -/
def IsLeap (year : ℕ) : Prop := year % 4 = 0 ∧ (year % 100 ≠ 0 ∨ year % 400 = 0)

instance decidableIsLeap (year : ℕ) : Decidable (IsLeap year) := instDecidableAnd

/-- The length of a month. -/
def monthDays (year month : ℕ) : ℕ :=
  if month = 2 then if IsLeap year then 29 else 28
  else if month = 4 ∨ month = 6 ∨ month = 9 ∨ month = 11 then 30
  else 31

theorem one_le_monthDays (year month : ℕ) : 1 ≤ monthDays year month := by
  unfold monthDays
  split
  · split <;> omega
  · split <;> omega

/-- A day of the calendar. -/
@[ext]
structure Date where
  year : ℕ
  month : ℕ
  day : ℕ
  month_pos : 1 ≤ month
  month_le : month ≤ 12
  day_pos : 1 ≤ day
  day_le : day ≤ monthDays year month

namespace Date

/-- The day after. -/
def next (d : Date) : Date :=
  if hDay : d.day < monthDays d.year d.month then
    ⟨d.year, d.month, d.day + 1, d.month_pos, d.month_le, Nat.le_add_left 1 d.day, hDay⟩
  else if hMonth : d.month < 12 then
    ⟨d.year, d.month + 1, 1, Nat.le_add_left 1 d.month, hMonth, Nat.le_refl 1,
      one_le_monthDays d.year (d.month + 1)⟩
  else
    ⟨d.year + 1, 1, 1, Nat.le_refl 1, Nat.one_le_ofNat, Nat.le_refl 1,
      one_le_monthDays (d.year + 1) 1⟩

/-- What the day after looks like. -/
theorem next_cases (d : Date) :
    (d.day < monthDays d.year d.month ∧
      d.next.year = d.year ∧ d.next.month = d.month ∧ d.next.day = d.day + 1) ∨
    (d.day = monthDays d.year d.month ∧ d.month < 12 ∧
      d.next.year = d.year ∧ d.next.month = d.month + 1 ∧ d.next.day = 1) ∨
    (d.day = monthDays d.year d.month ∧ d.month = 12 ∧
      d.next.year = d.year + 1 ∧ d.next.month = 1 ∧ d.next.day = 1) := by
  unfold next
  split
  · rename_i hDay
    exact .inl ⟨hDay, rfl, rfl, rfl⟩
  · rename_i hDay
    have hLast : d.day = monthDays d.year d.month := le_antisymm d.day_le (not_lt.mp hDay)
    split
    · rename_i hMonth
      exact .inr (.inl ⟨hLast, hMonth, rfl, rfl, rfl⟩)
    · rename_i hMonth
      exact .inr (.inr ⟨hLast, le_antisymm d.month_le (not_lt.mp hMonth), rfl, rfl, rfl⟩)

/-- A month has at most 31 days. -/
theorem day_lt (d : Date) : d.day < 32 := by
  have hDay := d.day_le
  unfold monthDays at hDay
  split at hDay
  · split at hDay <;> omega
  · split at hDay <;> omega

end Date

/-- 1970-01-01. -/
def epoch : Date :=
  ⟨1970, 1, 1, Nat.le_refl 1, Nat.one_le_ofNat, Nat.le_refl 1, one_le_monthDays 1970 1⟩

/-- The date so many days after 1970-01-01. -/
def dateOf : ℕ → Date
  | 0 => epoch
  | n + 1 => (dateOf n).next

-- ---------------------------------------------------------------------------
-- Days counted from 0000-03-01
-- ---------------------------------------------------------------------------

/-- The year that begins in March. -/
def Date.marchYear (d : Date) : ℕ := if d.month ≤ 2 then d.year - 1 else d.year

/-- The day of the year that begins in March, from 0. -/
def Date.marchDay (d : Date) : ℕ :=
  (153 * (if d.month ≤ 2 then d.month + 9 else d.month - 3) + 2) / 5 + (d.day - 1)

/-- The days before a year that begins in March. -/
def daysBefore (y : ℕ) : ℕ := 365 * y + y / 4 - y / 100 + y / 400

/-- The days from 0000-03-01 on. -/
def ordinal (d : Date) : ℕ := daysBefore d.marchYear + d.marchDay

/-- The date of a number of days from 0000-03-01, by eras of 400 years. -/
def ofOrdinal (z : ℕ) : ℕ × ℕ × ℕ :=
  let era := z / 146097
  let doe := z % 146097
  let yoe := (doe - doe / 1460 + doe / 36524 - doe / 146096) / 365
  let y := yoe + era * 400
  let doy := doe - (365 * yoe + yoe / 4 - yoe / 100)
  let mp := (5 * doy + 2) / 153
  let d := doy - (153 * mp + 2) / 5 + 1
  let m := if mp < 10 then mp + 3 else mp - 9
  (if m ≤ 2 then y + 1 else y, m, d)

/-- The leap day is the last of its year. -/
theorem marchDay_le (d : Date) (hYear : 1 ≤ d.year) :
    d.marchDay ≤ 364 ∨ d.marchDay = 365 ∧ IsLeap (d.marchYear + 1) := by
  have hPos := d.month_pos
  have hLe := d.month_le
  have hDayPos := d.day_pos
  have hDay := d.day_le
  unfold Date.marchDay Date.marchYear
  unfold monthDays at hDay
  -- month by month; only February's length depends on the year
  generalize d.month = m at *
  interval_cases m
  case «2» =>
    by_cases hLeap : IsLeap d.year
    · have hBack : d.year - 1 + 1 = d.year := by omega
      simp only [hLeap, ↓reduceIte] at hDay
      simp only [Nat.le_refl, ↓reduceIte, hBack, hLeap, and_true]
      omega
    · simp only [hLeap, ↓reduceIte] at hDay
      left
      simp only [Nat.le_refl, ↓reduceIte]
      omega
  all_goals
    norm_num at hDay ⊢
    omega

/-- A year that begins in March is longer by the leap day at its end. -/
theorem daysBefore_succ (y : ℕ) :
    daysBefore (y + 1) = daysBefore y + if IsLeap (y + 1) then 366 else 365 := by
  unfold daysBefore
  rw [Nat.succ_div, Nat.succ_div, Nat.succ_div]
  simp only [Nat.dvd_iff_mod_eq_zero]
  have hLess : y / 100 ≤ y / 4 := Nat.div_le_div_left (by omega) (by omega)
  -- the three quotients step up just where the rule of leap years has its three cases
  by_cases hFour : (y + 1) % 4 = 0
  · by_cases hHundred : (y + 1) % 100 = 0
    · by_cases hEra : (y + 1) % 400 = 0
      · have hLeap : IsLeap (y + 1) := ⟨hFour, .inr hEra⟩
        rw [if_pos hFour, if_pos hHundred, if_pos hEra, if_pos hLeap]
        omega
      · have hLeap : ¬ IsLeap (y + 1) := fun h => h.2.elim (fun hNot => hNot hHundred) hEra
        rw [if_pos hFour, if_pos hHundred, if_neg hEra, if_neg hLeap]
        omega
    · have hEra : ¬ (y + 1) % 400 = 0 := by omega
      have hLeap : IsLeap (y + 1) := ⟨hFour, .inl hHundred⟩
      rw [if_pos hFour, if_neg hHundred, if_neg hEra, if_pos hLeap]
      omega
  · have hHundred : ¬ (y + 1) % 100 = 0 := by omega
    have hEra : ¬ (y + 1) % 400 = 0 := by omega
    have hLeap : ¬ IsLeap (y + 1) := fun h => hFour h.1
    rw [if_neg hFour, if_neg hHundred, if_neg hEra, if_neg hLeap]
    omega

/-- The day after is one day later. -/
theorem ordinal_next (d : Date) (hYear : 1 ≤ d.year) : ordinal d.next = ordinal d + 1 := by
  have hPos := d.month_pos
  have hLe := d.month_le
  have hDayPos := d.day_pos
  unfold ordinal Date.marchYear Date.marchDay
  rcases d.next_cases with
    ⟨_, hY, hM, hD⟩ | ⟨hLast, hMonth, hY, hM, hD⟩ | ⟨hLast, hMonth, hY, hM, hD⟩
  · -- within a month
    rw [hY, hM, hD]
    omega
  · rw [hY, hM, hD, hLast]
    unfold monthDays
    generalize d.month = m at *
    interval_cases m
    case «2» =>
      -- from February to March the year of the count changes
      obtain ⟨y, hy⟩ : ∃ y, d.year = y + 1 := ⟨d.year - 1, by omega⟩
      rw [hy]
      show daysBefore (y + 1) + 0 = daysBefore y + _ + 1
      rw [daysBefore_succ]
      by_cases hLeap : IsLeap (y + 1)
      · simp only [hLeap, ↓reduceIte]
        rfl
      · simp only [hLeap, ↓reduceIte]
        rfl
    all_goals rfl
  · -- from December to January it does not
    have hDays : monthDays d.year 12 = 31 := rfl
    rw [hY, hM, hD, hLast, hMonth, hDays]
    rfl

/-- The year of an era, from the day of the era: century, leap cycle and year of the cycle. -/
theorem yearOfEra {c q r doy doe : ℕ} (hc : c ≤ 3) (hq : q ≤ 24) (hr : r ≤ 3)
    (hDoy : doy ≤ 364 ∨ doy = 365 ∧ r = 3 ∧ (q ≠ 24 ∨ c = 3))
    (hDoe : doe = 36524 * c + 1461 * q + 365 * r + doy) :
    (doe - doe / 1460 + doe / 36524 - doe / 146096) / 365 = 100 * c + 4 * q + r := by
  -- what is left over of the leap cycles, with a day for each century too many
  have hCycles : doe / 1460 = 25 * c + q + (24 * c + q + 365 * r + doy) / 1460 := by omega
  have hOver : (24 * c + q + 365 * r + doy) / 1460 = 0 ∧ doy ≤ 364 ∨
      (24 * c + q + 365 * r + doy) / 1460 = 1 ∧ 1 ≤ doy := by omega
  -- the last day of the era counts as a century of its own, and is taken off again
  have hCentury : 1461 * q + 365 * r + doy < 36524 ∨
      1461 * q + 365 * r + doy = 36524 ∧ c = 3 := by omega
  have hCenturies : doe / 36524 = c + doe / 146096 := by
    rcases hCentury with hLess | ⟨hEnd, rfl⟩
    · omega
    · omega
  omega

/-- Within the year that begins in March, the day tells month and day of the month. -/
theorem monthOfDay (d : Date) :
    (5 * d.marchDay + 2) / 153 = (if d.month ≤ 2 then d.month + 9 else d.month - 3) ∧
      d.marchDay - (153 * ((5 * d.marchDay + 2) / 153) + 2) / 5 + 1 = d.day := by
  have hPos := d.month_pos
  have hLe := d.month_le
  have hDayPos := d.day_pos
  have hDay := d.day_le
  have hDayLt := d.day_lt
  unfold Date.marchDay
  unfold monthDays at hDay
  generalize d.month = m at *
  interval_cases m
  case «2» =>
    -- February alone has a length that depends on the year
    have hFebruary : d.day ≤ 29 := by
      split at hDay
      · split at hDay <;> omega
      · omega
    norm_num
    omega
  all_goals
    norm_num at hDay ⊢
    omega

/-- The era, the year of the era and the day of the year, from the number of days. -/
theorem ofOrdinal_split {y doy : ℕ} (hDoy : doy ≤ 364 ∨ doy = 365 ∧ IsLeap (y + 1)) :
    let z := daysBefore y + doy
    let era := z / 146097
    let doe := z % 146097
    let yoe := (doe - doe / 1460 + doe / 36524 - doe / 146096) / 365
    yoe + era * 400 = y ∧ doe - (365 * yoe + yoe / 4 - yoe / 100) = doy := by
  intro z era doe yoe
  -- century, leap cycle and year of the cycle within the era
  have hParts : ∃ e c q r : ℕ, y = 400 * e + 100 * c + 4 * q + r ∧ c ≤ 3 ∧ q ≤ 24 ∧ r ≤ 3 :=
    ⟨y / 400, y % 400 / 100, y % 100 / 4, y % 4, by omega, by omega, by omega, by omega⟩
  obtain ⟨e, c, q, r, hy, hc, hq, hr⟩ := hParts
  have hDoy' : doy ≤ 364 ∨ doy = 365 ∧ r = 3 ∧ (q ≠ 24 ∨ c = 3) := by
    rcases hDoy with hLess | ⟨hLast, hFour, hCentury⟩
    · exact .inl hLess
    · exact .inr ⟨hLast, by omega, by omega⟩
  have hDays : daysBefore y = 146097 * e + (36524 * c + 1461 * q + 365 * r) := by
    unfold daysBefore
    omega
  have hz : z = 146097 * e + (36524 * c + 1461 * q + 365 * r + doy) := by
    show daysBefore y + doy = _
    omega
  have hLess : 36524 * c + 1461 * q + 365 * r + doy < 146097 := by omega
  have hEra : era = e := by
    show z / 146097 = e
    omega
  have hDoe : doe = 36524 * c + 1461 * q + 365 * r + doy := by
    show z % 146097 = _
    omega
  have hYoe : yoe = 100 * c + 4 * q + r := yearOfEra hc hq hr hDoy' hDoe
  have hCycles : (100 * c + 4 * q + r) / 4 = 25 * c + q := by omega
  have hCenturies : (100 * c + 4 * q + r) / 100 = c := by omega
  rw [hEra, hYoe, hDoe, hCycles, hCenturies]
  constructor
  · omega
  · omega

/-- The date of the number of a date is that date. -/
theorem ofOrdinal_ordinal (d : Date) (hYear : 1 ≤ d.year) :
    ofOrdinal (ordinal d) = (d.year, d.month, d.day) := by
  obtain ⟨hSplitYear, hSplitDay⟩ := ofOrdinal_split (marchDay_le d hYear)
  obtain ⟨hMonth, hDay⟩ := monthOfDay d
  unfold ofOrdinal ordinal
  dsimp only at hSplitYear hSplitDay ⊢
  rw [hSplitDay, hSplitYear, hDay, hMonth]
  have hPos := d.month_pos
  have hLe := d.month_le
  -- January and February belong to the year after
  by_cases hEarly : d.month ≤ 2
  · have hNot : ¬ d.month + 9 < 10 := by omega
    have hBack : d.month + 9 - 9 = d.month := by omega
    have hYearBack : d.year - 1 + 1 = d.year := by omega
    rw [if_pos hEarly, if_neg hNot, hBack, if_pos hEarly, Date.marchYear, if_pos hEarly, hYearBack]
  · have hLess : d.month - 3 < 10 := by omega
    have hBack : d.month - 3 + 3 = d.month := by omega
    rw [if_neg hEarly, if_pos hLess, hBack, if_neg hEarly, Date.marchYear, if_neg hEarly]

-- ---------------------------------------------------------------------------
-- One day after the other
-- ---------------------------------------------------------------------------

theorem year_le_next (d : Date) : d.year ≤ d.next.year := by
  rcases d.next_cases with ⟨_, hY, _⟩ | ⟨_, _, hY, _⟩ | ⟨_, _, hY, _⟩ <;> omega

theorem year_dateOf (n : ℕ) : 1970 ≤ (dateOf n).year := by
  induction n with
  | zero => exact Nat.le_refl 1970
  | succ n ih => exact ih.trans (year_le_next (dateOf n))

/-- 1970-01-01 is day 719468. -/
theorem ordinal_dateOf (n : ℕ) : ordinal (dateOf n) = n + 719468 := by
  induction n with
  | zero => decide
  | succ n ih =>
    have hYear := year_dateOf n
    have hNext : ordinal (dateOf (n + 1)) = ordinal (dateOf n) + 1 :=
      ordinal_next (dateOf n) (by omega)
    omega

/-- The era arithmetic gives the calendar date. -/
theorem ofOrdinal_dateOf (n : ℕ) :
    ofOrdinal (n + 719468) = ((dateOf n).year, (dateOf n).month, (dateOf n).day) := by
  have hYear := year_dateOf n
  rw [← ordinal_dateOf, ofOrdinal_ordinal _ (by omega)]

/-- Year, month and day as one number of eight digits. -/
def Date.code (d : Date) : ℕ := 10000 * d.year + 100 * d.month + d.day

theorem code_lt_next (d : Date) : d.code < d.next.code := by
  have hLe := d.month_le
  have hDay := d.day_lt
  unfold Date.code
  rcases d.next_cases with ⟨_, hY, hM, hD⟩ | ⟨_, _, hY, hM, hD⟩ | ⟨_, _, hY, hM, hD⟩ <;> omega

/-- Dates, read as numbers, order as the days do. -/
theorem code_dateOf_lt_iff {m n : ℕ} : (dateOf m).code < (dateOf n).code ↔ m < n :=
  (strictMono_nat_of_lt_succ fun k => code_lt_next (dateOf k)).lt_iff_lt

end Gregorian
