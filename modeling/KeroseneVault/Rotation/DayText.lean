import KeroseneVault.Lib.Decimal
import KeroseneVault.Lib.Gregorian
import KeroseneVault.Rotation.Daily

/-!
# Days as texts

Epochs are compared as texts, and a text is made of a clock reading by era arithmetic, in
`day_epoch.rs` and once more in the admin module. Up to the year 9999 the texts have one
form, and order as the days they stand for.

* `daysToDate` — the date as the admin module computes it;
* `dayText` — the ten characters of a calendar date.

Main results:

* `civilFromDays_eq`, `daysToDate_eq` — both give the calendar date;
* `text_fromUnixSecs` — the text of a day, up to the year 9999;
* `dayText_lt_iff` — texts order as dates do.
-/

namespace KeroseneVault

open Gregorian

-- ---------------------------------------------------------------------------
-- The two computations of the date
-- ---------------------------------------------------------------------------

/-- `days_to_date` of the admin module. -/
def daysToDate (days : ℕ) : ℕ × ℕ × ℕ :=
  let z := days + 719468
  let era := z / 146097
  let doe := z % 146097
  let yoe := (doe - doe / 1460 + doe / 36524 - doe / 146096) / 365
  let y := yoe + era * 400
  let doy := doe - (365 * yoe + yoe / 4 - yoe / 100)
  let mp := (5 * doy + 2) / 153
  let d := doy - (153 * mp + 2) / 5 + 1
  let m := if mp < 10 then mp + 3 else mp - 9
  let y := if m ≤ 2 then y + 1 else y
  (y, m, d)

/-- The admin module computes the calendar date. -/
theorem daysToDate_eq (days : ℕ) :
    daysToDate days = ((dateOf days).year, (dateOf days).month, (dateOf days).day) :=
  ofOrdinal_dateOf days

/-- So does the epoch, whose era is found on signed numbers. -/
theorem civilFromDays_eq (days : ℕ) :
    DayEpoch.civilFromDays days =
      (((dateOf days).year : Int), (dateOf days).month, (dateOf days).day) := by
  have hDate := ofOrdinal_dateOf days
  unfold ofOrdinal at hDate
  -- from 1970 on the shifted day is not negative: its era is a quotient of naturals
  have hNotNeg : (0 : Int) ≤ (days : Int) + 719468 := by omega
  have hEra : ((days : Int) + 719468).tdiv 146097 = ((days + 719468) / 146097 : ℕ) := by
    rw [Int.tdiv_eq_ediv_of_nonneg hNotNeg]
    omega
  have hDoe : ((days : Int) + 719468 - ((days + 719468) / 146097 : ℕ) * 146097).toNat =
      (days + 719468) % 146097 := by omega
  unfold DayEpoch.civilFromDays
  dsimp only at hDate ⊢
  rw [if_pos hNotNeg, hEra, hDoe]
  rw [Prod.mk.injEq, Prod.mk.injEq] at hDate
  obtain ⟨hYear, hMonth, hDay⟩ := hDate
  rw [← hYear, hMonth, hDay]
  split
  · push_cast
    rfl
  · push_cast
    rfl

-- ---------------------------------------------------------------------------
-- The text
-- ---------------------------------------------------------------------------

/-- A date as `YYYY-MM-DD`. -/
def dayText (d : Date) : List Char :=
  Decimal.digits 4 d.year ++
    '-' :: (Decimal.digits 2 d.month ++ '-' :: Decimal.digits 2 d.day)

theorem pad_eq_digits {w n : ℕ} (hn : n < 10 ^ (w + 1)) :
    DayEpoch.pad (w + 1) n = Decimal.digits (w + 1) n :=
  Decimal.replicate_append_toDigits hn

/-- Up to the year 9999 a clock reading gives the text of its date. -/
theorem text_fromUnixSecs {secs : ℕ} (hYear : (dateOf (secs / 86400)).year < 10000) :
    (DayEpoch.fromUnixSecs secs).text = dayText (dateOf (secs / 86400)) := by
  have hMonth := (dateOf (secs / 86400)).month_le
  have hDay := (dateOf (secs / 86400)).day_lt
  -- `y as i32` keeps a year of four digits
  have hCast : ((dateOf (secs / 86400)).year : Int).bmod (2 ^ 32) = (dateOf (secs / 86400)).year :=
    Int.bmod_eq_of_le (by omega) (by omega)
  have hPadYear : DayEpoch.padYear (dateOf (secs / 86400)).year =
      Decimal.digits 4 (dateOf (secs / 86400)).year := by
    unfold DayEpoch.padYear
    rw [if_neg (by omega), Int.natAbs_natCast]
    exact pad_eq_digits (by omega)
  have hPadMonth : DayEpoch.pad 2 (dateOf (secs / 86400)).month =
      Decimal.digits 2 (dateOf (secs / 86400)).month := pad_eq_digits (by omega)
  have hPadDay : DayEpoch.pad 2 (dateOf (secs / 86400)).day =
      Decimal.digits 2 (dateOf (secs / 86400)).day := pad_eq_digits (by omega)
  unfold DayEpoch.fromUnixSecs dayText
  rw [civilFromDays_eq]
  dsimp only
  rw [hCast, hPadYear, hPadMonth, hPadDay, List.append_assoc, List.cons_append]

/-- Up to the year 9999 texts order as dates do. -/
theorem dayText_lt_iff {d e : Date} (hd : d.year < 10000) (he : e.year < 10000) :
    dayText d < dayText e ↔ d.code < e.code := by
  have hMonth := d.month_le
  have hMonth' := e.month_le
  have hDay := d.day_lt
  have hDay' := e.day_lt
  have hMonths : d.month < 10 ^ 2 ∧ e.month < 10 ^ 2 := ⟨by omega, by omega⟩
  have hDays : d.day < 10 ^ 2 ∧ e.day < 10 ^ 2 := ⟨by omega, by omega⟩
  unfold dayText Date.code
  rw [Decimal.digits_sep_lt_iff (w := 4) hd he, Decimal.digits_sep_lt_iff hMonths.1 hMonths.2,
    Decimal.digits_lt_iff hDays.1 hDays.2]
  omega

/-- The last digit of a number, and that it takes one byte. -/
theorem digitChar_mod (n : ℕ) :
    (Nat.digitChar (n % 10)).isDigit = true ∧ (Nat.digitChar (n % 10)).utf8Size = 1 := by
  have hLess : n % 10 < 10 := Nat.mod_lt n (by omega)
  generalize n % 10 = k at hLess
  interval_cases k <;> exact ⟨rfl, rfl⟩

/-- A text of digits, but for two dashes, is a day epoch. -/
theorem parse_dayText (d : Date) :
    DayEpoch.parse (String.ofList (dayText d)) = .ok ⟨dayText d⟩ := by
  have hSize : strLen (String.ofList (dayText d)) = 10 := by
    unfold strLen dayText Decimal.digits
    simp [Decimal.digits, digitChar_mod, show '-'.utf8Size = 1 from rfl]
  have hLength : (dayText d).length = 10 := by
    unfold dayText
    simp [Decimal.digits_length]
  unfold DayEpoch.parse
  rw [hSize, String.toList_ofList, hLength]
  refine if_pos ?_
  -- the dashes stand at 4 and 7, and between them digits only
  unfold dayText
  simp [Decimal.digits]
  omega

-- ---------------------------------------------------------------------------
-- Days and their texts
-- ---------------------------------------------------------------------------

section TwoDays

variable {a b : ℕ} (ha : (dateOf (a / 86400)).year < 10000)
  (hb : (dateOf (b / 86400)).year < 10000)
include ha

theorem parse_fromUnixSecs :
    DayEpoch.parse (String.ofList (DayEpoch.fromUnixSecs a).text) =
      .ok (DayEpoch.fromUnixSecs a) := by
  rw [text_fromUnixSecs ha, parse_dayText, ← text_fromUnixSecs ha]

include hb

theorem fromUnixSecs_lt_iff :
    DayEpoch.fromUnixSecs a < DayEpoch.fromUnixSecs b ↔ a / 86400 < b / 86400 := by
  show (DayEpoch.fromUnixSecs a).text < (DayEpoch.fromUnixSecs b).text ↔ _
  rw [text_fromUnixSecs ha, text_fromUnixSecs hb, dayText_lt_iff ha hb, code_dateOf_lt_iff]

end TwoDays

/-- Equal texts are those of one day. -/
theorem fromUnixSecs_eq_iff {a b : ℕ} (ha : (dateOf (a / 86400)).year < 10000)
    (hb : (dateOf (b / 86400)).year < 10000) :
    DayEpoch.fromUnixSecs a = DayEpoch.fromUnixSecs b ↔ a / 86400 = b / 86400 := by
  have hLess := fromUnixSecs_lt_iff ha hb
  have hMore := fromUnixSecs_lt_iff hb ha
  constructor
  · intro hEq
    have hIrrefl (t : List Char) : ¬ t < t := lt_irrefl t
    rw [hEq] at hLess hMore
    have hNotLess : ¬ a / 86400 < b / 86400 := fun h => hIrrefl _ (hLess.mpr h)
    have hNotMore : ¬ b / 86400 < a / 86400 := fun h => hIrrefl _ (hMore.mpr h)
    omega
  · intro hDay
    unfold DayEpoch.fromUnixSecs
    rw [hDay]

/-- What the text of a clock reading is worth: a day epoch, of the calendar date that both
computations give. -/
structure NamesItsDay (secs : ℕ) (d : Date) : Prop where
  parses : DayEpoch.parse (String.ofList (DayEpoch.fromUnixSecs secs).text) =
    .ok (DayEpoch.fromUnixSecs secs)
  text : (DayEpoch.fromUnixSecs secs).text = dayText d
  civil : DayEpoch.civilFromDays (secs / 86400 : ℕ) = ((d.year : Int), d.month, d.day)
  admin : daysToDate (secs / 86400) = (d.year, d.month, d.day)

/-- **Day strings order like days.** Before the year 10000 a clock reading gives the text of
its Gregorian date, and two texts compare as the days do. -/
theorem day_strings_order_like_days {a b : ℕ} (ha : (dateOf (a / 86400)).year < 10000)
    (hb : (dateOf (b / 86400)).year < 10000) :
    NamesItsDay a (dateOf (a / 86400)) ∧ NamesItsDay b (dateOf (b / 86400)) ∧
      (DayEpoch.fromUnixSecs a < DayEpoch.fromUnixSecs b ↔ a / 86400 < b / 86400) ∧
      (DayEpoch.fromUnixSecs a = DayEpoch.fromUnixSecs b ↔ a / 86400 = b / 86400) := by
  refine ⟨?_, ?_, fromUnixSecs_lt_iff ha hb, fromUnixSecs_eq_iff ha hb⟩
  · exact ⟨parse_fromUnixSecs ha, text_fromUnixSecs ha, civilFromDays_eq _, daysToDate_eq _⟩
  · exact ⟨parse_fromUnixSecs hb, text_fromUnixSecs hb, civilFromDays_eq _, daysToDate_eq _⟩

/-- The leap day of 2024 and the last day before the year 10000. -/
theorem day_strings_leap_day_and_last_day :
    NamesItsDay 1709208000 (dateOf (1709208000 / 86400)) ∧
      NamesItsDay 253402300799 (dateOf (253402300799 / 86400)) ∧
      (DayEpoch.fromUnixSecs 1709208000 < DayEpoch.fromUnixSecs 253402300799 ↔
        1709208000 / 86400 < 253402300799 / 86400) ∧
      (DayEpoch.fromUnixSecs 1709208000 = DayEpoch.fromUnixSecs 253402300799 ↔
        1709208000 / 86400 = 253402300799 / 86400) := by
  have hDate (n : ℕ) : (dateOf n).year = (daysToDate n).1 := by rw [daysToDate_eq]
  have hLeap : (dateOf (1709208000 / 86400)).year < 10000 := by
    rw [hDate]
    decide
  have hLast : (dateOf (253402300799 / 86400)).year < 10000 := by
    rw [hDate]
    decide
  exact day_strings_order_like_days hLeap hLast

end KeroseneVault
