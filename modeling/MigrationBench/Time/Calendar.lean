/-!
# Calendar dates

The Gregorian calendar carried back to the year 1, for the years 1 to 9999.

* `Date` — a date that exists.
* `Date.number` — the number of a day; 0001-01-01 is day 1.
* `Date.ofNumber?` — the date of a day number.
* `Date.ofWeek?` — a date given by week and day of the week.
-/

namespace MigrationBench

/-- Whether February of a year has 29 days. -/
def isLeapYear (year : Nat) : Bool :=
  year % 4 == 0 && (year % 100 != 0 || year % 400 == 0)

/-- The length of a month. -/
def daysInMonth (year month : Nat) : Nat :=
  match month with
  | 2 => if isLeapYear year then 29 else 28
  | 4 | 6 | 9 | 11 => 30
  | _ => 31

/-- A date of the years 1 to 9999. -/
structure Date where
  year : Nat
  month : Nat
  day : Nat
  year_range : 1 ≤ year ∧ year ≤ 9999
  month_range : 1 ≤ month ∧ month ≤ 12
  day_range : 1 ≤ day ∧ day ≤ daysInMonth year month
deriving DecidableEq, Repr

namespace Date

/-- The date with the given fields, if there is one. -/
def of? (year month day : Nat) : Option Date :=
  if h : (1 ≤ year ∧ year ≤ 9999) ∧ (1 ≤ month ∧ month ≤ 12) ∧
      1 ≤ day ∧ day ≤ daysInMonth year month then
    some ⟨year, month, day, h.1, h.2.1, h.2.2⟩
  else none

/-- The fields of an existing date give it back. -/
theorem of?_fields (d : Date) : of? d.year d.month d.day = some d := by
  have := d.year_range; have := d.month_range; have := d.day_range
  simp_all [of?]

/-- The days of all years before a year. -/
def daysBeforeYear (year : Nat) : Nat :=
  let past := year - 1
  past * 365 + past / 4 - past / 100 + past / 400

/-- The days of a year before a month. -/
def daysBeforeMonth (year : Nat) : Nat → Nat
  | 0 => 0
  | month + 1 => if month = 0 then 0 else daysBeforeMonth year month + daysInMonth year month

/-- The number of a day; 0001-01-01 is day 1. -/
def number (d : Date) : Nat :=
  daysBeforeYear d.year + daysBeforeMonth d.year d.month + d.day

/-- The number of 1970-01-01. -/
def epochNumber : Nat := 719163

/-- The month and the day, counted from `month` on, of the day `offset` days after its first. At
most `months` months are passed. -/
def monthAndDay (year : Nat) : Nat → Nat → Nat → Nat × Nat
  | 0, month, offset => (month, offset + 1)
  | months + 1, month, offset =>
    if offset < daysInMonth year month then (month, offset + 1)
    else monthAndDay year months (month + 1) (offset - daysInMonth year month)

/-- The date of a day number. The number is taken apart into whole periods of 400, 100, 4 and 1
years; the last day of a leap period falls to a fifth century or year, which is cut back. -/
def ofNumber? (n : Nat) : Option Date :=
  if n = 0 then none
  else
    let n := n - 1
    let y400 := n / 146097
    let n := n % 146097
    let y100 := min (n / 36524) 3
    let n := n - y100 * 36524
    let y4 := n / 1461
    let n := n % 1461
    let y1 := min (n / 365) 3
    let n := n - y1 * 365
    let year := y400 * 400 + y100 * 100 + y4 * 4 + y1 + 1
    let (month, day) := monthAndDay year 11 1 n
    of? year month day

/-- The day of the week of a day number, 0 for Monday. -/
def weekdayOf (n : Nat) : Nat :=
  (n + 6) % 7

/-- The number of weeks of a year: 53 if it begins on a Thursday, or on a Wednesday and is a leap
year. -/
def weeksInYear (year : Nat) : Nat :=
  let first := weekdayOf (daysBeforeYear year + 1)
  if first = 3 ∨ (first = 2 ∧ isLeapYear year = true) then 53 else 52

/-- The number of the Monday of week 1, the week with the year's first Thursday, plus seven: the
first Monday may lie before day 1. -/
def firstMondayPlusWeek (year : Nat) : Nat :=
  let january := daysBeforeYear year + 1
  let weekday := weekdayOf january
  if weekday ≤ 3 then january + 7 - weekday else january + 14 - weekday

/-- The date of a day of a numbered week; days count from 1 for Monday. -/
def ofWeek? (year week day : Nat) : Option Date :=
  if 1 ≤ year ∧ year ≤ 9999 ∧ 1 ≤ week ∧ week ≤ weeksInYear year ∧ 1 ≤ day ∧ day ≤ 7 then
    ofNumber? (firstMondayPlusWeek year + (week - 1) * 7 + (day - 1) - 7)
  else none

end Date

end MigrationBench
