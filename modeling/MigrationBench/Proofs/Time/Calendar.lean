import MigrationBench.Time.Seconds
import Mathlib.Tactic.Common

/-!
# The range of the calendar

The days from 0001-01-01 to 9999-12-31 are numbered without a gap, and the seconds of these days are the
counts that are read as date-times.

* `Date.ofNumber?_cases` — a day number has a date with that number, or lies behind the last one.
* `Date.exists_ofNumber?_iff` — **the day numbers that have a date**.
* `Stamp.exists_fieldsAt?_iff`, `Stamp.exists_ofSeconds_iff` — the microseconds and the seconds that have a
  date-time; `Stamp.ofSeconds_fails_iff`: the seconds that have none.
-/

namespace MigrationBench

namespace Date

/-- The days of a year. -/
def daysInYear (year : Nat) : Nat :=
  if isLeapYear year then 366 else 365

/-- The number of the last day, 9999-12-31. -/
def lastNumber : Nat := 3652059

theorem daysBeforeMonth_succ {year month : Nat} (h : 1 ≤ month) :
    daysBeforeMonth year (month + 1) = daysBeforeMonth year month + daysInMonth year month := by
  rw [daysBeforeMonth, if_neg (by omega)]

theorem daysBeforeMonth_end (year : Nat) : daysBeforeMonth year 13 = daysInYear year := by
  cases h : isLeapYear year <;> simp [daysBeforeMonth, daysInMonth, daysInYear, h]

/-- The month and the day of an offset are those that the offset is made of. -/
theorem monthAndDay_spec {year months month offset : Nat} (hmonth : 1 ≤ month)
    (hoffset : daysBeforeMonth year month + offset < daysBeforeMonth year (month + months + 1)) :
    ∃ m d, monthAndDay year months month offset = (m, d) ∧ month ≤ m ∧ m ≤ month + months ∧
      1 ≤ d ∧ d ≤ daysInMonth year m ∧
      daysBeforeMonth year m + d = daysBeforeMonth year month + offset + 1 := by
  -- on the months that may be passed; a month that is passed goes from the offset to the days before it
  induction months generalizing month offset with
  | zero =>
    rw [Nat.add_zero, daysBeforeMonth_succ hmonth] at hoffset
    exact ⟨month, offset + 1, rfl, by omega, by omega, by omega, by omega, by omega⟩
  | succ months ih =>
    rw [monthAndDay]
    by_cases hhere : offset < daysInMonth year month
    · rw [if_pos hhere]
      exact ⟨month, offset + 1, rfl, by omega, by omega, by omega, by omega, by omega⟩
    · have hnext : daysBeforeMonth year (month + 1)
          = daysBeforeMonth year month + daysInMonth year month := daysBeforeMonth_succ hmonth
      have hend : month + 1 + months + 1 = month + (months + 1) + 1 := by omega
      have hrest : daysBeforeMonth year (month + 1) + (offset - daysInMonth year month)
          < daysBeforeMonth year (month + 1 + months + 1) := by
        rw [hend]
        omega
      obtain ⟨m, d, hmd, hlow, hhigh, hd, hlength, hsum⟩ := ih (by omega) hrest
      rw [if_neg hhere]
      exact ⟨m, d, hmd, by omega, by omega, hd, hlength, by omega⟩

/-- The days before a year that is told by whole periods of 400, 100, 4 and 1 years. -/
theorem daysBeforeYear_periods {y400 y100 y4 y1 : Nat} (h100 : y100 ≤ 3) (h4 : y4 ≤ 24) (h1 : y1 ≤ 3) :
    daysBeforeYear (y400 * 400 + y100 * 100 + y4 * 4 + y1 + 1)
      = y400 * 146097 + y100 * 36524 + y4 * 1461 + y1 * 365 := by
  have hquarter : (y400 * 400 + y100 * 100 + y4 * 4 + y1) / 4 = y400 * 100 + y100 * 25 + y4 := by omega
  have hcentury : (y400 * 400 + y100 * 100 + y4 * 4 + y1) / 100 = y400 * 4 + y100 := by omega
  have hgreat : (y400 * 400 + y100 * 100 + y4 * 4 + y1) / 400 = y400 := by omega
  simp only [daysBeforeYear, Nat.add_sub_cancel, hquarter, hcentury, hgreat]
  omega

/-- A day number is taken apart into the days before a year and an offset in that year. -/
theorem exists_year {n : Nat} (hn : n ≠ 0) : ∃ year offset,
    ofNumber? n = of? year (monthAndDay year 11 1 offset).1 (monthAndDay year 11 1 offset).2 ∧
      1 ≤ year ∧ daysBeforeYear year + offset + 1 = n ∧ offset < daysInYear year := by
  obtain ⟨y400, h400⟩ : ∃ y, y = (n - 1) / 146097 := ⟨_, rfl⟩
  obtain ⟨r400, hr400⟩ : ∃ r, r = (n - 1) % 146097 := ⟨_, rfl⟩
  obtain ⟨y100, h100⟩ : ∃ y, y = min (r400 / 36524) 3 := ⟨_, rfl⟩
  obtain ⟨y4, h4⟩ : ∃ y, y = (r400 - y100 * 36524) / 1461 := ⟨_, rfl⟩
  obtain ⟨r4, hr4⟩ : ∃ r, r = (r400 - y100 * 36524) % 1461 := ⟨_, rfl⟩
  obtain ⟨y1, h1⟩ : ∃ y, y = min (r4 / 365) 3 := ⟨_, rfl⟩
  have hwhole : 146097 * y400 + r400 + 1 = n := by omega
  have hcentury : y100 ≤ 3 ∧ 36524 * y100 ≤ r400 ∧ (r400 - 36524 * y100 < 36524 ∨
      y100 = 3 ∧ r400 - 36524 * y100 = 36524) := by omega
  have hleap : y4 ≤ 24 ∧ 36524 * y100 + 1461 * y4 + r4 = r400 ∧ r4 < 1461 := by omega
  have hyear : y1 ≤ 3 ∧ 365 * y1 ≤ r4 ∧ (r4 - 365 * y1 < 365 ∨ y1 = 3 ∧ r4 - 365 * y1 = 365) := by omega
  refine ⟨y400 * 400 + y100 * 100 + y4 * 4 + y1 + 1, r4 - y1 * 365, ?_, by omega, ?_, ?_⟩
  · rw [ofNumber?, if_neg hn, h1, hr4, h4, h100, hr400, h400]
  · rw [daysBeforeYear_periods hcentury.1 hleap.1 hyear.1]
    omega
  · rw [daysInYear, isLeapYear]
    split
    · omega
    · rename_i hcommon
      simp only [Bool.and_eq_true, Bool.or_eq_true, beq_iff_eq, bne_iff_ne] at hcommon
      omega

theorem daysBeforeYear_succ {year : Nat} (h : 1 ≤ year) :
    daysBeforeYear (year + 1) = daysBeforeYear year + daysInYear year := by
  obtain ⟨past, rfl⟩ := Nat.exists_eq_add_of_le' h
  have hquarter : (past + 1) / 4 = past / 4 + if 4 ∣ past + 1 then 1 else 0 := Nat.succ_div
  have hcentury : (past + 1) / 100 = past / 100 + if 100 ∣ past + 1 then 1 else 0 := Nat.succ_div
  have hgreat : (past + 1) / 400 = past / 400 + if 400 ∣ past + 1 then 1 else 0 := Nat.succ_div
  simp only [daysBeforeYear, daysInYear, isLeapYear, Nat.add_sub_cancel, Bool.and_eq_true,
    Bool.or_eq_true, beq_iff_eq, bne_iff_ne, Nat.dvd_iff_mod_eq_zero] at *
  split_ifs at * <;> omega

theorem daysBeforeYear_le {year year' : Nat} (hyear : 1 ≤ year) (h : year ≤ year') :
    daysBeforeYear year ≤ daysBeforeYear year' := by
  induction h with
  | refl => exact Nat.le_refl _
  | step hle ih =>
    rw [daysBeforeYear_succ (Nat.le_trans hyear hle)]
    omega

/-- What a day number is taken apart into, as a date: there is none beyond the year 9999. -/
theorem ofNumber?_cases {n : Nat} (hn : n ≠ 0) :
    (∃ d, ofNumber? n = some d ∧ d.number = n ∧ n ≤ lastNumber) ∨
      ofNumber? n = none ∧ lastNumber < n := by
  obtain ⟨year, offset, heq, hyear, hsum, hoffset⟩ := exists_year hn
  have hin : daysBeforeMonth year 1 + offset < daysBeforeMonth year (1 + 11 + 1) := by
    rw [daysBeforeMonth_end]
    exact (Nat.zero_add offset).symm ▸ hoffset
  obtain ⟨m, d, hmd, hlow, hhigh, hd, hlength, hday⟩ := monthAndDay_spec (by omega) hin
  rw [hmd] at heq
  have hfirst : daysBeforeMonth year 1 = 0 := rfl
  have hlast : daysBeforeYear 10000 = lastNumber := by decide
  by_cases hrange : year ≤ 9999
  · have hnext : daysBeforeYear (year + 1) ≤ daysBeforeYear 10000 :=
      daysBeforeYear_le (by omega) (by omega)
    rw [daysBeforeYear_succ hyear, hlast] at hnext
    let date : Date := ⟨year, m, d, ⟨hyear, hrange⟩, ⟨hlow, by omega⟩, ⟨hd, hlength⟩⟩
    have hnumber : date.number = daysBeforeYear year + daysBeforeMonth year m + d := rfl
    exact .inl ⟨date, heq.trans (of?_fields date), by omega, by omega⟩
  · have hbeyond : daysBeforeYear 10000 ≤ daysBeforeYear year :=
      daysBeforeYear_le (by decide) (by omega)
    rw [hlast] at hbeyond
    refine .inr ⟨?_, by omega⟩
    rw [heq, of?, dif_neg (fun h => hrange h.1.2)]

/-- **The day numbers that have a date** are those from 1 to the last one. -/
theorem exists_ofNumber?_iff {n : Nat} : (∃ d, ofNumber? n = some d) ↔ 1 ≤ n ∧ n ≤ lastNumber := by
  by_cases hn : n = 0
  · subst hn
    refine iff_of_false ?_ (fun h => absurd h.1 (by decide))
    rintro ⟨d, hd⟩
    cases hd
  · rcases ofNumber?_cases hn with ⟨d, hd, -, hle⟩ | ⟨hnone, hlt⟩
    · exact iff_of_true ⟨d, hd⟩ ⟨Nat.one_le_iff_ne_zero.2 hn, hle⟩
    · refine iff_of_false ?_ (fun h => absurd h.2 (by omega))
      rintro ⟨d, hd⟩
      rw [hnone] at hd
      cases hd

end Date

namespace Stamp

/-- The first microsecond of the calendar, counted from 1970-01-01T00:00:00. -/
def firstMicro : Int := -62135596800000000

/-- The last microsecond of the calendar, counted from 1970-01-01T00:00:00. -/
def lastMicro : Int := 253402300799999999

theorem exists_fieldsAt?_iff {micros : Int} :
    (∃ fields, fieldsAt? micros = some fields) ↔ firstMicro ≤ micros ∧ micros ≤ lastMicro := by
  have hday : (Clock.dayMicros : Int) = 86400000000 := rfl
  have hepoch : (Date.epochNumber : Int) = 719163 := rfl
  simp only [fieldsAt?, hday, hepoch, Int.fdiv_eq_ediv_of_nonneg _ (by decide : (0 : Int) ≤ 86400000000)]
  split
  · refine iff_of_false ?_ (fun h => ?_)
    · rintro ⟨fields, h⟩
      cases h
    · rw [firstMicro] at h
      omega
  · have hdate := Date.exists_ofNumber?_iff (n := (micros / 86400000000 + 719163).toNat)
    rw [firstMicro, lastMicro]
    rw [Date.lastNumber] at hdate
    simp only [Option.map_eq_some_iff]
    constructor
    · rintro ⟨fields, date, hsome, -⟩
      have := hdate.1 ⟨date, hsome⟩
      omega
    · intro h
      obtain ⟨date, hsome⟩ := hdate.2 (by omega)
      exact ⟨_, date, hsome, rfl⟩

/-- The counts of whole seconds that have a date-time. -/
theorem exists_ofSeconds_iff {seconds : Int} :
    (∃ s, ofSeconds seconds = .ok s) ↔ -62135596800 ≤ seconds ∧ seconds ≤ 253402300799 := by
  have hfields : (∃ fields, fieldsAt? (seconds * 1000000 + 0) = some fields) ↔ _ := exists_fieldsAt?_iff
  rw [firstMicro, lastMicro] at hfields
  rw [ofSeconds, ofSecondsMicros, wordLimit, yearWordSeconds]
  split
  · refine iff_of_false ?_ (by omega)
    rintro ⟨s, h⟩
    cases h
  · split
    · refine iff_of_false ?_ (by omega)
      rintro ⟨s, h⟩
      cases h
    · cases hsome : fieldsAt? (seconds * 1000000 + 0) with
      | none =>
        rw [hsome] at hfields
        refine iff_of_false ?_ (fun h => ?_)
        · rintro ⟨s, h⟩
          cases h
        · obtain ⟨fields, h⟩ := hfields.2 (by omega)
          cases h
      | some fields =>
        have := hfields.1 ⟨fields, hsome⟩
        exact iff_of_true ⟨_, rfl⟩ (by omega)

/-- A count of whole seconds fails outside of the years 1 to 9999. -/
theorem ofSeconds_fails_iff {seconds : Int} :
    (∃ cause, ofSeconds seconds = .error cause) ↔ seconds < -62135596800 ∨ 253402300799 < seconds := by
  have hrange : (∃ s, ofSeconds seconds = .ok s) ↔ -62135596800 ≤ seconds ∧ seconds ≤ 253402300799 :=
    exists_ofSeconds_iff
  cases hseconds : ofSeconds seconds with
  | ok s =>
    have hin := hrange.1 ⟨s, hseconds⟩
    refine iff_of_false ?_ (by omega)
    rintro ⟨cause, h⟩
    cases h
  | error cause =>
    refine iff_of_true ⟨cause, rfl⟩ ?_
    by_contra hin
    obtain ⟨s, hs⟩ := hrange.2 (by omega)
    rw [hseconds] at hs
    cases hs

end Stamp

end MigrationBench
