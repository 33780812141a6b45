import MigrationBench.Proofs.Time.Calendar

/-!
# Instants

A date is determined by its number, so a date-time is determined by its offset and its instant. At a given
offset every instant has a date-time, unless its fields in UTC or at the offset leave the years 1 to 9999.

* `Date.ofNumber?_eq_some_iff`, `Stamp.fieldsAt?_eq_some_iff` — the date of a number and the fields of a count
  of microseconds are those that give the number or the count back.
* `Stamp.InCalendar` — the counts of microseconds that are told by the fields of some date and time:
  `Stamp.inCalendar_iff`.
* `Stamp.micro_eq` — at an offset of whole seconds the microseconds of a time are those of the instant.
* `Stamp.ofInstant?_eq_some_iff`, `Stamp.ofInstant?_eq_none_iff` — **the date-time of an instant**.
* `Stamp.eq_of_instant`, `Stamp.same_iff` — which date-times are the same.
-/

namespace MigrationBench

namespace Date

variable {d e : Date} {year month month' n : Nat}

theorem daysBeforeMonth_le (hmonth : 1 ≤ month) (h : month ≤ month') :
    daysBeforeMonth year month ≤ daysBeforeMonth year month' := by
  induction h with
  | refl => exact Nat.le_refl _
  | step hle ih =>
    rw [daysBeforeMonth_succ (Nat.le_trans hmonth hle)]
    omega

/-- A date lies in its year. -/
theorem dayOfYear_le (d : Date) : daysBeforeMonth d.year d.month + d.day ≤ daysInYear d.year := by
  have hmonth := d.month_range
  have hday := d.day_range
  have hnext : daysBeforeMonth d.year (d.month + 1)
      = daysBeforeMonth d.year d.month + daysInMonth d.year d.month := daysBeforeMonth_succ hmonth.1
  have hend : daysBeforeMonth d.year (d.month + 1) ≤ daysBeforeMonth d.year 13 :=
    daysBeforeMonth_le (by omega) (by omega)
  rw [daysBeforeMonth_end] at hend
  omega

theorem number_lt_of_year_lt (h : d.year < e.year) : d.number < e.number := by
  have hyear := d.year_range
  have hday := e.day_range
  have hin := d.dayOfYear_le
  have hnext : daysBeforeYear (d.year + 1) ≤ daysBeforeYear e.year :=
    daysBeforeYear_le (by omega) (by omega)
  rw [daysBeforeYear_succ hyear.1] at hnext
  rw [number, number]
  omega

theorem number_lt_of_month_lt (hyear : d.year = e.year) (h : d.month < e.month) : d.number < e.number := by
  have hmonth := d.month_range
  have hday := d.day_range
  have hday' := e.day_range
  have hnext : daysBeforeMonth d.year (d.month + 1) ≤ daysBeforeMonth d.year e.month :=
    daysBeforeMonth_le (by omega) (by omega)
  rw [daysBeforeMonth_succ hmonth.1] at hnext
  rw [number, number, ← hyear]
  omega

/-- **A date is determined by its number.** -/
theorem number_injective : Function.Injective number := by
  intro d e h
  have hyear : d.year = e.year := by
    rcases Nat.lt_trichotomy d.year e.year with hlt | heq | hlt
    · have := number_lt_of_year_lt hlt
      omega
    · exact heq
    · have := number_lt_of_year_lt hlt
      omega
  have hmonth : d.month = e.month := by
    rcases Nat.lt_trichotomy d.month e.month with hlt | heq | hlt
    · have := number_lt_of_month_lt hyear hlt
      omega
    · exact heq
    · have := number_lt_of_month_lt hyear.symm hlt
      omega
  have hday : d.day = e.day := by
    rw [number, number, hyear, hmonth] at h
    omega
  cases d
  cases e
  cases hyear
  cases hmonth
  cases hday
  rfl

theorem number_pos (d : Date) : 1 ≤ d.number := by
  have hday := d.day_range
  rw [number]
  omega

theorem number_le (d : Date) : d.number ≤ lastNumber := by
  have hyear := d.year_range
  have hin := d.dayOfYear_le
  have hend : daysBeforeYear (d.year + 1) ≤ daysBeforeYear 10000 :=
    daysBeforeYear_le (by omega) (by omega)
  have hlast : daysBeforeYear 10000 = lastNumber := by decide
  rw [daysBeforeYear_succ hyear.1, hlast] at hend
  rw [number]
  omega

/-- **The date of a day number** is the one with that number. -/
theorem ofNumber?_eq_some_iff : ofNumber? n = some d ↔ d.number = n := by
  constructor
  · intro h
    have hn : n ≠ 0 := by
      rintro rfl
      cases h
    rcases ofNumber?_cases hn with ⟨e, he, hnumber, -⟩ | ⟨hnone, -⟩
    · rw [h] at he
      cases he
      exact hnumber
    · rw [h] at hnone
      cases hnone
  · rintro rfl
    have hpos := d.number_pos
    have hle := d.number_le
    rcases ofNumber?_cases (n := d.number) (by omega) with ⟨e, he, hnumber, -⟩ | ⟨-, hlt⟩
    · rw [he, number_injective hnumber]
    · omega

end Date

/-- An offset of whole seconds. -/
def Offset.IsWhole (o : Offset) : Prop :=
  o.micros % 1000000 = 0

namespace Stamp

variable {date : Date} {clock : Clock} {s t : Stamp} {zone : Offset} {micros : Int}

/-! ### Fields and microseconds -/

/-- **The fields of a count of microseconds** are those that give the count. -/
theorem fieldsAt?_eq_some_iff : fieldsAt? micros = some (date, clock) ↔ fieldMicros date clock = micros := by
  have hday : (Clock.dayMicros : Int) = 86400000000 := rfl
  have hepoch : (Date.epochNumber : Int) = 719163 := rfl
  have hclock := clock.micros_lt
  rw [Clock.dayMicros] at hclock
  simp only [fieldsAt?, fieldMicros, hday, hepoch,
    Int.fdiv_eq_ediv_of_nonneg _ (by decide : (0 : Int) ≤ 86400000000),
    Int.fmod_eq_emod_of_nonneg _ (by decide : (0 : Int) ≤ 86400000000)]
  constructor
  · intro h
    split at h
    · cases h
    · obtain ⟨found, hfound, heq⟩ := Option.map_eq_some_iff.1 h
      cases heq
      have hnumber := Date.ofNumber?_eq_some_iff.1 hfound
      have hmicros := Clock.micros_ofMicros (micros % 86400000000).toNat
      rw [Clock.dayMicros] at hmicros
      omega
  · rintro rfl
    have hnumber := date.number_pos
    have hquotient : (((date.number : Int) - 719163) * 86400000000 + clock.micros) / 86400000000 + 719163
        = date.number := by omega
    have hrest : (((date.number : Int) - 719163) * 86400000000 + clock.micros) % 86400000000
        = clock.micros := by omega
    rw [hquotient, hrest, if_neg (by omega), Int.toNat_natCast, Int.toNat_natCast,
      Date.ofNumber?_eq_some_iff.2 rfl, Clock.ofMicros_micros]
    rfl

/-- A count of microseconds from 1970-01-01T00:00:00 is told by the fields of a date of the years 1 to
9999 and a time of day. -/
def InCalendar (micros : Int) : Prop :=
  ∃ date clock, fieldMicros date clock = micros

theorem inCalendar_iff_exists_fieldsAt? :
    InCalendar micros ↔ ∃ fields, fieldsAt? micros = some fields := by
  constructor
  · rintro ⟨date, clock, h⟩
    exact ⟨(date, clock), fieldsAt?_eq_some_iff.2 h⟩
  · rintro ⟨⟨date, clock⟩, h⟩
    exact ⟨date, clock, fieldsAt?_eq_some_iff.1 h⟩

/-- The calendar goes from 0001-01-01T00:00:00 to 9999-12-31T23:59:59.999999. -/
theorem inCalendar_iff : InCalendar micros ↔ firstMicro ≤ micros ∧ micros ≤ lastMicro := by
  rw [inCalendar_iff_exists_fieldsAt?, exists_fieldsAt?_iff]

theorem fieldsAt?_eq_none_iff : fieldsAt? micros = none ↔ ¬ InCalendar micros := by
  rw [inCalendar_iff_exists_fieldsAt?, Option.eq_none_iff_forall_ne_some, not_exists]

/-- The fields of a stamp, at its offset, are in the calendar. -/
theorem inCalendar_local (s : Stamp) : InCalendar (s.instant + s.offset.elim 0 Offset.micros) :=
  ⟨s.date, s.clock, by rw [instant, Int.sub_add_cancel]⟩

/-- The offset of a stamp, if it has one, is a whole number of seconds. -/
def HasWholeOffset (s : Stamp) : Prop :=
  ∀ o, s.offset = some o → o.IsWhole

/-- The microseconds of a time of day are those of the instant. -/
theorem micro_eq (h : s.HasWholeOffset) : (s.clock.micro : Int) = s.instant % 1000000 := by
  have hwhole : s.offset.elim 0 Offset.micros % 1000000 = 0 := by
    cases hoffset : s.offset with
    | none => rfl
    | some o => exact h o hoffset
  have hlt := s.clock.micro_lt
  have hday : (Clock.dayMicros : Int) = 86400000000 := rfl
  rw [instant, fieldMicros, hday, Clock.micros]
  omega

/-! ### The date-time of an instant -/

/-- **A date-time is determined by its offset and its instant.** -/
theorem eq_of_instant (hoffset : s.offset = t.offset) (hinstant : s.instant = t.instant) : s = t := by
  have hfields : fieldMicros s.date s.clock = fieldMicros t.date t.clock := by
    rw [instant, instant, hoffset] at hinstant
    omega
  have hs := fieldsAt?_eq_some_iff.2 hfields
  rw [fieldsAt?_eq_some_iff.2 rfl, Option.some_inj, Prod.mk.injEq] at hs
  obtain ⟨sdate, sclock, soffset⟩ := s
  obtain ⟨tdate, tclock, toffset⟩ := t
  obtain ⟨hdate, hclock⟩ := hs
  cases hdate
  cases hclock
  cases hoffset
  rfl

/-- **The date-time of an instant** at an offset is the one with that offset and that instant. -/
theorem ofInstant?_eq_some_iff :
    ofInstant? micros zone = some t ↔ InCalendar micros ∧ t.offset = some zone ∧ t.instant = micros := by
  rw [ofInstant?]
  constructor
  · intro h
    split at h
    · rename_i fields date clock hutc hzone
      cases h
      refine ⟨inCalendar_iff_exists_fieldsAt?.2 ⟨fields, hutc⟩, rfl, ?_⟩
      rw [instant, fieldsAt?_eq_some_iff.1 hzone]
      exact Int.add_sub_cancel ..
    · cases h
  · rintro ⟨hutc, hoffset, rfl⟩
    obtain ⟨fields, hfields⟩ := inCalendar_iff_exists_fieldsAt?.1 hutc
    have hlocal : fieldsAt? (t.instant + zone.micros) = some (t.date, t.clock) := by
      rw [fieldsAt?_eq_some_iff, instant, hoffset]
      exact (Int.sub_add_cancel ..).symm
    rw [hfields, hlocal, ← hoffset]

/-- There is none if the fields in UTC or at the offset leave the calendar. -/
theorem ofInstant?_eq_none_iff :
    ofInstant? micros zone = none ↔ ¬ InCalendar micros ∨ ¬ InCalendar (micros + zone.micros) := by
  rw [ofInstant?, ← fieldsAt?_eq_none_iff, ← fieldsAt?_eq_none_iff]
  cases fieldsAt? micros <;> cases fieldsAt? (micros + zone.micros) <;> simp

/-- The seconds with a date-time, and that date-time. -/
theorem ofSeconds_eq_ok_iff {seconds : Int} :
    ofSeconds seconds = .ok t ↔ t.offset = some Offset.utc ∧ t.instant = seconds * 1000000 := by
  have hutc : Offset.utc.micros = 0 := rfl
  have hrange : (∃ s, ofSeconds seconds = .ok s) ↔ -62135596800 ≤ seconds ∧ seconds ≤ 253402300799 :=
    exists_ofSeconds_iff
  have hsome : ∀ {t}, ofSeconds seconds = .ok t →
      t.offset = some Offset.utc ∧ t.instant = seconds * 1000000 := by
    intro t h
    rw [ofSeconds, ofSecondsMicros] at h
    split at h
    · cases h
    · split at h
      · cases h
      · split at h
        · rename_i date clock hfields
          cases h
          rw [fieldsAt?_eq_some_iff] at hfields
          refine ⟨rfl, ?_⟩
          rw [instant, hfields, Option.elim_some, hutc]
          omega
        · cases h
  refine ⟨hsome, fun h => ?_⟩
  have hin : InCalendar (seconds * 1000000) := by
    have hlocal := t.inCalendar_local
    rw [h.1, h.2, Option.elim_some, hutc, Int.add_zero] at hlocal
    exact hlocal
  rw [inCalendar_iff, firstMicro, lastMicro] at hin
  obtain ⟨found, hfound⟩ := hrange.2 (by omega)
  rw [hfound, eq_of_instant ((hsome hfound).1.trans h.1.symm) ((hsome hfound).2.trans h.2.symm)]

/-! ### Equality -/

/-- **Which date-times are the same**: those of one instant, both with an offset or both without. -/
theorem same_iff : s.same t = true ↔ s.offset.isSome = t.offset.isSome ∧ s.instant = t.instant := by
  rw [same]
  cases hs : s.offset with
  | none =>
    cases ht : t.offset with
    | none =>
      simp only [Bool.and_eq_true, beq_iff_eq, Option.isSome_none, true_and]
      constructor
      · rintro ⟨hdate, hclock⟩
        rw [instant, instant, hs, ht, hdate, hclock]
      · intro hinstant
        have heq := eq_of_instant (hs.trans ht.symm) hinstant
        exact ⟨congrArg Stamp.date heq, congrArg Stamp.clock heq⟩
    | some _ => simp
  | some _ => cases t.offset <;> simp

end Stamp

end MigrationBench
