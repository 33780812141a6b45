import MigrationBench.Number.Digits
import MigrationBench.Time.Calendar

/-!
# Date-times

A date with a time of day, with or without an offset from UTC, down to microseconds.

* `Clock`, `Offset`, `Stamp` — the types.
* `Stamp.instant` — microseconds since 1970-01-01T00:00:00 UTC; a stamp without offset is UTC.
* `Stamp.ofInstant?` — the stamp of an instant at an offset, in the years 1 to 9999.
* `Stamp.inZone?` — the same instant at another offset.
* `Stamp.same` — equality of date-times: by instant with offsets, by fields without.
* `Stamp.render` — the ISO 8601 text.
-/

namespace MigrationBench

/-- A time of day. -/
structure Clock where
  hour : Nat
  minute : Nat
  second : Nat
  micro : Nat
  hour_lt : hour < 24
  minute_lt : minute < 60
  second_lt : second < 60
  micro_lt : micro < 1000000
deriving DecidableEq, Repr

namespace Clock

/-- The time of day with the given fields, if they are in range. -/
def of? (hour minute second micro : Nat) : Option Clock :=
  if h : hour < 24 ∧ minute < 60 ∧ second < 60 ∧ micro < 1000000 then
    some ⟨hour, minute, second, micro, h.1, h.2.1, h.2.2.1, h.2.2.2⟩
  else none

/-- The fields of a time of day give it back. -/
theorem of?_fields (c : Clock) : of? c.hour c.minute c.second c.micro = some c := by
  have := c.hour_lt; have := c.minute_lt; have := c.second_lt; have := c.micro_lt
  simp_all [of?]

/-- The first moment of a day. -/
def midnight : Clock := ⟨0, 0, 0, 0, by decide, by decide, by decide, by decide⟩

/-- The microseconds of a day. -/
def dayMicros : Nat := 86400000000

/-- The microseconds since midnight. -/
def micros (c : Clock) : Nat :=
  ((c.hour * 60 + c.minute) * 60 + c.second) * 1000000 + c.micro

/-- The time of day so many microseconds after midnight; whole days are left out. -/
def ofMicros (n : Nat) : Clock where
  hour := n / 3600000000 % 24
  minute := n / 60000000 % 60
  second := n / 1000000 % 60
  micro := n % 1000000
  hour_lt := Nat.mod_lt _ (by decide)
  minute_lt := Nat.mod_lt _ (by decide)
  second_lt := Nat.mod_lt _ (by decide)
  micro_lt := Nat.mod_lt _ (by decide)

theorem micros_lt (c : Clock) : c.micros < dayMicros := by
  have := c.hour_lt; have := c.minute_lt; have := c.second_lt; have := c.micro_lt
  simp only [micros, dayMicros]
  omega

theorem ofMicros_micros (c : Clock) : ofMicros c.micros = c := by
  obtain ⟨h, m, s, u, hh, hm, hs, hu⟩ := c
  simp only [ofMicros, micros, Clock.mk.injEq]
  omega

theorem micros_ofMicros (n : Nat) : (ofMicros n).micros = n % dayMicros := by
  simp only [ofMicros, micros, dayMicros]
  omega

end Clock

/-- A distance from UTC of less than a day, in microseconds, positive to the east. -/
structure Offset where
  micros : Int
  range : -86400000000 < micros ∧ micros < 86400000000
deriving DecidableEq, Repr

namespace Offset

/-- The offset of so many microseconds, if it is less than a day. -/
def of? (micros : Int) : Option Offset :=
  if h : -86400000000 < micros ∧ micros < 86400000000 then some ⟨micros, h⟩ else none

/-- The offset of so many seconds, if it is less than a day. -/
def ofSeconds? (seconds : Int) : Option Offset :=
  of? (seconds * 1000000)

/-- The offset of so many minutes, if it is less than a day. -/
def ofMinutes? (minutes : Int) : Option Offset :=
  ofSeconds? (minutes * 60)

/-- UTC itself. -/
def utc : Offset := ⟨0, by decide⟩

end Offset

/-- A date-time; without offset it is not tied to a zone. -/
structure Stamp where
  date : Date
  clock : Clock
  offset : Option Offset
deriving DecidableEq, Repr

namespace Stamp

/-- The microseconds from 1970-01-01T00:00:00 to the fields of a date and a time of day. -/
def fieldMicros (date : Date) (clock : Clock) : Int :=
  ((date.number : Int) - Date.epochNumber) * Clock.dayMicros + clock.micros

/-- The microseconds since 1970-01-01T00:00:00 UTC. Without offset the fields are read as UTC. -/
def instant (s : Stamp) : Int :=
  fieldMicros s.date s.clock - (s.offset.elim 0 Offset.micros)

/-- The date and the time of day so many microseconds after 1970-01-01T00:00:00, if the year is one
of 1 to 9999. -/
def fieldsAt? (micros : Int) : Option (Date × Clock) :=
  let days := Int.fdiv micros Clock.dayMicros + Date.epochNumber
  let rest := Int.fmod micros Clock.dayMicros
  if days < 0 then none
  else (Date.ofNumber? days.toNat).map fun date => (date, Clock.ofMicros rest.toNat)

/-- The stamp of an instant at an offset. Both the UTC fields and the fields at the offset have to
lie in the years 1 to 9999. -/
def ofInstant? (instant : Int) (zone : Offset) : Option Stamp :=
  match fieldsAt? instant, fieldsAt? (instant + zone.micros) with
  | some _, some (date, clock) => some ⟨date, clock, some zone⟩
  | _, _ => none

/-- The same instant at another offset. -/
def inZone? (s : Stamp) (zone : Offset) : Option Stamp :=
  ofInstant? s.instant zone

/-- Whether two stamps denote the same time. A stamp with an offset and one without never do. -/
def same (s t : Stamp) : Bool :=
  match s.offset, t.offset with
  | none, none => s.date == t.date && s.clock == t.clock
  | some _, some _ => s.instant == t.instant
  | _, _ => false

/-- The first moment of a date in UTC. -/
def ofDate (date : Date) : Stamp :=
  ⟨date, Clock.midnight, some Offset.utc⟩

/-! ### Text -/

open Digits

/-- A date as `YYYY-MM-DD`. -/
def dateChars (d : Date) : List Char :=
  fixedDigits 4 d.year ++ '-' :: fixedDigits 2 d.month ++ '-' :: fixedDigits 2 d.day

/-- A fraction of a second as `.ffffff`, left out when it is zero. -/
def fractionChars (micro : Nat) : List Char :=
  if micro = 0 then [] else '.' :: fixedDigits 6 micro

/-- A time of day as `HH:MM:SS` with the fraction. -/
def clockChars (c : Clock) : List Char :=
  fixedDigits 2 c.hour ++ ':' :: fixedDigits 2 c.minute ++ ':' :: fixedDigits 2 c.second ++
    fractionChars c.micro

/-- An offset as `+HH:MM`, with seconds and fraction only where they are not zero. -/
def offsetChars (o : Offset) : List Char :=
  let c := Clock.ofMicros o.micros.natAbs
  let sign := if o.micros < 0 then '-' else '+'
  let seconds := if c.second = 0 ∧ c.micro = 0 then [] else ':' :: fixedDigits 2 c.second
  sign :: fixedDigits 2 c.hour ++ ':' :: fixedDigits 2 c.minute ++ seconds ++ fractionChars c.micro

/-- The characters of a stamp with a separator between date and time. -/
def chars (separator : Char) (s : Stamp) : List Char :=
  dateChars s.date ++ separator :: clockChars s.clock ++ s.offset.elim [] offsetChars

/-- The ISO 8601 text of a stamp. -/
def render (s : Stamp) : String :=
  String.ofList (s.chars 'T')

/-- The text of a stamp with a blank between date and time. -/
def renderSpaced (s : Stamp) : String :=
  String.ofList (s.chars ' ')

/-- The text of a date. -/
def renderDate (d : Date) : String :=
  String.ofList (dateChars d)

/-- The text of a time of day. -/
def renderClock (c : Clock) : String :=
  String.ofList (clockChars c)

end Stamp

end MigrationBench
