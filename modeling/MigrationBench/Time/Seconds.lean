import MigrationBench.Fault
import MigrationBench.Number.Binary64
import MigrationBench.Time.Stamp

/-!
# Date-times from seconds

Counts of seconds since 1970-01-01T00:00:00 UTC, whole or as floating point numbers.

* `Stamp.ofSeconds` — from a whole count.
* `Stamp.ofFloat` — from a floating point number, rounded to microseconds.
-/

namespace MigrationBench.Stamp

/-- The counts of seconds that fit into 64 bits are below this number and not below its negative. -/
def wordLimit : Int := 9223372036854775808

/-- The counts of seconds whose year fits into 32 bits when counted from 1900. -/
def yearWordSeconds : Int × Int :=
  (-67768040609740800, 67768036191676799)

/-- The UTC stamp of whole seconds and microseconds below a million. -/
def ofSecondsMicros (seconds : Int) (micros : Int) : Except SecondsFault Stamp :=
  if seconds < -wordLimit ∨ wordLimit ≤ seconds then .error .wideCount
  else if seconds < yearWordSeconds.1 ∨ yearWordSeconds.2 < seconds then .error .wideYear
  else
    match fieldsAt? (seconds * 1000000 + micros) with
    | some (date, clock) => .ok ⟨date, clock, some Offset.utc⟩
    | none => .error .year

/-- The UTC stamp of a whole count of seconds. -/
def ofSeconds (seconds : Int) : Except SecondsFault Stamp :=
  ofSecondsMicros seconds 0

/-- The whole seconds and the microseconds of a finite number. The fraction is scaled and rounded
half to even on its own; the microseconds are never negative. -/
def secondsMicros? (x : Binary64) : Option (Int × Int) := do
  let (whole, fraction) ← x.split?
  let micros ← (fraction.mul (.ofInt 1000000)).roundEven?
  if 1000000 ≤ micros then some (whole + 1, micros - 1000000)
  else if micros < 0 then some (whole - 1, micros + 1000000)
  else some (whole, micros)

/-- The UTC stamp of a floating point count of seconds. Among floating point numbers the limit of 64
bits itself still counts as the greatest count that fits, so it is a year too large. -/
def ofFloat (x : Binary64) : Except SecondsFault Stamp :=
  match x with
  | .nan => .error .notANumber
  | .infinite _ => .error .wideCount
  | .finite _ _ _ =>
    match secondsMicros? x with
    | some (seconds, micros) =>
      if seconds = wordLimit then .error .wideYear else ofSecondsMicros seconds micros
    | none => .error .notANumber

end MigrationBench.Stamp
