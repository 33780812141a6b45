import MigrationBench.Toml.Strings
import MigrationBench.Value.Basic

/-!
# Dates, times and numbers of TOML

* `Toml.dateOrStamp` — a date, or a date with a time and perhaps an offset.
* `Toml.clock` — a time of day.
* `Toml.number` — a whole number or a float.
-/

namespace MigrationBench.Toml

/-! ### Dates and times -/

/-- A fraction of a second in microseconds; digits after the sixth do not count. -/
def fraction : Match Nat := do
  Match.char '.'
  let digits ← Match.takeWhile Digits.isDigit
  if digits.isEmpty then failure
  else return Digits.ofDigits ((digits ++ List.replicate 6 '0').take 6)

/-- A time of day `HH:MM:SS` with an optional fraction. -/
def clock : Match Clock := do
  let hour ← Match.numberIn 2 0 23
  Match.char ':'
  let minute ← Match.numberIn 2 0 59
  Match.char ':'
  let second ← Match.numberIn 2 0 59
  let micro ← Match.optional fraction
  Match.ofOption (Clock.of? hour minute second (micro.getD 0))

/-- An offset from UTC: `Z`, or a sign with hours and minutes. -/
def offset : Match Offset := do
  let c ← Match.satisfying fun c => c == 'Z' || c == 'z' || c == '+' || c == '-'
  if c = 'Z' ∨ c = 'z' then return Offset.utc
  else
    let hour ← Match.numberIn 2 0 23
    Match.char ':'
    let minute ← Match.numberIn 2 0 59
    let minutes : Int := (hour * 60 + minute : Nat)
    Match.ofOption (Offset.ofMinutes? (if c = '-' then -minutes else minutes))

/-- A time of day behind a date, with an optional offset. -/
def timeBehindDate : Match (Clock × Option Offset) := do
  discard (Match.satisfying fun c => c == 'T' || c == 't' || c == ' ')
  let time ← clock
  return (time, ← Match.optional offset)

/-- The fields of a date, with a time of day if one follows. The month and the day are in range,
but there may be no such date. -/
def dateFields : Match ((Nat × Nat × Nat) × Option (Clock × Option Offset)) := do
  let year ← Match.number 4
  Match.char '-'
  let month ← Match.numberIn 2 1 12
  Match.char '-'
  let day ← Match.numberIn 2 1 31
  return ((year, month, day), ← Match.optional timeBehindDate)

/-- The value of the fields of a date. -/
def dateOrStamp : (Nat × Nat × Nat) × Option (Clock × Option Offset) → Option Value
  | ((year, month, day), time) =>
    (Date.of? year month day).map fun date =>
      match time with
      | some (clock, offset) => .stamp ⟨date, clock, offset⟩
      | none => .date date

/-! ### Numbers -/

/-- Digits in which single underscores may stand between two digits; the underscores are left
out. -/
def groupedFrom (isDigit : Char → Bool) : List Char → List Char × List Char
  | [] => ([], [])
  | '_' :: d :: rest =>
    if isDigit d then
      let (digits, after) := groupedFrom isDigit rest
      (d :: digits, after)
    else ([], '_' :: d :: rest)
  | d :: rest =>
    if isDigit d then
      let (digits, after) := groupedFrom isDigit rest
      (d :: digits, after)
    else ([], d :: rest)

/-- At least one digit, and more with single underscores between them. -/
def grouped (isDigit : Char → Bool) : Match (List Char) := do
  let first ← Match.satisfying isDigit
  return first :: (← fun cs => some (groupedFrom isDigit cs))

/-- A whole number with a base mark. -/
def basedNumber (mark : Char) (base : Nat) : Match Nat := do
  Match.char '0'
  Match.char mark
  let isDigit (c : Char) : Bool := (Hex.digitValue? c).any (· < base)
  return Hex.ofDigits base (← grouped isDigit)

/-- The sign of a number, if it has one. -/
def sign : Match (List Char) := do
  return (← Match.optional (Match.satisfying fun c => c == '+' || c == '-')).toList

/-- The digits before the point: zero, or digits that do not begin with one. -/
def wholeDigits : Match (List Char) := do
  match ← Match.optional (Match.char '0') with
  | some _ => return ['0']
  | none => do
    let digits ← grouped Digits.isDigit
    return digits

/-- The point and the digits after it. -/
def decimals : Match (List Char) := do
  Match.char '.'
  return '.' :: (← grouped Digits.isDigit)

/-- The exponent of a number. -/
def exponent : Match (List Char) := do
  discard (Match.satisfying fun c => c == 'e' || c == 'E')
  let s ← sign
  return 'e' :: s ++ (← grouped Digits.isDigit)

/-- The parts of a decimal number: the sign, the digits before the point, and what makes it a
float. -/
def decimalParts : Match (List Char × List Char × List Char) := do
  let s ← sign
  let whole ← wholeDigits
  let point ← Match.optional decimals
  let power ← Match.optional exponent
  return (s, whole, point.getD [] ++ power.getD [])

/-- The value of the parts of a decimal number. -/
def decimalValue : List Char × List Char × List Char → Except Fault Value
  | (s, whole, []) =>
    if Digits.maxCount < whole.length then .error .longNumber
    else
      let n : Int := Digits.ofDigits whole
      .ok (.int (if s = ['-'] then -n else n))
  | (s, whole, tail) =>
    match Binary64.read? (String.ofList (s ++ whole ++ tail)) with
    | some x => .ok (.float x)
    | none => .error .malformed

/-- The names of the floats that have no digits, with their values. -/
def namedFloats : List (String × String) :=
  [("inf", "inf"), ("nan", "nan"), ("-inf", "-inf"), ("+inf", "inf"), ("-nan", "nan"),
    ("+nan", "nan")]

/-- One of the named floats. -/
def namedFloat (names : List (String × String)) : Read Value :=
  match names with
  | [] => throw .malformed
  | (name, text) :: rest => do
    if ← Scan.literal name.toList then
      match Binary64.read? text with
      | some x => return .float x
      | none => throw .malformed
    else namedFloat rest

/-- A whole number with a base mark, if there is one. -/
def anyBasedNumber : Match Nat := fun cs =>
  (basedNumber 'x' 16 cs).orElse fun _ =>
    (basedNumber 'b' 2 cs).orElse fun _ => basedNumber 'o' 8 cs

/-- A number. -/
def number : Read Value := do
  match ← Scan.matching anyBasedNumber with
  | some n => return .int n
  | none =>
    match ← Scan.matching decimalParts with
    | some parts => decimalValue parts
    | none => namedFloat namedFloats

/-- A date, a time or a number. -/
def scalar : Read Value := do
  match ← Scan.matching dateFields with
  | some fields =>
    match dateOrStamp fields with
    | some v => return v
    | none => throw .malformed
  | none =>
    match ← Scan.matching clock with
    | some c => return .clock c
    | none => number

end MigrationBench.Toml
