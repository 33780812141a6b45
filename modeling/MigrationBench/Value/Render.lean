import MigrationBench.Number.Shortest
import MigrationBench.Text.Quoted
import MigrationBench.Text.Utf8
import MigrationBench.Value.Basic

/-!
# Text of values

How a value appears in a message or where a text is expected.

* `Value.inner` — the form inside a list or a mapping: texts are quoted, dates are spelled out.
* `Value.render` — the form on its own: a text is itself, dates are in ISO form.
-/

namespace MigrationBench.Value

/-- Arguments between parentheses. -/
def callForm (name : String) (arguments : List String) : String :=
  name ++ "(" ++ String.intercalate ", " arguments ++ ")"

/-- The arguments of a time of day: seconds and microseconds are left out when they end in zeros. -/
def clockArguments (c : Clock) : List String :=
  let seconds :=
    if c.micro ≠ 0 then [toString c.second, toString c.micro]
    else if c.second ≠ 0 then [toString c.second]
    else []
  [toString c.hour, toString c.minute] ++ seconds

/-- The arguments of a date. -/
def dateArguments (d : Date) : List String :=
  [toString d.year, toString d.month, toString d.day]

/-- A distance in time by days, seconds and microseconds; only the days may be negative. -/
def spanForm (micros : Int) : String :=
  let days := Int.fdiv micros 86400000000
  let rest := (Int.fmod micros 86400000000).toNat
  let argument (name : String) (n : Int) : List String :=
    if n = 0 then [] else [name ++ "=" ++ toString n]
  let arguments := argument "days" days ++ argument "seconds" (rest / 1000000 : Nat) ++
    argument "microseconds" (rest % 1000000 : Nat)
  callForm "datetime.timedelta" (if arguments.isEmpty then ["0"] else arguments)

/-- The argument for an offset. -/
def zoneArgument (o : Offset) : String :=
  "tzinfo=" ++
    if o.micros = 0 then "datetime.timezone.utc"
    else callForm "datetime.timezone" [spanForm o.micros]

/-- A date-time spelled out. -/
def stampForm (s : Stamp) : String :=
  callForm "datetime.datetime"
    (dateArguments s.date ++ clockArguments s.clock ++ s.offset.toList.map zoneArgument)

mutual

/-- The text of a value inside a list or a mapping. -/
def inner : Value → String
  | null => "None"
  | bool b => if b then "True" else "False"
  | int i => toString i
  | float x => x.render
  | text s => Text.quote s
  | brokenText codes => Text.quoteCodes codes
  | date d => callForm "datetime.date" (dateArguments d)
  | clock c => callForm "datetime.time" (clockArguments c)
  | stamp s => stampForm s
  | list items => "[" ++ String.intercalate ", " (innerItems items) ++ "]"
  | map entries => "\x7b" ++ String.intercalate ", " (innerEntries entries) ++ "\x7d"

/-- The texts of the items of a list. -/
def innerItems : List Value → List String
  | [] => []
  | v :: rest => inner v :: innerItems rest

/-- The texts of the entries of a mapping. -/
def innerEntries : List (Value × Value) → List String
  | [] => []
  | (k, v) :: rest => (inner k ++ ": " ++ inner v) :: innerEntries rest

end

/-- The text of a value on its own. Half a surrogate pair alone is written as U+FFFD. -/
def render : Value → String
  | text s => s
  | brokenText codes => String.ofList (codes.map fun n => (Hex.charOf? n).getD Utf8.replacement)
  | date d => Stamp.renderDate d
  | clock c => Stamp.renderClock c
  | stamp s => s.renderSpaced
  | v => inner v

end MigrationBench.Value
