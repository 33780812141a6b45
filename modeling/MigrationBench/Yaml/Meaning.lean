import MigrationBench.Text.Lines
import MigrationBench.Value.Basic
import MigrationBench.Yaml.Node

/-!
# The meaning of plain scalars

A plain scalar is a truth value, nothing, a number, a date or a date-time if it is written like one,
and a text otherwise.

* `Yaml.meaning` — the value of a plain scalar.
-/

namespace MigrationBench.Yaml

/-! ### Words -/

/-- The words for truth values. -/
def truthWords : List (String × Bool) :=
  [("yes", true), ("Yes", true), ("YES", true), ("no", false), ("No", false), ("NO", false),
    ("true", true), ("True", true), ("TRUE", true), ("false", false), ("False", false),
    ("FALSE", false), ("on", true), ("On", true), ("ON", true), ("off", false), ("Off", false),
    ("OFF", false)]

/-- The words for nothing. -/
def nullWords : List String :=
  ["", "~", "null", "Null", "NULL"]

/-- The words for infinity, after a sign. -/
def infinityWords : List String :=
  [".inf", ".Inf", ".INF"]

/-- The words for the float that is not a number. -/
def nanWords : List String :=
  [".nan", ".NaN", ".NAN"]

/-! ### Numbers -/

/-- Whether a character is a decimal digit or an underscore. -/
def isDigitOrBar (c : Char) : Bool :=
  Digits.isDigit c || c == '_'

/-- A text without underscores, which only group digits. -/
def withoutBars (cs : List Char) : List Char :=
  cs.filter (· != '_')

/-- The sign of a number and what follows it. -/
def splitSign : List Char → Bool × List Char
  | '-' :: rest => (true, rest)
  | '+' :: rest => (false, rest)
  | cs => (false, cs)

/-- The value of decimal digits. -/
def decimal (cs : List Char) : Except Fault Nat :=
  let digits := withoutBars cs
  if Digits.maxCount < digits.length then .error .badNumber else .ok (Digits.ofDigits digits)

/-- The value of the digits behind a base mark; there has to be one. -/
def based (base : Nat) (cs : List Char) : Except Fault Nat :=
  let digits := withoutBars cs
  if digits = [] then .error .badNumber else .ok (Hex.ofDigits base digits)

/-- Whether a text is not empty and consists of characters with a property. -/
def isRun (p : Char → Bool) (cs : List Char) : Bool :=
  !cs.isEmpty && cs.all p

/-- Whether a character is a digit of a base or an underscore. -/
def isDigitOf (base : Nat) (c : Char) : Bool :=
  c == '_' || (Hex.digitValue? c).any (· < base)

/-- Whether a text is a decimal number without a zero in front. -/
def isPlainDecimal : List Char → Bool
  | c :: rest => Digits.isDigit c && c != '0' && rest.all isDigitOrBar
  | [] => false

/-- Whether a text is a number below sixty with one or two digits. -/
def isSixtieth : List Char → Bool
  | [c] => Digits.isDigit c
  | [c, d] => '0' ≤ c && c ≤ '5' && Digits.isDigit d
  | _ => false

/-- The value of a whole number without its sign, if the text is one. -/
def whole? (cs : List Char) : Option (Except Fault Nat) :=
  match cs, Text.cutAt ':' cs with
  | ['0'], _ => some (.ok 0)
  | '0' :: 'b' :: digits, _ => if isRun (isDigitOf 2) digits then some (based 2 digits) else none
  | '0' :: 'x' :: digits, _ => if isRun (isDigitOf 16) digits then some (based 16 digits) else none
  | '0' :: digits, _ => if isRun (isDigitOf 8) digits then some (based 8 ('0' :: digits)) else none
  | _, first :: parts =>
    if isPlainDecimal first && parts.all isSixtieth then
      some ((decimal first).map fun n =>
        parts.foldl (fun n part => n * 60 + Digits.ofDigits part) n)
    else none
  | _, [] => none

/-- The exponent of a float: `e`, a sign and digits. -/
def isExponent : List Char → Bool
  | e :: s :: digits =>
    (e == 'e' || e == 'E') && (s == '+' || s == '-') && isRun Digits.isDigit digits
  | _ => false

/-- Whether what follows the point of a float is digits and perhaps an exponent. -/
def isFraction (cs : List Char) : Bool :=
  let rest := cs.dropWhile isDigitOrBar
  rest.isEmpty || isExponent rest

/-- Whether a text begins with a digit and holds only digits and underscores. -/
def isGrouped : List Char → Bool
  | c :: rest => Digits.isDigit c && rest.all isDigitOrBar
  | [] => false

/-- A sum to which floats are added, the first one times a weight and each next one times sixty
times the weight before. A weight that no float comes near is a fault. -/
def addSixties (weight : Nat) (sum : Binary64) : List Binary64 → Except Fault Binary64
  | [] => .ok sum
  | x :: rest =>
    let factor := Binary64.ofInt weight
    if factor.isInfinite then .error .wideNumber
    else addSixties (weight * 60) (sum.add (x.mul factor)) rest

/-- The value of floats that count in sixties, the last one being the units. -/
def sixties (parts : List Binary64) : Except Fault Binary64 :=
  addSixties 1 (Binary64.ofInt 0) parts.reverse

/-- The value of a float without its sign, if the text is one. -/
def float? (cs : List Char) : Option (Except Fault Binary64) :=
  let front := cs.takeWhile (· != '.')
  match cs.dropWhile (· != '.') with
  | '.' :: behind =>
    match Text.cutAt ':' front with
    | [digits] =>
      if isGrouped digits && isFraction behind then
        (Binary64.read? (String.ofList (withoutBars cs))).map .ok
      else none
    | first :: parts =>
      if isGrouped first && parts.all isSixtieth && behind.all isDigitOrBar then
        ((Text.cutAt ':' (withoutBars cs)).mapM fun part =>
          Binary64.read? (String.ofList part)).map sixties
      else none
    | [] => none
  | _ => none

/-- The value of a float that begins with its point, which has no sign, if the text is one. -/
def pointFloat? (cs : List Char) : Option Binary64 :=
  match cs with
  | '.' :: c :: behind =>
    if Digits.isDigit c && isFraction behind then
      Binary64.read? (String.ofList (withoutBars cs))
    else none
  | _ => none

/-- The value of a number, if the text is one. -/
def number? (cs : List Char) : Option (Except Fault Value) :=
  let (isNegative, body) := splitSign cs
  let signed (x : Binary64) : Value := .float (if isNegative then x.neg else x)
  if nanWords.contains (String.ofList cs) then some (.ok (.float .nan))
  else if infinityWords.contains (String.ofList body) then
    some (.ok (signed (.infinite false)))
  else
    match pointFloat? cs, float? body with
    | some x, _ => some (.ok (.float x))
    | none, some result => some (result.map signed)
    | none, none =>
      (whole? body).map fun result =>
        result.map fun n => .int (if isNegative then -(n : Int) else n)

/-! ### Dates -/

/-- A number of one or two digits. -/
def shortNumber : Match Nat := do
  let first ← Match.satisfying Digits.isDigit
  let second ← Match.optional (Match.satisfying Digits.isDigit)
  return Digits.ofDigits (first :: second.toList)

/-- A fraction of a second in microseconds; digits after the sixth do not count. -/
def fraction : Match Nat := do
  Match.char '.'
  let digits ← Match.takeWhile Digits.isDigit
  return Digits.ofDigits ((digits ++ List.replicate 6 '0').take 6)

/-- An offset from UTC in minutes, after blanks: `Z`, or a sign with hours and perhaps minutes. -/
def zone : Match Int := do
  discard (Match.takeWhile isGap)
  let c ← Match.satisfying fun c => c == 'Z' || c == '+' || c == '-'
  if c = 'Z' then return 0
  else
    let hours ← shortNumber
    let minutes ← Match.optional do
      Match.char ':'
      Match.number 2
    let total : Int := (hours * 60 + minutes.getD 0 : Nat)
    return if c = '-' then -total else total

/-- What separates a date from a time. -/
def timeMark : Match Unit := fun cs =>
  match cs with
  | 'T' :: rest => some ((), rest)
  | 't' :: rest => some ((), rest)
  | c :: rest => if isGap c then some ((), rest.dropWhile isGap) else none
  | [] => none

/-- The fields of a time of day, and the minutes of its offset. -/
def timeFields : Match ((Nat × Nat × Nat × Nat) × Option Int) := do
  let hour ← shortNumber
  Match.char ':'
  let minute ← Match.number 2
  Match.char ':'
  let second ← Match.number 2
  let micro ← Match.optional fraction
  let offset ← Match.optional zone
  return ((hour, minute, second, micro.getD 0), offset)

/-- The fields of a date alone. -/
def dateFields : Match (Nat × Nat × Nat) := do
  let year ← Match.number 4
  Match.char '-'
  let month ← Match.number 2
  Match.char '-'
  let day ← Match.number 2
  return (year, month, day)

/-- The fields of a date with a time. -/
def stampFields : Match ((Nat × Nat × Nat) × (Nat × Nat × Nat × Nat) × Option Int) := do
  let year ← Match.number 4
  Match.char '-'
  let month ← shortNumber
  Match.char '-'
  let day ← shortNumber
  timeMark
  return ((year, month, day), ← timeFields)

/-- What a reader finds, if it takes the whole text. -/
def whole {α : Type} (m : Match α) (cs : List Char) : Option α :=
  match m cs with
  | some (a, []) => some a
  | _ => none

/-- The offset of so many minutes; a stamp may have none. -/
def offset? : Option Int → Option (Option Offset)
  | none => some none
  | some minutes => (Offset.ofMinutes? minutes).map some

/-- The date-time with given fields. -/
def stamp? (date : Nat × Nat × Nat) (time : Nat × Nat × Nat × Nat) (minutes : Option Int) :
    Option Stamp := do
  let day ← Date.of? date.1 date.2.1 date.2.2
  let clock ← Clock.of? time.1 time.2.1 time.2.2.1 time.2.2.2
  return ⟨day, clock, ← offset? minutes⟩

/-- A value, or the fault that there is no such date. -/
def orBadDate : Option Value → Except Fault Value
  | some v => .ok v
  | none => .error .badDate

/-- The value of a date or a date-time, if the text is one. -/
def date? (cs : List Char) : Option (Except Fault Value) :=
  match whole dateFields cs, whole stampFields cs with
  | some (year, month, day), _ => some (orBadDate ((Date.of? year month day).map .date))
  | none, some (date, time, minutes) =>
    some (orBadDate ((stamp? date time minutes).map .stamp))
  | none, none => none

/-! ### All together -/

/-- The value of a plain scalar. A lone `=` or `<<` has a meaning only as a key. -/
def meaning (text : String) : Except Fault Value :=
  if nullWords.contains text then .ok .null
  else if text = "=" ∨ text = "<<" then .error .malformed
  else
    match truthWords.lookup text, number? text.toList, date? text.toList with
    | some b, _, _ => .ok (.bool b)
    | none, some result, _ => result
    | none, none, some result => result
    | none, none, none => .ok (.text text)

end MigrationBench.Yaml
