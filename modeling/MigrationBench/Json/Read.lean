import MigrationBench.Number.Hexadecimal
import MigrationBench.Text.Scan
import MigrationBench.Value.Basic

/-!
# Reading JSON

Objects, arrays, strings, numbers and the words `null`, `true` and `false`; the words `NaN`,
`Infinity` and `-Infinity` are floats.

* `Json.read` — the value of a text.
-/

namespace MigrationBench.Json

/-- Why a text has no value: it does not follow the grammar, or a whole number in it has more
digits than are read. -/
inductive Fault where
  | malformed
  | longNumber
deriving DecidableEq, Repr

/-- A reader of a part of a text. -/
abbrev Read (α : Type) : Type := Scan Fault α

/-- Blanks between parts. -/
def isSpace (c : Char) : Bool :=
  c == ' ' || c == '\t' || c == '\n' || c == '\r'

/-! ### Strings -/

/-- The escapes of one letter. -/
def letterEscapes : List (Char × Char) :=
  [('"', '"'), ('\\', '\\'), ('/', '/'), ('b', '\x08'), ('f', '\x0c'), ('n', '\n'), ('r', '\r'),
    ('t', '\t')]

/-- The second half of a surrogate pair, if an escape for one is next. -/
def lowSurrogate? : List Char → Option Nat
  | '\\' :: 'u' :: cs => (Hex.numberAt? 4 cs).filter fun n => 0xdc00 ≤ n && n ≤ 0xdfff
  | _ => none

/-- The character number of a code unit with what follows its digits, and how many characters more
than the digits it takes. Half a surrogate pair alone stays what it is. -/
def unitCode (unit : Nat) (cs : List Char) : Nat × Nat :=
  if 0xd800 ≤ unit ∧ unit ≤ 0xdbff then
    match lowSurrogate? cs with
    | some low => (0x10000 + (unit - 0xd800) * 0x400 + (low - 0xdc00), 6)
    | none => (unit, 0)
  else (unit, 0)

/-- The number of the character that an escape behind a backslash stands for, and how long the
escape is. -/
def escape? : List Char → Option (Nat × Nat)
  | 'u' :: cs =>
    (Hex.numberAt? 4 cs).map fun unit =>
      let (code, more) := unitCode unit (cs.drop 4)
      (code, 5 + more)
  | c :: _ => (letterEscapes.lookup c).map (·.toNat, 1)
  | [] => none

/-- The character numbers of a string up to its closing mark, and what follows it. -/
def stringCodes : List Char → Except Fault (List Nat × List Char)
  | [] => .error .malformed
  | c :: rest =>
    if c = '"' then .ok ([], rest)
    else if c = '\\' then
      match escape? rest with
      | some (code, n) =>
        (stringCodes (rest.drop n)).map fun (codes, after) => (code :: codes, after)
      | none => .error .malformed
    else if c.toNat < 0x20 then .error .malformed
    else (stringCodes rest).map fun (codes, after) => (c.toNat :: codes, after)
termination_by cs => cs.length

/-- A string after its opening mark. -/
def string : Read Value := do
  let codes ← (fun cs => stringCodes cs : Read (List Nat))
  return Value.ofCodes codes

/-! ### Numbers -/

/-- At least one digit. -/
def digits : Match (List Char) := do
  let first ← Match.satisfying Digits.isDigit
  return first :: (← Match.takeWhile Digits.isDigit)

/-- The digits before the point: zero, or digits that do not begin with one. -/
def wholeDigits : Match (List Char) := do
  match ← Match.optional (Match.char '0') with
  | some _ => return ['0']
  | none => digits

/-- The point and the digits after it. -/
def decimals : Match (List Char) := do
  Match.char '.'
  return '.' :: (← digits)

/-- The exponent of a number. -/
def exponent : Match (List Char) := do
  discard (Match.satisfying fun c => c == 'e' || c == 'E')
  let sign ← Match.optional (Match.satisfying fun c => c == '+' || c == '-')
  return 'e' :: sign.toList ++ (← digits)

/-- The parts of a number: whether it is negative, the digits before the point, and what makes it
a float. -/
def numberParts : Match (Bool × List Char × List Char) := do
  let minus ← Match.optional (Match.char '-')
  let whole ← wholeDigits
  let point ← Match.optional decimals
  let power ← Match.optional exponent
  return (minus.isSome, whole, point.getD [] ++ power.getD [])

/-- The value of the parts of a number. -/
def numberValue (isNegative : Bool) (whole tail : List Char) : Except Fault Value :=
  if tail = [] then
    if Digits.maxCount < whole.length then .error .longNumber
    else
      let n : Int := Digits.ofDigits whole
      .ok (.int (if isNegative then -n else n))
  else
    let sign := if isNegative then ['-'] else []
    match Binary64.read? (String.ofList (sign ++ whole ++ tail)) with
    | some x => .ok (.float x)
    | none => .error .malformed

/-! ### Values -/

/-- The words that are values. -/
def words : List (String × Value) :=
  [("null", .null), ("true", .bool true), ("false", .bool false), ("NaN", .float .nan),
    ("Infinity", .float (.infinite false)), ("-Infinity", .float (.infinite true))]

/-- One of some words. -/
def word : List (String × Value) → Read (Option Value)
  | [] => return none
  | (name, v) :: rest => do
    if ← Scan.literal name.toList then return some v else word rest

/-- A word or a number. -/
def scalar : Read Value := do
  match ← word words with
  | some v => return v
  | none =>
    match ← Scan.matching numberParts with
    | some (isNegative, whole, tail) => numberValue isNegative whole tail
    | none => throw .malformed

mutual

/-- A value. -/
def value : Nat → Read Value
  | 0 => throw .malformed
  | fuel + 1 => do
    if ← Scan.literal ['"'] then return ← string
    else if ← Scan.literal ['['] then
      Scan.skip isSpace
      if ← Scan.literal [']'] then return .list [] else return .list (← items fuel)
    else if ← Scan.literal ['{'] then
      Scan.skip isSpace
      if ← Scan.literal ['}'] then return .map []
      else return Value.mapOf Value.sameKey (← members fuel)
    else scalar

/-- The items of an array up to its end. -/
def items : Nat → Read (List Value)
  | 0 => throw .malformed
  | fuel + 1 => do
    let v ← value fuel
    Scan.skip isSpace
    if ← Scan.literal [','] then
      Scan.skip isSpace
      return v :: (← items fuel)
    else
      Scan.expect .malformed [']']
      return [v]

/-- The members of an object up to its end. -/
def members : Nat → Read (List (Value × Value))
  | 0 => throw .malformed
  | fuel + 1 => do
    Scan.expect .malformed ['"']
    let name ← string
    Scan.skip isSpace
    Scan.expect .malformed [':']
    Scan.skip isSpace
    let v ← value fuel
    Scan.skip isSpace
    if ← Scan.literal [','] then
      Scan.skip isSpace
      return (name, v) :: (← members fuel)
    else
      Scan.expect .malformed ['}']
      return [(name, v)]

end

/-- A text with one value. -/
def document : Read Value := do
  Scan.skip isSpace
  let v ← value ((← get).length + 1)
  Scan.skip isSpace
  if (← get).isEmpty then return v else throw .malformed

/-- The value of a text. -/
def read (text : List Char) : Except Fault Value :=
  (document.run text).map Prod.fst

end MigrationBench.Json
