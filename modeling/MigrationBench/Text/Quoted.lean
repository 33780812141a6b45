import MigrationBench.Number.Hexadecimal
import MigrationBench.Unicode.Printable

/-!
# Quoted text

The form in which a text appears inside a message that shows values: in quotes, with escapes for
the quote, the backslash, the usual control characters and everything that has no visible form.

* `quoteMark` — single quotes, unless the text holds one and no double quote.
* `escapeChar` — the written form of one character.
* `quote` — the written form of a text.
* `quoteCodes` — the same for a text given by character numbers, of which some may be surrogates.
-/

namespace MigrationBench.Text

/-- The quotation mark chosen for a text. -/
def quoteMark (cs : List Char) : Char :=
  if '\'' ∈ cs ∧ '"' ∉ cs then '"' else '\''

/-- The last `width` hexadecimal digits of a number, in lower case. -/
def hexDigits : Nat → Nat → List Char
  | 0, _ => []
  | width + 1, n => hexDigits width (n / 16) ++ [Nat.digitChar (n % 16)]

/-- A character by its number, with the shortest of the three escapes that holds it. -/
def escapeNumber (n : Nat) : List Char :=
  if n ≤ 0xff then '\\' :: 'x' :: hexDigits 2 n
  else if n ≤ 0xffff then '\\' :: 'u' :: hexDigits 4 n
  else '\\' :: 'U' :: hexDigits 8 n

/-- The written form of a character between the quotation marks `mark`. -/
def escapeChar (mark c : Char) : List Char :=
  if c = mark ∨ c = '\\' then ['\\', c]
  else if c = '\n' then ['\\', 'n']
  else if c = '\r' then ['\\', 'r']
  else if c = '\t' then ['\\', 't']
  else if Unicode.isPrintable c then [c]
  else escapeNumber c.toNat

/-- The quoted form of a text. -/
def quote (s : String) : String :=
  let mark := quoteMark s.toList
  String.ofList (mark :: s.toList.flatMap (escapeChar mark) ++ [mark])

/-- The written form of a character given by its number; a surrogate is written as an escape. -/
def escapeCode (mark : Char) (n : Nat) : List Char :=
  match Hex.charOf? n with
  | some c => escapeChar mark c
  | none => escapeNumber n

/-- The quoted form of a text given by the numbers of its characters. -/
def quoteCodes (codes : List Nat) : String :=
  let mark := quoteMark (codes.filterMap Hex.charOf?)
  String.ofList (mark :: codes.flatMap (escapeCode mark) ++ [mark])

end MigrationBench.Text
