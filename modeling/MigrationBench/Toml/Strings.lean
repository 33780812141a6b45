import MigrationBench.Number.Hexadecimal
import MigrationBench.Text.Scan

/-!
# Strings and keys of TOML

Basic strings with escapes, literal strings without, each on one line or on several, and keys.

* `Toml.Fault` — why a text is no document.
* `Toml.stringValue` — a string as a value.
* `Toml.key` — a bare, quoted or dotted key.
-/

namespace MigrationBench.Toml

/-- Why a text is no document: it does not follow the grammar, or a whole number in it has more
digits than are read. -/
inductive Fault where
  | malformed
  | longNumber
deriving DecidableEq, Repr

/-- A reader of a part of a document. -/
abbrev Read (α : Type) : Type := Scan Fault α

/-- Blanks inside a line. -/
def isGap (c : Char) : Bool :=
  c == ' ' || c == '\t'

/-- Blanks and newlines. -/
def isSpace (c : Char) : Bool :=
  isGap c || c == '\n'

/-- The control characters that no string and no comment may hold, apart from the newline, which
only strings on several lines may. -/
def isControl (c : Char) : Bool :=
  (c.toNat < 0x20 && c != '\t') || c.toNat == 0x7f

/-- Whether a string may hold a character as it is. -/
def isAllowed (multi : Bool) (c : Char) : Bool :=
  !isControl c || (multi && c == '\n')

/-! ### Escapes -/

/-- The character that an escape behind a backslash stands for, and how long the escape is. -/
def escape? : List Char → Option (Char × Nat)
  | 'b' :: _ => some ('\x08', 1)
  | 't' :: _ => some ('\t', 1)
  | 'n' :: _ => some ('\n', 1)
  | 'f' :: _ => some ('\x0c', 1)
  | 'r' :: _ => some ('\r', 1)
  | '"' :: _ => some ('"', 1)
  | '\\' :: _ => some ('\\', 1)
  | 'u' :: cs => (Hex.char? 4 cs).map (·, 5)
  | 'U' :: cs => (Hex.char? 8 cs).map (·, 9)
  | _ => none

/-- How many characters behind a backslash at the end of a line are passed over: the rest of the
line, which has to be blank, and all blanks and newlines after it. -/
def lineEnd? (cs : List Char) : Option Nat :=
  let gap := (cs.takeWhile isGap).length
  match cs.drop gap with
  | '\n' :: _ => some (cs.takeWhile isSpace).length
  | _ => none

/-- Whether the characters behind a backslash are blank, so that the line has to end there. -/
def startsGap : List Char → Bool
  | c :: _ => isSpace c
  | [] => false

/-! ### Strings -/

/-- A character in front of a text that is read. -/
def push (c : Char) : Except Fault (List Char × List Char) → Except Fault (List Char × List Char) :=
  Except.map fun (text, rest) => (c :: text, rest)

/-- The text of a basic string up to its closing mark, and what follows it. -/
def basicChars (multi : Bool) : List Char → Except Fault (List Char × List Char)
  | [] => .error .malformed
  | '"' :: rest =>
    if !multi then .ok ([], rest)
    else if ['"', '"'].isPrefixOf rest then .ok ([], rest.drop 2)
    else push '"' (basicChars multi rest)
  | '\\' :: rest =>
    if multi && startsGap rest then
      match lineEnd? rest with
      | some n => basicChars multi (rest.drop n)
      | none => .error .malformed
    else
      match escape? rest with
      | some (c, n) => push c (basicChars multi (rest.drop n))
      | none => .error .malformed
  | c :: rest =>
    if isAllowed multi c then push c (basicChars multi rest) else .error .malformed
termination_by cs => cs.length

/-- The text of a literal string up to its closing marks, and what follows them. -/
def literalChars (multi : Bool) : List Char → Except Fault (List Char × List Char)
  | [] => .error .malformed
  | c :: rest =>
    if c = '\'' ∧ (!multi ∨ ['\'', '\''].isPrefixOf rest) then
      .ok ([], if multi then rest.drop 2 else rest)
    else if isAllowed multi c then push c (literalChars multi rest)
    else .error .malformed

/-- The text of a string after its opening mark. -/
def stringBody (chars : List Char → Except Fault (List Char × List Char)) : Read (List Char) :=
  fun cs => chars cs

/-- A string on one line after its opening mark. -/
def lineString (mark : Char) : Read (List Char) :=
  stringBody (if mark = '"' then basicChars false else literalChars false)

/-- A string on several lines after its opening marks. A newline right after them does not count,
and up to two more marks at the end belong to the text. -/
def blockString (mark : Char) : Read (List Char) := do
  discard (Scan.literal ['\n'])
  let text ← stringBody (if mark = '"' then basicChars true else literalChars true)
  if ← Scan.literal [mark] then
    if ← Scan.literal [mark] then return text ++ [mark, mark]
    else return text ++ [mark]
  else return text

/-- A string as a value, `mark` being its first character. -/
def stringValue (mark : Char) : Read String := do
  let chars ←
    if ← Scan.literal [mark, mark, mark] then blockString mark
    else do
      Scan.expect .malformed [mark]
      lineString mark
  return String.ofList chars

/-! ### Keys -/

/-- The characters of a bare key: ASCII letters and digits, the underscore and the hyphen. -/
def isBareKeyChar (c : Char) : Bool :=
  c.isAlphanum || c == '_' || c == '-'

/-- Whether a character can begin a key. -/
def startsKey (c : Char) : Bool :=
  isBareKeyChar c || c == '"' || c == '\''

/-- One part of a key. -/
def keyPart : Read String := do
  match ← Scan.peek? with
  | some c =>
    if isBareKeyChar c then return String.ofList (← Scan.takeWhile isBareKeyChar)
    else if c = '"' ∨ c = '\'' then
      Scan.expect .malformed [c]
      return String.ofList (← lineString c)
    else throw .malformed
  | none => throw .malformed

/-- The further parts of a dotted key, at most `fuel` of them. -/
def keyRest : Nat → Read (List String)
  | 0 => throw .malformed
  | fuel + 1 => do
    Scan.skip isGap
    if ← Scan.literal ['.'] then
      Scan.skip isGap
      let part ← keyPart
      return part :: (← keyRest fuel)
    else return []

/-- A key: its parts, and the blanks after it passed over. -/
def key : Read (List String) := do
  let first ← keyPart
  return first :: (← keyRest ((← get).length + 1))

end MigrationBench.Toml
