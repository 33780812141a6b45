import MigrationBench.Text.Scan

/-!
# Positions in YAML text

* `Yaml.Fault` — why a text is no document.
* `Yaml.Cursor` — the characters ahead, with line and column.
* `Yaml.isBreak`, `Yaml.isGap` — line breaks and blanks.
* `Yaml.gapText` — how blanks and line breaks inside a scalar are folded.
-/

namespace MigrationBench.Yaml

/-- Why a text is no document: it does not follow the grammar, a date or a number in it does not
exist, or a float counts in sixties with more parts than floats can weigh. -/
inductive Fault where
  | malformed
  | badDate
  | badNumber
  | wideNumber
deriving DecidableEq, Repr

/-- The characters that end a line. -/
def isBreak (c : Char) : Bool :=
  c == '\n' || c.toNat == 0x85 || c.toNat == 0x2028 || c.toNat == 0x2029

/-- Blanks inside a line. -/
def isGap (c : Char) : Bool :=
  c == ' ' || c == '\t'

/-- Blanks and line breaks. -/
def isSpace (c : Char) : Bool :=
  isGap c || isBreak c

/-- Whether nothing but a blank, a line break or the end is ahead. -/
def endsWord : List Char → Bool
  | c :: _ => isSpace c
  | [] => true

/-- The text of a line break: U+0085 is written as a newline, U+2028 and U+2029 are kept. -/
def breakText (c : Char) : Char :=
  if c.toNat = 0x85 then '\n' else c

/-- Whether a text may hold a character. -/
def isAllowed (c : Char) : Bool :=
  let n := c.toNat
  c == '\t' || c == '\n' || c == '\r' || (0x20 ≤ n && n ≤ 0x7e) || n == 0x85 ||
    (0xa0 ≤ n && n ≤ 0xfffd) || 0x10000 ≤ n

/-- A position in a text: the characters ahead, the line, the column, and how many characters are
behind. -/
structure Cursor where
  ahead : List Char
  line : Nat := 0
  column : Nat := 0
  index : Nat := 0
deriving DecidableEq, Repr

namespace Cursor

/-- The position after the next character. -/
def step (s : Cursor) : Cursor :=
  match s.ahead with
  | [] => s
  | c :: rest =>
    if isBreak c then ⟨rest, s.line + 1, 0, s.index + 1⟩
    else ⟨rest, s.line, s.column + 1, s.index + 1⟩

/-- The position after so many characters. -/
def steps (s : Cursor) : Nat → Cursor
  | 0 => s
  | n + 1 => s.step.steps n

/-- The position after the characters with a property. -/
def skip (s : Cursor) (p : Char → Bool) : Cursor :=
  s.steps (s.ahead.takeWhile p).length

/-- Whether the next character is a given one. -/
def isAt (s : Cursor) (c : Char) : Bool :=
  s.ahead.head? == some c

/-- Whether the next three characters are `mark`, as a word of its own at the start of a line. -/
def isMark (s : Cursor) (mark : Char) : Bool :=
  s.column == 0 && [mark, mark, mark].isPrefixOf s.ahead && endsWord (s.ahead.drop 3)

/-- Whether a document starts or ends here. -/
def isDocumentMark (s : Cursor) : Bool :=
  s.isMark '-' || s.isMark '.'

end Cursor

/-! ### Folding -/

/-- The text of line breaks between two words: one newline is a blank, of several the first is left
out. -/
def foldBreaks : List Char → List Char
  | [] => []
  | first :: more =>
    if breakText first ≠ '\n' then breakText first :: more.map breakText
    else if more = [] then [' ']
    else more.map breakText

/-- The text of blanks and line breaks between two words: blanks count only within a line. -/
def gapText (gap : List Char) : List Char :=
  if gap.any isBreak then foldBreaks (gap.filter isBreak) else gap

/-- Whether a tab stands where a line has to be indented by `indent` blanks. -/
def hasTabInIndent (indent : Int) (gap : List Char) : Bool :=
  let lines := (gap.dropWhile (!isBreak ·)).splitBy fun _ c => !isBreak c
  lines.any fun line =>
    let spaces := (line.drop 1).takeWhile (· == ' ')
    (line.drop (1 + spaces.length)).head? == some '\t' && (spaces.length : Int) < indent

end MigrationBench.Yaml
