import MigrationBench.Number.Hexadecimal
import MigrationBench.Yaml.Cursor

/-!
# Scalars of YAML

The four ways to write a scalar, read from a position up to its end.

* `Yaml.plain` — without marks, up to an indicator.
* `Yaml.quoted` — in single or double quotes.
* `Yaml.block` — indented lines behind `|` or `>`.
-/

namespace MigrationBench.Yaml

/-- A scalar that has been read: its text, the position after it, and whether a line break is the
last thing before that position. -/
structure Scalar where
  text : List Char
  cursor : Cursor
  broken : Bool := false

/-- A scalar with a text in front. -/
def Scalar.after (text : List Char) (s : Scalar) : Scalar :=
  { s with text := text ++ s.text }

/-- A character in front of a text that is read. -/
def push {α : Type} (c : Char) : Except Fault (List Char × α) → Except Fault (List Char × α) :=
  Except.map fun (text, rest) => (c :: text, rest)

/-! ### Plain scalars -/

/-- The characters that end a plain scalar inside brackets. -/
def isFlowMark (c : Char) : Bool :=
  c == ',' || c == '[' || c == ']' || c == '{' || c == '}'

/-- A word of a plain scalar: no blanks, up to a colon that ends a key. -/
def plainWord (inFlow : Bool) : List Char → Except Fault (List Char)
  | [] => .ok []
  | c :: rest =>
    if isSpace c then .ok []
    else if inFlow && c == ':' && rest.head?.any fun d => isFlowMark d || d == '?' then
      .error .malformed
    else if (c == ':' && endsWord rest) || (inFlow && isFlowMark c) then .ok []
    else (plainWord inFlow rest).map (c :: ·)

/-- The words of a plain scalar behind a gap, which counts if a word follows. The lines after the
first have to be indented by `indent`. -/
def plainFrom (inFlow : Bool) (indent : Int) : Nat → List Char → Cursor → Except Fault Scalar
  | 0, _, _ => .error .malformed
  | fuel + 1, gap, s =>
    if s.isDocumentMark || s.isAt '#' then .ok ⟨[], s, gap.any isBreak⟩
    else do
      let word ← plainWord inFlow s.ahead
      let s := s.steps word.length
      let next := s.ahead.takeWhile isSpace
      let text := if word = [] then [] else gapText gap ++ word
      if next = [] then .ok ⟨text, s, word = [] && gap.any isBreak⟩
      else if hasTabInIndent indent next then .error .malformed
      else
        let s := s.steps next.length
        if !inFlow && (s.column : Int) < indent then .ok ⟨text, s, next.any isBreak⟩
        else (plainFrom inFlow indent fuel next s).map (Scalar.after text)

/-- A plain scalar. -/
def plain (inFlow : Bool) (indent : Int) (s : Cursor) : Except Fault Scalar :=
  plainFrom inFlow indent (s.ahead.length + 1) [] s

/-! ### Quoted scalars -/

/-- The escapes of one letter, with the characters that they stand for. -/
def letterEscapes : List (Char × Nat) :=
  [('0', 0), ('a', 7), ('b', 8), ('t', 9), ('\t', 9), ('n', 10), ('v', 11), ('f', 12), ('r', 13),
    ('e', 27), (' ', 32), ('"', 34), ('/', 47), ('\\', 92), ('N', 0x85), ('_', 0xa0),
    ('L', 0x2028), ('P', 0x2029)]

/-- The character that an escape behind a backslash stands for, and how long the escape is. -/
def escape? : List Char → Option (Char × Nat)
  | 'x' :: cs => (Hex.char? 2 cs).map (·, 3)
  | 'u' :: cs => (Hex.char? 4 cs).map (·, 5)
  | 'U' :: cs => (Hex.char? 8 cs).map (·, 9)
  | c :: _ => (letterEscapes.lookup c).map (Char.ofNat ·, 1)
  | [] => none

/-- What ends a word of a quoted scalar: the closing mark, a gap, or a line break with a backslash
in front of it. -/
inductive WordEnd where
  | closed
  | gap
  | escapedBreak
deriving DecidableEq, Repr

/-- A word of a single-quoted scalar, in which a doubled mark stands for one, with its length. -/
def singleWord : List Char → List Char × Nat × WordEnd
  | '\'' :: '\'' :: rest =>
    let (word, size, ending) := singleWord rest
    ('\'' :: word, size + 2, ending)
  | c :: rest =>
    if c = '\'' then ([], 0, .closed)
    else if isSpace c then ([], 0, .gap)
    else
      let (word, size, ending) := singleWord rest
      (c :: word, size + 1, ending)
  | [] => ([], 0, .gap)

/-- A word of a double-quoted scalar with its length. -/
def doubleWord : List Char → Except Fault (List Char × Nat × WordEnd)
  | [] => .ok ([], 0, .gap)
  | c :: rest =>
    if c = '"' then .ok ([], 0, .closed)
    else if isSpace c then .ok ([], 0, .gap)
    else if c = '\\' then
      if rest.head?.any isBreak then .ok ([], 2, .escapedBreak)
      else
        match escape? rest with
        | some (d, n) =>
          (push d (doubleWord (rest.drop n))).map fun (word, size, ending) =>
            (word, size + n + 1, ending)
        | none => .error .malformed
    else (push c (doubleWord rest)).map fun (word, size, ending) => (word, size + 1, ending)
termination_by cs => cs.length

/-- The words of a quoted scalar up to the closing mark. -/
def quotedFrom (word : List Char → Except Fault (List Char × Nat × WordEnd)) :
    Nat → Cursor → Except Fault Scalar
  | 0, _ => .error .malformed
  | fuel + 1, s =>
    if s.isDocumentMark || s.ahead = [] then .error .malformed
    else do
      let (chars, size, ending) ← word s.ahead
      let s := s.steps size
      if ending = .closed then .ok ⟨chars, s.step, false⟩
      else
        let gap := s.ahead.takeWhile isSpace
        let between :=
          if ending = .escapedBreak then (gap.filter isBreak).map breakText else gapText gap
        (quotedFrom word fuel (s.steps gap.length)).map (Scalar.after (chars ++ between))

/-- A quoted scalar, the next character being its opening mark. -/
def quoted (mark : Char) (s : Cursor) : Except Fault Scalar :=
  let word := if mark = '"' then doubleWord else fun cs => .ok (singleWord cs)
  quotedFrom word (s.ahead.length + 1) s.step

/-! ### Block scalars -/

/-- What happens to the line breaks at the end of a block scalar. -/
inductive Chomping where
  | strip
  | clip
  | keep
deriving DecidableEq, Repr

/-- A chomping mark, if there is one. -/
def chompingMark : List Char → Option Chomping × List Char
  | '+' :: rest => (some .keep, rest)
  | '-' :: rest => (some .strip, rest)
  | cs => (none, cs)

/-- An indentation digit, if there is one; zero is no indentation. -/
def indentMark : List Char → Except Fault (Option Nat × List Char)
  | c :: rest =>
    if c = '0' then .error .malformed
    else if Digits.isDigit c then .ok (some (Digits.digitValue c), rest)
    else .ok (none, c :: rest)
  | [] => .ok (none, [])

/-- The marks behind the indicator of a block scalar, in either order. -/
def blockMarks (cs : List Char) : Except Fault (Chomping × Option Nat × List Char) := do
  match chompingMark cs with
  | (some chomping, rest) =>
    let (indent, rest) ← indentMark rest
    return (chomping, indent, rest)
  | (none, rest) =>
    let (indent, rest) ← indentMark rest
    if indent.isSome then
      let (chomping, rest) := chompingMark rest
      return (chomping.getD .clip, indent, rest)
    else return (.clip, none, rest)

/-- Passes over the indentation and over empty lines. Gives the text of the line breaks, the
greatest column reached and the position. Without a limit all blanks belong to the indentation. -/
def blockBreaks (limit : Option Nat) : Nat → List Char → Nat → Cursor →
    Except Fault (List Char × Nat × Cursor)
  | 0, _, _, _ => .error .malformed
  | fuel + 1, breaks, widest, s =>
    let spaces := (s.ahead.takeWhile (· == ' ')).length
    let s := s.steps (limit.elim spaces fun n => min spaces (n - s.column))
    let widest := max widest s.column
    if s.isAt '\t' && limit.all (s.column < ·) then .error .malformed
    else
      match s.ahead with
      | c :: _ =>
        if isBreak c then blockBreaks limit fuel (breaks ++ [breakText c]) widest s.step
        else .ok (breaks, widest, s)
      | [] => .ok (breaks, widest, s)

/-- The line breaks between two lines of a block scalar: folded ones become a blank, except beside
a line that begins with a blank. -/
def blockJoin (folded : Bool) (last breaks : List Char) (besideBlank : Bool) : List Char :=
  if folded && last == ['\n'] && !besideBlank then
    if breaks = [] then [' '] else breaks
  else last ++ breaks

/-- The lines of a block scalar behind line breaks; `last` is the break of the line before,
`afterBlank` whether that line begins with a blank. -/
def blockLines (folded : Bool) (indent : Nat) (chomping : Chomping) : Nat → List Char → List Char →
    Bool → Cursor → Except Fault Scalar
  | 0, _, _, _, _ => .error .malformed
  | fuel + 1, last, breaks, afterBlank, s =>
    if s.column = indent ∧ s.ahead ≠ [] then do
      let startsBlank := s.ahead.head?.any isGap
      let line := s.ahead.takeWhile (!isBreak ·)
      let text := blockJoin folded last breaks (afterBlank || startsBlank) ++ line
      let s := s.steps line.length
      let last := (s.ahead.head?.map breakText).toList
      let (breaks, _, s) ← blockBreaks (some indent) fuel [] 0 s.step
      (blockLines folded indent chomping fuel last breaks startsBlank s).map (Scalar.after text)
    else
      let ending := match chomping with
        | .strip => []
        | .clip => last
        | .keep => last ++ breaks
      .ok ⟨ending, s, false⟩

/-- A block scalar, the next character being its indicator; `parent` is the indentation around
it. -/
def block (parent : Int) (s : Cursor) : Except Fault Scalar := do
  let folded := s.isAt '>'
  let s := s.step
  let (chomping, digit, rest) ← blockMarks s.ahead
  let s := (s.steps (s.ahead.length - rest.length)).skip isGap
  let s := if s.isAt '#' then s.skip (!isBreak ·) else s
  if s.ahead.head?.any (!isBreak ·) then .error .malformed
  else
    let s := s.step
    let least := (max 1 (parent + 1)).toNat
    let given := digit.map fun n => (max 0 parent).toNat + n
    let (breaks, widest, s) ← blockBreaks given (s.ahead.length + 1) [] 0 s
    blockLines folded (given.getD (max least widest)) chomping (s.ahead.length + 1) [] breaks false
      s

end MigrationBench.Yaml
