import MigrationBench.Text.Lines
import MigrationBench.Unicode.Alphanumeric

/-!
# Labels

Lines such as `Reviewed-by: someone` in the message of a change.

* `Label` — a name, a separator and a value.
* `Label.parse?` — the label that a line is; lines that begin like a URL are none.
* `Label.ofMessage` — the labels of a message, one per line, in order.
-/

namespace MigrationBench

/-- A label line taken apart. -/
structure Label where
  name : String
  separator : String
  value : String
deriving DecidableEq, Repr

namespace Label

/-- The characters of a name: letters, numbers, the underscore and the hyphen. -/
def isNameChar (c : Char) : Bool :=
  c == '_' || c == '-' || Unicode.isAlphanumeric c

/-- The mark that separates name and value. -/
def isMark (c : Char) : Bool :=
  c == ':' || c == '='

/-- An optional blank at the head of a text. -/
def takeBlank : List Char → List Char × List Char
  | ' ' :: rest => ([' '], rest)
  | cs => ([], cs)

/-- The parts of a label line: the longest name, blanks and a mark with an optional blank after it,
and the value up to the first newline. A name with `://` right behind it is the start of a URL. -/
def parts? (line : List Char) : Option (List Char × List Char × List Char) :=
  let name := line.takeWhile isNameChar
  let afterName := line.dropWhile isNameChar
  let blanks := afterName.takeWhile (· == ' ')
  match afterName.dropWhile (· == ' ') with
  | mark :: afterMark =>
    if name.isEmpty || !isMark mark then none
    else if blanks.isEmpty && mark == ':' && ['/', '/'].isPrefixOf afterMark then none
    else
      let (blank, value) := takeBlank afterMark
      some (name, blanks ++ mark :: blank, value.takeWhile (· != '\n'))
  | [] => none

/-- The label that a line is, if any. -/
def parse? (line : String) : Option Label :=
  (parts? line.toList).map fun (name, separator, value) =>
    ⟨String.ofList name, String.ofList separator, String.ofList value⟩

/-- The name and the value of a label. -/
def pair (l : Label) : String × String :=
  (l.name, l.value)

/-- The labels of a message, one per label line, in order. -/
def ofMessage (message : String) : List Label :=
  (Text.lines message).filterMap parse?

/-- The names and values of the labels of a message. -/
def pairsOfMessage (message : String) : List (String × String) :=
  (ofMessage message).map pair

end Label

end MigrationBench
