import MigrationBench.Toml.Values

/-!
# TOML documents

A document is a list of lines: a key with a value, the head of a table or of an element of an array
of tables, or nothing; each may end in a comment.

* `Toml.Builder` — the tables read so far, and which of them may still be opened or extended.
* `Toml.Builder.openTable`, `Toml.Builder.openElement`, `Toml.Builder.addPair` — the effects of
  lines.
* `Toml.read` — the table of a document.
-/

namespace MigrationBench.Toml

/-- The tables read so far. No table whose path is in `opened` can be opened, and nothing can be
added below a path in `closed`. The paths in `dotted` count as opened from the next head on.
Further entries belong to the table at `header`. -/
structure Builder where
  root : Table := []
  opened : List (List String) := []
  closed : List (List String) := []
  dotted : List (List String) := []
  header : List String := []

namespace Builder

/-- Counts the tables that dotted keys have made as opened. -/
def settle (b : Builder) : Builder :=
  { b with opened := b.dotted ++ b.opened, dotted := [] }

/-- Opens the table at a path. -/
def openTable (b : Builder) (path : List String) : Option Builder := do
  if b.opened.contains path || isClosed b.closed path then none
  else
    let root ← within? true some path b.root
    some { b with root, opened := path :: b.opened, header := path }

/-- Opens a new element of the array of tables at a path. What has been said about paths below it
concerned the element before. -/
def openElement (b : Builder) (path : List String) : Option Builder := do
  if isClosed b.closed path then none
  else
    let root ← within? true (appendNew? (path.getLastD "")) path.dropLast b.root
    let outside := fun other => !path.isPrefixOf other
    some { b with
      root
      opened := path :: b.opened.filter outside
      closed := b.closed.filter outside
      header := path }

/-- The paths of the tables that a dotted key goes through. -/
def tablesOfKey (header : List String) (path : List String) : List (List String) :=
  (List.range (path.length - 1)).map fun n => header ++ path.take (n + 1)

/-- Adds an entry to the table at the header. -/
def addPair (b : Builder) (path : List String) (v : Value) : Option Builder := do
  let through := tablesOfKey b.header path
  if through.any b.opened.contains then none
  else if isClosed b.closed (b.header ++ path.dropLast) then none
  else
    let root ← within? true (insertNew? (path.getLastD "") v) (b.header ++ path.dropLast) b.root
    some { b with
      root
      dotted := through ++ b.dotted
      closed := if isContainer v then (b.header ++ path) :: b.closed else b.closed }

end Builder

/-- The head of a table or of an element, after its first bracket. -/
def head (b : Builder) : Read Builder := do
  let isElement ← Scan.literal ['[']
  Scan.skip isGap
  let path ← key
  let b ← orMalformed (if isElement then b.openElement path else b.openTable path)
  Scan.expect .malformed (if isElement then [']', ']'] else [']'])
  return b

/-- The end of a line: blanks, a comment, and a newline or the end of the document. -/
def lineBreak : Read Unit := do
  Scan.skip isGap
  comment
  unless (← get).isEmpty do
    Scan.expect .malformed ['\n']

/-- One line. -/
def line (b : Builder) : Read Builder := do
  Scan.skip isGap
  match ← Scan.peek? with
  | some '[' =>
    Scan.expect .malformed ['[']
    let b ← head b.settle
    lineBreak
    return b
  | some c =>
    if startsKey c then
      let (path, v) ← pair
      let b ← orMalformed (b.addPair path v)
      lineBreak
      return b
    else
      lineBreak
      return b
  | none => return b

/-- The lines of a document, at most `fuel` of them. -/
def lines : Nat → Builder → Read Builder
  | 0, _ => throw .malformed
  | fuel + 1, b => do
    if (← get).isEmpty then return b
    else lines fuel (← line b)

/-- The table of a document. A carriage return before a newline does not count. -/
def read (text : List Char) : Except Fault Table :=
  ((lines (text.length + 1) {}).run text).map fun (b, _) => b.root

end MigrationBench.Toml
