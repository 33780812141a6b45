import MigrationBench.Toml.Scalars
import MigrationBench.Toml.Table

/-!
# Values of TOML

Strings, truth values, arrays, inline tables, dates, times and numbers.

* `Toml.value` — a value.
* `Toml.pair` — a key with a value.
-/

namespace MigrationBench.Toml

/-- A part that has to be there. -/
def orMalformed {α : Type} : Option α → Read α
  | some a => pure a
  | none => throw .malformed

/-- Passes over a comment, if one is next. -/
def comment : Read Unit := do
  if ← Scan.literal ['#'] then
    let text ← Scan.takeWhile (· != '\n')
    if text.any isControl then throw .malformed

/-- The characters after blanks, newlines and comments between the items of an array. -/
def skipToItem : Nat → Read Unit
  | 0 => throw .malformed
  | fuel + 1 => do
    Scan.skip isSpace
    if (← Scan.peek?) = some '#' then
      comment
      skipToItem fuel

/-- Passes over blanks, newlines and comments. -/
def spaceInArray : Read Unit := do
  skipToItem ((← get).length + 1)

/-- Whether a path lies in a namespace that is closed. -/
def isClosed (closed : List (List String)) (path : List String) : Bool :=
  closed.any (·.isPrefixOf path)

/-- Whether a value is an array or a table, whose entries cannot be added to later. -/
def isContainer : Value → Bool
  | .list _ | .map _ => true
  | _ => false

/-- The text `true` or `false` as a value. -/
def truthValue (word : String) (b : Bool) : Read Value := do
  if ← Scan.literal word.toList then return .bool b else throw .malformed

mutual

/-- A value. -/
def value : Nat → Read Value
  | 0 => throw .malformed
  | fuel + 1 => do
    match ← Scan.peek? with
    | some '"' => return .text (← stringValue '"')
    | some '\'' => return .text (← stringValue '\'')
    | some 't' => truthValue "true" true
    | some 'f' => truthValue "false" false
    | some '[' =>
      Scan.expect .malformed ['[']
      spaceInArray
      return .list (← arrayItems fuel)
    | some '{' =>
      Scan.expect .malformed ['{']
      Scan.skip isGap
      if ← Scan.literal ['}'] then return .map []
      else return .map (← tableEntries fuel [] [])
    | _ => scalar

/-- The items of an array up to its end. -/
def arrayItems : Nat → Read (List Value)
  | 0 => throw .malformed
  | fuel + 1 => do
    if ← Scan.literal [']'] then return []
    else
      let v ← value fuel
      spaceInArray
      if ← Scan.literal [','] then
        spaceInArray
        return v :: (← arrayItems fuel)
      else
        Scan.expect .malformed [']']
        return [v]

/-- The entries of an inline table up to its end, after those that have been read. -/
def tableEntries : Nat → Table → List (List String) → Read Table
  | 0, _, _ => throw .malformed
  | fuel + 1, t, closed => do
    let path ← key
    Scan.expect .malformed ['=']
    Scan.skip isGap
    let v ← value fuel
    if isClosed closed path then throw .malformed
    let t ← orMalformed (within? false (insertNew? (path.getLastD "") v) path.dropLast t)
    Scan.skip isGap
    if ← Scan.literal ['}'] then return t
    else
      Scan.expect .malformed [',']
      Scan.skip isGap
      tableEntries fuel t (if isContainer v then path :: closed else closed)

end

/-- A key with a value. -/
def pair : Read (List String × Value) := do
  let path ← key
  Scan.expect .malformed ['=']
  Scan.skip isGap
  let v ← value ((← get).length + 1)
  return (path, v)

end MigrationBench.Toml
