import MigrationBench.Yaml.Token

/-!
# Nodes of YAML

The structure of a document: scalars, sequences and mappings.

* `Yaml.Node` — the type.
* `Yaml.Node.ofTokens` — the node of a document.
-/

namespace MigrationBench.Yaml

/-- A node of a document. -/
inductive Node where
  | scalar (text : String) (isPlain : Bool)
  | sequence (items : List Node)
  | mapping (entries : List (Node × Node))

namespace Node

/-- A reader of nodes; the state is the tokens ahead. -/
abbrev Read (α : Type) : Type :=
  StateT (List Token) (Except Fault) α

/-- The node of a place where nothing is written. -/
def missing : Node :=
  scalar "" true

/-- The next token, which stays ahead. -/
def peek? : Read (Option Token) := do
  return (← get).head?

/-- Passes over the next token. -/
def skip : Read Unit :=
  modify (·.drop 1)

/-- Passes over a token, if it is next. -/
def accept (t : Token) : Read Bool := do
  if (← peek?) = some t then
    skip
    return true
  else return false

/-- Passes over a token, which has to be next. -/
def expect (t : Token) : Read Unit := do
  unless ← accept t do throw .malformed

/-- Whether one of some tokens is next. -/
def isNext (ts : List Token) : Read Bool := do
  return (← peek?).any ts.contains

mutual

/-- A node. Block collections are allowed if `inBlock` is set, and a sequence that is not indented
if `unindented` is set. -/
def node (inBlock unindented : Bool) : Nat → Read Node
  | 0 => throw .malformed
  | fuel + 1 => do
    match ← peek? with
    | some (.scalar text isPlain) =>
      skip
      return scalar text isPlain
    | some .entry => if unindented then return sequence (← looseItems fuel) else throw .malformed
    | some .flowSequence =>
      skip
      return sequence (← flowItems fuel true)
    | some .flowMapping =>
      skip
      return mapping (← flowEntries fuel true)
    | some .blockSequence =>
      if inBlock then
        skip
        return sequence (← blockItems fuel)
      else throw .malformed
    | some .blockMapping =>
      if inBlock then
        skip
        return mapping (← blockEntries fuel)
      else throw .malformed
    | _ => throw .malformed

/-- A node, or nothing where one of some tokens follows. -/
def nodeUnless (ends : List Token) (inBlock unindented : Bool) : Nat → Read Node
  | 0 => throw .malformed
  | fuel + 1 => do
    if ← isNext ends then return missing else node inBlock unindented fuel

/-- The entries of an indented sequence. -/
def blockItems : Nat → Read (List Node)
  | 0 => throw .malformed
  | fuel + 1 => do
    if ← accept .blockEnd then return []
    else
      expect .entry
      let item ← nodeUnless [.entry, .blockEnd] true false fuel
      return item :: (← blockItems fuel)

/-- The entries of a sequence that is not indented. -/
def looseItems : Nat → Read (List Node)
  | 0 => throw .malformed
  | fuel + 1 => do
    if ← accept .entry then
      let item ← nodeUnless [.entry, .key, .value, .blockEnd] true false fuel
      return item :: (← looseItems fuel)
    else return []

/-- The entries of an indented mapping. -/
def blockEntries : Nat → Read (List (Node × Node))
  | 0 => throw .malformed
  | fuel + 1 => do
    if ← accept .blockEnd then return []
    else
      let ends : List Token := [.key, .value, .blockEnd]
      expect .key
      let key ← nodeUnless ends true true fuel
      let value ← if ← accept .value then nodeUnless ends true true fuel else pure missing
      return (key, value) :: (← blockEntries fuel)

/-- The items of a sequence in brackets; the first one has no comma in front of it. An item may be a
single entry of a mapping. -/
def flowItems : Nat → (isFirst : Bool) → Read (List Node)
  | 0, _ => throw .malformed
  | fuel + 1, isFirst => do
    if ← accept .flowSequenceEnd then return []
    else
      unless isFirst do expect .comma
      if ← accept .key then
        let entry ← flowEntry fuel
        return mapping [entry] :: (← flowItems fuel false)
      else if ← accept .flowSequenceEnd then return []
      else
        let item ← node false false fuel
        return item :: (← flowItems fuel false)

/-- An entry of a mapping that is an item of a sequence in brackets. -/
def flowEntry : Nat → Read (Node × Node)
  | 0 => throw .malformed
  | fuel + 1 => do
    let ends : List Token := [.comma, .flowSequenceEnd]
    if ← isNext (.value :: ends) then
      skip
      let value ← if ← accept .value then nodeUnless ends false false fuel else pure missing
      return (missing, value)
    else
      let key ← node false false fuel
      let value ← if ← accept .value then nodeUnless ends false false fuel else pure missing
      return (key, value)

/-- The entries of a mapping in braces; the first one has no comma in front of it. -/
def flowEntries : Nat → (isFirst : Bool) → Read (List (Node × Node))
  | 0, _ => throw .malformed
  | fuel + 1, isFirst => do
    if ← accept .flowMappingEnd then return []
    else
      unless isFirst do expect .comma
      let ends : List Token := [.comma, .flowMappingEnd]
      if ← accept .key then
        let key ← nodeUnless (.value :: ends) false false fuel
        let value ← if ← accept .value then nodeUnless ends false false fuel else pure missing
        return (key, value) :: (← flowEntries fuel false)
      else if ← accept .flowMappingEnd then return []
      else
        let key ← node false false fuel
        return (key, missing) :: (← flowEntries fuel false)

end

/-- How deep the calls for so many tokens can be nested: at most three for each token. -/
def depthFor (size : Nat) : Nat :=
  3 * size + 3

/-- The node of a document; the marks at its start and its end may be missing. A text without tokens
has no document, and a text with two documents has none that counts. -/
def document : Read (Option Node) := do
  let fuel := depthFor (← get).length
  if (← get) = [] then return none
  else
    let isMarked ← accept .documentStart
    let isEmpty := isMarked && (← get).head?.all [.documentStart, .documentEnd].contains
    let root ← if isEmpty then pure missing else node true false fuel
    modify (·.dropWhile (· == .documentEnd))
    if (← get) = [] then return some root else throw .malformed

/-- The node of the tokens of a text. -/
def ofTokens (ts : List Token) : Except Fault (Option Node) :=
  (document.run ts).map Prod.fst

end Node

end MigrationBench.Yaml
