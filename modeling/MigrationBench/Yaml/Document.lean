import MigrationBench.Yaml.Meaning

/-!
# YAML documents

* `Yaml.sameKey` — which keys of a mapping are the same.
* `Yaml.Node.toValue` — the value of a node.
* `Yaml.Node.faultsByDepth` — the faults in a node, those of the outer collections first.
* `Yaml.read` — the value of a document.
-/

namespace MigrationBench.Yaml

/-- Whether two keys of a mapping are the same. All the ways to write the float that is not a number
give one key. -/
def sameKey : Value → Value → Bool
  | .float .nan, .float .nan => true
  | k, l => k.sameKey l

namespace Node

/-- The value of a scalar. Scalars with marks are texts. -/
def scalarValue (text : String) (isPlain : Bool) : Except Fault Value :=
  if isPlain then meaning text else .ok (.text text)

/-- The value of a key: a scalar, where a lone `=` is a text. -/
def keyValue : Node → Except Fault Value
  | scalar text isPlain => if text = "=" then .ok (.text text) else scalarValue text isPlain
  | _ => .error .malformed

mutual

/-- The value of a node. A key set again keeps its place and takes the last value. -/
def toValue : Node → Except Fault Value
  | scalar text isPlain => scalarValue text isPlain
  | sequence items => (itemValues items).map .list
  | mapping entries => (entryValues entries).map (Value.mapOf sameKey)

/-- The values of the items of a sequence. -/
def itemValues : List Node → Except Fault (List Value)
  | [] => .ok []
  | item :: rest => do return (← toValue item) :: (← itemValues rest)

/-- The keys and values of a mapping. -/
def entryValues : List (Node × Node) → Except Fault (List (Value × Value))
  | [] => .ok []
  | (key, value) :: rest => do
    let key ← keyValue key
    return (key, ← toValue value) :: (← entryValues rest)

end

/-! ### The order of faults -/

/-- Faults by depth, those of a second part behind those of a first one. -/
def mergeDepths : List (List Fault) → List (List Fault) → List (List Fault)
  | [], ys => ys
  | xs, [] => xs
  | x :: xs, y :: ys => (x ++ y) :: mergeDepths xs ys

/-- The fault of a value, if it has one. -/
def faultOf : Except Fault Value → List Fault
  | .ok _ => []
  | .error f => [f]

mutual

/-- The faults in a node by depth. Values are made one collection after another, from the outside
in, so the faults of outer collections come first. -/
def faultsByDepth : Node → List (List Fault)
  | scalar text isPlain => [faultOf (scalarValue text isPlain)]
  | sequence items => [] :: itemFaults items
  | mapping entries => [] :: entryFaults entries

/-- The faults in the items of a sequence. -/
def itemFaults : List Node → List (List Fault)
  | [] => []
  | item :: rest => mergeDepths (faultsByDepth item) (itemFaults rest)

/-- The faults in the keys and values of a mapping. -/
def entryFaults : List (Node × Node) → List (List Fault)
  | [] => []
  | (key, value) :: rest =>
    mergeDepths [faultOf (keyValue key)] (mergeDepths (faultsByDepth value) (entryFaults rest))

end

/-- The value of a node, or the outermost of its faults. -/
def value (n : Node) : Except Fault Value :=
  match n.toValue, n.faultsByDepth.flatten with
  | .ok v, _ => .ok v
  | .error _, f :: _ => .error f
  | .error f, [] => .error f

end Node

/-- The value of a document; an empty text has the value null. -/
def read (text : List Char) : Except Fault Value := do
  match ← Node.ofTokens (← tokens text) with
  | some root => root.value
  | none => return .null

end MigrationBench.Yaml
