import MigrationBench.Number.Binary64
import MigrationBench.Number.Hexadecimal
import MigrationBench.Time.Stamp

/-!
# Dynamic values

The values that configuration files and front matter hold.

* `Value` — the type.
* `Value.ofCodes` — the text with given character numbers.
* `Value.truthy` — whether a value counts as given where "empty" means "absent".
* `Value.sameKey` — equality of the keys of a mapping.
* `Value.insertKey`, `Value.mapOf`, `Value.get?` — mappings in insertion order.
-/

namespace MigrationBench

/-- A value of a data file. The entries of a mapping are in insertion order. A text in which half a
surrogate pair stands alone is no `String`, and is kept by the numbers of its characters. -/
inductive Value where
  | null
  | bool (b : Bool)
  | int (i : Int)
  | float (x : Binary64)
  | text (s : String)
  | brokenText (codes : List Nat)
  | date (d : Date)
  | clock (c : Clock)
  | stamp (s : Stamp)
  | list (items : List Value)
  | map (entries : List (Value × Value))
deriving Repr

namespace Value

/-- The text with given character numbers. -/
def ofCodes (codes : List Nat) : Value :=
  match codes.mapM Hex.charOf? with
  | some cs => text (String.ofList cs)
  | none => brokenText codes

/-- Whether a value is a text. -/
def isText : Value → Bool
  | text _ | brokenText _ => true
  | _ => false

/-- Whether a value is more than an empty one: not null, false, zero or without content. -/
def truthy : Value → Bool
  | null => false
  | bool b => b
  | int i => i != 0
  | float x => !x.isZero
  | text s => s != ""
  | list items => !items.isEmpty
  | map entries => !entries.isEmpty
  | brokenText _ | date _ | clock _ | stamp _ => true

/-- The whole number that a value is as a key; truth values count as zero and one. -/
def keyInt? : Value → Option Int
  | bool b => some (if b then 1 else 0)
  | int i => some i
  | _ => none

/-- Whether two values are the same key. Numbers and truth values compare by their numeric value,
date-times as in `Stamp.same`. A float that is not a number differs from every key. -/
def sameKey : Value → Value → Bool
  | null, null => true
  | text s, text t => s == t
  | brokenText s, brokenText t => s == t
  | date d, date e => d == e
  | clock c, clock d => c == d
  | stamp s, stamp t => s.same t
  | float x, float y => x.equals y
  | float x, v => v.keyInt?.any x.equalsInt
  | v, float x => v.keyInt?.any x.equalsInt
  | v, w =>
    match v.keyInt?, w.keyInt? with
    | some i, some j => i == j
    | _, _ => false

/-- The entries with a key set, where `same` tells which keys are the same. A key that is there
keeps its place and its form. -/
def insertKey (same : Value → Value → Bool) (key value : Value) :
    List (Value × Value) → List (Value × Value)
  | [] => [(key, value)]
  | (k, v) :: rest =>
    if same k key then (k, value) :: rest else (k, v) :: insertKey same key value rest

/-- The mapping that results from setting keys one after another. -/
def mapOf (same : Value → Value → Bool) (pairs : List (Value × Value)) : Value :=
  map (pairs.foldl (fun entries p => insertKey same p.1 p.2 entries) [])

/-- The value of a text key. -/
def get? (entries : List (Value × Value)) (key : String) : Option Value :=
  (entries.find? fun p => sameKey p.1 (text key)).map Prod.snd

end Value

end MigrationBench
