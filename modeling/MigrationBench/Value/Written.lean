import MigrationBench.Fault
import MigrationBench.Value.Render

/-!
# Written values

Where a configuration or a fixture expects a text, any other value stands for its own text. Only a
value with a whole number that is too long to be written has none.

* `Value.isWritable` — whether a value has a text.
* `Value.written` — the text, or the fault that there is none.
-/

namespace MigrationBench.Value

mutual

/-- Whether a value has a text: no whole number in it has too many digits. -/
def isWritable : Value → Bool
  | int i => Digits.isWritable i.natAbs
  | list items => areWritable items
  | map entries => areWritableEntries entries
  | _ => true

/-- Whether the items of a list have texts. -/
def areWritable : List Value → Bool
  | [] => true
  | v :: rest => isWritable v && areWritable rest

/-- Whether the keys and the values of a mapping have texts. -/
def areWritableEntries : List (Value × Value) → Bool
  | [] => true
  | (k, v) :: rest => isWritable k && isWritable v && areWritableEntries rest

end

/-- The text of a value on its own. -/
def written (v : Value) : Except Fault String :=
  if v.isWritable then .ok v.render else .error .longNumber

end MigrationBench.Value
