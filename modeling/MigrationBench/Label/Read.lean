import MigrationBench.Fault

/-!
# Reading single label lines

* `Label.parse` — the label that a line is, or the fault that it is none.
* `Label.isNamed` — whether a line is a label with a given name.
-/

namespace MigrationBench.Label

/-- The label that a line is, or the fault that it is none. -/
def parse (line : String) : Except Fault Label :=
  match parse? line with
  | some label => .ok label
  | none => .error (.notALabel line)

/-- Whether a line is a label with a given name. -/
def isNamed (line name : String) : Bool :=
  (parse? line).any (·.name == name)

end MigrationBench.Label
