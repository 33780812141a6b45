/-!
# Authoring modes

The three ways to choose the author of a migrated change.
-/

namespace MigrationBench

/-- How the author of a migrated change is chosen. -/
inductive Mode where
  /-- Every author is kept. -/
  | passThru
  /-- The default author is always used. -/
  | overwrite
  /-- Authors on a list are kept. -/
  | allowed
deriving DecidableEq, Repr

namespace Mode

/-- The modes in the order in which they are offered. -/
def all : List Mode := [passThru, overwrite, allowed]

/-- The word for a mode. -/
def word : Mode → String
  | passThru => "pass_thru"
  | overwrite => "overwrite"
  | allowed => "allowed"

/-- The mode with a given word. -/
def ofWord? (s : String) : Option Mode :=
  all.find? (·.word == s)

theorem mem_all (m : Mode) : m ∈ all := by cases m <;> simp [all]

theorem ofWord?_word (m : Mode) : ofWord? m.word = some m := by cases m <;> decide

/-- Only the words of the modes are read as modes. -/
theorem word_of_ofWord? {s : String} {m : Mode} (h : ofWord? s = some m) : m.word = s := by
  simpa using List.find?_some h

end Mode

end MigrationBench
