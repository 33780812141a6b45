import MigrationBench.Value.Basic

/-!
# Tables of TOML

Tables under construction: the entries of mappings with text keys.

* `Toml.within?` — a change to the table that a path leads to; missing tables on the way are made.
* `Toml.insertNew?` — a new entry.
* `Toml.appendNew?` — a new table at the end of an array of tables.
-/

namespace MigrationBench.Toml

/-- The entries of a table under construction. -/
abbrev Table : Type := List (Value × Value)

/-- A table with an entry set. -/
def setEntry (t : Table) (name : String) (v : Value) : Table :=
  Value.insertKey Value.sameKey (.text name) v t

/-- A change to the table that a path leads to. Missing tables on the way are made. A path goes
through the last table of an array if `arrays` is set, and through nothing else. -/
def within? (arrays : Bool) (change : Table → Option Table) : List String → Table → Option Table
  | [], t => change t
  | name :: path, t =>
    match Value.get? t name with
    | none => (within? arrays change path []).map fun below => setEntry t name (.map below)
    | some (.map below) =>
      (within? arrays change path below).map fun below => setEntry t name (.map below)
    | some (.list items) =>
      match items.getLast? with
      | some (.map below) =>
        if arrays then
          (within? arrays change path below).map fun below =>
            setEntry t name (.list (items.dropLast ++ [.map below]))
        else none
      | _ => none
    | some _ => none

/-- The table with a new entry; a name that is there is no place for one. -/
def insertNew? (name : String) (v : Value) (t : Table) : Option Table :=
  match Value.get? t name with
  | none => some (setEntry t name v)
  | some _ => none

/-- The table with a new empty table at the end of an array of tables. -/
def appendNew? (name : String) (t : Table) : Option Table :=
  match Value.get? t name with
  | none => some (setEntry t name (.list [.map []]))
  | some (.list items) => some (setEntry t name (.list (items ++ [.map []])))
  | some _ => none

end MigrationBench.Toml
