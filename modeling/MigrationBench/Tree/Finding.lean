import MigrationBench.Path.Name
import MigrationBench.Text.Quoted

/-!
# Findings

What a check of a directory tree can find wrong, and how it is told.

* `Finding` — the causes.
* `Finding.kind`, `Finding.description`, `Finding.actual`, `Finding.expected?` — the parts told.
* `Finding.message` — the text.
-/

namespace MigrationBench

/-- What a check of a directory tree finds wrong. -/
inductive Finding where
  /-- A file that has to be there is not. -/
  | missing (path : PathName)
  /-- A file that must not be there is. -/
  | unexpected (path : PathName)
  /-- No check has verified a file. -/
  | unverified (key : String)
  /-- A file has other contents than expected. -/
  | contents (name actual expected : String)
  /-- A name is no symbolic link. -/
  | notLink (name : String)
  /-- A symbolic link does not lead to the expected target. -/
  | wrongTarget (name : String) (reached : PathName) (expected : String)
deriving DecidableEq, Repr

namespace Finding

/-- The word for the kind of a finding. -/
def kind : Finding → String
  | missing _ => "MissingFileError"
  | unexpected _ | unverified _ => "UnexpectedFileError"
  | contents .. => "ContentMismatchError"
  | notLink _ => "NotASymlinkError"
  | wrongTarget .. => "SymlinkTargetMismatchError"

/-- The statement that turned out not to be true. -/
def description : Finding → String
  | missing _ => "has file"
  | unexpected _ => "does not have file"
  | unverified _ => "contains no more files"
  | contents name _ _ => name ++ " file content equals"
  | notLink _ => "has symlink"
  | wrongTarget name _ _ => name ++ " points to expected target"

/-- What was there. -/
def actual : Finding → String
  | missing path | unexpected path => path.render
  | unverified key => key
  | contents _ actual _ => actual
  | notLink name => name
  | wrongTarget _ reached _ => reached.render

/-- What was expected, where the check compares. -/
def expected? : Finding → Option String
  | contents _ _ expected => some expected
  | wrongTarget _ _ expected => some expected
  | _ => none

/-- The text of a finding about the tree below `root`. -/
def message (root : PathName) (f : Finding) : String :=
  let opening := "Not true that <" ++ root.render ++ "> " ++ f.description
  match f.expected? with
  | some expected =>
    opening ++ ".\n  expected: " ++ Text.quote expected ++ "\n  but was:  " ++ Text.quote f.actual
  | none => opening ++ " <" ++ f.actual ++ ">"

/-- The parts of a finding by name, in the order in which they are told. -/
def parts (root : PathName) (f : Finding) : List (String × String) :=
  [("kind", f.kind), ("subject", root.render), ("description", f.description),
    ("actual", f.actual)] ++ f.expected?.toList.map fun expected => ("expected", expected)

end Finding

end MigrationBench
