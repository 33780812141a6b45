import MigrationBench.Fault
import MigrationBench.Files.Node

/-!
# File systems

* `Right`, `Identity` — what a process may do, and what tells one file from another.
* `FileSystem` — a tree of nodes, the contents of its files, the current directory and the rights that
  the process lacks.
* `FileSystem.node?` — the node at a location: the names of real directories from the top down.
* `FileSystem.allows`, `FileSystem.maySearch`, `FileSystem.mayList` — what the process may do.
* `FileSystem.Place` — where the resolution of a path ends.
-/

namespace MigrationBench

/-- What a process may do with a file or a directory. -/
inductive Right where
  /-- The contents may be read; those of a directory are the names in it. -/
  | read
  /-- Names may be looked up in a directory. -/
  | search
deriving DecidableEq, Repr

/-- What tells one file from another: the number of a file or a pipe, else the location. -/
inductive Identity where
  | serial (n : Nat)
  | location (names : List String)
deriving DecidableEq, Repr

/-- A file system as a process sees it: the entries of the top directory, the contents of the files by
their numbers, a number that no file has, the location of the current directory, which is there, and
the rights that the process does not have. -/
structure FileSystem where
  top : List (String × Node)
  contents : List (Nat × List UInt8)
  fresh : Nat
  cwd : List String
  denied : List (Right × Identity) := []
  top_sound : Node.soundEntries top = true
  cwd_there : ((Node.directory top).at? cwd).any Node.isDirectory = true

namespace FileSystem

/-- The directories along some names, with nothing else in them. -/
def chain : List String → List (String × Node)
  | [] => []
  | name :: rest => [(name, .directory (chain rest))]

/-- An empty file system with a current directory, which is there. -/
def empty (cwd : List String) (h : cwd.all Node.isEntryName = true) : FileSystem where
  top := chain cwd
  contents := []
  fresh := 0
  cwd := cwd
  top_sound := by
    induction cwd with
    | nil => rfl
    | cons name rest ih =>
      simp only [List.all_cons, Bool.and_eq_true] at h
      simp [chain, Node.soundEntries, Node.sound, h.1, ih h.2]
  cwd_there := by
    induction cwd with
    | nil => rfl
    | cons name rest ih =>
      simp only [List.all_cons, Bool.and_eq_true] at h
      simpa [chain, Node.at?, Node.entries] using ih h.2

/-- The whole tree. -/
def tree (fs : FileSystem) : Node :=
  .directory fs.top

/-- The node at a location. -/
def node? (fs : FileSystem) (location : List String) : Option Node :=
  fs.tree.at? location

/-- The bytes of the file with a number. -/
def bytesOf (fs : FileSystem) (serial : Nat) : List UInt8 :=
  (fs.contents.lookup serial).getD []

/-- The file system with another tree. The current directory cannot be taken away. -/
def withTree (fs : FileSystem) (tree : Node) (h : tree.sound = true) :
    Except FileFault FileSystem :=
  if hcwd : ((Node.directory tree.entries).at? fs.cwd).any Node.isDirectory = true then
    .ok { fs with
      top := tree.entries
      top_sound := by
        cases tree with
        | directory es => exact h
        | _ => rfl
      cwd_there := hcwd }
  else .error .denied

/-- The identity of a node at a location. -/
def identity (location : List String) : Node → Identity
  | .file n => .serial n
  | .pipe n => .serial n
  | _ => .location location

/-- Whether the process has a right to a file. -/
def allows (fs : FileSystem) (right : Right) (file : Identity) : Bool :=
  !fs.denied.contains (right, file)

/-- Whether names may be looked up in the directory at a location. -/
def maySearch (fs : FileSystem) (location : List String) : Bool :=
  fs.allows .search (.location location)

/-- Whether the names in the directory at a location may be listed. -/
def mayList (fs : FileSystem) (location : List String) : Bool :=
  fs.allows .read (.location location)

/-- A place that a path leads to, with the node there; there is none if only the last name is
missing. -/
structure Place where
  location : List String
  node : Option Node

end FileSystem

end MigrationBench
