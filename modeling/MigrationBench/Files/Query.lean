import MigrationBench.Files.Route
import MigrationBench.Path.Lexical

/-!
# Questions about files

* `FileSystem.exists?`, `FileSystem.linkTarget?` — a path that leads nowhere does not exist and is
  no link; a name that is too long leaves the question open, and so does a directory that may not be
  searched.
* `FileSystem.sameFile` — whether two paths lead to one file.
* `FileSystem.read` — the bytes of a file.
* `FileSystem.walk` — the regular files below a directory, as a walk along path texts meets them.
* `FileSystem.names` — the names in a directory.
-/

namespace MigrationBench.FileSystem

/-- Whether a path leads to anything. -/
def exists? (fs : FileSystem) (p : PathName) : Except FileFault Bool :=
  match fs.locate (.ofPath p) with
  | .ok _ => .ok true
  | .error cause => if cause.leavesOpen then .error cause else .ok false

/-- The target of the symbolic link that a path names, if it is one. -/
def linkTarget? (fs : FileSystem) (p : PathName) : Except FileFault (Option String) :=
  match fs.locateEntry (.ofPath p) with
  | .ok (_, .link target) => .ok (some target)
  | .ok _ => .ok none
  | .error cause => if cause.leavesOpen then .error cause else .ok none

/-- Whether two paths lead to one file. Both have to lead somewhere. -/
def sameFile (fs : FileSystem) (p q : PathName) : Except FileFault Bool := do
  let (a, nodeA) ← fs.locate (.ofPath p)
  let (b, nodeB) ← fs.locate (.ofPath q)
  pure (identity a nodeA == identity b nodeB)

/-- The bytes of the file that a path leads to. -/
def read (fs : FileSystem) (p : PathName) : Except FileFault (List UInt8) := do
  let (location, node) ← fs.locate (.ofPath p)
  if fs.allows .read (identity location node) then
    match node with
    | .file serial => pure (fs.bytesOf serial)
    | .directory _ => throw .isDirectory
    | _ => pure []
  else throw .denied

/-- The size in bytes of the text by which a walk of `root` enters a directory below it. A root that
is written as a point keeps the point. -/
def entrySize (root : PathName) (directories : List String) : Nat :=
  (root.below (PathName.joinParts directories)).render.utf8ByteSize +
    if root.render = "." ∧ directories ≠ [] then 2 else 0

/-- Whether a walk of the directory at `top` may list the one that some names lead to from it: every
directory on the way may be listed, and all but the last one searched. -/
def mayEnter (fs : FileSystem) (top : List String) : List String → Bool
  | [] => fs.mayList top
  | name :: rest => fs.mayList top && fs.maySearch top && mayEnter fs (top ++ [name]) rest

/-- Whether a walk of `root`, which leads to `top`, lists the directory that some names lead to from
there. A directory whose text is too long is passed over, and so is one that may not be listed. -/
def enters (fs : FileSystem) (root : PathName) (top names : List String) : Bool :=
  entrySize root names < Route.sizeLimit && fs.mayEnter top names

/-- The location of something that is no directory, if it is a regular file. -/
def regular? : List String × Node → Option (List String)
  | (location, .file _) => some location
  | _ => none

/-- What a walk of `root`, which leads to `top`, makes of something that is no directory. In a directory
that it lists each name has to have a path text that is not too long, and it is looked up. -/
def visit (fs : FileSystem) (root : PathName) (top : List String) (leaf : List String × Node) :
    Option (Except FileFault (List String)) :=
  if fs.enters root top leaf.1.dropLast = false then none
  else if Route.sizeLimit ≤ (root.below (PathName.joinParts leaf.1)).render.utf8ByteSize then
    some (.error .nameTooLong)
  else if fs.maySearch (top ++ leaf.1.dropLast) = false then some (.error .denied)
  else (regular? leaf).map .ok

/-- The locations of the regular files below the directory that a path leads to, in the order of a
walk, with the faults on the way. Anything else has no files below it; only a name that cannot be is
a fault. -/
def walk (fs : FileSystem) (p : PathName) : List (Except FileFault (List String)) :=
  match fs.locate (.ofPath p) with
  | .ok (top, node) => node.leaves.filterMap (fs.visit p top)
  | .error .badName => [.error .badName]
  | .error _ => []

/-- The names in the directory that a path leads to, in order; anything else has none, and so has a
directory that may not be listed. -/
def names (fs : FileSystem) (p : PathName) : Except FileFault (List String) :=
  match fs.locate (.ofPath p) with
  | .ok (location, node) =>
    .ok (if fs.mayList location then Text.sortTexts (node.entries.map Prod.fst) else [])
  | .error cause => if cause.leavesOpen then .error cause else .ok []

end MigrationBench.FileSystem
