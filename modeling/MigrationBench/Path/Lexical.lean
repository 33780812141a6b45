import MigrationBench.Path.Name

/-!
# Lexical paths

Paths compared by their texts alone: `..` removes the part before it, whatever the files are.

* `PathName.collapse` — parts without `..`.
* `PathName.absoluteParts` — the parts from the root of the file system.
* `PathName.relativeParts` — the way from one directory to another.
* `PathName.key` — the text by which a file below a root is remembered.
-/

namespace MigrationBench.PathName

/-- One more part: `..` removes the last one, if there is one. -/
def collapseStep (parts : List String) (part : String) : List String :=
  if part = ".." then parts.dropLast else parts ++ [part]

/-- The parts of an absolute path without `..`. -/
def collapse (parts : List String) : List String :=
  parts.foldl collapseStep []

/-- The parts of a path from the root of the file system, for a current directory. -/
def absoluteParts (cwd : List String) (p : PathName) : List String :=
  match p.root with
  | .relative => collapse (cwd ++ p.parts)
  | _ => collapse p.parts

/-- The parts that lead from a directory to a target: `..` for each part of the directory that the
target does not share, then the rest of the target. -/
def relativeParts : List String → List String → List String
  | [], target => target
  | base, [] => base.map fun _ => ".."
  | d :: base, t :: target =>
    if d = t then relativeParts base target
    else (d :: base).map (fun _ => "..") ++ t :: target

/-- The text of a relative path; the empty one is a point. -/
def joinParts (parts : List String) : String :=
  if parts = [] then "." else String.intercalate "/" parts

/-- The text by which `path` is remembered below `root`. -/
def key (cwd : List String) (root path : PathName) : String :=
  joinParts (relativeParts (absoluteParts cwd root) (absoluteParts cwd path))

end MigrationBench.PathName
