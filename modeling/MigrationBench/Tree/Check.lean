import MigrationBench.Files.Query
import MigrationBench.Path.Lexical
import MigrationBench.Text.Utf8
import MigrationBench.Tree.Finding

/-!
# Checks of a directory tree

Checks run one after another on the tree below a root. Every file that a check verifies is
remembered by its path from the root; the last check of all is that no other file is there.

* `Check` — the checks.
* `Strategy` — what happens when a check fails: the run stops, or the finding is recorded.
* `Inspection` — the tree under test; `Inspection.run` runs a check.
* `Progress` — what is remembered from check to check.
-/

namespace MigrationBench

/-- A check of a directory tree; the names are below its root. -/
inductive Check where
  /-- The files are there. -/
  | files (names : List String)
  /-- The files are not there. -/
  | noFiles (names : List String)
  /-- A file is there and has the contents. -/
  | file (name contents : String)
  /-- A name is a symbolic link to a file that is there. -/
  | symlink (name target : String)
  /-- Every regular file is verified. -/
  | noMoreFiles
deriving DecidableEq, Repr

/-- What happens when a check fails. -/
inductive Strategy where
  /-- The run stops. -/
  | raising
  /-- The finding is recorded, and the run goes on. -/
  | recording
deriving DecidableEq, Repr

/-- What is remembered from check to check: the paths verified so far, the findings recorded, and
what has been logged. -/
structure Progress where
  verified : List String := []
  findings : List Finding := []
  log : List String := []
deriving DecidableEq, Repr

/-- Why a run of checks stops. -/
inductive Halt where
  | finding (cause : Finding)
  | file (cause : FileFault)
deriving DecidableEq, Repr

/-- A step of a run of checks. -/
abbrev Checking (α : Type) : Type :=
  ExceptT Halt (StateM Progress) α

/-- The answer about a file, or the end of the run. -/
def Checking.ofFile {α : Type} : Except FileFault α → Checking α
  | .ok a => pure a
  | .error cause => throw (.file cause)

/-- The tree below a root, and what happens when a check of it fails. -/
structure Inspection where
  files : FileSystem
  strategy : Strategy
  root : PathName

namespace Inspection

/-- Logs a line. -/
def note (line : String) : Checking Unit :=
  modify fun p => { p with log := p.log ++ [line] }

/-- Reports a finding as the strategy demands. -/
def report (i : Inspection) (f : Finding) : Checking Unit := do
  note ("Check failed: " ++ f.message i.root)
  match i.strategy with
  | .raising => throw (.finding f)
  | .recording => modify fun p => { p with findings := p.findings ++ [f] }

/-- Whether a path leads to anything. -/
def isThere (i : Inspection) (path : PathName) : Checking Bool :=
  Checking.ofFile (i.files.exists? path)

/-- The text by which a path is remembered. -/
def key (i : Inspection) (path : PathName) : String :=
  PathName.key i.files.cwd i.root path

/-- Remembers that a path is verified. -/
def remember (i : Inspection) (path : PathName) : Checking Unit := do
  modify fun p => { p with verified := p.verified.insert (i.key path) }
  note ("Whitelisted " ++ i.key path ++ " under " ++ i.root.render)

/-- Reports a path that leads nowhere, and remembers it. -/
def verify (i : Inspection) (path : PathName) : Checking Unit := do
  unless ← i.isThere path do
    i.report (.missing path)
  i.remember path

/-- Verifies the contents of a file that is there. -/
def verifyContents (i : Inspection) (name : String) (path : PathName) (expected : String) :
    Checking Unit := do
  let bytes ← Checking.ofFile (i.files.read path)
  let actual := Utf8.decodeLossy bytes
  if actual ≠ expected then
    i.report (.contents name actual expected)

/-- Whether two paths lead to one file that is there. -/
def agree (i : Inspection) (p q : PathName) : Checking Bool := do
  if ← i.isThere p then
    if ← i.isThere q then
      Checking.ofFile (i.files.sameFile p q)
    else pure false
  else pure false

/-- Verifies that a name is a symbolic link to the file at a path. The target of the link is looked
for in the directory that the name is in. -/
def verifyLink (i : Inspection) (name target : String) (targetPath : PathName) : Checking Unit := do
  let path := i.root.below name
  match ← Checking.ofFile (i.files.linkTarget? path) with
  | none => i.report (.notLink name)
  | some link =>
    let reached := path.parent.below link
    unless ← i.agree reached targetPath do
      i.report (.wrongTarget name reached target)

/-- Reports a file that is not verified. -/
def reportUnverified (i : Inspection) (location : List String) : Checking Unit := do
  let key := PathName.joinParts location
  unless (← get).verified.contains key do
    i.report (.unverified key)

/-- Runs a check. -/
def run (i : Inspection) : Check → Checking Unit
  | .files names => names.forM fun name => i.verify (i.root.below name)
  | .noFiles names => names.forM fun name => do
    if ← i.isThere (i.root.below name) then
      i.report (.unexpected (i.root.below name))
  | .file name contents => do
    i.verify (i.root.below name)
    if ← i.isThere (i.root.below name) then
      i.verifyContents name (i.root.below name) contents
  | .symlink name target => do
    i.verify (i.root.below target)
    i.verifyLink name target (i.root.below target)
  | .noMoreFiles => (i.files.walk i.root).forM fun visit => do
    i.reportUnverified (← Checking.ofFile visit)

/-- Runs checks in order. -/
def runAll (i : Inspection) (checks : List Check) : Checking Unit :=
  checks.forM i.run

/-- The outcome of checks and what is remembered after them. -/
def outcome (i : Inspection) (checks : List Check) (p : Progress) : Except Halt Unit × Progress :=
  (i.runAll checks).run.run p

end Inspection

end MigrationBench
