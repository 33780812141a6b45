import MigrationBench.Command.Output
import MigrationBench.Tree.Check

/-!
# The tree command

Runs checks on a directory tree and reports every finding.

* `TreeRequest` — the checks as they are asked for.
* `TreeRequest.checks` — the checks.
* `TreeRequest.run` — the report, with what has been logged.
* `TreeRequest.exit` — the exit status, once the report is shown on a console.
-/

namespace MigrationBench

/-- The options whose values are pairs. -/
inductive PairOption where
  | content
  | symlink
deriving DecidableEq, Repr

/-- The name of an option whose values are pairs. -/
def PairOption.name : PairOption → String
  | content => "--content"
  | symlink => "--symlink"

/-- Why the tree command gives no report: the value of an option is no pair, or a file cannot be
read. -/
inductive TreeFault where
  | notPair (option : PairOption) (text : String)
  | halt (cause : Halt)
deriving DecidableEq, Repr

/-- Whether a fault lies in a value: in a text that is no pair, or in a name or in bytes that the checks
are given. -/
def TreeFault.isBadValue : TreeFault → Bool
  | notPair .. => true
  | halt (.file cause) => cause.isBadValue
  | halt (.finding _) => false

/-- The text of the fault that the value of an option is no pair. -/
def PairOption.complaint (option : PairOption) (text : String) : String :=
  option.name ++ " expects NAME=VALUE, got '" ++ text ++ "'"

/-- The checks that are asked for, each kind in order; pairs are not split yet. -/
structure TreeRequest where
  root : PathName
  files : List String := []
  contents : List String := []
  symlinks : List String := []
  absent : List String := []
  exact : Bool := false
  asJson : Bool := false
deriving DecidableEq, Repr

/-- The name and the value of a pair `NAME=VALUE`, split at its first equals sign. -/
def splitPair? (text : String) : Option (String × String) :=
  let name := text.toList.takeWhile (· != '=')
  match text.toList.dropWhile (· != '=') with
  | '=' :: value => if name = [] then none else some (String.ofList name, String.ofList value)
  | _ => none

/-- The name and the value of a pair, or the fault that the text is none. -/
def splitPair (option : PairOption) (text : String) : Except TreeFault (String × String) :=
  match splitPair? text with
  | some pair => .ok pair
  | none => .error (.notPair option text)

namespace TreeRequest

/-- The checks of a request in the order in which they are run. The pairs are split first, contents
before links. -/
def checks (r : TreeRequest) : Except TreeFault (List Check) := do
  let contents ← r.contents.mapM (splitPair .content)
  let symlinks ← r.symlinks.mapM (splitPair .symlink)
  return [.files r.files] ++ contents.map (fun p => .file p.1 p.2) ++
    symlinks.map (fun p => .symlink p.1 p.2) ++ [.noFiles r.absent] ++
    if r.exact then [.noMoreFiles] else []

/-- The findings as a document. -/
def document (root : PathName) (findings : List Finding) : Json.Document :=
  .list (findings.map fun f => .ofPairs (f.parts root))

/-- The row of a finding in a table. -/
def row (f : Finding) : List String :=
  [f.kind, f.description, f.expected?.getD "", f.actual]

/-- What is shown of a run of checks. -/
def shown (root : PathName) (p : Progress) : List Console.Item :=
  if p.findings = [] then
    [.line (Output.goodMark ++ root.render ++ ": " ++ toString p.verified.length ++
      " file(s) verified") .good]
  else
    [.table ("Tree check failures for " ++ root.render)
        (some ["Kind", "Check", "Expected", "Actual"]) (p.findings.map row),
      .line (Output.badMark ++ toString p.findings.length ++ " check(s) failed") .bad]

/-- The report on a run of checks. The exit status tells whether there are findings. -/
def report (r : TreeRequest) (p : Progress) : Output :=
  let exit := if p.findings = [] then 0 else 1
  if r.asJson then Output.ofDocument exit (document r.root p.findings)
  else { exit, console := shown r.root p }

/-- The tree under test; findings are recorded. -/
def inspection (r : TreeRequest) (fs : FileSystem) : Inspection where
  files := fs
  strategy := .recording
  root := r.root

/-- The report, and what has been logged. -/
def run (r : TreeRequest) (fs : FileSystem) : Except TreeFault Output × List LogEntry :=
  match r.checks with
  | .error fault => (.error fault, [])
  | .ok checks =>
    let (outcome, progress) := (r.inspection fs).outcome checks {}
    ((outcome.map fun _ => r.report progress).mapError .halt,
      progress.log.map fun message => ⟨.tree, message⟩)

/-- The exit status of the command, once its report is shown on a console. -/
def exit {ε : Type} (r : TreeRequest) (fs : FileSystem) (console : Console ε) :
    Except (TreeFault ⊕ ε) Nat := do
  let out ← (r.run fs).1.mapError .inl
  (out.shown console).mapError .inr

end TreeRequest

end MigrationBench
