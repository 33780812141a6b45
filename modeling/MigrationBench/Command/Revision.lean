import MigrationBench.Authoring.Load
import MigrationBench.Command.Output
import MigrationBench.Fixture.Load
import MigrationBench.Revision.Change

/-!
# The revision command

Shows the change that a revision fixture becomes.

* `RevisionRequest` — what is asked for.
* `RevisionRequest.run` — the report, with what has been logged.
-/

namespace MigrationBench

/-- What is asked for: a fixture file, a file with a policy, and the form of the report. -/
structure RevisionRequest where
  fixture : PathName
  authoring : Option PathName := none
  asJson : Bool := false
deriving DecidableEq, Repr

/-- Whether a fault is one of the program's own, which is shown; others end the program. -/
def Fault.isOwn : Fault → Bool
  | argument _ | repeatedLabel _ | config _ | noTimestamp _ | noRevisions
  | unknownReference _ => true
  | notALabel _ | timeRange | seconds _ | notPath | badMetadataKey | badDate | badNumber
  | longNumber | wideNumber | badJson | file _ => false

namespace RevisionRequest

/-- The labels of a map as an object. -/
def labelsDocument (labels : LabelMap) : Json.Document :=
  .ofPairs labels.pairs

/-- A text that may be missing. -/
def textOrNull : Option String → Json.Document
  | some s => .text s
  | none => .null

/-- A revision and its change as a document. -/
def document (r : Revision) (c : Change) : Json.Document :=
  .object [("ref", .text c.ref), ("label_name", .text Revision.labelName),
    ("author", .text c.author.render), ("date_time", .text c.dateTime.render),
    ("message", .text c.message), ("labels", labelsDocument c.labels),
    ("context_reference", textOrNull r.contextReference),
    ("associated_labels", labelsDocument r.referenceLabels)]

/-- The rows of labels in a table. -/
def labelRows (kind : String) (labels : LabelMap) : List (List String) :=
  labels.pairs.map fun p => [kind ++ " " ++ p.1, p.2]

/-- The row of a context reference, if it is not empty. -/
def contextRow : Option String → List (List String)
  | some s => if s = "" then [] else [["Context", s]]
  | none => []

/-- A revision and its change as a table. -/
def table (r : Revision) (c : Change) : Console.Item :=
  .table (Revision.labelName ++ ": " ++ c.ref) none
    ([["Author", c.author.render], ["Date", c.dateTime.render], ["Summary", c.firstLine]] ++
      contextRow r.contextReference ++ labelRows "Label" c.labels ++
      labelRows "Ref label" r.referenceLabels)

/-- The policy that is asked for; without one every author is kept. -/
def policy (r : RevisionRequest) (fs : FileSystem) : Except Fault Authoring :=
  match r.authoring with
  | some path => Authoring.load fs path
  | none => .ok (Authoring.passThru Author.placeholder)

/-- What has been logged about a revision. -/
def logOf (r : Revision) : List LogEntry :=
  if r.descriptionLabels.names = [] then []
  else
    let names := (Text.sortTexts r.descriptionLabels.names).map Text.quote
    [⟨.revision, "Extracted description labels [" ++ String.intercalate ", " names ++ "]"⟩]

/-- The report on a revision and its change. -/
def report (r : RevisionRequest) (revision : Revision) (c : Change) : Output :=
  if r.asJson then Output.ofDocument 0 (document revision c)
  else { exit := 0, console := [table revision c] }

/-- The report on a fault, if it is one of the program's own. -/
def faultReport (f : Fault) : Except Fault Output :=
  if f.isOwn then .ok { exit := 1, console := [.line (Output.badMark ++ f.message) .bad] }
  else .error f

/-- The report or the fault, and what has been logged. The policy is read first. -/
def attempt (r : RevisionRequest) (fs : FileSystem) (zone : Offset) :
    Except Fault Output × List LogEntry :=
  match r.policy fs with
  | .error f => (.error f, [])
  | .ok authoring =>
    match Fixture.load fs r.fixture with
    | .error f => (.error f, [])
    | .ok revision =>
      ((revision.toChange authoring.policy zone).map (r.report revision), logOf revision)

/-- The report, and what has been logged. -/
def run (r : RevisionRequest) (fs : FileSystem) (zone : Offset) :
    Except Fault Output × List LogEntry :=
  let (result, log) := r.attempt fs zone
  (result.tryCatch faultReport, log)

end RevisionRequest

end MigrationBench
