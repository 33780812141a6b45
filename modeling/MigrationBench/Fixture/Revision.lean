import MigrationBench.Revision.Basic
import MigrationBench.Time.Reader
import MigrationBench.Time.Seconds
import MigrationBench.Value.Written

/-!
# Revision fixtures

A revision described by the metadata and the content of a document: the metadata gives the fields,
the content is the message.

* `Fixture.timestamp` — the timestamp that a value stands for.
* `Fixture.revision` — the revision of a document.
-/

namespace MigrationBench.Fixture

/-- The timestamp that a value stands for: a date is its first moment in UTC, a number counts
seconds, a text is read. -/
def timestamp (v : Value) : Except Fault (Option Stamp) :=
  match v with
  | .null => .ok none
  | .stamp s => .ok (some s)
  | .date d => .ok (some (Stamp.ofDate d))
  | .int i => ((Stamp.ofSeconds i).map some).mapError .seconds
  | .float x => ((Stamp.ofFloat x).map some).mapError .seconds
  | .text s =>
    match Stamp.read? s with
    | some stamp => .ok (some stamp)
    | none => .error (.config (.badTimestamp s))
  | v => v.written.bind fun s => .error (.config (.badTimestamp s))

/-- The value of a key, where a value that is empty counts as absent. -/
def given? (entries : List (Value × Value)) (key : String) : Option Value :=
  (Value.get? entries key).filter Value.truthy

/-- The text of a value, unless there is none or it is null. -/
def text? : Option Value → Except Fault (Option String)
  | none | some .null => .ok none
  | some v => v.written.map some

/-- The reference: a value whose text is not blank. -/
def reference (entries : List (Value × Value)) : Except Fault String := do
  match ← text? (Value.get? entries "reference") with
  | some s => if Text.isBlankText s then throw (.config .noReference) else return s
  | none => throw (.config .noReference)

/-- The labels of the reference as they are given: the entries of a mapping. -/
def labelEntries (entries : List (Value × Value)) : Except Fault (List (Value × Value)) :=
  match given? entries "labels" with
  | none => .ok []
  | some (.map pairs) => .ok pairs
  | some _ => .error (.config .badLabels)

/-- The labels of the reference, each key and value by its text. -/
def labels (pairs : List (Value × Value)) : Except Fault LabelMap := do
  return LabelMap.ofPairs (← pairs.mapM fun p => do return (← p.1.written, ← p.2.written))

/-- Whether the file pattern selects the revision: a truth value, true if it is absent. -/
def globFlag (entries : List (Value × Value)) : Except Fault Bool :=
  match Value.get? entries "matches_glob" with
  | none => .ok true
  | some (.bool b) => .ok b
  | some v => v.written.bind fun s => .error (.config (.badGlobFlag s))

/-- The base path: a text, derived from the reference if it is absent. -/
def base (entries : List (Value × Value)) : Except Fault BaseChoice :=
  match given? entries "changes_base" with
  | none => .ok .derived
  | some v => if v.isText then .ok (.given (PathName.ofString v.render)) else .error .notPath

/-- The author: the text of a value, the placeholder if it is absent. -/
def author (entries : List (Value × Value)) : Except Fault Author :=
  match given? entries "author" with
  | none => .ok Author.placeholder
  | some v => v.written.bind fun s =>
    (Author.parse s).mapError fun cause => .config (.badRevision (.argument cause))

/-- The revision of a document. The fields are checked in this order: reference, kind of the labels,
file pattern, base path, author, timestamp, context reference, texts of the labels, and last the
labels of the message. -/
def revision (entries : List (Value × Value)) (content : String) : Except Fault Revision := do
  let reference ← reference entries
  let labelEntries ← labelEntries entries
  let matchesGlob ← globFlag entries
  let changesBase ← base entries
  let author ← author entries
  let timestamp ← timestamp ((Value.get? entries "timestamp").getD .null)
  let contextReference ← text? (Value.get? entries "context_reference")
  let labels ← labels labelEntries
  let draft : Draft := {
    reference := some reference
    message := some content
    author := some author
    changesBase
    timestamp
    contextReference
    referenceLabels := some labels
    matchesGlob := some matchesGlob }
  (Revision.build draft).mapError fun cause => .config (.badRevision cause)

end MigrationBench.Fixture
