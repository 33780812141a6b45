import MigrationBench.Authoring.Policy
import MigrationBench.Path.Name
import MigrationBench.Time.Stamp

/-!
# Revisions

A revision is a point in the history of a repository. Revisions are immutable; the labels of a
revision are those that its message declares.

* `Draft` — the fields of a revision before they are checked.
* `Revision`, `Revision.build` — a checked revision.
* `Override`, `Revision.override` — the same revision with one field changed.
* `Revision.same`, `Revision.distinct` — equality of revisions.
-/

namespace MigrationBench

/-- The author of revisions that name none. -/
def Author.placeholder : Author := ⟨"Dummy Author", "no-reply@dummy.com"⟩

/-- The base path of a revision: derived from its reference, given, or missing. -/
inductive BaseChoice where
  | derived
  | given (path : PathName)
  | missing
deriving DecidableEq, Repr

/-- The fields of a revision before they are checked; `none` stands for a field that is missing. -/
structure Draft where
  reference : Option String
  message : Option String := some "DummyReference message"
  author : Option Author := some Author.placeholder
  changesBase : BaseChoice := .derived
  timestamp : Option Stamp := none
  contextReference : Option String := none
  referenceLabels : Option LabelMap := some LabelMap.empty
  matchesGlob : Option Bool := some true
deriving DecidableEq

/-- A revision. `descriptionLabels` are the labels that the message declares; `matchesGlob` says
whether the origin's file pattern selects the revision, where that is known. -/
structure Revision where
  reference : String
  message : String
  author : Author
  changesBase : PathName
  timestamp : Option Stamp
  contextReference : Option String
  referenceLabels : LabelMap
  matchesGlob : Option Bool
  descriptionLabels : LabelMap
  reference_ne : reference ≠ ""
  labels_eq : LabelMap.ofMessage message = .ok descriptionLabels

namespace Revision

/-- The name of the label that records a revision in the messages of a destination. -/
def labelName : String := "DummyOrigin-RevId"

/-- The directory under which base paths are derived. -/
def baseDirectory : PathName := PathName.ofString "/DummyReference"

/-- The base path of a draft with a reference. -/
def basePath? (reference : String) : BaseChoice → Option PathName
  | .derived => some (baseDirectory.below reference)
  | .given path => some path
  | .missing => none

/-- A field that has to be there. -/
def require {α : Type} (field : RevisionField) : Option α → Except RevisionFault α
  | some value => .ok value
  | none => .error (.argument (.missingField field))

/-- The outcome of reading labels, with the fact that it is the outcome. -/
def checkedLabels : (outcome : Except LabelMap.Repeated LabelMap) →
    Except RevisionFault { m : LabelMap // outcome = .ok m }
  | .ok labels => .ok ⟨labels, rfl⟩
  | .error cause => .error (.repeatedLabel cause)

/-- The revision of a draft. Missing fields are found first, then an empty reference, then a label
that the message declares twice. -/
def build (d : Draft) : Except RevisionFault Revision := do
  let reference ← require .reference d.reference
  let message ← require .message d.message
  let author ← require .author d.author
  let changesBase ← require .changesBase (basePath? reference d.changesBase)
  let referenceLabels ← require .referenceLabels d.referenceLabels
  if h : reference = "" then
    .error (.argument .emptyReference)
  else
    let labels ← checkedLabels (LabelMap.ofMessage message)
    .ok {
      reference, message, author, changesBase, referenceLabels
      timestamp := d.timestamp
      contextReference := d.contextReference
      matchesGlob := d.matchesGlob
      descriptionLabels := labels.1
      reference_ne := h
      labels_eq := labels.2 }

/-- The draft that a revision is built from. -/
def toDraft (r : Revision) : Draft where
  reference := some r.reference
  message := some r.message
  author := some r.author
  changesBase := .given r.changesBase
  timestamp := r.timestamp
  contextReference := r.contextReference
  referenceLabels := some r.referenceLabels
  matchesGlob := r.matchesGlob

end Revision

/-- A new value for one field of a revision. -/
inductive Override where
  | timestamp (value : Option Stamp)
  | author (value : Option Author)
  | message (value : Option String)
  | referenceLabels (value : Option LabelMap)
  | matchesGlob (value : Option Bool)
  | contextReference (value : Option String)
deriving DecidableEq

/-- A draft with one field changed. -/
def Override.apply (d : Draft) : Override → Draft
  | timestamp value => { d with timestamp := value }
  | author value => { d with author := value }
  | message value => { d with message := value }
  | referenceLabels value => { d with referenceLabels := value }
  | matchesGlob value => { d with matchesGlob := value }
  | contextReference value => { d with contextReference := value }

namespace Revision

/-- A revision with one field changed; the other one stays as it is. The base path is kept, and the
labels are those of the message that results. A context reference cannot be taken away. -/
def override (r : Revision) (o : Override) : Except RevisionFault Revision :=
  if o = .contextReference none then .error (.argument .noContextReference)
  else build (o.apply r.toDraft)

/-- Whether two timestamps, either of which may be unknown, are the same. -/
def sameTimestamp : Option Stamp → Option Stamp → Bool
  | none, none => true
  | some s, some t => s.same t
  | _, _ => false

/-- Whether two revisions are equal. Labels compare without order, and timestamps as in
`Stamp.same`. -/
def same (r s : Revision) : Bool :=
  r.reference == s.reference && r.message == s.message && r.author == s.author &&
    r.changesBase == s.changesBase && sameTimestamp r.timestamp s.timestamp &&
    r.contextReference == s.contextReference && r.referenceLabels.sameEntries s.referenceLabels &&
    r.matchesGlob == s.matchesGlob

/-- The first of each group of equal revisions. -/
def distinct (revisions : List Revision) : List Revision :=
  revisions.foldl (fun kept r => if kept.any (·.same r) then kept else kept ++ [r]) []

end Revision

end MigrationBench
