import MigrationBench.Revision.Basic
import MigrationBench.Text.Lines

/-!
# Changes

A change is a revision as a destination records it: with the author that the policy chooses and the
date in the local zone.

* `RevisionInfo` — what every kind of revision tells about itself.
* `Change`, `Change.summary` — the type and its one-line text.
* `Revision.project` — the change of a revision, with a record of what the policy is asked.
-/

namespace MigrationBench

/-- What every kind of revision tells about itself: its reference, the branch or tag it was asked
for by, and the labels attached to the reference. -/
structure RevisionInfo where
  reference : String
  contextReference : Option String := none
  associatedLabels : LabelMap := LabelMap.empty
deriving DecidableEq, Repr

/-- A revision as a destination records it. -/
structure Change where
  revision : RevisionInfo
  author : Author
  message : String
  dateTime : Stamp
  labels : LabelMap := LabelMap.empty
deriving DecidableEq, Repr

namespace Change

/-- The reference of the revision. -/
def ref (c : Change) : String :=
  c.revision.reference

/-- The first line of the message. -/
def firstLine (c : Change) : String :=
  Text.firstLine c.message

/-- The reference, the author, the date and the first line of the message, with blanks between. -/
def summary (c : Change) : String :=
  c.ref ++ " " ++ c.author.render ++ " " ++ c.dateTime.render ++ " " ++ c.firstLine

end Change

/-- A computation that may ask a policy; the state holds the addresses asked so far. -/
abbrev Asking (α : Type) : Type :=
  ExceptT Fault (StateM (List String)) α

/-- Asks a policy whether the author with an address is kept. -/
def Policy.ask (p : Policy) (email : String) : Asking Bool := do
  modify (· ++ [email])
  pure (p.keeps email)

namespace Revision

/-- What a revision tells about itself. -/
def info (r : Revision) : RevisionInfo where
  reference := r.reference
  contextReference := r.contextReference
  associatedLabels := r.referenceLabels

/-- The change of a revision under a policy, with the date at an offset. The policy is asked only
about revisions with a timestamp. -/
def project (r : Revision) (p : Policy) (zone : Offset) : Asking Change :=
  match r.timestamp with
  | none => throw (.noTimestamp r.reference)
  | some timestamp => do
    let kept ← p.ask r.author.email
    match timestamp.inZone? zone with
    | none => throw .timeRange
    | some dateTime =>
      pure {
        revision := r.info
        author := if kept then r.author else p.fallback
        message := r.message
        dateTime
        labels := r.descriptionLabels }

/-- The change of a revision and the addresses that the policy was asked about. -/
def projection (r : Revision) (p : Policy) (zone : Offset) : Except Fault Change × List String :=
  (r.project p zone).run.run []

/-- The change of a revision. -/
def toChange (r : Revision) (p : Policy) (zone : Offset) : Except Fault Change :=
  (r.projection p zone).1

end Revision

end MigrationBench
