import MigrationBench.Revision.Change

/-!
# Histories

The revisions of an origin in the order in which they were added.

* `History` — the type; `History.add` and `History.addSimple` append.
* `History.resolve` — the revision of a reference.
* `History.changes` — the changes of a range.
-/

namespace MigrationBench

/-- The revisions of an origin, oldest first, and the author of its simple changes. -/
structure History where
  author : Option Author := some Author.placeholder
  revisions : List Revision := []

namespace History

/-- The number of revisions. -/
def size (h : History) : Nat :=
  h.revisions.length

/-- The history with a revision at its end. -/
def add (h : History) (r : Revision) : History :=
  { h with revisions := h.revisions ++ [r] }

/-- The message of a simple change that is given none. -/
def simpleMessage : String := "A change"

/-- The draft of a simple change: its reference is its position in the history. -/
def simpleDraft (h : History) (timestamp : Option Stamp := none)
    (message : Option String := some simpleMessage) (base : Option PathName := none) : Draft where
  reference := some (toString h.size)
  message := message
  author := h.author
  changesBase := base.elim .derived .given
  timestamp := timestamp

/-- The history with a simple change at its end. -/
def addSimple (h : History) (timestamp : Option Stamp := none)
    (message : Option String := some simpleMessage) (base : Option PathName := none) :
    Except RevisionFault History :=
  (Revision.build (h.simpleDraft timestamp message base)).map h.add

/-- The position of the first revision with a reference. -/
def position? (h : History) (reference : String) : Option Nat :=
  h.revisions.findIdx? (·.reference == reference)

/-- The position of the first revision with a reference, or the fault that there is none. -/
def position (h : History) (reference : String) : Except Fault Nat :=
  match h.position? reference with
  | some i => .ok i
  | none => .error (.unknownReference reference)

/-- The revision of a reference, or the last one without a reference. -/
def resolve (h : History) (reference : Option String) : Except Fault Revision :=
  match h.revisions.getLast? with
  | none => .error .noRevisions
  | some last =>
    match reference with
    | none => .ok last
    | some reference =>
      match h.revisions.find? (·.reference == reference) with
      | some r => .ok r
      | none => .error (.unknownReference reference)

/-- The change of a reference. -/
def change (h : History) (reference : Option String) (p : Policy) (zone : Offset) :
    Except Fault Change := do
  let r ← h.resolve reference
  r.toChange p zone

/-- The first position after a lower bound; without a bound the start. -/
def startOf (h : History) : Option String → Except Fault Nat
  | none => .ok 0
  | some reference => (h.position reference).map (· + 1)

/-- The first position after an upper bound; without a bound the end. -/
def stopOf (h : History) : Option String → Except Fault Nat
  | none => .ok h.size
  | some reference => (h.position reference).map (· + 1)

/-- The revisions after `start` and up to and including `stop` that the file pattern selects. -/
def selected (h : History) (start stop : Nat) : List Revision :=
  ((h.revisions.take stop).drop start).filter (·.matchesGlob == some true)

/-- The changes after one reference and up to and including another. The lower bound is resolved
first, then the upper one, then the revisions are projected in order. -/
def changes (h : History) (p : Policy) (zone : Offset) (lower upper : Option String) :
    Except Fault (List Change) := do
  let start ← h.startOf lower
  let stop ← h.stopOf upper
  (h.selected start stop).mapM (·.toChange p zone)

end History

end MigrationBench
