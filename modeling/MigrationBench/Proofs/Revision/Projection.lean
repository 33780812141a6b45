import MigrationBench.Revision.Change
import MigrationBench.Proofs.Steps

/-!
# The change of a revision

* `Revision.changeAt` — the change with a date-time.
* `Revision.toChange_eq_ok_iff`, `Revision.toChange_eq_error_iff` — when there is a change, and when there
  is none.
-/

namespace MigrationBench.Revision

variable {r : Revision} {p : Policy} {zone : Offset} {c : Change} {fault : Fault}

/-- The change of a revision with a date-time: what the revision holds, and the author that the policy
chooses. -/
def changeAt (r : Revision) (p : Policy) (dateTime : Stamp) : Change where
  revision := r.info
  author := if p.keeps r.author.email then r.author else p.fallback
  message := r.message
  dateTime := dateTime
  labels := r.descriptionLabels

/-- A change needs a timestamp, and the timestamp at the offset. -/
theorem toChange_eq (r : Revision) (p : Policy) (zone : Offset) :
    r.toChange p zone =
      match r.timestamp with
      | none => .error (.noTimestamp r.reference)
      | some timestamp =>
        match timestamp.inZone? zone with
        | none => .error .timeRange
        | some dateTime => .ok (r.changeAt p dateTime) := by
  rw [toChange, projection, project]
  cases r.timestamp with
  | none => rfl
  | some timestamp =>
    dsimp only
    cases timestamp.inZone? zone with
    | none => rfl
    | some dateTime => rfl

theorem toChange_eq_ok_iff :
    r.toChange p zone = .ok c ↔ ∃ timestamp dateTime, r.timestamp = some timestamp ∧
      timestamp.inZone? zone = some dateTime ∧ c = r.changeAt p dateTime := by
  rw [toChange_eq]
  cases r.timestamp with
  | none => simp
  | some timestamp =>
    dsimp only
    cases hzone : timestamp.inZone? zone <;> simp [hzone, eq_comm]

/-- A change has the reference of its revision. -/
theorem ref_of_toChange (hc : r.toChange p zone = .ok c) : c.ref = r.reference := by
  obtain ⟨-, dateTime, -, -, rfl⟩ := toChange_eq_ok_iff.1 hc
  rfl

theorem toChange_eq_error_iff :
    r.toChange p zone = .error fault ↔
      r.timestamp = none ∧ fault = .noTimestamp r.reference ∨
      ∃ timestamp, r.timestamp = some timestamp ∧ timestamp.inZone? zone = none ∧ fault = .timeRange := by
  rw [toChange_eq]
  cases r.timestamp with
  | none => simp [eq_comm]
  | some timestamp =>
    dsimp only
    cases hzone : timestamp.inZone? zone <;> simp [hzone, eq_comm]

end MigrationBench.Revision
