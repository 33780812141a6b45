import MigrationBench.Proofs.Revision.Equality

/-!
# What a projection asks and reads

A projection asks the policy about the author of the revision, once and before the date is looked at,
and about nobody if there is no timestamp to begin with. Of the policy only this answer and the default
author count, and of the revision only the reference, the message, the author and the instant of the
timestamp.

* `Revision.asked`, `Revision.project_run` — the addresses that a projection asks about, behind those
  that were asked before.
* `Revision.project_congr` — policies that agree on the author of the revision.
* `Revision.projection_depends` — **what a projection depends on**.
-/

namespace MigrationBench.Revision

open Stamp

/-- The addresses that a projection asks about: that of the author, if there is a timestamp. -/
def asked (r : Revision) : List String :=
  (r.timestamp.map fun _ => r.author.email).toList

theorem asked_eq (r : Revision) :
    r.asked = ((r.timestamp.map Stamp.instant).map fun _ => r.author.email).toList := by
  rw [asked, Option.map_map]
  rfl

theorem SameContent.asked {r s : Revision} (h : SameContent r s) : r.asked = s.asked := by
  rw [asked_eq, asked_eq, h.author, h.instant]

/-- A projection goes on where others have asked before, and has the same outcome wherever it starts. -/
theorem project_run (r : Revision) (p : Policy) (zone : Offset) (before : List String) :
    (r.project p zone).run.run before = (r.toChange p zone, before ++ r.asked) := by
  rw [toChange, projection, project, asked]
  cases r.timestamp with
  | none => rw [Option.map_none, Option.toList_none, List.append_nil]; rfl
  | some t =>
    dsimp only
    cases t.inZone? zone with
    | none => rfl
    | some dateTime => rfl

/-- Of a policy only the answer about the author and the default author count. -/
theorem project_congr (r : Revision) {p p' : Policy} (zone : Offset)
    (hkeeps : p'.keeps r.author.email = p.keeps r.author.email) (hfallback : p'.fallback = p.fallback) :
    r.project p' zone = r.project p zone := by
  rw [project, project, Policy.ask, Policy.ask, hkeeps, hfallback]

/-- **What a projection depends on.** Without a timestamp there is no change, and the policy is not
asked. With one it is asked once, about the address of the author, also if the date is out of range; the
change then has the author of the revision or, if he is not kept, the default author of the policy, the
reference and the message of the revision, and the labels that the message declares, line by line. A
policy with the same answer about this one address and the same default author makes no difference, and
neither does a revision that agrees in the reference, the message, the author and the timestamp: the
policy is asked the same, and the changes record the same or there is none by the same fault. -/
theorem projection_depends (r : Revision) (p : Policy) (zone : Offset) (before : List String) :
    (r.timestamp = none →
      (r.project p zone).run.run before = (.error (.noTimestamp r.reference), before)) ∧
    (∀ t, r.timestamp = some t → ∃ outcome,
      (r.project p zone).run.run before = (outcome, before ++ [r.author.email]) ∧
      (∀ fault, outcome = .error fault ↔
        (¬ InCalendar t.instant ∨ ¬ InCalendar (t.instant + zone.micros)) ∧ fault = .timeRange) ∧
      ∀ c, outcome = .ok c →
        c.author = (if p.keeps r.author.email then r.author else p.fallback) ∧
        c.ref = r.reference ∧ c.message = r.message ∧ c.labels.pairs = Label.pairsOfMessage r.message) ∧
    (∀ p' : Policy, p'.keeps r.author.email = p.keeps r.author.email → p'.fallback = p.fallback →
      (r.project p' zone).run.run before = (r.project p zone).run.run before) ∧
    ∀ s : Revision, SameContent r s →
      ((r.project p zone).run.run before).2 = ((s.project p zone).run.run before).2 ∧
      Steps.Alike Change.Agrees ((r.project p zone).run.run before).1
        ((s.project p zone).run.run before).1 := by
  refine ⟨fun ht => ?_, fun t ht => ?_, fun p' hkeeps hfallback => ?_, fun s hcontent => ?_⟩
  · have hnone : r.toChange p zone = .error (.noTimestamp r.reference) :=
      toChange_eq_error_iff.2 (.inl ⟨ht, rfl⟩)
    rw [project_run, hnone, asked, ht, Option.map_none, Option.toList_none, List.append_nil]
  · refine ⟨r.toChange p zone, ?_, fun fault => toChange_eq_error_iff_of_timestamp ht, fun c hc => ?_⟩
    · rw [project_run, asked, ht]
      rfl
    · obtain ⟨-, dateTime, -, -, rfl⟩ := toChange_eq_ok_iff.1 hc
      exact ⟨rfl, rfl, rfl, (LabelMap.ofMessage_eq_ok_iff.1 r.labels_eq).2⟩
  · rw [project_congr r zone hkeeps hfallback]
  · rw [project_run, project_run]
    exact ⟨congrArg (before ++ ·) hcontent.asked, hcontent.toChange_alike p zone⟩

/-- Half an hour before the end of the calendar, without an offset. -/
def lastNight : Stamp :=
  ⟨(Date.of? 9999 12 31).get rfl, (Clock.of? 23 30 0 0).get rfl, none⟩

/-- The revision of midnight with all else changed that a change is not made of. -/
def markedRevision : Revision :=
  { midnightRevision with
    changesBase := baseDirectory
    contextReference := some "main"
    referenceLabels := LabelMap.empty
    matchesGlob := none }

/-- The policy is asked about the author of a revision whose date one hour to the east is out of range;
and labels of the reference make no difference, nor do a base path, a reference it was asked for by, and
a file pattern. -/
theorem projection_depends_of_lastNight :
    ({ plainRevision with timestamp := some lastNight }.project
        ⟨fun _ => false, ⟨"Nobody", ""⟩⟩ hourEast).run.run ["first@example.com"]
      = (.error .timeRange, ["first@example.com", "no-reply@dummy.com"]) ∧
    Steps.Alike Change.Agrees
      ((midnightRevision.project ⟨fun _ => false, ⟨"Nobody", ""⟩⟩ hourEast).run.run []).1
      ((markedRevision.project ⟨fun _ => false, ⟨"Nobody", ""⟩⟩ hourEast).run.run []).1 := by
  constructor
  · obtain ⟨-, hdated, -, -⟩ := projection_depends { plainRevision with timestamp := some lastNight }
      ⟨fun _ => false, ⟨"Nobody", ""⟩⟩ hourEast ["first@example.com"]
    obtain ⟨outcome, hrun, hfails, -⟩ := hdated lastNight rfl
    have hlate : ¬ InCalendar (lastNight.instant + hourEast.micros) := by
      rw [inCalendar_iff]
      decide +kernel
    rw [hrun, (hfails .timeRange).2 ⟨.inr hlate, rfl⟩]
    rfl
  · obtain ⟨-, -, -, hcontent⟩ := projection_depends midnightRevision
      ⟨fun _ => false, ⟨"Nobody", ""⟩⟩ hourEast []
    have hsame : SameContent midnightRevision markedRevision := ⟨rfl, rfl, rfl, rfl⟩
    exact (hcontent markedRevision hsame).2

end MigrationBench.Revision
