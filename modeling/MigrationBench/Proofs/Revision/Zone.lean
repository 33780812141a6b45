import MigrationBench.Proofs.Revision.Override
import MigrationBench.Proofs.Revision.Projection
import MigrationBench.Proofs.Time.Instant

/-!
# The date of a change

A change tells the instant of its revision by the fields at the local offset. It fails where these
fields or those in UTC leave the calendar, and nothing of the instant is lost otherwise: it does not
depend on the offset, later revisions have later changes, and a revision that takes the date of its
change has the same change.

* `Revision.toChange_of_timestamp` — the change of a revision with a timestamp, by its instant.
* `Revision.date_of_change` — **the date of a change**.
-/

namespace MigrationBench.Revision

open Stamp

variable {r : Revision} {t : Stamp} {p : Policy} {zone : Offset} {c : Change}

/-- Of a timestamp only the instant counts for a change. -/
theorem toChange_of_timestamp (ht : r.timestamp = some t) (p : Policy) (zone : Offset) :
    r.toChange p zone =
      match ofInstant? t.instant zone with
      | some dateTime => .ok (r.changeAt p dateTime)
      | none => .error .timeRange := by
  rw [toChange_eq, ht]
  dsimp only
  rw [inZone?]
  cases ofInstant? t.instant zone <;> rfl

/-- The date of a change has the local offset and the instant of the timestamp. -/
theorem toChange_eq_ok_iff_of_timestamp (ht : r.timestamp = some t) :
    r.toChange p zone = .ok c ↔ InCalendar t.instant ∧ c.dateTime.offset = some zone ∧
      c.dateTime.instant = t.instant ∧ c = r.changeAt p c.dateTime := by
  rw [toChange_of_timestamp ht]
  constructor
  · intro h
    split at h
    · rename_i dateTime hdate
      cases h
      obtain ⟨hin, hoffset, hinstant⟩ := ofInstant?_eq_some_iff.1 hdate
      exact ⟨hin, hoffset, hinstant, rfl⟩
    · cases h
  · rintro ⟨hin, hoffset, hinstant, hchange⟩
    rw [ofInstant?_eq_some_iff.2 ⟨hin, hoffset, hinstant⟩]
    exact congrArg Except.ok hchange.symm

/-- There is no change if the fields in UTC or at the local offset leave the calendar, and for no other
reason. -/
theorem toChange_eq_error_iff_of_timestamp (ht : r.timestamp = some t) {fault : Fault} :
    r.toChange p zone = .error fault ↔
      (¬ InCalendar t.instant ∨ ¬ InCalendar (t.instant + zone.micros)) ∧ fault = .timeRange := by
  rw [toChange_of_timestamp ht, ← ofInstant?_eq_none_iff]
  cases ofInstant? t.instant zone <;> simp [eq_comm]

/-- **The date of a change.** A revision with a timestamp has no change if and only if the time in UTC,
or the time at the local offset, is none of the years 1 to 9999. Otherwise the date of the change has
the local offset and the instant of the timestamp, where a timestamp without offset is one in UTC; the
microseconds of the time stay what they are, if the offsets are whole seconds. So the dates at two local
offsets are the same time, the dates of two revisions are in the order of their timestamps, and the
revision that takes the date as its timestamp has a change with that very date. -/
theorem date_of_change (ht : r.timestamp = some t) (p : Policy) (zone : Offset) :
    (r.toChange p zone = .error .timeRange ↔
      ¬ InCalendar t.instant ∨ ¬ InCalendar (t.instant + zone.micros)) ∧
    (∀ fault, r.toChange p zone = .error fault → fault = .timeRange) ∧
    ∀ c, r.toChange p zone = .ok c →
      (c.dateTime.offset = some zone ∧ c.dateTime.instant = t.instant ∧
        (t.HasWholeOffset → zone.IsWhole → c.dateTime.clock.micro = t.clock.micro)) ∧
      (∀ p' zone' c', r.toChange p' zone' = .ok c' → c'.dateTime.same c.dateTime = true) ∧
      (∀ r' t' p' zone' c', Revision.timestamp r' = some t' → r'.toChange p' zone' = .ok c' →
        (c.dateTime.instant < c'.dateTime.instant ↔ t.instant < t'.instant)) ∧
      ∀ p', ∃ r' c', r.override (.timestamp (some c.dateTime)) = .ok r' ∧
        r'.toChange p' zone = .ok c' ∧ c'.dateTime = c.dateTime := by
  refine ⟨?_, fun fault h => ((toChange_eq_error_iff_of_timestamp ht).1 h).2, fun c hc => ?_⟩
  · rw [toChange_eq_error_iff_of_timestamp ht]
    exact and_iff_left rfl
  · obtain ⟨hin, hoffset, hinstant, -⟩ := (toChange_eq_ok_iff_of_timestamp ht).1 hc
    refine ⟨⟨hoffset, hinstant, fun hwhole hzone => ?_⟩, ?_, ?_, ?_⟩
    · have hlocal : c.dateTime.HasWholeOffset := by
        intro o ho
        rw [hoffset] at ho
        cases ho
        exact hzone
      have hmicro := micro_eq hlocal
      rw [hinstant, ← micro_eq hwhole] at hmicro
      exact Int.ofNat.inj hmicro
    · intro p' zone' c' hc'
      obtain ⟨-, hoffset', hinstant', -⟩ := (toChange_eq_ok_iff_of_timestamp ht).1 hc'
      rw [same_iff, hoffset, hoffset', hinstant, hinstant']
      exact ⟨rfl, rfl⟩
    · intro r' t' p' zone' c' ht' hc'
      obtain ⟨-, -, hinstant', -⟩ := (toChange_eq_ok_iff_of_timestamp ht').1 hc'
      rw [hinstant, hinstant']
    · intro p'
      have hallowed : (Override.timestamp (some c.dateTime)).IsAllowed := trivial
      obtain ⟨r', hr'⟩ := r.exists_override hallowed
      have ht' : r'.timestamp = some c.dateTime :=
        congrArg Draft.timestamp (override_eq_ok_iff.1 hr').2
      refine ⟨r', r'.changeAt p' c.dateTime, hr', ?_, rfl⟩
      rw [toChange_eq_ok_iff_of_timestamp ht', hinstant]
      exact ⟨hin, hoffset, hinstant, rfl⟩

/-- One hour to the east of UTC. -/
def hourEast : Offset := ⟨3600000000, by decide⟩

/-- Half an hour before midnight at the end of February 2024, without an offset. -/
def leapNight : Stamp :=
  ⟨(Date.of? 2024 2 29).get rfl, (Clock.of? 23 30 0 7).get rfl, none⟩

/-- The same time one hour to the east, where it is March. -/
def marchMorning : Stamp :=
  ⟨(Date.of? 2024 3 1).get rfl, (Clock.of? 0 30 0 7).get rfl, some hourEast⟩

/-- A change of the last night of February is dated in March one hour to the east. -/
theorem date_of_change_of_leapNight :
    ∃ c, { plainRevision with timestamp := some leapNight }.toChange ⟨fun _ => true, Author.placeholder⟩
      hourEast = .ok c ∧ c.dateTime = marchMorning := by
  obtain ⟨hfails, honly, hdate⟩ :=
    date_of_change (r := { plainRevision with timestamp := some leapNight }) rfl
      ⟨fun _ => true, Author.placeholder⟩ hourEast
  have hutc : InCalendar leapNight.instant := inCalendar_iff.2 (by decide +kernel)
  have hlocal : InCalendar (leapNight.instant + hourEast.micros) := inCalendar_iff.2 (by decide +kernel)
  have hsame : leapNight.instant = marchMorning.instant := by decide +kernel
  cases hc : { plainRevision with timestamp := some leapNight }.toChange ⟨fun _ => true, Author.placeholder⟩
      hourEast with
  | error fault =>
    rw [honly fault hc, hfails] at hc
    exact absurd hc (not_or.2 ⟨not_not.2 hutc, not_not.2 hlocal⟩)
  | ok c =>
    obtain ⟨⟨hoffset, hinstant, -⟩, -⟩ := hdate c hc
    exact ⟨c, rfl, eq_of_instant hoffset (hinstant.trans hsame)⟩

end MigrationBench.Revision
