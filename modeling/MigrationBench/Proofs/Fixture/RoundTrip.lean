import MigrationBench.Proofs.Fixture.Instants

/-!
# Texts of date-times as timestamps

The text of a date-time is a timestamp of a fixture, and gives back every field of the date-time. So a
fixture that takes the date of a change as its timestamp has a change with that date.

* `Fixture.timestamp_render`, `Fixture.timestamp_zulu` — the text of a date-time between blanks, and the
  text with the letter for UTC.
* `Revision.exists_toChange_of_date` — a revision that takes the date of a change has a change with that date.
* `Fixture.date_text_roundTrip` — **the round trip** of the text of a date-time.
-/

namespace MigrationBench

open Text

variable {front behind : String} {s : Stamp}

/-! ### Texts as timestamps -/

namespace Fixture

open Stamp

/-- **The text of a date-time** between blanks is a timestamp. -/
theorem timestamp_render (hfront : isBlankText front = true) (hbehind : isBlankText behind = true)
    (h : s.HasWholeOffset) : Fixture.timestamp (.text (front ++ s.render ++ behind)) = .ok (some s) := by
  apply timestamp_of_read
  rw [read?_append_blanks hfront hbehind, read?_render h]

/-- **The text of a date-time in UTC**, with the letter for the offset of zero at its end, is a
timestamp as well. -/
theorem timestamp_zulu (hfront : isBlankText front = true) (hbehind : isBlankText behind = true)
    (h : s.offset = some Offset.utc) : ∃ base, s.render = base ++ "+00:00" ∧
      Fixture.timestamp (.text (front ++ (base ++ "Z") ++ behind)) = .ok (some s) := by
  have hutc : { { s with offset := none } with offset := some Offset.utc } = s := by
    rw [← h]
  refine ⟨{ s with offset := none }.render, ?_, timestamp_of_read ?_⟩
  · have hchars := chars_utc (s := { s with offset := none }) rfl
    rw [hutc] at hchars
    rw [render, render, hchars, String.ofList_append]
  · rw [read?_append_blanks hfront hbehind, read?_zulu rfl, hutc]

end Fixture

/-! ### Dates of changes -/

namespace Revision

variable {r r' : Revision} {p : Policy} {zone : Offset} {c : Change}

/-- The date of a change has the offset that it is asked for. -/
theorem offset_of_toChange (h : r.toChange p zone = .ok c) : c.dateTime.offset = some zone := by
  obtain ⟨t, -, ht, -⟩ := toChange_eq_ok_iff.1 h
  exact ((toChange_eq_ok_iff_of_timestamp ht).1 h).2.1

/-- A revision that takes the date of a change as its timestamp has a change with that date. -/
theorem exists_toChange_of_date (h : r.toChange p zone = .ok c) (ht' : r'.timestamp = some c.dateTime)
    (p' : Policy) : ∃ c', r'.toChange p' zone = .ok c' ∧ c'.dateTime = c.dateTime := by
  obtain ⟨t, -, ht, -⟩ := toChange_eq_ok_iff.1 h
  obtain ⟨hin, hoffset, hinstant, -⟩ := (toChange_eq_ok_iff_of_timestamp ht).1 h
  refine ⟨r'.changeAt p' c.dateTime, ?_, rfl⟩
  rw [toChange_eq_ok_iff_of_timestamp ht', hinstant]
  exact ⟨hin, hoffset, hinstant, rfl⟩

end Revision

namespace Fixture

/-- **The round trip** of the text of a date-time. The text of a date-time with any offset of whole
seconds, or without an offset, is read back as that very date-time, also between blanks; so is the text
with the letter `Z` for the offset of zero at its end. A fixture that takes the text of the date of a
change as its timestamp, and is otherwise as it should be, describes a revision with that date as its
timestamp, and under every policy the change of this revision at the same offset has the same date. -/
theorem date_text_roundTrip :
    (∀ (s : Stamp) (front behind : String), isBlankText front = true → isBlankText behind = true →
      s.HasWholeOffset → Fixture.timestamp (.text (front ++ s.render ++ behind)) = .ok (some s) ∧
        (s.offset = some Offset.utc → ∃ base, s.render = base ++ "+00:00" ∧
          Fixture.timestamp (.text (front ++ (base ++ "Z") ++ behind)) = .ok (some s))) ∧
    ∀ (r : Revision) p (zone : Offset) c, zone.IsWhole → r.toChange p zone = .ok c →
      ∀ (entries entries' : List (Value × Value)) content front behind r₀,
        isBlankText front = true → isBlankText behind = true →
        (∀ key ≠ "timestamp", Value.get? entries' key = Value.get? entries key) →
        timestampValue entries' = .text (front ++ c.dateTime.render ++ behind) →
        revision entries content = .ok r₀ →
        revision entries' content = .ok { r₀ with timestamp := some c.dateTime } ∧
          ∀ p', ∃ c', { r₀ with timestamp := some c.dateTime }.toChange p' zone = .ok c' ∧
            c'.dateTime = c.dateTime := by
  refine ⟨fun s front behind hfront hbehind hwhole =>
    ⟨timestamp_render hfront hbehind hwhole, timestamp_zulu hfront hbehind⟩, ?_⟩
  intro r p zone c hzone hc entries entries' content front behind r₀ hfront hbehind hothers htext hr₀
  have hwhole : c.dateTime.HasWholeOffset := by
    intro o ho
    rw [Revision.offset_of_toChange hc] at ho
    cases ho
    exact hzone
  have ht' : Fixture.timestamp (timestampValue entries') = .ok (some c.dateTime) := by
    rw [htext]
    exact timestamp_render hfront hbehind hwhole
  refine ⟨?_, Revision.exists_toChange_of_date hc rfl⟩
  rw [revision_of_timestamps hothers (revision_eq_ok_iff.1 hr₀).timestamp ht', hr₀, Except.map]

/-- The second microsecond of the calendar, far to the west. -/
def firstSecond : Stamp :=
  ⟨(Date.of? 1 1 1).get rfl, (Clock.of? 0 0 0 1).get rfl, some ⟨-86399000000, by decide⟩⟩

/-- It is read back between blanks, and so is the date of a change, one hour to the east, in a fixture. -/
theorem date_text_roundTrip_of_firstSecond :
    Fixture.timestamp (.text "\u2003\t0001-01-01T00:00:00.000001-23:59:59\n") = .ok (some firstSecond) ∧
    ∃ r c, revision (postAt (.text " 1970-01-01T01:00:00+01:00\n")) "one" = .ok r ∧
      r.toChange ⟨fun _ => true, Author.placeholder⟩ Revision.hourEast = .ok c ∧ c.dateTime = epochEast := by
  obtain ⟨htimestamp, hchange⟩ := date_text_roundTrip
  have hwhole : firstSecond.HasWholeOffset := by
    intro o ho
    cases ho
    rfl
  have hfirst : firstSecond.render = "0001-01-01T00:00:00.000001-23:59:59" := by decide
  have htext := (htimestamp firstSecond "\u2003\t" "\n" (by decide) (by decide) hwhole).1
  rw [hfirst] at htext
  refine ⟨htext, ?_⟩
  let r : Revision := { Revision.plainRevision with timestamp := some epochEast }
  have hc : r.toChange ⟨fun _ => true, Author.placeholder⟩ Revision.hourEast
      = .ok (r.changeAt ⟨fun _ => true, Author.placeholder⟩ epochEast) :=
    (Revision.toChange_eq_ok_iff_of_timestamp rfl).2
      ⟨Stamp.inCalendar_iff.2 (by decide +kernel), rfl, rfl, rfl⟩
  have hepoch : epochEast.render = "1970-01-01T01:00:00+01:00" := by decide
  have hzone : Revision.hourEast.IsWhole := rfl
  obtain ⟨hr, hback⟩ := hchange r _ _ _ hzone hc (postAt .null)
    (postAt (.text " 1970-01-01T01:00:00+01:00\n"))
    "one" " " "\n" _ (by decide) (by decide) (fun _ => get?_postAt_of_ne _ _)
    (congrArg (fun text => Value.text (" " ++ text ++ "\n")) hepoch.symm) (revision_postAt rfl)
  obtain ⟨c, hc', hdate⟩ := hback ⟨fun _ => true, Author.placeholder⟩
  exact ⟨_, c, hr, hc', hdate⟩

end Fixture

end MigrationBench
