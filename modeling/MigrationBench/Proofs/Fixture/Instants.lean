import MigrationBench.Proofs.Fixture.Fields
import MigrationBench.Proofs.Revision.Zone
import MigrationBench.Proofs.Time.Reading

/-!
# One instant in many forms

A fixture gives its timestamp as a number of seconds, as a date-time, as a date, or as the text of a date-time
or a date. The offset of a date-time and the form that is chosen do not count for the change.

* `Fixture.TellsSeconds` — the values that tell an instant: `Fixture.timestamp_of_tells`.
* `Fixture.revision_of_timestamps` — two fixtures that differ only in the timestamp describe one revision, but
  for the timestamp.
* `Fixture.change_of_seconds` — **one instant has one change**, in whatever form it is given.
-/

namespace MigrationBench

/-- The seconds from 1970-01-01T00:00:00 UTC to the first moment of a date in UTC. -/
def Date.seconds (d : Date) : Int :=
  ((d.number : Int) - Date.epochNumber) * 86400

namespace Fixture

open Stamp

variable {entries entries' : List (Value × Value)} {content : String} {r : Revision} {t t' : Option Stamp}
  {v : Value} {n : Int}

/-! ### The values of an instant -/

/-- The values that tell the time so many seconds after 1970-01-01T00:00:00 UTC. A date-time may have any
offset, and one without is told in UTC; the text of an offset is one of whole seconds. -/
inductive TellsSeconds (n : Int) : Value → Prop where
  | number (hin : InCalendar (n * 1000000)) : TellsSeconds n (.int n)
  | stamp (s : Stamp) (h : s.instant = n * 1000000) : TellsSeconds n (.stamp s)
  | text (s : Stamp) (h : s.instant = n * 1000000) (hwhole : s.HasWholeOffset) :
      TellsSeconds n (.text s.render)
  | zulu (s : Stamp) (h : s.instant = n * 1000000) (hnone : s.offset = none) :
    TellsSeconds n (.text (s.render ++ "Z"))
  | date (d : Date) (h : d.seconds = n) : TellsSeconds n (.date d)
  | dateText (d : Date) (h : d.seconds = n) : TellsSeconds n (.text (renderDate d))
  | compactText (d : Date) (h : d.seconds = n) : TellsSeconds n (.text (renderCompactDate d))

/-- The numbers that are timestamps. -/
theorem exists_timestamp_int_iff : (∃ t, Fixture.timestamp (.int n) = .ok t) ↔ InCalendar (n * 1000000) := by
  rw [inCalendar_iff, firstMicro, lastMicro]
  have hsome : (∃ t, Fixture.timestamp (.int n) = .ok t) ↔ ∃ s, ofSeconds n = .ok s := by
    simp only [Fixture.timestamp, Steps.mapError_eq_ok_iff, Steps.map_eq_ok_iff]
    constructor
    · rintro ⟨t, s, hs, -⟩
      exact ⟨s, hs⟩
    · rintro ⟨s, hs⟩
      exact ⟨some s, s, hs, rfl⟩
  rw [hsome, exists_ofSeconds_iff]
  omega

theorem timestamp_of_read {s : String} {stamp : Stamp} (h : read? s = some stamp) :
    Fixture.timestamp (.text s) = .ok (some stamp) := by
  simp only [Fixture.timestamp, h]

/-- The first moment of a date is that many seconds away, with the offset of UTC or without one. -/
theorem instant_midnight (d : Date) {offset : Option Offset} (h : offset.elim 0 Offset.micros = 0) :
    Stamp.instant ⟨d, Clock.midnight, offset⟩ = d.seconds * 1000000 := by
  have hmidnight : Clock.midnight.micros = 0 := rfl
  have hday : (Clock.dayMicros : Int) = 86400000000 := rfl
  simp only [instant, fieldMicros, h, hmidnight, hday, Date.seconds]
  omega

/-- **A value that tells an instant** is read as a date-time of that instant. -/
theorem timestamp_of_tells (h : TellsSeconds n v) :
    ∃ s, Fixture.timestamp v = .ok (some s) ∧ s.instant = n * 1000000 := by
  cases h with
  | number hin =>
    obtain ⟨t, ht⟩ := exists_timestamp_int_iff.2 hin
    rw [Fixture.timestamp, Steps.mapError_eq_ok_iff, Steps.map_eq_ok_iff] at ht
    obtain ⟨s, hs, -⟩ := ht
    refine ⟨s, ?_, (ofSeconds_eq_ok_iff.1 hs).2⟩
    rw [Fixture.timestamp, hs]
    rfl
  | stamp s hinstant => exact ⟨s, rfl, hinstant⟩
  | text s hinstant hwhole => exact ⟨s, timestamp_of_read (read?_render hwhole), hinstant⟩
  | zulu s hinstant hnone =>
    refine ⟨_, timestamp_of_read (read?_zulu hnone), ?_⟩
    rw [← hinstant, instant, instant, hnone]
    rfl
  | date d hseconds => exact ⟨ofDate d, rfl, hseconds ▸ instant_midnight d rfl⟩
  | dateText d hseconds =>
    exact ⟨_, timestamp_of_read (read?_renderDate d), hseconds ▸ instant_midnight d rfl⟩
  | compactText d hseconds =>
    exact ⟨_, timestamp_of_read (read?_renderCompactDate d), hseconds ▸ instant_midnight d rfl⟩

/-- At an offset, or at none, one date-time tells an instant with fields in the calendar. -/
theorem existsUnique_stamp (offset : Option Offset)
    (h : InCalendar (n * 1000000 + offset.elim 0 Offset.micros)) :
    ∃! s : Stamp, s.offset = offset ∧ s.instant = n * 1000000 := by
  obtain ⟨date, clock, hfields⟩ := h
  refine ⟨⟨date, clock, offset⟩, ⟨rfl, ?_⟩, fun s hs => eq_of_instant hs.1 ?_⟩
  · rw [instant, hfields]
    exact Int.add_sub_cancel ..
  · rw [hs.2, instant, hfields]
    exact (Int.add_sub_cancel ..).symm

/-- The first moment of a date can be told as a number. -/
theorem inCalendar_seconds (d : Date) : InCalendar (d.seconds * 1000000) := by
  have hmidnight : Stamp.instant ⟨d, Clock.midnight, none⟩ = d.seconds * 1000000 := instant_midnight d rfl
  rw [← hmidnight, instant]
  exact ⟨d, Clock.midnight, (Int.sub_zero _).symm⟩

/-! ### Fixtures that differ in the timestamp -/

/-- The checks of two fixtures that differ only in the timestamp find the same. -/
theorem fault?_of_timestamps (hothers : ∀ key ≠ "timestamp", Value.get? entries' key = Value.get? entries key)
    (ht : Fixture.timestamp (timestampValue entries) = .ok t)
    (ht' : Fixture.timestamp (timestampValue entries') = .ok t') :
    Part.fault? entries' content = Part.fault? entries content := by
  have hlabels : labelEntries entries' = labelEntries entries := by
    rw [labelEntries, labelEntries, given?, given?, hothers _ (by decide)]
  funext part
  cases part with
  | reference => rw [Part.fault?, Part.fault?, reference, reference, hothers _ (by decide)]
  | labels => rw [Part.fault?, Part.fault?, hlabels]
  | matchesGlob => rw [Part.fault?, Part.fault?, globFlag, globFlag, hothers _ (by decide)]
  | changesBase => rw [Part.fault?, Part.fault?, base, base, given?, given?, hothers _ (by decide)]
  | author => rw [Part.fault?, Part.fault?, author, author, given?, given?, hothers _ (by decide)]
  | timestamp => rw [Part.fault?, Part.fault?, ht, ht', faultOf, faultOf]
  | contextReference => rw [Part.fault?, Part.fault?, hothers _ (by decide)]
  | labelTexts => rw [Part.fault?, Part.fault?, labelPairs, labelPairs, hlabels]
  | message => rfl

/-- **Two fixtures that differ only in the timestamp** describe one revision, but for the timestamp, or
fail by one fault. -/
theorem revision_of_timestamps
    (hothers : ∀ key ≠ "timestamp", Value.get? entries' key = Value.get? entries key)
    (ht : Fixture.timestamp (timestampValue entries) = .ok t)
    (ht' : Fixture.timestamp (timestampValue entries') = .ok t') :
    revision entries' content = (revision entries content).map fun r => { r with timestamp := t' } := by
  cases hrevision : revision entries content with
  | error fault =>
    rw [revision_eq_error_iff, ← fault?_of_timestamps hothers ht ht', ← revision_eq_error_iff] at hrevision
    rw [hrevision, Except.map]
  | ok r =>
    have hdescribes := revision_eq_ok_iff.1 hrevision
    rw [Except.map, revision_eq_ok_iff]
    refine hdescribes.with_others (a := r.author) (fun key _ => hothers key) ?_ ht'
    rw [author, given?, hothers _ (by decide)]
    exact hdescribes.author

/-! ### Changes -/

/-- The change of a fixture. -/
def change (entries : List (Value × Value)) (content : String) (p : Policy) (zone : Offset) :
    Except Fault Change :=
  (revision entries content).bind fun r => r.toChange p zone

/-- A fixture that tells an instant becomes the change of that instant. -/
theorem change_of_tells (h : TellsSeconds n (timestampValue entries)) (p : Policy) (zone : Offset) :
    change entries content p zone = (revision entries content).bind fun r =>
      match ofInstant? (n * 1000000) zone with
      | some dateTime => .ok (r.changeAt p dateTime)
      | none => .error .timeRange := by
  obtain ⟨s, hs, hinstant⟩ := timestamp_of_tells h
  rw [change]
  cases hrevision : revision entries content with
  | error fault => rfl
  | ok r =>
    have htimestamp : r.timestamp = some s := by
      have hdescribed := (revision_eq_ok_iff.1 hrevision).timestamp
      rw [hs] at hdescribed
      exact (Except.ok.inj hdescribed).symm
    have hchange := Revision.toChange_of_timestamp htimestamp p zone
    rw [hinstant] at hchange
    exact hchange

/-- **One instant has one change**, in whatever form a fixture gives it. A number of seconds is a
timestamp if and only if its time in UTC is one of the years 1 to 9999. Two fixtures that differ only in
the timestamp, and whose timestamps tell the same instant, become the same change or fail by the same
fault, under every policy and at every local offset; the date of that change is the date-time of the
instant at the offset, and it fails where that leaves the calendar. Among the values of an instant are
its date-times at all offsets, one for each offset at which its fields are in the calendar, and one
without offset; and the first moment of a date is told by the date, by its two texts and by the number
of seconds. -/
theorem change_of_seconds :
    (∀ n : Int, ((∃ t, Fixture.timestamp (.int n) = .ok t) ↔ InCalendar (n * 1000000)) ∧
      (InCalendar (n * 1000000) ↔ -62135596800 ≤ n ∧ n ≤ 253402300799) ∧
      ∀ offset : Option Offset, InCalendar (n * 1000000 + offset.elim 0 Offset.micros) →
        ∃! s : Stamp, s.offset = offset ∧ s.instant = n * 1000000) ∧
    (∀ n entries entries' content p zone,
      (∀ key ≠ "timestamp", Value.get? entries' key = Value.get? entries key) →
      TellsSeconds n (timestampValue entries) → TellsSeconds n (timestampValue entries') →
      change entries' content p zone = change entries content p zone ∧
        ((∃ r, revision entries' content = .ok r) ↔ ∃ r, revision entries content = .ok r) ∧
        ∀ r, revision entries content = .ok r → change entries content p zone =
          match ofInstant? (n * 1000000) zone with
          | some dateTime => .ok (r.changeAt p dateTime)
          | none => .error .timeRange) ∧
    ∀ d : Date, TellsSeconds d.seconds (.int d.seconds) ∧ TellsSeconds d.seconds (.date d) ∧
      TellsSeconds d.seconds (.text (renderDate d)) ∧
        TellsSeconds d.seconds (.text (renderCompactDate d)) := by
  refine ⟨fun n => ⟨exists_timestamp_int_iff, ?_, existsUnique_stamp⟩, ?_, fun d => ?_⟩
  · rw [inCalendar_iff, firstMicro, lastMicro]
    omega
  · intro n entries entries' content p zone hothers htells htells'
    obtain ⟨s, hs, -⟩ := timestamp_of_tells htells
    obtain ⟨s', hs', -⟩ := timestamp_of_tells htells'
    have hrevision' : revision entries' content = (revision entries content).map fun r =>
        { r with timestamp := some s' } := revision_of_timestamps hothers hs hs'
    refine ⟨?_, ?_, fun r hr => ?_⟩
    · rw [change_of_tells htells, change_of_tells htells', hrevision']
      cases revision entries content <;> rfl
    · simp only [hrevision', Steps.map_eq_ok_iff]
      constructor
      · rintro ⟨-, r, hr, -⟩
        exact ⟨r, hr⟩
      · rintro ⟨r, hr⟩
        exact ⟨_, r, hr, rfl⟩
    · rw [change_of_tells htells, hr]
      rfl
  · exact ⟨.number (inCalendar_seconds d), .date d rfl, .dateText d rfl, .compactText d rfl⟩

/-- One hour past midnight on the first day of 1970, one hour to the east. -/
def epochEast : Stamp :=
  ⟨(Date.of? 1970 1 1).get rfl, Clock.ofMicros 3600000000, some Revision.hourEast⟩

/-- A fixture with a timestamp. -/
def postAt (v : Value) : List (Value × Value) :=
  [(.text "reference", .text "7"), (.text "timestamp", v)]

theorem get?_postAt_of_ne (v w : Value) {key : String} (hkey : key ≠ "timestamp") :
    Value.get? (postAt v) key = Value.get? (postAt w) key := by
  have htimestamp : ("timestamp" == key) = false := beq_false_of_ne hkey.symm
  simp [Value.get?, postAt, List.find?_cons, Value.sameKey, htimestamp]

/-- The revision of such a fixture. -/
theorem revision_postAt (ht : Fixture.timestamp v = .ok t) :
    revision (postAt v) "one" = .ok { Revision.plainRevision with timestamp := t } :=
  revision_eq_ok_iff.2 ⟨rfl, ⟨[], rfl, rfl⟩, ⟨true, rfl, rfl⟩,
    ⟨.derived, rfl, by simp only [Revision.basePath?, Revision.plainRevision]⟩, rfl, ht, rfl, rfl⟩

/-- The number zero and a text with an offset become the same change. -/
theorem change_of_seconds_of_epoch :
    change (postAt (.int 0)) "one" ⟨fun _ => true, Author.placeholder⟩ Revision.hourEast
      = change (postAt (.text "1970-01-01T01:00:00+01:00")) "one" ⟨fun _ => true, Author.placeholder⟩
          Revision.hourEast ∧
    ∃ c, change (postAt (.int 0)) "one" ⟨fun _ => true, Author.placeholder⟩ Revision.hourEast = .ok c ∧
      c.dateTime = epochEast := by
  obtain ⟨hnumbers, hchange, -⟩ := change_of_seconds
  have hin : InCalendar (0 * 1000000) := (hnumbers 0).2.1.2 (by decide)
  have hrender : epochEast.render = "1970-01-01T01:00:00+01:00" := by decide
  have hinstant : epochEast.instant = 0 * 1000000 := by decide +kernel
  have hwhole : epochEast.HasWholeOffset := by
    intro o ho
    cases ho
    rfl
  have hnumber : TellsSeconds 0 (timestampValue (postAt (.int 0))) := .number hin
  have htext : TellsSeconds 0 (timestampValue (postAt (.text "1970-01-01T01:00:00+01:00"))) :=
    hrender ▸ .text epochEast hinstant hwhole
  obtain ⟨hsame, -, hdate⟩ := hchange 0 _ _ "one" ⟨fun _ => true, Author.placeholder⟩ Revision.hourEast
    (fun _ => get?_postAt_of_ne _ _) htext hnumber
  obtain ⟨s, hs, -⟩ := timestamp_of_tells htext
  have hr := revision_postAt hs
  have hzone : ofInstant? (0 * 1000000) Revision.hourEast = some epochEast :=
    ofInstant?_eq_some_iff.2 ⟨hin, rfl, hinstant⟩
  refine ⟨hsame, Revision.changeAt { Revision.plainRevision with timestamp := some s }
    ⟨fun _ => true, Author.placeholder⟩ epochEast, ?_, rfl⟩
  rw [hsame, hdate _ hr, hzone]

end Fixture

end MigrationBench
