import MigrationBench.Command.Revision
import MigrationBench.Proofs.Fixture.Fields
import MigrationBench.Proofs.Revision.Projection
import MigrationBench.Proofs.Time.Calendar
import Mathlib

/-!
# Fixtures that end the program

A fixture that cannot be used should be told by a fault in a configuration, which the command shows. Some
values lead to other faults: a whole number that is too long to be written where a text is expected, a base
path that is no text, and a number that is no date-time. These faults end the program.

* `Fixture.Part.Accepts` — a part that its check accepts: `Fixture.Part.fault?_eq_none_iff`.
* `Fixture.Part.Escapes` — a part that leads to another fault: `Fixture.Part.escapes_iff`.
* `Fixture.Escapes` — a fixture whose first part that is not accepted does so: `Fixture.escapes_iff`.
* `RevisionRequest.fixture_ends_command_iff` — **the fixtures that end the program**.
-/

namespace MigrationBench

/-- A fault in a configuration, as a fixture that cannot be used should have. -/
def Fault.IsConfig (fault : Fault) : Prop :=
  ∃ cause, fault = .config cause

namespace Fixture

variable {entries : List (Value × Value)} {content : String} {fault : Fault} {part : Part}

/-! ### Parts that are accepted -/

/-- A part is as it should be. -/
def Part.Accepts (entries : List (Value × Value)) (content : String) : Part → Prop
  | reference => ∃ v, Value.get? entries "reference" = some v ∧ v ≠ .null ∧ v.isWritable = true ∧
      Text.isBlankText v.render = false
  | labels => given? entries "labels" = none ∨ ∃ pairs, given? entries "labels" = some (.map pairs)
  | matchesGlob => Value.get? entries "matches_glob" = none ∨
      ∃ b, Value.get? entries "matches_glob" = some (.bool b)
  | changesBase => ∀ v, given? entries "changes_base" = some v → v.isText = true
  | author => given? entries "author" = none ∨
      ∃ v a, given? entries "author" = some v ∧ v.isWritable = true ∧ Author.parse? v.render = some a
  | timestamp => ∃ t, Fixture.timestamp (timestampValue entries) = .ok t
  | contextReference => ∀ v, Value.get? entries "context_reference" = some v → v.isWritable = true
  | labelTexts => ∀ p ∈ labelPairs entries, p.1.isWritable = true ∧ p.2.isWritable = true
  | message => ((Label.pairsOfMessage content).map Prod.fst).Nodup

/-- A step with one possible fault fails or not by one condition. -/
theorem faultOf_eq_none_iff_not {α : Type} {step : Except Fault α} {bad : Prop} {cause : Fault}
    (h : ∀ {fault}, step = .error fault ↔ bad ∧ fault = cause) : faultOf step = none ↔ ¬ bad := by
  cases step with
  | ok a =>
    refine iff_of_true rfl fun hbad => ?_
    cases h.2 ⟨hbad, rfl⟩
  | error fault => exact iff_of_false (fun hnone => by cases hnone) fun hnot => hnot (h.1 rfl).1

/-- **The parts that are accepted.** -/
theorem Part.fault?_eq_none_iff : part.fault? entries content = none ↔ part.Accepts entries content := by
  cases part with
  | reference =>
    simp only [fault?, Accepts, faultOf_eq_none_iff, reference_eq_ok_iff, text?_eq_some_iff]
    constructor
    · rintro ⟨_, ⟨v, hv, hnull, hwritable, rfl⟩, hblank⟩
      exact ⟨v, hv, hnull, hwritable, hblank⟩
    · rintro ⟨v, hv, hnull, hwritable, hblank⟩
      exact ⟨_, ⟨v, hv, hnull, hwritable, rfl⟩, hblank⟩
  | labels =>
    simp only [fault?, Accepts, faultOf_eq_none_iff, labelEntries]
    rcases given? entries "labels" with _ | v
    · simp
    · cases v <;> simp
  | matchesGlob =>
    simp only [fault?, Accepts, faultOf_eq_none_iff, globFlag_eq_ok_iff]
    simp [exists_or]
  | changesBase =>
    simp only [fault?, Accepts, faultOf_eq_none_iff_not base_eq_error_iff]
    simp
  | author =>
    simp only [fault?, Accepts, faultOf_eq_none_iff, author_eq_ok_iff, exists_or]
    refine or_congr (by simp) ⟨?_, ?_⟩
    · rintro ⟨a, v, hv⟩
      exact ⟨v, a, hv⟩
    · rintro ⟨v, a, hv⟩
      exact ⟨a, v, hv⟩
  | timestamp => exact faultOf_eq_none_iff
  | contextReference =>
    simp only [fault?, Accepts, faultOf_eq_none_iff_not text?_eq_error_iff]
    simp
  | labelTexts =>
    simp only [fault?, Accepts, faultOf_eq_none_iff_not labels_eq_error_iff]
    simp
  | message =>
    simp only [fault?, Accepts, faultOf_eq_none_iff, Steps.mapError_eq_ok_iff]
    constructor
    · rintro ⟨declared, h⟩
      exact (LabelMap.ofMessage_eq_ok_iff.1 h).1
    · exact LabelMap.exists_ofMessage

/-! ### Parts that lead to other faults -/

/-- The value of a key has no text, since it holds a whole number with too many digits. -/
def HoldsLong (entries : List (Value × Value)) (key : String) : Prop :=
  ∃ v, Value.get? entries key = some v ∧ v.isWritable = false

/-- No timestamp is read from a value, for another reason than its kind or its text: it is a number without a
date-time, or a whole number in it is too long to tell the value in a fault. -/
def NoMoment (fault : Fault) : Value → Prop
  | .int n => ∃ cause, Stamp.ofSeconds n = .error cause ∧ .seconds cause = fault
  | .float x => ∃ cause, Stamp.ofFloat x = .error cause ∧ .seconds cause = fault
  | v => v.isWritable = false ∧ fault = .longNumber

/-- A part leads to a fault that is none in a configuration. -/
def Part.Escapes (entries : List (Value × Value)) (fault : Fault) : Part → Prop
  | reference => HoldsLong entries "reference" ∧ fault = .longNumber
  | matchesGlob => HoldsLong entries "matches_glob" ∧ fault = .longNumber
  | changesBase =>
    (∃ v, given? entries "changes_base" = some v ∧ v.isText = false) ∧ fault = .notPath
  | author => HoldsLong entries "author" ∧ fault = .longNumber
  | timestamp => NoMoment fault (timestampValue entries)
  | contextReference => HoldsLong entries "context_reference" ∧ fault = .longNumber
  | labelTexts =>
    (∃ p ∈ labelPairs entries, p.1.isWritable = false ∨ p.2.isWritable = false) ∧ fault = .longNumber
  | labels | message => False

/-- What cannot be written is not empty. -/
theorem given?_of_holdsLong {key : String} {v : Value} (h : v.isWritable = false) :
    given? entries key = some v ↔ Value.get? entries key = some v := by
  have htruthy : v.truthy = true := by
    cases v with
    | int n =>
      rw [Value.truthy, bne_iff_ne]
      rintro rfl
      have hpos : ∀ count, 0 < Nat.pow 10 count := fun count => Nat.pow_pos (by decide)
      rw [Value.isWritable, Int.natAbs_zero, Digits.isWritable, decide_eq_false_iff_not] at h
      exact h (hpos _)
    | list items => cases items <;> simp_all [Value.isWritable, Value.areWritable, Value.truthy]
    | map pairs => cases pairs <;> simp_all [Value.isWritable, Value.areWritableEntries, Value.truthy]
    | _ => cases h
  rw [given?_eq_some_iff, and_iff_left htruthy]

theorem not_isConfig_longNumber : ¬ Fault.longNumber.IsConfig := by
  rintro ⟨cause, h⟩
  cases h

/-- What is written where only a fault in a configuration could follow. -/
theorem written_bind_escapes_iff {α : Type} {v : Value} {cause : String → ConfigFault} :
    (v.written.bind fun s => (.error (.config (cause s)) : Except Fault α)) = .error fault ∧
        ¬ fault.IsConfig ↔ v.isWritable = false ∧ fault = .longNumber := by
  rw [Value.written_bind_eq_error_iff]
  constructor
  · rintro ⟨hlong | ⟨-, hconfig⟩, hnot⟩
    · exact hlong
    · cases hconfig
      exact absurd ⟨_, rfl⟩ hnot
  · rintro ⟨hlong, rfl⟩
    exact ⟨.inl ⟨hlong, rfl⟩, not_isConfig_longNumber⟩

theorem seconds_escapes_iff {step : Except SecondsFault Stamp} :
    (step.map some).mapError Fault.seconds = .error fault ∧ ¬ fault.IsConfig ↔
      ∃ cause, step = .error cause ∧ .seconds cause = fault := by
  simp only [Steps.mapError_eq_error_iff, Steps.map_eq_error_iff]
  refine and_iff_left_of_imp ?_
  rintro ⟨cause, -, rfl⟩ ⟨_, h⟩
  cases h

/-- **The values that no timestamp is read from**, for another reason than their kind or their text. -/
theorem timestamp_escapes_iff {v : Value} :
    Fixture.timestamp v = .error fault ∧ ¬ fault.IsConfig ↔ NoMoment fault v := by
  have hother : (v.written.bind fun s => (.error (.config (.badTimestamp s)) : Except Fault (Option Stamp)))
      = .error fault ∧ ¬ fault.IsConfig ↔ v.isWritable = false ∧ fault = .longNumber :=
    written_bind_escapes_iff
  cases v with
  | int n => exact seconds_escapes_iff
  | float x => exact seconds_escapes_iff
  | text s =>
    rw [Fixture.timestamp]
    refine iff_of_false ?_ (fun h => by cases h.1)
    rintro ⟨h, hnot⟩
    split at h
    · cases h
    · cases h
      exact hnot ⟨_, rfl⟩
  | null | date _ | stamp _ => simp [Fixture.timestamp, NoMoment, Value.isWritable]
  | bool _ | brokenText _ | clock _ | list _ | map _ => exact hother

/-- A fault that is found in one way besides faults in a configuration. -/
theorem escapes_of_eq_error_iff {α : Type} {step : Except Fault α} {bad : Prop} {cause : Fault}
    (hcause : ¬ cause.IsConfig) (h : step = .error fault ↔ bad ∧ fault = cause) :
    faultOf step = some fault ∧ ¬ fault.IsConfig ↔ bad ∧ fault = cause := by
  rw [faultOf_eq_some_iff, h]
  refine and_iff_left_of_imp ?_
  rintro ⟨-, rfl⟩
  exact hcause

/-- **The parts that lead to other faults.** -/
theorem Part.escapes_iff :
    part.fault? entries content = some fault ∧ ¬ fault.IsConfig ↔ part.Escapes entries fault := by
  have hpath : ¬ Fault.notPath.IsConfig := by
    rintro ⟨_, h⟩
    cases h
  have hconfig : ∀ {cause : ConfigFault}, ¬ ¬ (Fault.config cause).IsConfig := fun hnot => hnot ⟨_, rfl⟩
  cases part with
  | reference =>
    rw [Part.fault?, Part.Escapes, faultOf_eq_some_iff, reference_eq_error_iff]
    constructor
    · rintro ⟨htext | ⟨rfl, -⟩, hnot⟩
      · exact text?_eq_error_iff.1 htext
      · exact absurd hnot hconfig
    · rintro ⟨hlong, rfl⟩
      exact ⟨.inl (text?_eq_error_iff.2 ⟨hlong, rfl⟩), not_isConfig_longNumber⟩
  | labels =>
    rw [Part.fault?, Part.Escapes, faultOf_eq_some_iff, labelEntries_eq_error_iff]
    refine iff_of_false ?_ id
    rintro ⟨⟨-, rfl⟩, hnot⟩
    exact hconfig hnot
  | matchesGlob =>
    rw [Part.fault?, Part.Escapes, faultOf_eq_some_iff, globFlag_eq_error_iff]
    constructor
    · rintro ⟨⟨v, hv, -, ⟨hlong, rfl⟩ | ⟨-, rfl⟩⟩, hnot⟩
      · exact ⟨⟨v, hv, hlong⟩, rfl⟩
      · exact absurd hnot hconfig
    · rintro ⟨⟨v, hv, hlong⟩, rfl⟩
      refine ⟨⟨v, hv, ?_, .inl ⟨hlong, rfl⟩⟩, not_isConfig_longNumber⟩
      rintro b rfl
      cases hlong
  | changesBase => exact escapes_of_eq_error_iff hpath base_eq_error_iff
  | author =>
    rw [Part.fault?, Part.Escapes, faultOf_eq_some_iff, author_eq_error_iff]
    constructor
    · rintro ⟨⟨v, hv, ⟨hlong, rfl⟩ | ⟨-, cause, -, rfl⟩⟩, hnot⟩
      · exact ⟨⟨v, (given?_of_holdsLong hlong).1 hv, hlong⟩, rfl⟩
      · exact absurd hnot hconfig
    · rintro ⟨⟨v, hv, hlong⟩, rfl⟩
      exact ⟨⟨v, (given?_of_holdsLong hlong).2 hv, .inl ⟨hlong, rfl⟩⟩, not_isConfig_longNumber⟩
  | timestamp =>
    rw [Part.fault?, Part.Escapes, faultOf_eq_some_iff]
    exact timestamp_escapes_iff
  | contextReference => exact escapes_of_eq_error_iff not_isConfig_longNumber text?_eq_error_iff
  | labelTexts => exact escapes_of_eq_error_iff not_isConfig_longNumber labels_eq_error_iff
  | message =>
    rw [Part.fault?, Part.Escapes, faultOf_eq_some_iff, Steps.mapError_eq_error_iff]
    refine iff_of_false ?_ id
    rintro ⟨⟨repeated, -, rfl⟩, hnot⟩
    exact hconfig hnot

/-! ### Fixtures that lead to other faults -/

/-- The first part of a fixture that is not accepted leads to a fault that is none in a configuration. -/
def Escapes (entries : List (Value × Value)) (content : String) (fault : Fault) : Prop :=
  ∃ before part after, Part.all = before ++ part :: after ∧
    (∀ earlier ∈ before, earlier.Accepts entries content) ∧ part.Escapes entries fault

theorem escapes_iff :
    revision entries content = .error fault ∧ ¬ fault.IsConfig ↔ Escapes entries content fault := by
  rw [revision_eq_error_iff, List.findSome?_eq_some_iff]
  constructor
  · rintro ⟨⟨before, part, after, hall, hfault, hbefore⟩, hnot⟩
    refine ⟨before, part, after, hall, fun earlier hearlier => ?_, Part.escapes_iff.1 ⟨hfault, hnot⟩⟩
    exact Part.fault?_eq_none_iff.1 (hbefore earlier hearlier)
  · rintro ⟨before, part, after, hall, hbefore, hescapes⟩
    obtain ⟨hfault, hnot⟩ := Part.escapes_iff.2 hescapes
    refine ⟨⟨before, part, after, hall, hfault, fun earlier hearlier => ?_⟩, hnot⟩
    exact Part.fault?_eq_none_iff.2 (hbefore earlier hearlier)

/-- The other faults are not the program's own. -/
theorem Part.isOwn_of_escapes (h : part.Escapes entries fault) : fault.isOwn = false := by
  cases part with
  | reference | matchesGlob | changesBase | author | contextReference | labelTexts =>
    rw [h.2]
    rfl
  | timestamp =>
    rw [Part.Escapes] at h
    cases hv : timestampValue entries with
    | int _ | float _ =>
      rw [hv] at h
      obtain ⟨cause, -, rfl⟩ := h
      rfl
    | _ =>
      rw [hv] at h
      rw [h.2]
      rfl
  | labels | message => cases h

theorem isOwn_of_escapes (h : Escapes entries content fault) : fault.isOwn = false := by
  obtain ⟨-, part, -, -, -, hescapes⟩ := h
  exact Part.isOwn_of_escapes hescapes

/-- Only faults in a configuration are told with the path of the file. -/
theorem inFile_of_not_isConfig {path : PathName} (h : ¬ fault.IsConfig) : inFile path fault = fault := by
  cases fault with
  | config cause => exact absurd ⟨cause, rfl⟩ h
  | _ => rfl

theorem not_isConfig_of_inFile {path : PathName} (h : (inFile path fault).isOwn = false) :
    ¬ fault.IsConfig := by
  rintro ⟨cause, rfl⟩
  cases h

end Fixture

namespace RevisionRequest

variable {request : RevisionRequest} {fs : FileSystem} {zone : Offset} {fault : Fault}

/-- The faults that are not the program's own end the command. -/
theorem run_eq_error_iff :
    (request.run fs zone).1 = .error fault ↔
      (request.attempt fs zone).1 = .error fault ∧ fault.isOwn = false := by
  rw [run]
  obtain ⟨result, log⟩ := request.attempt fs zone
  cases result with
  | ok output => simp [Except.tryCatch]
  | error cause =>
    cases hown : cause.isOwn with
    | true =>
      refine iff_of_false (fun h => ?_) (fun h => ?_)
      · simp [Except.tryCatch, faultReport, hown] at h
      · cases h.1
        rw [hown] at h
        cases h.2
    | false =>
      simp only [Except.tryCatch, faultReport, hown, Bool.false_eq_true, if_false, Except.error.injEq]
      refine (and_iff_left_of_imp ?_).symm
      rintro rfl
      exact hown

theorem attempt_of_load_error {authoring : Authoring} (hpolicy : request.policy fs = .ok authoring)
    (hload : Fixture.load fs request.fixture = .error fault) :
    (request.attempt fs zone).1 = .error fault := by
  simp only [attempt, hpolicy, hload]

theorem attempt_of_load_ok {authoring : Authoring} {r : Revision}
    (hpolicy : request.policy fs = .ok authoring) (hload : Fixture.load fs request.fixture = .ok r) :
    (request.attempt fs zone).1 = (r.toChange authoring.policy zone).map (request.report r) := by
  simp only [attempt, hpolicy, hload]

/-- What ends the command where the policy and the text of the fixture can be read. -/
theorem run_eq_error_iff_of_read {authoring : Authoring} {text : List Char}
    {entries : List (Value × Value)} {content : String} (hpolicy : request.policy fs = .ok authoring)
    (htext : fs.readText request.fixture = .ok text)
    (hread : FrontMatter.read request.fixture.render text = .ok (entries, content)) :
    (request.run fs zone).1 = .error fault ↔ Fixture.Escapes entries content fault ∨
      fault = .timeRange ∧ ∃ r t, Fixture.revision entries content = .ok r ∧ r.timestamp = some t ∧
        t.inZone? zone = none := by
  have hload : Fixture.load fs request.fixture
      = (Fixture.revision entries content).mapError (Fixture.inFile request.fixture) := by
    simp only [Fixture.load, htext, hread, Except.mapError, bind, Except.bind]
  rw [run_eq_error_iff, ← Fixture.escapes_iff]
  cases hrevision : Fixture.revision entries content with
  | error cause =>
    -- the fault is told with the path of the file, which shows only for a fault in a configuration
    rw [hrevision] at hload
    rw [attempt_of_load_error hpolicy hload, Except.error.injEq, Except.error.injEq]
    constructor
    · rintro ⟨rfl, hown⟩
      have hconfig := Fixture.not_isConfig_of_inFile hown
      rw [Fixture.inFile_of_not_isConfig hconfig]
      exact .inl ⟨rfl, hconfig⟩
    · rintro (⟨rfl, hconfig⟩ | ⟨-, r, t, h, -⟩)
      · rw [Fixture.inFile_of_not_isConfig hconfig]
        exact ⟨rfl, Fixture.isOwn_of_escapes (Fixture.escapes_iff.1 ⟨hrevision, hconfig⟩)⟩
      · cases h
  | ok r =>
    rw [hrevision] at hload
    rw [attempt_of_load_ok hpolicy hload, Steps.map_eq_error_iff, Revision.toChange_eq_error_iff]
    constructor
    · rintro ⟨⟨-, rfl⟩ | ⟨t, ht, hzone, rfl⟩, hown⟩
      · cases hown
      · exact .inr ⟨rfl, r, t, rfl, ht, hzone⟩
    · rintro (⟨h, -⟩ | ⟨rfl, _, t, h, ht, hzone⟩)
      · cases h
      · cases h
        exact ⟨.inr ⟨t, ht, hzone, rfl⟩, rfl⟩

/-- **The fixtures that end the program.** A fixture leads to a fault that is none in a configuration if and
only if the first part of it that is not accepted holds a value of one of three kinds: a whole number that is
too long to be written, a base path that is no text, or a number that is no date-time. A whole number is a
date-time from the year 1 to the year 9999. Where the policy and the text of the fixture can be read, the
command ends by these faults, by a timestamp that leaves the calendar at the offset, and by no other fault. -/
theorem fixture_ends_command_iff (entries : List (Value × Value)) (content : String) :
    (∀ fault, Fixture.revision entries content = .error fault ∧ ¬ fault.IsConfig ↔
      Fixture.Escapes entries content fault) ∧
    (∀ n, (∃ cause, Stamp.ofSeconds n = .error cause) ↔ n < -62135596800 ∨ 253402300799 < n) ∧
    ∀ (request : RevisionRequest) (fs : FileSystem) (zone : Offset) authoring text,
      request.policy fs = .ok authoring → fs.readText request.fixture = .ok text →
      FrontMatter.read request.fixture.render text = .ok (entries, content) →
      ∀ fault, (request.run fs zone).1 = .error fault ↔ Fixture.Escapes entries content fault ∨
        fault = .timeRange ∧ ∃ r t, Fixture.revision entries content = .ok r ∧ r.timestamp = some t ∧
          t.inZone? zone = none := by
  refine ⟨fun _ => Fixture.escapes_iff, fun _ => Stamp.ofSeconds_fails_iff, ?_⟩
  intro request fs zone authoring text hpolicy htext hread fault
  exact run_eq_error_iff_of_read hpolicy htext hread

/-- A directory with a fixture whose base path is a number. -/
def numericBase : FileSystem where
  top := [("desk", .directory [("rev.md", .file 0)])]
  contents := [(0, "---\nreference: r\nchanges_base: 5\n---\nm".toUTF8.toList)]
  fresh := 1
  cwd := ["desk"]
  top_sound := by decide
  cwd_there := by decide

/-- The metadata of that fixture. -/
def numericBaseEntries : List (Value × Value) :=
  [(.text "reference", .text "r"), (.text "changes_base", .int 5)]

/-- The reference, the labels and the file pattern of the fixture are accepted, and its base path ends the
command. -/
theorem fixture_ends_command_of_numericBase :
    (run ⟨PathName.ofString "rev.md", none, false⟩ numericBase Offset.utc).1 = .error .notPath := by
  obtain ⟨-, -, hrun⟩ := fixture_ends_command_iff numericBaseEntries "m"
  rw [hrun ⟨PathName.ofString "rev.md", none, false⟩ numericBase Offset.utc
    (Authoring.passThru Author.placeholder) "---\nreference: r\nchanges_base: 5\n---\nm".toList
    rfl (by cbv) (by cbv)]
  refine .inl ⟨[.reference, .labels, .matchesGlob], .changesBase, _, rfl, ?_,
    ⟨⟨.int 5, by cbv, rfl⟩, rfl⟩⟩
  simp only [List.forall_mem_cons, List.not_mem_nil, false_imp_iff, implies_true, and_true]
  exact ⟨⟨.text "r", by cbv, by simp, rfl, by cbv⟩, .inl (by cbv), .inl (by cbv)⟩

/-- **Not every fixture that cannot be used is told by a fault in a configuration**: not one with a number
that is no date-time, with a base path that is a number, or with a reference of 4301 digits. -/
theorem fixture_faults_beside_config :
    Fixture.revision [(.text "reference", .text "r"), (.text "timestamp", .float .nan)] "m"
      = .error (.seconds .notANumber) ∧
    Fixture.revision [(.text "reference", .text "r"), (.text "timestamp", .float (.infinite false))] "m"
      = .error (.seconds .wideCount) ∧
    Fixture.revision numericBaseEntries "m" = .error .notPath ∧
    Fixture.revision [(.text "reference", .int (Nat.pow 10 Digits.maxCount : Nat))] "m"
      = .error .longNumber ∧
    ¬ ∀ entries content fault, Fixture.revision entries content = .error fault → fault.IsConfig := by
  have hlong : (Value.int (Nat.pow 10 Digits.maxCount : Nat)).isWritable = false := by
    rw [Value.isWritable, Int.natAbs_natCast, Digits.isWritable, decide_eq_false_iff_not]
    exact Nat.lt_irrefl _
  have hbase : Fixture.revision numericBaseEntries "m" = .error .notPath := by cbv
  refine ⟨by cbv, by cbv, hbase, ?_, fun hall => ?_⟩
  · generalize (Nat.pow 10 Digits.maxCount : Nat) = n at hlong
    refine (Fixture.escapes_iff.2 ⟨[], .reference, _, rfl, List.forall_mem_nil _, ?_, rfl⟩).1
    exact ⟨.int n, rfl, hlong⟩
  · obtain ⟨cause, h⟩ := hall _ _ _ hbase
    cases h

end RevisionRequest

end MigrationBench
