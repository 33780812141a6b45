import MigrationBench.Fixture.Revision
import MigrationBench.Proofs.Authoring.Author
import MigrationBench.Proofs.Revision.Declared

/-!
# The parts of a fixture

A revision is read from a fixture part by part. Each part has a check of its own, and the first check that
fails decides.

* `Fixture.Part`, `Fixture.Part.fault?` — the parts in the order of their checks, and what a check finds:
  `Fixture.revision_eq_error_iff`.
* `Fixture.Describes` — the revision that a fixture describes: `Fixture.revision_eq_ok_iff`.
-/

namespace MigrationBench

namespace Value

variable {v : Value} {fault : Fault} {s : String}

theorem written_eq_ok_iff : v.written = .ok s ↔ v.isWritable = true ∧ v.render = s := by
  rw [written]
  cases v.isWritable <;> simp

theorem written_eq_error_iff : v.written = .error fault ↔ v.isWritable = false ∧ fault = .longNumber := by
  rw [written]
  cases v.isWritable <;> simp [eq_comm]

theorem written_bind_eq_ok_iff {α : Type} {next : String → Except Fault α} {a : α} :
    v.written.bind next = .ok a ↔ v.isWritable = true ∧ next v.render = .ok a := by
  rw [written]
  cases v.isWritable <;> simp [Except.bind]

theorem written_bind_eq_error_iff {α : Type} {next : String → Except Fault α} :
    v.written.bind next = .error fault ↔ v.isWritable = false ∧ fault = .longNumber ∨
      v.isWritable = true ∧ next v.render = .error fault := by
  rw [written]
  cases v.isWritable <;> simp [Except.bind, eq_comm]

end Value

namespace Fixture

/-- The parts of a fixture. The labels of the reference are two of them: that they are a mapping, and the
texts in it. -/
inductive Part where
  | reference
  | labels
  | matchesGlob
  | changesBase
  | author
  | timestamp
  | contextReference
  | labelTexts
  | message
deriving DecidableEq, Repr

/-- The parts in the order of their checks. -/
def Part.all : List Part :=
  [reference, labels, matchesGlob, changesBase, author, timestamp, contextReference, labelTexts, message]

theorem Part.mem_all (part : Part) : part ∈ all := by
  cases part <;> decide

/-- The fault of a step, if it fails. -/
def faultOf {α : Type} : Except Fault α → Option Fault
  | .ok _ => none
  | .error fault => some fault

/-- The fault of a message that declares a label twice. -/
def repeatedFault (cause : LabelMap.Repeated) : Fault :=
  .config (.badRevision (.repeatedLabel cause))

/-- The entries of the labels; there are none where the labels are no mapping. -/
def labelPairs (entries : List (Value × Value)) : List (Value × Value) :=
  (labelEntries entries).toOption.getD []

/-- The value for the timestamp, null if it is absent. -/
def timestampValue (entries : List (Value × Value)) : Value :=
  (Value.get? entries "timestamp").getD .null

/-- What the check of a part finds. -/
def Part.fault? (entries : List (Value × Value)) (content : String) : Part → Option Fault
  | reference => faultOf (Fixture.reference entries)
  | labels => faultOf (labelEntries entries)
  | matchesGlob => faultOf (globFlag entries)
  | changesBase => faultOf (base entries)
  | author => faultOf (Fixture.author entries)
  | timestamp => faultOf (Fixture.timestamp (timestampValue entries))
  | contextReference => faultOf (text? (Value.get? entries "context_reference"))
  | labelTexts => faultOf (Fixture.labels (labelPairs entries))
  | message => faultOf ((LabelMap.ofMessage content).mapError repeatedFault)

variable {entries : List (Value × Value)} {content : String} {fault : Fault} {r : Revision}

theorem faultOf_eq_some_iff {α : Type} {step : Except Fault α} :
    faultOf step = some fault ↔ step = .error fault := by
  cases step <;> simp [faultOf]

theorem faultOf_eq_none_iff {α : Type} {step : Except Fault α} :
    faultOf step = none ↔ ∃ a, step = .ok a := by
  cases step <;> simp [faultOf]

/-! ### The single checks -/

theorem given?_eq_some_iff {key : String} {v : Value} :
    given? entries key = some v ↔ Value.get? entries key = some v ∧ v.truthy = true := by
  rw [given?, Option.filter_eq_some_iff]

theorem text?_of_ne_null {v : Value} (h : v ≠ .null) : text? (some v) = v.written.map some := by
  cases v with
  | null => exact absurd rfl h
  | _ => rfl

theorem text?_eq_some_iff {v : Option Value} {s : String} :
    text? v = .ok (some s) ↔ ∃ w, v = some w ∧ w ≠ .null ∧ w.isWritable = true ∧ w.render = s := by
  rcases v with _ | v
  · simp [text?]
  · by_cases hnull : v = .null
    · simp [text?, hnull]
    · simp [text?_of_ne_null hnull, Steps.map_eq_ok_iff, Value.written_eq_ok_iff, hnull]

theorem text?_eq_error_iff {v : Option Value} :
    text? v = .error fault ↔ (∃ w, v = some w ∧ w.isWritable = false) ∧ fault = .longNumber := by
  rcases v with _ | v
  · simp [text?]
  · by_cases hnull : v = .null
    · simp [text?, hnull, Value.isWritable]
    · simp [text?_of_ne_null hnull, Steps.map_eq_error_iff, Value.written_eq_error_iff]

theorem reference_eq_ok_iff {reference : String} :
    Fixture.reference entries = .ok reference ↔
      text? (Value.get? entries "reference") = .ok (some reference) ∧ Text.isBlankText reference = false := by
  rw [Fixture.reference, Steps.bind_eq_ok_iff]
  constructor
  · rintro ⟨given, htext, h⟩
    split at h
    · split at h
      · cases h
      · rename_i hblank
        cases h
        exact ⟨htext, by simpa using hblank⟩
    · cases h
  · rintro ⟨htext, hblank⟩
    refine ⟨some reference, htext, ?_⟩
    simp only [hblank, Bool.false_eq_true, if_false]
    rfl

theorem reference_eq_error_iff :
    Fixture.reference entries = .error fault ↔
      text? (Value.get? entries "reference") = .error fault ∨ fault = .config .noReference ∧
        ∃ given, text? (Value.get? entries "reference") = .ok given ∧
          ∀ s, given = some s → Text.isBlankText s = true := by
  rw [Fixture.reference, Steps.bind_eq_error_iff]
  refine or_congr_right ⟨?_, ?_⟩
  · rintro ⟨given, htext, h⟩
    split at h
    · split at h
      · rename_i s hblank
        cases h
        exact ⟨rfl, some s, htext, fun _ hs => Option.some.inj hs ▸ hblank⟩
      · cases h
    · cases h
      exact ⟨rfl, none, htext, fun _ hs => by cases hs⟩
  · rintro ⟨rfl, given, htext, hblank⟩
    refine ⟨given, htext, ?_⟩
    cases given with
    | none => rfl
    | some s =>
      simp only [hblank s rfl, if_true]
      rfl

theorem ne_empty_of_reference {reference : String} (h : Fixture.reference entries = .ok reference) :
    reference ≠ "" := by
  rintro rfl
  cases (reference_eq_ok_iff.1 h).2

theorem labelPairs_of_ok {pairs : List (Value × Value)} (h : labelEntries entries = .ok pairs) :
    labelPairs entries = pairs := by
  rw [labelPairs, h]
  rfl

theorem labelEntries_eq_error_iff :
    labelEntries entries = .error fault ↔
      (∃ v, given? entries "labels" = some v ∧ ∀ pairs, v ≠ .map pairs) ∧ fault = .config .badLabels := by
  rw [labelEntries]
  rcases given? entries "labels" with _ | v
  · simp
  · cases v <;> simp [eq_comm (b := fault)]

/-- The texts of a label. -/
def pairTexts (p : Value × Value) : Except Fault (String × String) := do
  return (← p.1.written, ← p.2.written)

theorem pairTexts_eq_error_iff {p : Value × Value} :
    pairTexts p = .error fault ↔
      (p.1.isWritable = false ∨ p.2.isWritable = false) ∧ fault = .longNumber := by
  rw [pairTexts, Value.written, Value.written]
  cases p.1.isWritable <;> cases p.2.isWritable <;>
    simp [bind, Except.bind, pure, Except.pure, eq_comm]

/-- The labels have texts unless a whole number in them is too long. -/
theorem labels_eq_error_iff {pairs : List (Value × Value)} :
    Fixture.labels pairs = .error fault ↔
      (∃ p ∈ pairs, p.1.isWritable = false ∨ p.2.isWritable = false) ∧ fault = .longNumber := by
  have hmapM : Fixture.labels pairs = .error fault ↔ pairs.mapM pairTexts = .error fault := by
    rw [Fixture.labels, Steps.bind_eq_error_iff]
    refine or_iff_left ?_
    rintro ⟨texts, -, h⟩
    cases h
  rw [hmapM]
  constructor
  · intro h
    obtain ⟨before, p, after, rfl, -, hp⟩ := Steps.mapM_eq_error_iff.1 h
    obtain ⟨hlong, rfl⟩ := pairTexts_eq_error_iff.1 hp
    exact ⟨⟨p, by simp, hlong⟩, rfl⟩
  · rintro ⟨⟨p, hp, hlong⟩, rfl⟩
    cases hall : pairs.mapM pairTexts with
    | ok texts =>
      obtain ⟨shown, hok⟩ := Steps.exists_of_mapM_eq_ok hall hp
      rw [pairTexts_eq_error_iff.2 ⟨hlong, rfl⟩] at hok
      cases hok
    | error fault =>
      obtain ⟨before, other, after, -, -, hother⟩ := Steps.mapM_eq_error_iff.1 hall
      rw [(pairTexts_eq_error_iff.1 hother).2]

theorem globFlag_of_ne_bool {v : Value} (h : Value.get? entries "matches_glob" = some v)
    (hbool : ∀ b, v ≠ .bool b) :
    globFlag entries = v.written.bind fun s => .error (.config (.badGlobFlag s)) := by
  rw [globFlag, h]
  cases v with
  | bool b => exact absurd rfl (hbool b)
  | _ => rfl

theorem globFlag_eq_ok_iff {flag : Bool} :
    globFlag entries = .ok flag ↔ Value.get? entries "matches_glob" = none ∧ flag = true ∨
      Value.get? entries "matches_glob" = some (.bool flag) := by
  cases hv : Value.get? entries "matches_glob" with
  | none => simp [globFlag, hv, eq_comm]
  | some v =>
    by_cases hbool : ∃ b, v = .bool b
    · obtain ⟨b, rfl⟩ := hbool
      simp [globFlag, hv]
    · rw [not_exists] at hbool
      simp [globFlag_of_ne_bool hv hbool, Value.written_bind_eq_ok_iff, hbool]

theorem globFlag_eq_error_iff :
    globFlag entries = .error fault ↔ ∃ v, Value.get? entries "matches_glob" = some v ∧
      (∀ b, v ≠ .bool b) ∧ (v.isWritable = false ∧ fault = .longNumber ∨
        v.isWritable = true ∧ fault = .config (.badGlobFlag v.render)) := by
  cases hv : Value.get? entries "matches_glob" with
  | none => simp [globFlag, hv]
  | some v =>
    by_cases hbool : ∃ b, v = .bool b
    · obtain ⟨b, rfl⟩ := hbool
      simp [globFlag, hv]
    · rw [not_exists] at hbool
      simp [globFlag_of_ne_bool hv hbool, Value.written_bind_eq_error_iff, hbool, eq_comm (b := fault)]

/-- A base path is derived or given. -/
theorem base_ne_missing (h : base entries = .ok .missing) : False := by
  rw [base] at h
  split at h
  · cases h
  · split at h
    · cases h
    · cases h

theorem base_eq_ok_iff {choice : BaseChoice} :
    base entries = .ok choice ↔ given? entries "changes_base" = none ∧ choice = .derived ∨
      ∃ v, given? entries "changes_base" = some v ∧ v.isText = true ∧
        choice = .given (PathName.ofString v.render) := by
  rw [base]
  rcases given? entries "changes_base" with _ | v
  · simp [eq_comm (b := choice)]
  · cases htext : v.isText <;> simp [htext, eq_comm (b := choice)]

theorem base_eq_error_iff :
    base entries = .error fault ↔
      (∃ v, given? entries "changes_base" = some v ∧ v.isText = false) ∧ fault = .notPath := by
  rw [base]
  rcases given? entries "changes_base" with _ | v
  · simp
  · cases htext : v.isText with
    | true => simp [htext]
    | false => simp [htext, eq_comm (b := fault)]

theorem author_eq_ok_iff {a : Author} :
    Fixture.author entries = .ok a ↔ given? entries "author" = none ∧ a = Author.placeholder ∨
      ∃ v, given? entries "author" = some v ∧ v.isWritable = true ∧ Author.parse? v.render = some a := by
  rw [Fixture.author]
  cases given? entries "author" with
  | none => simp [eq_comm (b := a)]
  | some v =>
    simp [Value.written_bind_eq_ok_iff, Steps.mapError_eq_ok_iff, Author.parse_eq_ok_iff]

theorem author_eq_error_iff :
    Fixture.author entries = .error fault ↔ ∃ v, given? entries "author" = some v ∧
      (v.isWritable = false ∧ fault = .longNumber ∨ v.isWritable = true ∧
        ∃ cause, Author.parse v.render = .error cause ∧
          .config (.badRevision (.argument cause)) = fault) := by
  rw [Fixture.author]
  cases given? entries "author" with
  | none => simp
  | some v => simp [Value.written_bind_eq_error_iff, Steps.mapError_eq_error_iff]

/-! ### All checks together -/

/-- One check in front of others: it decides if it fails, and otherwise the others do. -/
theorem bind_eq_error_iff_findSome? {α β : Type} {first : Except Fault α} {next : α → Except Fault β}
    {part : Part} {parts : List Part} (hpart : part.fault? entries content = faultOf first)
    (hnext : ∀ a, first = .ok a →
      (next a = .error fault ↔ parts.findSome? (Part.fault? entries content) = some fault)) :
    (first >>= next) = .error fault ↔
      (part :: parts).findSome? (Part.fault? entries content) = some fault := by
  rw [List.findSome?_cons, hpart]
  cases hfirst : first with
  | error cause => simp [faultOf, bind, Except.bind]
  | ok a => exact hnext a hfirst

/-- **The first check that fails** decides. -/
theorem revision_eq_error_iff :
    revision entries content = .error fault ↔
      Part.all.findSome? (Part.fault? entries content) = some fault := by
  rw [revision, Part.all]
  refine bind_eq_error_iff_findSome? rfl fun reference hreference => ?_
  refine bind_eq_error_iff_findSome? rfl fun pairs hpairs => ?_
  refine bind_eq_error_iff_findSome? rfl fun glob hglob => ?_
  refine bind_eq_error_iff_findSome? rfl fun choice hchoice => ?_
  refine bind_eq_error_iff_findSome? rfl fun author hauthor => ?_
  refine bind_eq_error_iff_findSome? rfl fun timestamp htimestamp => ?_
  refine bind_eq_error_iff_findSome? rfl fun context hcontext => ?_
  have htexts : Part.labelTexts.fault? entries content = faultOf (Fixture.labels pairs) := by
    rw [Part.fault?, labelPairs_of_ok hpairs]
  refine bind_eq_error_iff_findSome? htexts fun labels hlabels => ?_
  have hbase : choice ≠ .missing := by
    rintro rfl
    exact base_ne_missing hchoice
  have hcomplete : Draft.IsComplete ⟨some reference, some content, some author, choice, timestamp, context,
      some labels, some glob⟩ :=
    ⟨⟨reference, rfl, ne_empty_of_reference hreference⟩, Option.some_ne_none _, hbase, Option.some_ne_none _⟩
  rw [Steps.mapError_eq_error_iff, List.findSome?_cons, List.findSome?_nil]
  simp only [Revision.build_eq_error_iff hcomplete rfl, Part.fault?]
  cases LabelMap.ofMessage content with
  | ok declared => simp [faultOf, Except.mapError]
  | error repeated => simp [faultOf, Except.mapError, repeatedFault]

/-- What a fixture describes: the value of each part, and the content as the message. -/
structure Describes (entries : List (Value × Value)) (content : String) (r : Revision) : Prop where
  reference : Fixture.reference entries = .ok r.reference
  labels : ∃ pairs, labelEntries entries = .ok pairs ∧ Fixture.labels pairs = .ok r.referenceLabels
  matchesGlob : ∃ flag, globFlag entries = .ok flag ∧ r.matchesGlob = some flag
  changesBase : ∃ choice, base entries = .ok choice ∧
    Revision.basePath? r.reference choice = some r.changesBase
  author : Fixture.author entries = .ok r.author
  timestamp : Fixture.timestamp (timestampValue entries) = .ok r.timestamp
  contextReference : text? (Value.get? entries "context_reference") = .ok r.contextReference
  message : r.message = content

/-- **The revision of a fixture** is the one that it describes. -/
theorem revision_eq_ok_iff : revision entries content = .ok r ↔ Describes entries content r := by
  rw [revision]
  constructor
  · intro h
    obtain ⟨reference, hreference, h⟩ := Steps.bind_eq_ok_iff.1 h
    obtain ⟨pairs, hpairs, h⟩ := Steps.bind_eq_ok_iff.1 h
    obtain ⟨flag, hflag, h⟩ := Steps.bind_eq_ok_iff.1 h
    obtain ⟨choice, hchoice, h⟩ := Steps.bind_eq_ok_iff.1 h
    obtain ⟨author, hauthor, h⟩ := Steps.bind_eq_ok_iff.1 h
    obtain ⟨timestamp, htimestamp, h⟩ := Steps.bind_eq_ok_iff.1 h
    obtain ⟨context, hcontext, h⟩ := Steps.bind_eq_ok_iff.1 h
    obtain ⟨labels, hlabels, h⟩ := Steps.bind_eq_ok_iff.1 h
    rw [Steps.mapError_eq_ok_iff, Revision.build_eq_ok_iff] at h
    obtain ⟨hbase, hdraft⟩ := h
    simp only [Revision.toDraft, Draft.mk.injEq, Option.some.injEq, true_and] at hdraft
    obtain ⟨rfl, hmessage, rfl, rfl, rfl, rfl, hglob⟩ := hdraft
    exact ⟨hreference, ⟨pairs, hpairs, hlabels⟩, ⟨flag, hflag, hglob⟩, ⟨choice, hchoice, hbase⟩, hauthor,
      htimestamp, hcontext, hmessage⟩
  · rintro ⟨hreference, ⟨pairs, hpairs, hlabels⟩, ⟨flag, hflag, hglob⟩, ⟨choice, hchoice, hbase⟩, hauthor,
      htimestamp, hcontext, hmessage⟩
    rw [timestampValue] at htimestamp
    simp only [hreference, hpairs, hflag, hchoice, hauthor, htimestamp, hcontext, hlabels, bind, Except.bind]
    rw [Steps.mapError_eq_ok_iff, Revision.build_eq_ok_iff]
    refine ⟨hbase, ?_⟩
    simp only [Revision.toDraft, hglob, hmessage]

/-- A fixture that says the same about all parts besides the author and the timestamp describes the same
revision, but for these two. -/
theorem Describes.with_others {entries' : List (Value × Value)} {a : Author} {t : Option Stamp}
    (hothers : ∀ key, key ≠ "author" → key ≠ "timestamp" → Value.get? entries' key = Value.get? entries key)
    (hauthor : Fixture.author entries' = .ok a)
    (htimestamp : Fixture.timestamp (timestampValue entries') = .ok t) (h : Describes entries content r) :
    Describes entries' content { r with author := a, timestamp := t } := by
  have hlabels : labelEntries entries' = labelEntries entries := by
    rw [labelEntries, labelEntries, given?, given?, hothers _ (by decide) (by decide)]
  obtain ⟨hreference, hpairs, hglob, hbase, -, -, hcontext, hmessage⟩ := h
  constructor
  · rw [Fixture.reference, hothers _ (by decide) (by decide)]
    exact hreference
  · rw [hlabels]
    exact hpairs
  · rw [globFlag, hothers _ (by decide) (by decide)]
    exact hglob
  · rw [base, given?, hothers _ (by decide) (by decide)]
    exact hbase
  · exact hauthor
  · exact htimestamp
  · rw [hothers _ (by decide) (by decide)]
    exact hcontext
  · exact hmessage

end Fixture

end MigrationBench
