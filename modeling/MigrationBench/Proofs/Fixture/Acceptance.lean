import MigrationBench.Proofs.Fixture.Authorship
import MigrationBench.Proofs.Fixture.Faults
import MigrationBench.Proofs.Label.Map

/-!
# The fixtures that are accepted

A fixture in which every whole number can be written describes a revision if each of its parts is in
order, and the revision has the texts of its values. Otherwise the first part that is not in order
decides the fault.

* `Fixture.exists_text?` — a value that is not null has a text.
* `Fixture.Part.Rejects` — a part that is not in order, and its fault:
  `Fixture.Part.fault?_eq_some_iff_rejects`.
* `Fixture.IsUsable` — a fixture whose parts are in order: `Fixture.exists_revision_iff`.
* `Fixture.Yields` — what its revision is: `Fixture.yields_of_revision`.
* `Fixture.accepted_fixtures` — **the fixtures that are accepted**, their revisions, and the faults of
  the others.
-/

namespace MigrationBench

variable {entries : List (Value × Value)} {key : String} {v : Value}

/-! ### Values that can be written -/

theorem Digits.isWritable_of_lt_ten {n : Nat} (h : n < 10) : Digits.isWritable n = true := by
  have hpow : ∀ count, 0 < count → n < Nat.pow 10 count := fun count hcount =>
    Nat.lt_of_lt_of_le h (Nat.le_pow hcount)
  rw [Digits.isWritable, decide_eq_true_eq]
  exact hpow Digits.maxCount (by decide)

theorem Value.areWritableEntries_iff :
    areWritableEntries entries = true ↔ ∀ p ∈ entries, p.1.isWritable = true ∧ p.2.isWritable = true := by
  induction entries with
  | nil => simp [areWritableEntries]
  | cons p rest ih =>
    obtain ⟨k, v⟩ := p
    simp [areWritableEntries, ih]

theorem Value.isWritable_of_get? (h : areWritableEntries entries = true) (hv : get? entries key = some v) :
    v.isWritable = true := by
  rw [get?, Option.map_eq_some_iff] at hv
  obtain ⟨p, hp, rfl⟩ := hv
  exact (areWritableEntries_iff.1 h p (List.mem_of_find?_eq_some hp)).2

namespace Fixture

variable {content : String} {fault : Fault} {part : Part} {r : Revision}

theorem isWritable_of_given? (h : Value.areWritableEntries entries = true)
    (hv : given? entries key = some v) :
    v.isWritable = true :=
  Value.isWritable_of_get? h (given?_eq_some_iff.1 hv).1

/-- The entries of the labels are those of a mapping, whether it is empty or not. -/
theorem labelPairs_eq_entriesOf : labelPairs entries = Authoring.entriesOf (Value.get? entries "labels") := by
  rw [labelPairs, labelEntries, given?]
  rcases Value.get? entries "labels" with _ | v
  · rfl
  · cases htruthy : v.truthy with
    | true =>
      rw [Option.filter_some_pos htruthy]
      cases v <;> rfl
    | false =>
      rw [Option.filter_some_neg (by simp [htruthy])]
      cases v with
      | map pairs =>
        rw [Value.truthy, Bool.not_eq_false', List.isEmpty_iff] at htruthy
        rw [htruthy]
        rfl
      | _ => rfl

theorem isWritable_of_labelPairs (h : Value.areWritableEntries entries = true) :
    ∀ p ∈ labelPairs entries, p.1.isWritable = true ∧ p.2.isWritable = true := by
  rw [labelPairs_eq_entriesOf, Authoring.entriesOf.eq_def]
  split
  · rename_i pairs hmap
    exact Value.areWritableEntries_iff.1 (Value.isWritable_of_get? h hmap)
  · exact List.forall_mem_nil _

/-- **A value has a text** unless it is null or absent. -/
theorem exists_text? (h : Value.areWritableEntries entries = true) (key : String) :
    ∃ given, text? (Value.get? entries key) = .ok given ∧
      ∀ s, given = some s ↔ ∃ v, Value.get? entries key = some v ∧ v ≠ .null ∧ v.render = s := by
  cases htext : text? (Value.get? entries key) with
  | error fault =>
    obtain ⟨⟨v, hv, hlong⟩, -⟩ := text?_eq_error_iff.1 htext
    rw [Value.isWritable_of_get? h hv] at hlong
    cases hlong
  | ok given =>
    refine ⟨given, rfl, fun s => ?_⟩
    have hsome : given = some s ↔ text? (Value.get? entries key) = .ok (some s) := by
      rw [htext, Except.ok.injEq]
    rw [hsome, text?_eq_some_iff]
    constructor
    · rintro ⟨v, hv, hnull, -, hs⟩
      exact ⟨v, hv, hnull, hs⟩
    · rintro ⟨v, hv, hnull, hs⟩
      exact ⟨v, hv, hnull, Value.isWritable_of_get? h hv, hs⟩

/-! ### Parts that are not in order -/

/-- A part is not in order, and this is its fault. -/
def Part.Rejects (entries : List (Value × Value)) (content : String) (fault : Fault) : Part → Prop
  | reference =>
      (∀ v, Value.get? entries "reference" = some v → v = .null ∨ Text.isBlankText v.render = true) ∧
      fault = .config .noReference
  | labels => (∃ v, given? entries "labels" = some v ∧ ∀ pairs, v ≠ .map pairs) ∧ fault = .config .badLabels
  | matchesGlob => ∃ v, Value.get? entries "matches_glob" = some v ∧ (∀ b, v ≠ .bool b) ∧
      fault = .config (.badGlobFlag v.render)
  | changesBase => (∃ v, given? entries "changes_base" = some v ∧ v.isText = false) ∧ fault = .notPath
  | author => ∃ v, given? entries "author" = some v ∧ (∀ a, Author.parse v.render ≠ .ok a) ∧
      fault = .config (.badRevision (.argument (.badAuthor v.render)))
  | timestamp => Fixture.timestamp (timestampValue entries) = .error fault
  | message => ∃ i j cause, LabelMap.IsFirstRepeat (Label.pairsOfMessage content) i j cause ∧
      fault = repeatedFault cause
  | contextReference | labelTexts => False

theorem reference_eq_error_iff_rejects (h : Value.areWritableEntries entries = true) :
    Fixture.reference entries = .error fault ↔ Part.reference.Rejects entries content fault := by
  obtain ⟨given, htext, hgiven⟩ := exists_text? h "reference"
  rw [reference_eq_error_iff, htext, or_iff_right (fun hfault => by cases hfault), and_comm, Part.Rejects]
  refine and_congr_left fun _ => ?_
  constructor
  · rintro ⟨_, hok, hblank⟩ v hv
    cases hok
    by_cases hnull : v = .null
    · exact .inl hnull
    · exact .inr (hblank _ ((hgiven _).2 ⟨v, hv, hnull, rfl⟩))
  · intro hblank
    refine ⟨given, rfl, fun s hs => ?_⟩
    obtain ⟨v, hv, hnull, rfl⟩ := (hgiven s).1 hs
    exact (hblank v hv).resolve_left hnull

theorem author_eq_error_iff_rejects (h : Value.areWritableEntries entries = true) :
    Fixture.author entries = .error fault ↔ Part.author.Rejects entries content fault := by
  rw [author_eq_error_iff, Part.Rejects]
  refine exists_congr fun v => and_congr_right fun hv => ?_
  simp only [isWritable_of_given? h hv, true_and, Bool.true_eq_false, false_and, false_or]
  cases hparse : Author.parse v.render with
  | ok a => simp
  | error cause =>
    rw [(Author.parse_eq_error_iff.1 hparse).2]
    simp [eq_comm (b := fault)]

/-- **The parts that are not in order**, by their faults. -/
theorem Part.fault?_eq_some_iff_rejects (h : Value.areWritableEntries entries = true) :
    part.fault? entries content = some fault ↔ part.Rejects entries content fault := by
  cases part with
  | reference => rw [fault?, faultOf_eq_some_iff, reference_eq_error_iff_rejects h]
  | labels => rw [fault?, faultOf_eq_some_iff, labelEntries_eq_error_iff, Rejects]
  | matchesGlob =>
    rw [fault?, faultOf_eq_some_iff, globFlag_eq_error_iff, Rejects]
    refine exists_congr fun v => and_congr_right fun hv => ?_
    simp [Value.isWritable_of_get? h hv]
  | changesBase => rw [fault?, faultOf_eq_some_iff, base_eq_error_iff, Rejects]
  | author => rw [fault?, faultOf_eq_some_iff, author_eq_error_iff_rejects h]
  | timestamp => rw [fault?, faultOf_eq_some_iff, Rejects]
  | contextReference =>
    obtain ⟨given, htext, -⟩ := exists_text? h "context_reference"
    rw [fault?, htext, Rejects, faultOf]
    exact iff_of_false (fun hfault => by cases hfault) id
  | labelTexts =>
    rw [fault?, faultOf_eq_some_iff, labels_eq_error_iff, Rejects]
    refine iff_of_false ?_ id
    rintro ⟨⟨p, hp, hlong⟩, -⟩
    simp [isWritable_of_labelPairs h p hp] at hlong
  | message =>
    rw [fault?, faultOf_eq_some_iff, Steps.mapError_eq_error_iff, Rejects]
    simp only [LabelMap.ofMessage_eq_error_iff, eq_comm (b := fault)]
    constructor
    · rintro ⟨cause, ⟨i, j, hrepeat⟩, hfault⟩
      exact ⟨i, j, cause, hrepeat, hfault⟩
    · rintro ⟨i, j, cause, hrepeat, hfault⟩
      exact ⟨cause, ⟨i, j, hrepeat⟩, hfault⟩

/-- The first part that is not in order has this fault. -/
def Rejects (entries : List (Value × Value)) (content : String) (fault : Fault) : Prop :=
  ∃ before part after, Part.all = before ++ part :: after ∧
    (∀ earlier ∈ before, ∀ cause, ¬ earlier.Rejects entries content cause) ∧
      part.Rejects entries content fault

/-- **The first part that is not in order** decides the fault. -/
theorem revision_eq_error_iff_rejects (h : Value.areWritableEntries entries = true) :
    revision entries content = .error fault ↔ Rejects entries content fault := by
  simp only [revision_eq_error_iff, List.findSome?_eq_some_iff, Rejects, ← Part.fault?_eq_some_iff_rejects h,
    Option.eq_none_iff_forall_ne_some, Ne]
  constructor
  · rintro ⟨before, part, after, hall, hfault, hbefore⟩
    exact ⟨before, part, after, hall, hbefore, hfault⟩
  · rintro ⟨before, part, after, hall, hbefore, hfault⟩
    exact ⟨before, part, after, hall, hfault, hbefore⟩

/-! ### Fixtures that are in order -/

/-- Every part of a fixture is in order: the reference has a text that is not blank; the labels are a
mapping, the base path is a text and the author has the text of one, unless they are empty or absent;
the flag is a truth value, unless it is absent; the timestamp is one; and the message declares no label
twice. -/
structure IsUsable (entries : List (Value × Value)) (content : String) : Prop where
  reference : ∃ v, Value.get? entries "reference" = some v ∧ v ≠ .null ∧ Text.isBlankText v.render = false
  labels : ∀ v, given? entries "labels" = some v → ∃ pairs, v = .map pairs
  matchesGlob : ∀ v, Value.get? entries "matches_glob" = some v → ∃ b, v = .bool b
  changesBase : ∀ v, given? entries "changes_base" = some v → v.isText = true
  author : ∀ v, given? entries "author" = some v → ∃ a, Author.parse v.render = .ok a
  timestamp : ∃ t, Fixture.timestamp (timestampValue entries) = .ok t
  message : ((Label.pairsOfMessage content).map Prod.fst).Nodup

/-- No part of a fixture that is in order has a fault. -/
theorem IsUsable.not_rejects (h : IsUsable entries content) (part : Part) (fault : Fault) :
    ¬ part.Rejects entries content fault := by
  intro hrejects
  obtain ⟨⟨v, hv, hnull, hblank⟩, hlabels, hglob, hbase, hauthor, ⟨t, ht⟩, hmessage⟩ := h
  cases part with
  | reference =>
    rcases hrejects.1 v hv with hnull' | hblank'
    · exact hnull hnull'
    · rw [hblank] at hblank'
      cases hblank'
  | labels =>
    obtain ⟨⟨v, hv, hmap⟩, -⟩ := hrejects
    obtain ⟨pairs, hpairs⟩ := hlabels v hv
    exact hmap pairs hpairs
  | matchesGlob =>
    obtain ⟨v, hv, hbool, -⟩ := hrejects
    obtain ⟨b, hb⟩ := hglob v hv
    exact hbool b hb
  | changesBase =>
    obtain ⟨⟨v, hv, htext⟩, -⟩ := hrejects
    rw [hbase v hv] at htext
    cases htext
  | author =>
    obtain ⟨v, hv, hnone, -⟩ := hrejects
    obtain ⟨a, ha⟩ := hauthor v hv
    exact hnone a ha
  | timestamp =>
    rw [Part.Rejects, ht] at hrejects
    cases hrejects
  | contextReference | labelTexts => exact hrejects
  | message =>
    obtain ⟨i, j, cause, hrepeat, -⟩ := hrejects
    exact LabelMap.nodup_iff_not_isFirstRepeat.1 hmessage i j cause hrepeat

/-- A fixture no part of which has a fault is in order. -/
theorem isUsable_of_not_rejects (hnone : ∀ part fault, ¬ Part.Rejects entries content fault part) :
    IsUsable entries content where
  reference := by
    by_contra hreference
    refine hnone .reference _ ⟨fun v hv => ?_, rfl⟩
    by_contra hbad
    rw [not_or, Bool.not_eq_true] at hbad
    exact hreference ⟨v, hv, hbad⟩
  labels v hv := by
    by_contra hmap
    exact hnone .labels _ ⟨⟨v, hv, not_exists.1 hmap⟩, rfl⟩
  matchesGlob v hv := by
    by_contra hbool
    exact hnone .matchesGlob _ ⟨v, hv, not_exists.1 hbool, rfl⟩
  changesBase v hv := by
    by_contra htext
    exact hnone .changesBase _ ⟨⟨v, hv, Bool.not_eq_true _ ▸ htext⟩, rfl⟩
  author v hv := by
    by_contra hauthor
    exact hnone .author _ ⟨v, hv, not_exists.1 hauthor, rfl⟩
  timestamp := by
    cases htimestamp : Fixture.timestamp (timestampValue entries) with
    | ok t => exact ⟨t, rfl⟩
    | error fault => exact absurd htimestamp (hnone .timestamp fault)
  message := by
    rw [LabelMap.nodup_iff_not_isFirstRepeat]
    intro i j cause hrepeat
    exact hnone .message _ ⟨i, j, cause, hrepeat, rfl⟩

/-- **The fixtures that describe a revision** are those whose parts are in order. -/
theorem exists_revision_iff (h : Value.areWritableEntries entries = true) :
    (∃ r, revision entries content = .ok r) ↔ IsUsable entries content := by
  have hnone : (∃ r, revision entries content = .ok r) ↔
      Part.all.findSome? (Part.fault? entries content) = none := by
    rw [Option.eq_none_iff_forall_ne_some]
    simp only [Ne, ← revision_eq_error_iff]
    cases revision entries content <;> simp
  rw [hnone, List.findSome?_eq_none_iff]
  simp only [Part.mem_all, true_imp_iff, Option.eq_none_iff_forall_ne_some, Ne,
    Part.fault?_eq_some_iff_rejects h]
  exact ⟨isUsable_of_not_rejects, IsUsable.not_rejects⟩

/-! ### The revision of a fixture -/

/-- The texts of the labels, in the order of the mapping. -/
def labelTexts (entries : List (Value × Value)) : List (String × String) :=
  (Authoring.entriesOf (Value.get? entries "labels")).map fun p => (p.1.render, p.2.render)

/-- The labels are set one after another, by the texts of their keys and values. -/
theorem labels_of_writable {pairs : List (Value × Value)}
    (h : ∀ p ∈ pairs, p.1.isWritable = true ∧ p.2.isWritable = true) :
    Fixture.labels pairs = .ok (LabelMap.ofPairs (pairs.map fun p => (p.1.render, p.2.render))) := by
  have htexts : pairs.mapM pairTexts = .ok (pairs.map fun p => (p.1.render, p.2.render)) := by
    rw [Steps.mapM_eq_ok_iff, List.forall₂_map_right_iff, List.forall₂_same]
    intro p hp
    rw [pairTexts, Value.written, Value.written, if_pos (h p hp).1, if_pos (h p hp).2]
    rfl
  have hlabels : Fixture.labels pairs = (do return LabelMap.ofPairs (← pairs.mapM pairTexts)) := rfl
  rw [hlabels, htexts]
  rfl

/-- What the revision of a fixture is: the texts of the values as they stand, and the content as the
message. Without an author it has the placeholder, without a base path the one that is derived from its
reference, and without a flag it is selected. Of labels with the same text as their keys the first gives
the place and the last gives the value. -/
structure Yields (entries : List (Value × Value)) (content : String) (r : Revision) : Prop where
  reference : ∃ v, Value.get? entries "reference" = some v ∧ r.reference = v.render
  message : r.message = content
  author : Names entries r.author
  changesBase :
    given? entries "changes_base" = none ∧ r.changesBase = Revision.baseDirectory.below r.reference ∨
    ∃ v, given? entries "changes_base" = some v ∧ r.changesBase = PathName.ofString v.render
  timestamp : Fixture.timestamp (timestampValue entries) = .ok r.timestamp
  contextReference : ∀ text, r.contextReference = some text ↔
    ∃ v, Value.get? entries "context_reference" = some v ∧ v ≠ .null ∧ v.render = text
  matchesGlob : Value.get? entries "matches_glob" = none ∧ r.matchesGlob = some true ∨
    ∃ b, Value.get? entries "matches_glob" = some (.bool b) ∧ r.matchesGlob = some b
  labelNames : r.referenceLabels.names = ((labelTexts entries).map Prod.fst).eraseDups
  labelValues : ∀ name, r.referenceLabels.get? name = (labelTexts entries).reverse.lookup name
  descriptionLabels : r.descriptionLabels.pairs = Label.pairsOfMessage content

/-- **The revision of a fixture** has the texts of its values. -/
theorem yields_of_revision (h : Value.areWritableEntries entries = true)
    (hr : revision entries content = .ok r) :
    Yields entries content r := by
  obtain ⟨hreference, ⟨pairs, hpairs, hlabels⟩, ⟨flag, hflag, hglob⟩, ⟨choice, hchoice, hbase⟩, -, htimestamp,
    hcontext, hmessage⟩ := revision_eq_ok_iff.1 hr
  have htexts : r.referenceLabels = LabelMap.ofPairs (labelTexts entries) := by
    have hwritten := labels_of_writable (isWritable_of_labelPairs h)
    rw [labelPairs_of_ok hpairs, hlabels, Except.ok.injEq] at hwritten
    rw [hwritten, labelTexts, ← labelPairs_eq_entriesOf, labelPairs_of_ok hpairs]
  constructor
  · obtain ⟨v, hv, -, -, htext⟩ := text?_eq_some_iff.1 (reference_eq_ok_iff.1 hreference).1
    exact ⟨v, hv, htext.symm⟩
  · exact hmessage
  · exact names_of_revision hr
  · rcases base_eq_ok_iff.1 hchoice with ⟨hnone, rfl⟩ | ⟨v, hv, -, rfl⟩
    · exact .inl ⟨hnone, (Option.some.inj hbase).symm⟩
    · exact .inr ⟨v, hv, (Option.some.inj hbase).symm⟩
  · exact htimestamp
  · obtain ⟨given, htext, hgiven⟩ := exists_text? h "context_reference"
    rw [hcontext, Except.ok.injEq] at htext
    exact htext ▸ hgiven
  · rw [hglob]
    rcases globFlag_eq_ok_iff.1 hflag with ⟨hnone, rfl⟩ | hbool
    · exact .inl ⟨hnone, rfl⟩
    · exact .inr ⟨flag, hbool, rfl⟩
  · rw [htexts, LabelMap.names_ofPairs]
  · intro name
    rw [htexts, LabelMap.get?_ofPairs]
  · rw [(LabelMap.ofMessage_eq_ok_iff.1 r.labels_eq).2, hmessage]

/-- **The fixtures that are accepted.** A fixture in which every whole number can be written describes a
revision if and only if each of its parts is in order, and the revision has the texts of its values.
Otherwise the fault is the one of the first part that is not in order: the reference, the kind of the
labels, the flag, the base path, the author, the timestamp, and the labels of the message. The context
reference and the texts of the labels are always in order. -/
theorem accepted_fixtures (content : String) (h : Value.areWritableEntries entries = true) :
    ((∃ r, revision entries content = .ok r) ↔ IsUsable entries content) ∧
    (∀ r, revision entries content = .ok r → Yields entries content r) ∧
    ∀ fault, revision entries content = .error fault ↔ Rejects entries content fault :=
  ⟨exists_revision_iff h, fun _ => yields_of_revision h, fun _ => revision_eq_error_iff_rejects h⟩

/-- A fixture with a number as its reference, a flag that is not set, a truth value as its context
reference, and two labels with the same text as their keys. -/
def twinLabels : List (Value × Value) :=
  [(.text "reference", .int 7), (.text "matches_glob", .bool false), (.text "context_reference", .bool false),
    (.text "labels", .map [(.int 1, .text "a"), (.text "k", .null), (.text "1", .int 2)])]

theorem isUsable_twinLabels : IsUsable twinLabels "one" where
  reference := ⟨.int 7, rfl, by simp, by decide⟩
  labels v hv := by
    cases hv
    exact ⟨_, rfl⟩
  matchesGlob v hv := by
    cases hv
    exact ⟨false, rfl⟩
  changesBase v hv := by cases hv
  author v hv := by cases hv
  timestamp := ⟨none, rfl⟩
  message := by decide

/-- It is accepted with the texts of its values. With a list of labels and a number as its base path,
the labels decide the fault. -/
theorem accepted_fixtures_of_twinLabels :
    (∃ r, revision twinLabels "one" = .ok r ∧ r.reference = "7" ∧ r.contextReference = some "False" ∧
      r.matchesGlob = some false ∧ r.changesBase = PathName.ofString "/DummyReference/7" ∧
      r.referenceLabels.names = ["1", "k"] ∧ r.referenceLabels.get? "1" = some "2") ∧
    revision [(.text "reference", .text "r"), (.text "labels", .list [.null]),
      (.text "changes_base", .int 5)] "one"
      = .error (.config .badLabels) := by
  constructor
  · have hwritable : Value.areWritableEntries twinLabels = true := by
      simp [twinLabels, Value.areWritableEntries, Value.isWritable, Digits.isWritable_of_lt_ten]
    obtain ⟨haccepted, hyields, -⟩ := accepted_fixtures "one" hwritable
    obtain ⟨r, hr⟩ := haccepted.2 isUsable_twinLabels
    obtain ⟨⟨v, hv, hreference⟩, -, -, hbase, -, hcontext, hglob, hnames, hvalues, -⟩ := hyields r hr
    cases hv
    refine ⟨r, hr, hreference, (hcontext _).2 ⟨.bool false, rfl, by simp, rfl⟩, ?_, ?_, ?_, ?_⟩
    · rcases hglob with ⟨hnone, -⟩ | ⟨b, hb, hglob⟩
      · cases hnone
      · cases hb
        exact hglob
    · rcases hbase with ⟨-, hbase⟩ | ⟨v, hv, -⟩
      · rw [hbase, hreference]
        decide
      · cases hv
    · rw [hnames]
      decide
    · rw [hvalues]
      decide
  · have hwritable : Value.areWritableEntries
        [(.text "reference", .text "r"), (.text "labels", .list [.null]),
          (.text "changes_base", .int 5)] = true := by
      simp [Value.areWritableEntries, Value.areWritable, Value.isWritable, Digits.isWritable_of_lt_ten]
    obtain ⟨-, -, hrejects⟩ := accepted_fixtures "one" hwritable
    rw [hrejects]
    refine ⟨[.reference], .labels, _, rfl, ?_, ⟨.list [.null], rfl, by simp⟩, rfl⟩
    intro earlier hearlier cause hreference
    rw [List.mem_singleton.1 hearlier] at hreference
    rcases hreference.1 _ rfl with hnull | hblank
    · cases hnull
    · revert hblank
      decide

end Fixture

end MigrationBench
