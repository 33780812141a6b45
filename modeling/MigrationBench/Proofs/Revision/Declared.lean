import MigrationBench.Proofs.Label.Composition
import MigrationBench.Proofs.Revision.Override

/-!
# The labels that a revision declares

If nothing else is wrong with a draft, its message decides whether there is a revision: no label may be
declared twice. The labels of the revision are then those of the message, as they are listed line by
line, and the labels of two messages, one below the other, are those of both.

* `Draft.IsComplete` — nothing but the message can keep a draft from being a revision.
* `Revision.exists_build_iff`, `Revision.build_eq_error_iff` — whether a draft is built, and the fault
  otherwise.
* `Revision.build_declares` — **the labels that a revision declares**.
* `Revision.composed_labels` — **the labels of a composed message**.
-/

namespace MigrationBench

/-- Nothing but the message can keep a draft from being a revision: the other fields that have to be
there are there, and the reference is not empty. -/
structure Draft.IsComplete (d : Draft) : Prop where
  reference : ∃ reference, d.reference = some reference ∧ reference ≠ ""
  author : d.author ≠ none
  changesBase : d.changesBase ≠ .missing
  referenceLabels : d.referenceLabels ≠ none

namespace Revision

variable {d : Draft} {r : Revision} {message : String} {fault : RevisionFault}

/-! ### Drafts in which nothing is missing -/

theorem exists_basePath? (reference : String) {choice : BaseChoice} (h : choice ≠ .missing) :
    ∃ path, basePath? reference choice = some path := by
  cases choice with
  | derived => exact ⟨_, rfl⟩
  | given path => exact ⟨path, rfl⟩
  | missing => exact absurd rfl h

theorem message_of_build (h : build d = .ok r) : d.message = some r.message :=
  (congrArg Draft.message (build_eq_ok_iff.1 h).2).symm

theorem isComplete_of_build (h : build d = .ok r) : d.IsComplete := by
  obtain ⟨hbase, hdraft⟩ := build_eq_ok_iff.1 h
  have hreference : some r.reference = d.reference := congrArg Draft.reference hdraft
  have hauthor : some r.author = d.author := congrArg Draft.author hdraft
  have hlabels : some r.referenceLabels = d.referenceLabels := congrArg Draft.referenceLabels hdraft
  refine ⟨⟨r.reference, hreference.symm, r.reference_ne⟩, ?_, ?_, ?_⟩
  · rw [← hauthor]
    exact Option.some_ne_none _
  · intro hmissing
    rw [hmissing] at hbase
    cases hbase
  · rw [← hlabels]
    exact Option.some_ne_none _

/-- In a draft in which nothing is missing, the labels of the message are all that is checked. -/
theorem exists_build_eq (hcomplete : d.IsComplete) (hmessage : d.message = some message) :
    ∃ make : { labels // LabelMap.ofMessage message = .ok labels } → Revision,
      build d = checkedLabels (LabelMap.ofMessage message) >>= fun labels => .ok (make labels) := by
  obtain ⟨⟨reference, hreference, hne⟩, hauthor, hbase, hreferenceLabels⟩ := hcomplete
  obtain ⟨author, hauthor⟩ := Option.ne_none_iff_exists'.1 hauthor
  obtain ⟨path, hpath⟩ := exists_basePath? reference hbase
  obtain ⟨referenceLabels, hreferenceLabels⟩ := Option.ne_none_iff_exists'.1 hreferenceLabels
  simp only [build, require, hreference, hmessage, hauthor, hpath, hreferenceLabels, bind, Except.bind,
    dif_neg hne]
  exact ⟨_, rfl⟩

/-- A draft in which nothing is missing is built as soon as its message has labels. -/
theorem build_of_complete (hcomplete : d.IsComplete) (hmessage : d.message = some message) :
    (∀ labels, LabelMap.ofMessage message = .ok labels → ∃ r, build d = .ok r) ∧
      ∀ cause, LabelMap.ofMessage message = .error cause → build d = .error (.repeatedLabel cause) := by
  obtain ⟨make, hbuild⟩ := exists_build_eq hcomplete hmessage
  rw [hbuild]
  refine ⟨fun labels hlabels => ⟨make ⟨labels, hlabels⟩, ?_⟩, fun cause hlabels => ?_⟩
  · rw [checkedLabels_eq_ok hlabels]
    rfl
  · rw [checkedLabels_eq_error hlabels]
    rfl

/-- A draft in which nothing is missing fails only by a label that its message declares twice. -/
theorem build_eq_error_iff (hcomplete : d.IsComplete) (hmessage : d.message = some message) :
    build d = .error fault ↔ ∃ cause, LabelMap.ofMessage message = .error cause ∧
      fault = .repeatedLabel cause := by
  obtain ⟨hok, herror⟩ := build_of_complete hcomplete hmessage
  cases hlabels : LabelMap.ofMessage message with
  | ok labels =>
    obtain ⟨r, hr⟩ := hok labels hlabels
    simp [hr]
  | error cause => simp [herror cause hlabels, eq_comm]

/-- **A revision can be built** if nothing is missing and the names of the labels in the message are
distinct. -/
theorem exists_build_iff :
    (∃ r, build d = .ok r) ↔ d.IsComplete ∧
      ∃ message, d.message = some message ∧ ((Label.pairsOfMessage message).map Prod.fst).Nodup := by
  constructor
  · rintro ⟨r, hr⟩
    exact ⟨isComplete_of_build hr, r.message, message_of_build hr,
      (LabelMap.ofMessage_eq_ok_iff.1 r.labels_eq).1⟩
  · rintro ⟨hcomplete, message, hmessage, hnodup⟩
    obtain ⟨labels, hlabels⟩ := LabelMap.exists_ofMessage hnodup
    exact (build_of_complete hcomplete hmessage).1 labels hlabels

theorem pairs_descriptionLabels (r : Revision) : r.descriptionLabels.pairs = Label.pairsOfMessage r.message :=
  (LabelMap.ofMessage_eq_ok_iff.1 r.labels_eq).2

theorem names_descriptionLabels (r : Revision) :
    r.descriptionLabels.names = (Label.pairsOfMessage r.message).map Prod.fst := by
  rw [LabelMap.names, pairs_descriptionLabels]

/-- **The labels that a revision declares.** The labels of a message can be added to a map while its
lines are read, up to a name that is there already; this is the same as to list them all and to add them
then. So a draft in which nothing is missing is built if and only if the names in the list are distinct,
and the labels of the revision are those in the list, in the same order. Otherwise the fault is the
first label in the list whose name was given before, with the value that was given first, even if both
values are the same. -/
theorem build_declares (hcomplete : d.IsComplete) (hmessage : d.message = some message) :
    LabelMap.ofMessage message = LabelMap.addLines LabelMap.empty (Text.lines message) ∧
    ((∃ r, build d = .ok r) ↔ ((Label.pairsOfMessage message).map Prod.fst).Nodup) ∧
    (∀ r, build d = .ok r → r.descriptionLabels.pairs = Label.pairsOfMessage message) ∧
    ∀ fault, build d = .error fault ↔ ∃ i j cause,
      LabelMap.IsFirstRepeat (Label.pairsOfMessage message) i j cause ∧ fault = .repeatedLabel cause := by
  refine ⟨LabelMap.ofMessage_eq_addLines message, ?_, fun r hr => ?_, fun fault => ?_⟩
  · rw [exists_build_iff, and_iff_right hcomplete]
    simp [hmessage]
  · have hread : message = r.message := by
      rw [← Option.some_inj, ← hmessage, message_of_build hr]
    rw [hread, pairs_descriptionLabels]
  · rw [build_eq_error_iff hcomplete hmessage]
    simp only [LabelMap.ofMessage_eq_error_iff]
    constructor
    · rintro ⟨cause, ⟨i, j, hrepeat⟩, hfault⟩
      exact ⟨i, j, cause, hrepeat, hfault⟩
    · rintro ⟨i, j, cause, hrepeat, hfault⟩
      exact ⟨cause, ⟨i, j, hrepeat⟩, hfault⟩

/-- A name that is declared three times is reported with its first two values, though they are the same. -/
theorem build_declares_of_tripleName :
    build { reference := some "7", message := some "A: 1\nB: 2\nA: 1\nB: 3\nA: 4" }
      = .error (.repeatedLabel ⟨"A", "1", "1"⟩) := by
  have hpairs : Label.pairsOfMessage "A: 1\nB: 2\nA: 1\nB: 3\nA: 4"
      = [("A", "1"), ("B", "2"), ("A", "1"), ("B", "3"), ("A", "4")] := by decide
  obtain ⟨-, -, -, herror⟩ := build_declares
    (d := { reference := some "7", message := some "A: 1\nB: 2\nA: 1\nB: 3\nA: 4" })
    ⟨⟨"7", rfl, by decide⟩, by simp, by simp, by simp⟩ rfl
  refine (herror _).2 ⟨0, 2, ⟨"A", "1", "1"⟩, ⟨by decide, by rw [hpairs]; rfl, by rw [hpairs]; rfl, ?_⟩, rfl⟩
  intro i j hij hj
  obtain rfl : j = 1 := by omega
  obtain rfl : i = 0 := by omega
  rw [hpairs]
  decide

/-! ### Messages below one another -/

theorem exists_build_message_iff :
    (∃ r, build { d with message := some message } = .ok r) ↔
      d.IsComplete ∧ ((Label.pairsOfMessage message).map Prod.fst).Nodup := by
  rw [exists_build_iff]
  constructor
  · rintro ⟨⟨hreference, hauthor, hbase, hlabels⟩, text, htext, hnodup⟩
    cases htext
    exact ⟨⟨hreference, hauthor, hbase, hlabels⟩, hnodup⟩
  · rintro ⟨⟨hreference, hauthor, hbase, hlabels⟩, hnodup⟩
    exact ⟨⟨hreference, hauthor, hbase, hlabels⟩, message, rfl, hnodup⟩

theorem names_of_build_message (h : build { d with message := some message } = .ok r) :
    r.descriptionLabels.names = (Label.pairsOfMessage message).map Prod.fst := by
  rw [names_descriptionLabels, Option.some_inj.1 (message_of_build h)]

/-- Of two messages, one below the other, a revision can be built if and only if one can be built of each, and
no name is declared in both. -/
theorem exists_build_append_iff (d : Draft) (a b : String) :
    (∃ r, build { d with message := some (a ++ "\n" ++ b) } = .ok r) ↔
      ∃ ra rb, build { d with message := some a } = .ok ra ∧ build { d with message := some b } = .ok rb ∧
        ra.descriptionLabels.names.Disjoint rb.descriptionLabels.names := by
  rw [exists_build_message_iff, Label.pairsOfMessage_append, List.map_append, List.nodup_append']
  constructor
  · rintro ⟨hcomplete, ha, hb, hdisjoint⟩
    obtain ⟨ra, hra⟩ := exists_build_message_iff.2 ⟨hcomplete, ha⟩
    obtain ⟨rb, hrb⟩ := exists_build_message_iff.2 ⟨hcomplete, hb⟩
    refine ⟨ra, rb, hra, hrb, ?_⟩
    rw [names_of_build_message hra, names_of_build_message hrb]
    exact hdisjoint
  · rintro ⟨ra, rb, hra, hrb, hdisjoint⟩
    obtain ⟨hcomplete, ha⟩ := exists_build_message_iff.1 ⟨ra, hra⟩
    obtain ⟨-, hb⟩ := exists_build_message_iff.1 ⟨rb, hrb⟩
    rw [names_of_build_message hra, names_of_build_message hrb] at hdisjoint
    exact ⟨hcomplete, ha, hb, hdisjoint⟩

/-- **The labels of a composed message.** The labels of two texts, one below the other, are those of the
first and then those of the second. A revision with both as its message can be built if and only if one
with each can be built and no name is declared in both, and its labels are those of the first and then
those of the second. Labels that are written into a text line by line, as their name, a colon, a blank
and their value, are read back from it in order, whatever lines that are no labels stand between
them. -/
theorem composed_labels :
    (∀ a b, Label.pairsOfMessage (a ++ "\n" ++ b) = Label.pairsOfMessage a ++ Label.pairsOfMessage b) ∧
    (∀ (d : Draft) (a b : String), (∃ r, build { d with message := some (a ++ "\n" ++ b) } = .ok r) ↔
      ∃ ra rb, build { d with message := some a } = .ok ra ∧ build { d with message := some b } = .ok rb ∧
        ra.descriptionLabels.names.Disjoint rb.descriptionLabels.names) ∧
    (∀ r ra rb : Revision, r.message = ra.message ++ "\n" ++ rb.message →
      r.descriptionLabels.pairs = ra.descriptionLabels.pairs ++ rb.descriptionLabels.pairs) ∧
    ∀ lines : List Label.Line, (∀ line ∈ lines, line.IsProper) →
      Label.pairsOfMessage (Label.compose lines) = lines.filterMap Label.Line.pair? := by
  refine ⟨Label.pairsOfMessage_append, exists_build_append_iff, fun r ra rb hmessage => ?_,
    fun lines hlines =>
    Label.pairsOfMessage_compose hlines⟩
  rw [pairs_descriptionLabels, hmessage, Label.pairsOfMessage_append, pairs_descriptionLabels ra,
    pairs_descriptionLabels rb]

/-- Two messages with a label each, and labels with values that look like something else, between other
lines. -/
theorem composed_labels_of_oddValues :
    (∃ r, build { plainRevision.toDraft with message := some ("A: 1" ++ "\n" ++ "B: 2") } = .ok r ∧
      r.descriptionLabels.pairs = [("A", "1"), ("B", "2")]) ∧
    Label.pairsOfMessage (Label.compose [.other "http://x", .label "a" "//b", .other "",
      .label "a" " c=d: \r"])
      = [("a", "//b"), ("a", " c=d: \r")] := by
  obtain ⟨-, hbuild, hlabels, hread⟩ := composed_labels
  refine ⟨?_, hread _ (by decide)⟩
  have hcomplete := isComplete_of_build (build_toDraft plainRevision)
  have ha : Label.pairsOfMessage "A: 1" = [("A", "1")] := by decide
  have hb : Label.pairsOfMessage "B: 2" = [("B", "2")] := by decide
  obtain ⟨ra, hra⟩ := exists_build_message_iff.2 ⟨hcomplete, by rw [ha]; decide⟩
  obtain ⟨rb, hrb⟩ := exists_build_message_iff.2 ⟨hcomplete, by rw [hb]; decide⟩
  have hdisjoint : ra.descriptionLabels.names.Disjoint rb.descriptionLabels.names := by
    rw [names_of_build_message hra, names_of_build_message hrb, ha, hb]
    simp
  obtain ⟨r, hr⟩ := (hbuild plainRevision.toDraft "A: 1" "B: 2").2 ⟨ra, rb, hra, hrb, hdisjoint⟩
  have hmessage := Option.some_inj.1 (message_of_build hr)
  have hmessageA := Option.some_inj.1 (message_of_build hra)
  have hmessageB := Option.some_inj.1 (message_of_build hrb)
  refine ⟨r, hr, ?_⟩
  rw [hlabels r ra rb (by rw [← hmessage, ← hmessageA, ← hmessageB]), pairs_descriptionLabels,
    pairs_descriptionLabels, ← hmessageA, ← hmessageB, ha, hb]
  rfl

end Revision

end MigrationBench
