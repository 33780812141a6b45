import MigrationBench.Proofs.Revision.Growth

/-!
# Simple changes

A simple change is built from what it is given and from the history that it is added to: its reference is
its position there, and its author is that of the history.

* `IsSimpleChange` — what a simple change at a position holds: `History.build_simpleDraft_eq_ok_iff`.
* `exists_isSimpleChange_iff` — there is one if and only if there are an author and a message that declares
  no label twice.
* `History.addSimple_eq_ok_iff` — adding a simple change.
-/

namespace MigrationBench

/-- What a simple change at a position holds: its number as its reference, what it is given, and the values
of a draft for the rest. -/
structure IsSimpleChange (author : Option Author) (position : Nat) (timestamp : Option Stamp)
    (message : Option String) (base : Option PathName) (r : Revision) : Prop where
  reference : r.reference = toString position
  author : author = some r.author
  message : message = some r.message
  timestamp : r.timestamp = timestamp
  changesBase : r.changesBase = base.getD (Revision.baseDirectory.below (toString position))
  contextReference : r.contextReference = none
  referenceLabels : r.referenceLabels = LabelMap.empty
  matchesGlob : r.matchesGlob = some true

variable {author : Option Author} {position : Nat} {timestamp : Option Stamp} {message : Option String}
  {base : Option PathName} {r : Revision}

/-- A simple change can be made for every position and timestamp. -/
theorem exists_isSimpleChange_iff :
    (∃ r, IsSimpleChange author position timestamp message base r) ↔
      author ≠ none ∧ ∃ text, message = some text ∧ ((Label.pairsOfMessage text).map Prod.fst).Nodup := by
  constructor
  · rintro ⟨r, hr⟩
    have hnodup := (LabelMap.ofMessage_eq_ok_iff.1 r.labels_eq).1
    refine ⟨?_, r.message, hr.message, hnodup⟩
    rw [hr.author]
    exact Option.some_ne_none _
  · rintro ⟨hauthor, text, rfl, hnodup⟩
    obtain ⟨author, rfl⟩ := Option.ne_none_iff_exists'.1 hauthor
    obtain ⟨labels, hlabels⟩ := LabelMap.exists_ofMessage hnodup
    exact ⟨{
      reference := toString position
      message := text
      author
      changesBase := base.getD (Revision.baseDirectory.below (toString position))
      timestamp
      contextReference := none
      referenceLabels := LabelMap.empty
      matchesGlob := some true
      descriptionLabels := labels
      reference_ne := Nat.repr_ne_empty
      labels_eq := hlabels }, ⟨rfl, rfl, rfl, rfl, rfl, rfl, rfl, rfl⟩⟩

namespace History

variable {h h' : History}

theorem build_simpleDraft_eq_ok_iff :
    Revision.build (h.simpleDraft timestamp message base) = .ok r ↔
      IsSimpleChange h.author h.size timestamp message base r := by
  rw [Revision.build_eq_ok_iff]
  constructor
  · rintro ⟨hbase, hdraft⟩
    simp only [Revision.toDraft, simpleDraft, Draft.mk.injEq, Option.some.injEq, true_and] at hdraft
    obtain ⟨hreference, hmessage, hauthor, htimestamp, hcontext, hlabels, hglob⟩ := hdraft
    refine ⟨hreference, hauthor.symm, hmessage.symm, htimestamp, ?_, hcontext, hlabels, hglob⟩
    cases base with
    | none =>
      rw [simpleDraft, Option.elim_none, Revision.basePath?, hreference, Option.some_inj] at hbase
      exact hbase.symm
    | some path =>
      rw [simpleDraft, Option.elim_some, Revision.basePath?, Option.some_inj] at hbase
      exact hbase.symm
  · intro hr
    constructor
    · rw [hr.changesBase, hr.reference]
      cases base <;> rfl
    · simp only [Revision.toDraft, simpleDraft, hr.reference, ← hr.message, ← hr.author, hr.timestamp,
        hr.contextReference, hr.referenceLabels, hr.matchesGlob]

/-- **Adding a simple change** puts it behind the others. -/
theorem addSimple_eq_ok_iff :
    h.addSimple timestamp message base = .ok h' ↔
      ∃ r, IsSimpleChange h.author h.size timestamp message base r ∧ h' = h.add r := by
  rw [addSimple]
  cases hbuild : Revision.build (h.simpleDraft timestamp message base) with
  | error fault =>
    refine iff_of_false (fun hok => by cases hok) ?_
    rintro ⟨r, hr, -⟩
    rw [build_simpleDraft_eq_ok_iff.2 hr] at hbuild
    cases hbuild
  | ok built =>
    have hbuilt := build_simpleDraft_eq_ok_iff.1 hbuild
    constructor
    · intro hok
      cases hok
      exact ⟨built, hbuilt, rfl⟩
    · rintro ⟨r, hr, rfl⟩
      rw [build_simpleDraft_eq_ok_iff.2 hr] at hbuild
      cases hbuild
      rfl

end History

end MigrationBench
