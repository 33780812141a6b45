import MigrationBench.Proofs.Path.Texts
import MigrationBench.Proofs.Revision.Declared
import MigrationBench.Proofs.Revision.Equality

/-!
# Derived base paths

A revision that is given no base path takes the one below `/DummyReference` that its reference leads to.
The same path can be spelled out, as the text `/DummyReference/` with the reference behind it. Both
agree unless the reference begins with a slash: a name that is joined to a directory takes its place if
it is absolute, while in one text a slash more does not count.

* `PathName.below_eq_ofString_iff` — a name below a directory, and both as one text.
* `Revision.build_alike` — the base path does not decide whether a draft is built.
* `Revision.derived_base_iff` — **when derived and spelled base paths agree**;
  `Revision.derived_base_outside`: a reference for which they do not.
-/

namespace MigrationBench

/-! ### Names below a directory -/

namespace PathName

/-- The name that a text denotes below a directory is denoted by both texts with a slash between, unless it is
absolute. -/
theorem below_eq_ofString_iff {above : String} (habove : ∃ c ∈ above.toList, c ≠ '/')
    (hparts : (ofString above).parts ≠ []) (text : String) :
    (ofString above).below text = ofString (above ++ "/" ++ text) ↔ text.toList.head? ≠ some '/' := by
  constructor
  · intro heq hslash
    have hroot : (ofString text).root ≠ .relative := fun h => startOf_eq_relative_iff.1 h hslash
    rw [below_of_absolute _ hroot] at heq
    have hlonger := congrArg PathName.parts heq
    rw [parts_ofString_slash] at hlonger
    exact hparts (List.self_eq_append_left.1 hlonger)
  · intro hslash
    have hroot : startOf (above ++ "/" ++ text) = startOf above := by
      rw [String.append_assoc]
      exact startOf_append (.inl habove)
    obtain ⟨hbelowRoot, hbelowParts⟩ := below_of_relative (ofString above) (startOf_eq_relative_iff.2 hslash)
    exact eq_of_parts (hbelowRoot.trans hroot.symm) (hbelowParts.trans (parts_ofString_slash above text).symm)

end PathName

namespace Revision

variable {r : Revision}

/-- The base path that is spelled out for a reference. -/
def spelledBase (reference : String) : PathName :=
  PathName.ofString ("/DummyReference/" ++ reference)

theorem spelledBase_eq (reference : String) :
    spelledBase reference = PathName.ofString ("/DummyReference" ++ "/" ++ reference) := rfl

theorem root_spelledBase (reference : String) : (spelledBase reference).root = .single := by
  have hname : ∃ c ∈ "/DummyReference/".toList, c ≠ '/' := ⟨'D', by decide, by decide⟩
  exact (PathName.startOf_append (.inl hname)).trans (by decide)

/-- The parts of a spelled base path: the base directory, and the pieces of the reference that count. -/
theorem parts_spelledBase (reference : String) : (spelledBase reference).parts
    = "DummyReference" :: (PathName.pieces reference).filter fun piece => piece ≠ "" ∧ piece ≠ "." := by
  rw [spelledBase_eq, PathName.parts_ofString_slash, PathName.parts_ofString reference]
  rfl

theorem below_eq_spelledBase_iff (reference : String) :
    baseDirectory.below reference = spelledBase reference ↔ reference.toList.head? ≠ some '/' :=
  PathName.below_eq_ofString_iff ⟨'D', by decide, by decide⟩ (by decide) reference

/-! ### Drafts with another base path -/

/-- The base path does not decide whether a draft is built: with any two there is the same fault, or
there are two revisions that differ in nothing else. -/
theorem build_alike (d : Draft) {choice choice' : BaseChoice} (h : choice ≠ .missing)
    (h' : choice' ≠ .missing) :
    Steps.Alike (fun r s : Revision => s = { r with changesBase := s.changesBase })
      (build { d with changesBase := choice }) (build { d with changesBase := choice' }) := by
  obtain ⟨reference, message, author, base, timestamp, contextReference, referenceLabels, matchesGlob⟩ := d
  cases reference with
  | none => exact .fault _
  | some reference =>
    obtain ⟨path, hpath⟩ := exists_basePath? reference h
    obtain ⟨path', hpath'⟩ := exists_basePath? reference h'
    cases message with
    | none => exact .fault _
    | some message =>
      cases author with
      | none => exact .fault _
      | some author =>
        simp only [build, require, hpath, hpath', bind, Except.bind]
        cases referenceLabels with
        | none => exact .fault _
        | some referenceLabels =>
          by_cases hempty : reference = ""
          · simp only [dif_pos hempty]
            exact .fault _
          · simp only [dif_neg hempty]
            cases checkedLabels (LabelMap.ofMessage message) with
            | error fault => exact .fault _
            | ok labels => exact .answer _ _ rfl

/-- A revision is built again with any other base path. -/
theorem build_of_base (r : Revision) (choice : BaseChoice) {path : PathName}
    (h : basePath? r.reference choice = some path) :
    build { r.toDraft with changesBase := choice } = .ok { r with changesBase := path } :=
  build_eq_ok_iff.2 ⟨h, rfl⟩

/-- Revisions that differ in the base path only are equal if the base paths are. -/
theorem same_of_base_iff (r : Revision) (path path' : PathName) :
    Revision.same { r with changesBase := path } { r with changesBase := path' } = true ↔ path = path' := by
  rw [same_iff_essence]
  constructor
  · intro h
    exact BaseChoice.given.inj (congrArg Draft.Essence.changesBase h)
  · rintro rfl
    rfl

/-! ### Derived and spelled base paths -/

/-- **When derived and spelled base paths agree.** Take the fields of any revision. It is built with the
base path that is derived from its reference, and with the text `/DummyReference/` with the reference
behind it. The second path holds the base directory and the pieces of the reference, without those that
are empty or a point. The first one is the same, and so is the revision, unless the reference begins
with a slash; then the first one is the reference itself, and the revisions are not equal. If a draft is
not built, the fault is the same with both base paths. -/
theorem derived_base_iff (r : Revision) :
    (∃ derived spelled,
      build { r.toDraft with changesBase := .derived } = .ok derived ∧
      build { r.toDraft with changesBase := .given (spelledBase r.reference) } = .ok spelled ∧
      spelled.changesBase.root = .single ∧
      spelled.changesBase.parts = "DummyReference" ::
        (PathName.pieces r.reference).filter (fun piece => piece ≠ "" ∧ piece ≠ ".") ∧
      (r.reference.toList.head? = some '/' → derived.changesBase = PathName.ofString r.reference) ∧
      (derived.changesBase = spelled.changesBase ↔ r.reference.toList.head? ≠ some '/') ∧
      (derived.same spelled = true ↔ r.reference.toList.head? ≠ some '/') ∧
      (derived = spelled ↔ r.reference.toList.head? ≠ some '/')) ∧
    ∀ (d : Draft) (reference : String) (fault : RevisionFault),
      build { d with reference := some reference, changesBase := .derived } = .error fault ↔
        build { d with reference := some reference, changesBase := .given (spelledBase reference) }
          = .error fault := by
  constructor
  · have hagree := below_eq_spelledBase_iff r.reference
    refine ⟨{ r with changesBase := baseDirectory.below r.reference },
      { r with changesBase := spelledBase r.reference }, build_of_base r .derived rfl,
      build_of_base r (.given _) rfl, root_spelledBase r.reference, parts_spelledBase r.reference, ?_,
        hagree, ?_, ?_⟩
    · intro hslash
      exact PathName.below_of_absolute _ fun h => PathName.startOf_eq_relative_iff.1 h hslash
    · rw [same_of_base_iff, hagree]
    · rw [← hagree]
      constructor
      · intro h
        exact congrArg Revision.changesBase h
      · intro h
        rw [h]
  · intro d reference fault
    exact (build_alike { d with reference := some reference } BaseChoice.noConfusion
      BaseChoice.noConfusion).error_iff fault

/-- A reference with a slash at its end, one too many, and parts that lead nowhere. -/
def dottedRevision : Revision :=
  { plainRevision with
    reference := "a//./../b/"
    reference_ne := by decide }

/-- Derived and spelled out, its base path is the same. -/
theorem derived_base_of_dottedRevision : ∃ r,
    build { dottedRevision.toDraft with changesBase := .derived } = .ok r ∧
    build { dottedRevision.toDraft with changesBase := .given (.ofString "/DummyReference/a//./../b/") }
      = .ok r ∧
    r.changesBase.render = "/DummyReference/a/../b" := by
  obtain ⟨⟨derived, spelled, hderived, hspelled, hroot, hparts, -, -, -, hsame⟩, -⟩ :=
    derived_base_iff dottedRevision
  obtain rfl := hsame.2 (by decide)
  refine ⟨derived, hderived, hspelled, ?_⟩
  have hpieces : (PathName.pieces dottedRevision.reference).filter (fun piece => piece ≠ "" ∧ piece ≠ ".")
      = ["a", "..", "b"] := by decide
  rw [PathName.render, hroot, hparts, hpieces]
  decide

/-- A revision with an absolute reference. -/
def absoluteRevision : Revision :=
  { plainRevision with
    reference := "/a"
    message := "DummyReference message"
    reference_ne := by decide
    labels_eq := by cbv }

/-- The base path that is derived from an absolute reference is not below `/DummyReference`. -/
theorem derived_base_outside : ∃ derived spelled,
    build { reference := some "/a" } = .ok derived ∧
    build { reference := some "/a", changesBase := .given (.ofString ("/DummyReference/" ++ "/a")) }
      = .ok spelled ∧
    derived.changesBase.render = "/a" ∧ spelled.changesBase.render = "/DummyReference/a" ∧
    derived.same spelled = false := by
  have hbase : basePath? absoluteRevision.reference .derived = some (.ofString "/a") := by decide
  have hderived := build_of_base absoluteRevision .derived hbase
  have hspelled := build_of_base absoluteRevision (.given (.ofString ("/DummyReference/" ++ "/a"))) rfl
  refine ⟨_, _, hderived, hspelled, by decide, by decide, ?_⟩
  rw [Bool.eq_false_iff, ne_eq, same_of_base_iff]
  decide

end Revision

end MigrationBench
