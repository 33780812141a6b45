import MigrationBench.Proofs.Revision.Runs

/-!
# Finding the newest revision

A simple change is numbered by its position, whatever references the revisions before it have. Its number
leads to it unless a revision with that very reference was added as it is; then the number stands for the
first such revision, and the simple change lies in the range behind its own number.

* `History.resolve_of_firstAt`, `History.changes_of_last` — the revision of a reference, and the range behind
  the last one.
* `History.firstAt_newest` — a number that no revision was given stands at the end.
* `History.newest_found_iff` — **when a simple change is found again**; `History.newest_shadowed`: when not.
-/

namespace MigrationBench.History

/-- Midnight of 2024-01-02 in UTC. -/
def plainMoment : Stamp :=
  Stamp.ofDate ⟨2024, 1, 2, by decide, by decide, by decide⟩

variable {h : History} {r : Revision} {reference : String} {p : Policy} {zone : Offset}

theorem resolve_of_firstAt {i : Nat} (hi : h.FirstAt reference i) (hr : h.revisions[i]? = some r) :
    h.resolve (some reference) = .ok r := by
  obtain ⟨⟨found, hfound, hreference⟩, hbefore⟩ := hi
  obtain ⟨hlt, heq⟩ := List.getElem?_eq_some_iff.1 hr
  rw [hr, Option.some_inj] at hfound
  rw [resolve_eq_ok_iff, List.find?_eq_some_iff_getElem]
  refine ⟨by simpa [hfound] using hreference, i, hlt, heq, ?_⟩
  intro j hj
  have hother := hbefore j hj h.revisions[j] (List.getElem?_eq_getElem (by omega))
  simpa using hother

theorem resolve_add (h : History) (r : Revision) : (h.add r).resolve none = .ok r := by
  rw [resolve, add, List.getLast?_concat]

theorem size_add (h : History) (r : Revision) : (h.add r).size = h.size + 1 :=
  size_grown h [r]

theorem getElem?_add (h : History) (r : Revision) : (h.add r).revisions[h.size]? = some r := by
  rw [add, size, List.getElem?_concat_length]

/-- Nothing lies behind the last revision. -/
theorem changes_of_last (hlast : (h.add r).FirstAt reference h.size) :
    (h.add r).changes p zone (some reference) none = .ok [] := by
  have hmark : (h.add r).Marks (some reference) (some h.size) := ⟨_, rfl, hlast⟩
  have hselected : (h.add r).selected (behind (some h.size)) (h.add r).size = [] := by
    rw [selected, List.drop_eq_nil_of_le, List.filter_nil]
    rw [List.length_take, behind, Option.elim_some, ← size_add h r]
    exact Nat.min_le_left ..
  rw [changes_eq_mapM (startOf_eq hmark) rfl, hselected]
  rfl

/-- The last revision lies behind every earlier one. If the file pattern selects it, the range is not
empty. -/
theorem changes_ne_nil (hknown : h.Knows reference) (hglob : r.matchesGlob = some true) :
    (h.add r).changes p zone (some reference) none ≠ .ok [] := by
  obtain ⟨i, hi⟩ := hknown.exists_firstAt
  have hmark : (h.grown [r]).Marks (some reference) (some i) := ⟨i, rfl, hi.grown [r]⟩
  have hsize : h.size ≤ (h.grown [r]).size := by
    rw [size_grown]
    omega
  have hselected : (h.grown [r]).selected (behind (some i)) (h.grown [r]).size
      = h.selected (behind (some i)) h.size ++ [r] := by
    have hstart : behind (some i) ≤ h.size := hi.lt_size
    rw [selected_append hstart hsize, selected_grown (Nat.le_refl _), selected_grown_added,
      List.filter_singleton, hglob]
    rfl
  intro hempty
  have hchanges : (h.grown [r]).changes p zone (some reference) none
      = ((h.grown [r]).selected (behind (some i)) (h.grown [r]).size).mapM (·.toChange p zone) :=
    changes_eq_mapM (startOf_eq hmark) rfl
  rw [hselected] at hchanges
  have hall := Steps.mapM_eq_ok_iff.1 (hchanges.symm.trans hempty)
  have hlength := hall.length_eq
  rw [List.length_append, List.length_singleton, List.length_nil] at hlength
  omega

/-- A revision that a run is given is in the history after it. -/
theorem mem_revisions_after {steps : List Step} (hr : .add (.revision r) ∈ steps) :
    r ∈ (h.after steps).revisions := by
  obtain ⟨before, rest, rfl⟩ := List.append_of_mem hr
  have hadded : (Step.add (.revision r)).added? (h.after before) = some r := rfl
  exact List.mem_of_getElem? (getElem?_after_of_added hadded)

theorem knows_of_mem (hr : r ∈ h.revisions) : h.Knows r.reference := by
  have hsome : (h.revisions.find? (·.reference == r.reference)).isSome := by
    rw [List.find?_isSome]
    exact ⟨r, hr, beq_self_eq_true _⟩
  obtain ⟨found, hfound⟩ := Option.isSome_iff_exists.1 hsome
  exact ⟨found, resolve_eq_ok_iff.2 hfound⟩

/-- **A number that no revision was given** stands at the end, if a revision with that number is added. -/
theorem firstAt_newest {exempt : Revision → Prop} (hnumbered : h.Numbered exempt)
    (hexempt : ∀ r, exempt r → r.reference ≠ toString h.size) (hr : r.reference = toString h.size) :
    (h.add r).FirstAt (toString h.size) h.size := by
  constructor
  · exact ⟨r, getElem?_add h r, hr⟩
  · intro j hj earlier hearlier
    rw [add, List.getElem?_append_left hj] at hearlier
    rcases hnumbered j earlier hearlier with hgiven | hreference
    · exact hexempt earlier hgiven
    · rw [hreference]
      intro heq
      have hsame := toString_injective heq
      omega

/-- **When a simple change is found again.** Directly after a simple change was added to the history of any
run, it is the last revision, and its reference is its number. If the run was given no revision with that
reference, the number leads to the simple change, and there are no changes behind it. Otherwise it leads to
the first revision of the run with that reference, and the range behind it is not empty, since the simple
change is in it. -/
theorem newest_found_iff (author : Option Author) (steps : List Step) {timestamp : Option Stamp}
    {message : Option String} {base : Option PathName} {h' : History}
    (hadd : (({ author } : History).after steps).addSimple timestamp message base = .ok h') :
    let number := toString (h'.size - 1)
    (∃ r, h'.resolve none = .ok r ∧ r.reference = number) ∧
    ((∀ r, .add (.revision r) ∈ steps → r.reference ≠ number) →
      h'.resolve (some number) = h'.resolve none ∧
        ∀ p zone, h'.changes p zone (some number) none = .ok []) ∧
    ∀ r, .add (.revision r) ∈ steps → r.reference = number →
      (∃ i found, i < h'.size - 1 ∧ h'.FirstAt number i ∧ h'.revisions[i]? = some found ∧
        h'.resolve (some number) = .ok found) ∧
      ∀ p zone, h'.changes p zone (some number) none ≠ .ok [] := by
  obtain ⟨r, hr, rfl⟩ := addSimple_eq_ok_iff.1 hadd
  generalize hh : ({ author } : History).after steps = h at hr ⊢
  have hnumbered : h.Numbered fun r => .add (.revision r) ∈ steps := by
    rw [← hh]
    exact (numbered_nil author).after fun _ => id
  have hsize : (h.add r).size - 1 = h.size := by
    rw [size_add, Nat.add_sub_cancel]
  intro number
  have hnumber : number = toString h.size := congrArg toString hsize
  rw [hnumber, hsize]
  refine ⟨⟨r, resolve_add h r, hr.reference⟩, ?_, ?_⟩
  · intro hfresh
    have hlast := firstAt_newest hnumbered hfresh hr.reference
    refine ⟨?_, fun _ _ => changes_of_last hlast⟩
    rw [resolve_add]
    exact resolve_of_firstAt hlast (getElem?_add h r)
  · intro given hgiven hreference
    have hmem : given ∈ h.revisions := by
      rw [← hh]
      exact mem_revisions_after hgiven
    have hknown : h.Knows (toString h.size) := hreference ▸ knows_of_mem hmem
    obtain ⟨i, hi⟩ := hknown.exists_firstAt
    have hi' : (h.add r).FirstAt (toString h.size) i := hi.grown [r]
    obtain ⟨found, hfound, -⟩ := hi'.1
    exact ⟨⟨i, found, hi.lt_size, hi', hfound, resolve_of_firstAt hi' hfound⟩,
      fun _ _ => changes_ne_nil hknown hr.matchesGlob⟩

/-- A simple change at position 1. -/
def secondChange : Revision where
  reference := "1"
  message := "two"
  author := Author.placeholder
  changesBase := Revision.baseDirectory.below "1"
  timestamp := some plainMoment
  contextReference := none
  referenceLabels := LabelMap.empty
  matchesGlob := some true
  descriptionLabels := LabelMap.empty
  reference_ne := by decide
  labels_eq := by cbv

theorem isSimpleChange_secondChange : IsSimpleChange (some Author.placeholder) 1 (some plainMoment)
    (some "two") none secondChange :=
  ⟨rfl, rfl, rfl, rfl, rfl, rfl, rfl, rfl⟩

/-- Behind a revision with the reference 7 the simple change at position 1 is found again. -/
theorem newest_found_behind_other :
    let h' : History := ⟨some Author.placeholder, [Revision.plainRevision, secondChange]⟩
    (({} : History).after [.add (.revision Revision.plainRevision)]).addSimple (some plainMoment)
      (some "two") none = .ok h' ∧
    h'.resolve (some (toString (h'.size - 1))) = h'.resolve none ∧
    h'.changes keepAll .utc (some (toString (h'.size - 1))) none = .ok [] := by
  intro h'
  have hadd : (({} : History).after [.add (.revision Revision.plainRevision)]).addSimple
      (some plainMoment) (some "two") none = .ok h' :=
    addSimple_eq_ok_iff.2 ⟨secondChange, isSimpleChange_secondChange, rfl⟩
  obtain ⟨-, hfresh, -⟩ := newest_found_iff (some Author.placeholder) _ hadd
  have hother : ∀ r, .add (.revision r) ∈ [Step.add (.revision Revision.plainRevision)] →
      r.reference ≠ toString (h'.size - 1) := by
    intro r hr
    cases List.mem_singleton.1 hr
    decide
  exact ⟨hadd, (hfresh hother).1, (hfresh hother).2 keepAll .utc⟩

/-- Behind a revision with the reference 1 it is not: the number leads to that revision, and the change lies
behind its own number. -/
theorem newest_shadowed :
    let shadowing : Revision := { Revision.plainRevision with
      reference := "1"
      reference_ne := by decide }
    let h' : History := ⟨some Author.placeholder, [shadowing, secondChange]⟩
    (({} : History).after [.add (.revision shadowing)]).addSimple (some plainMoment) (some "two") none
      = .ok h' ∧
    h'.resolve (some (toString (h'.size - 1))) ≠ h'.resolve none ∧
    h'.changes keepAll .utc (some (toString (h'.size - 1))) none ≠ .ok [] := by
  refine ⟨addSimple_eq_ok_iff.2 ⟨secondChange, isSimpleChange_secondChange, rfl⟩, ?_, by decide⟩
  intro heq
  have hmessage := congrArg (fun found => found.toOption.map (·.message)) heq
  revert hmessage
  decide

end MigrationBench.History
