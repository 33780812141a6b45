import MigrationBench.Proofs.Revision.Range

/-!
# Growing histories

A history grows at its end: by a revision, or by a simple change whose revision is built. What a reference
stands for and what lies in a range that ends at a reference do not depend on what is added later.

* `Addition`, `History.addAll` — a run of additions; `History.addAll_eq_grown`: it appends revisions.
* `History.FirstAt.grown`, `History.resolve_grown` — a known reference keeps its position and its revision,
  also if a later revision has it too.
* `History.selected_grown`, `History.changes_grown`, `History.changes_grown_upToEnd` — the ranges.
* `History.queries_after_addAll` — **a history is append-only for queries**.
-/

namespace MigrationBench

/-- An addition to a history: a revision, or the timestamp, message and base path of a simple change. -/
inductive Addition where
  | revision (r : Revision)
  | simple (timestamp : Option Stamp) (message : Option String) (base : Option PathName)

/-- The history after an addition, or the fault of a simple change that cannot be built. -/
def Addition.apply (h : History) : Addition → Except RevisionFault History
  | revision r => .ok (h.add r)
  | simple timestamp message base => h.addSimple timestamp message base

namespace History

/-- The history after additions, one after another. -/
def addAll (h : History) (additions : List Addition) : Except RevisionFault History :=
  additions.foldlM Addition.apply h

/-- The history with revisions behind its own. -/
def grown (h : History) (added : List Revision) : History :=
  { h with revisions := h.revisions ++ added }

variable {h h' : History}

@[simp] theorem revisions_grown (h : History) (added : List Revision) :
    (h.grown added).revisions = h.revisions ++ added := rfl

@[simp] theorem size_grown (h : History) (added : List Revision) :
    (h.grown added).size = h.size + added.length := by
  rw [size, size, revisions_grown, List.length_append]

@[simp] theorem grown_nil (h : History) : h.grown [] = h := by
  rw [grown, List.append_nil]

theorem grown_cons (h : History) (r : Revision) (added : List Revision) :
    h.grown (r :: added) = (h.add r).grown added := by
  simp [grown, add]

/-! ### Runs of additions -/

/-- An addition puts one revision behind the others and changes nothing else. -/
theorem exists_add_of_apply {a : Addition} (hstep : a.apply h = .ok h') : ∃ r, h' = h.add r := by
  cases a with
  | revision r =>
    cases hstep
    exact ⟨r, rfl⟩
  | simple timestamp message base =>
    rw [Addition.apply, addSimple] at hstep
    cases hbuild : Revision.build (h.simpleDraft timestamp message base) with
    | error fault =>
      rw [hbuild] at hstep
      cases hstep
    | ok r =>
      rw [hbuild] at hstep
      cases hstep
      exact ⟨r, rfl⟩

/-- **A run of additions** puts one revision for each addition behind the others; after so many additions so
many of them are there. -/
theorem addAll_eq_grown {additions : List Addition} (hrun : h.addAll additions = .ok h') :
    ∃ added, added.length = additions.length ∧ h' = h.grown added ∧
      ∀ k, h.addAll (additions.take k) = .ok (h.grown (added.take k)) := by
  induction additions generalizing h with
  | nil =>
    cases hrun
    refine ⟨[], rfl, (grown_nil _).symm, fun k => ?_⟩
    rw [List.take_nil, List.take_nil, grown_nil]
    rfl
  | cons a additions ih =>
    rw [addAll, List.foldlM_cons] at hrun
    obtain ⟨middle, hstep, hrest⟩ := Steps.bind_eq_ok_iff.1 hrun
    obtain ⟨r, rfl⟩ := exists_add_of_apply hstep
    obtain ⟨added, hlength, hh', hprefix⟩ := ih hrest
    refine ⟨r :: added, ?_, ?_, fun k => ?_⟩
    · rw [List.length_cons, List.length_cons, hlength]
    · rw [grown_cons, hh']
    · cases k with
      | zero =>
        rw [List.take_zero, List.take_zero, grown_nil]
        rfl
      | succ k =>
        rw [List.take_succ_cons, List.take_succ_cons, grown_cons, addAll, List.foldlM_cons]
        exact Steps.bind_eq_ok_iff.2 ⟨_, hstep, hprefix k⟩

/-! ### References -/

/-- A reference resolves. -/
def Knows (h : History) (reference : String) : Prop :=
  ∃ r, h.resolve (some reference) = .ok r

theorem resolve_eq_ok_iff {reference : String} {r : Revision} :
    h.resolve (some reference) = .ok r ↔ h.revisions.find? (·.reference == reference) = some r := by
  rw [resolve]
  cases hlast : h.revisions.getLast? with
  | none =>
    rw [List.getLast?_eq_none_iff.1 hlast]
    simp
  | some last =>
    dsimp only
    cases h.revisions.find? (·.reference == reference) with
    | none => simp
    | some found => simp

theorem Knows.exists_firstAt {reference : String} (hknown : h.Knows reference) :
    ∃ i, h.FirstAt reference i := by
  obtain ⟨r, hr⟩ := hknown
  have hfind := resolve_eq_ok_iff.1 hr
  have hsome : (h.revisions.findIdx? (·.reference == reference)).isSome := by
    rw [List.findIdx?_isSome, List.any_eq_true]
    have hreference : (r.reference == reference) = true := by
      simpa using (List.find?_eq_some_iff_append.1 hfind).1
    exact ⟨r, List.mem_of_find?_eq_some hfind, hreference⟩
  obtain ⟨i, hi⟩ := Option.isSome_iff_exists.1 hsome
  exact ⟨i, position?_eq_some_iff.1 hi⟩

/-- A known reference keeps its position, whatever references the added revisions have. -/
theorem FirstAt.grown {reference : String} {i : Nat} (hi : h.FirstAt reference i)
    (added : List Revision) : (h.grown added).FirstAt reference i := by
  have hfind : h.revisions.findIdx? (·.reference == reference) = some i := position?_eq_some_iff.2 hi
  apply position?_eq_some_iff.1
  rw [position?, revisions_grown, List.findIdx?_append, hfind]
  rfl

theorem resolve_grown {reference : String} (hknown : h.Knows reference) (added : List Revision) :
    (h.grown added).resolve (some reference) = h.resolve (some reference) := by
  obtain ⟨r, hr⟩ := hknown
  rw [hr, resolve_eq_ok_iff, revisions_grown, List.find?_append, resolve_eq_ok_iff.1 hr]
  rfl

/-- A bound whose reference is known, if there is one, keeps its position. -/
theorem exists_marks {lower : Option String} (hlower : ∀ reference ∈ lower, h.Knows reference) :
    ∃ a, h.Marks lower a ∧ (∀ added, (h.grown added).Marks lower a) ∧ behind a ≤ h.size := by
  cases lower with
  | none => exact ⟨none, rfl, fun _ => rfl, Nat.zero_le _⟩
  | some reference =>
    obtain ⟨i, hi⟩ := (hlower reference rfl).exists_firstAt
    exact ⟨some i, ⟨i, rfl, hi⟩, fun added => ⟨i, rfl, hi.grown added⟩, hi.lt_size⟩

/-! ### Ranges -/

/-- What is added lies behind every range that ends within the history. -/
theorem selected_grown {start stop : Nat} (hstop : stop ≤ h.size) (added : List Revision) :
    (h.grown added).selected start stop = h.selected start stop := by
  rw [selected, revisions_grown, List.take_append_of_le_length hstop, selected]

/-- The revisions behind the old end are those that were added. -/
theorem selected_grown_added (h : History) (added : List Revision) :
    (h.grown added).selected h.size (h.grown added).size
      = added.filter (·.matchesGlob == some true) := by
  have hall : (h.revisions ++ added).take (h.size + added.length) = h.revisions ++ added := by
    apply List.take_of_length_le
    exact Nat.le_of_eq List.length_append
  rw [selected, revisions_grown, size_grown, hall, size, List.drop_left]

variable {p : Policy} {zone : Offset}

theorem changes_grown {lower : Option String} {upper : String}
    (hlower : ∀ reference ∈ lower, h.Knows reference) (hupper : h.Knows upper) (added : List Revision) :
    (h.grown added).changes p zone lower (some upper) = h.changes p zone lower (some upper) := by
  obtain ⟨a, ha, hgrown, -⟩ := exists_marks hlower
  obtain ⟨j, hj⟩ := hupper.exists_firstAt
  have hold : h.Marks (some upper) (some j) := ⟨j, rfl, hj⟩
  have hnew : (h.grown added).Marks (some upper) (some j) := ⟨j, rfl, hj.grown added⟩
  rw [changes_eq_mapM (startOf_eq (hgrown added)) (stopOf_eq hnew),
    changes_eq_mapM (startOf_eq ha) (stopOf_eq hold)]
  congr 1
  exact selected_grown hj.lt_size added

/-- **A range without an upper bound** grows by the changes of the added revisions. -/
theorem changes_grown_upToEnd {lower : Option String} (hlower : ∀ reference ∈ lower, h.Knows reference)
    (added : List Revision) :
    (h.grown added).changes p zone lower none = (do
      let old ← h.changes p zone lower none
      let new ← (added.filter (·.matchesGlob == some true)).mapM (·.toChange p zone)
      return old ++ new) := by
  obtain ⟨a, ha, hgrown, hstart⟩ := exists_marks hlower
  have hstop : h.size ≤ (h.grown added).size := by
    rw [size_grown]
    omega
  have hselected : (h.grown added).selected (behind a) (h.grown added).size
      = h.selected (behind a) h.size ++ added.filter (·.matchesGlob == some true) := by
    rw [selected_append hstart hstop, selected_grown (Nat.le_refl _), selected_grown_added]
  have hold : h.stopOf none = .ok h.size := rfl
  have hnew : (h.grown added).stopOf none = .ok (h.grown added).size := rfl
  rw [changes_eq_mapM (startOf_eq (hgrown added)) hnew, changes_eq_mapM (startOf_eq ha) hold, hselected,
    List.mapM_append]

/-- **A history is append-only for queries.** A successful run of additions puts one revision for each of
them behind the history. Afterwards a reference that was known has the same revision and the same change or
fault, and so has a range that ends at such a reference, whatever references the added revisions have. A
range without an upper bound has its old changes and then those of the added revisions that the file pattern
selects, in the order in which they were added, and the first fault of these is its fault. -/
theorem queries_after_addAll {additions : List Addition} (hrun : h.addAll additions = .ok h')
    (p : Policy) (zone : Offset) :
    ∃ added, added.length = additions.length ∧ h' = h.grown added ∧
      (∀ k, h.addAll (additions.take k) = .ok (h.grown (added.take k))) ∧
      (∀ reference, h.Knows reference →
        h'.resolve (some reference) = h.resolve (some reference) ∧
        h'.change (some reference) p zone = h.change (some reference) p zone) ∧
      (∀ lower upper, (∀ reference ∈ lower, h.Knows reference) → h.Knows upper →
        h'.changes p zone lower (some upper) = h.changes p zone lower (some upper)) ∧
      ∀ lower, (∀ reference ∈ lower, h.Knows reference) →
        h'.changes p zone lower none = (do
          let old ← h.changes p zone lower none
          let new ← (added.filter (·.matchesGlob == some true)).mapM (·.toChange p zone)
          return old ++ new) := by
  obtain ⟨added, hlength, rfl, hprefix⟩ := addAll_eq_grown hrun
  refine ⟨added, hlength, rfl, hprefix, ?_, ?_, ?_⟩
  · intro reference hknown
    have hresolve := resolve_grown hknown added
    refine ⟨hresolve, ?_⟩
    rw [change, hresolve, change]
  · intro lower upper hlower hupper
    exact changes_grown hlower hupper added
  · intro lower hlower
    exact changes_grown_upToEnd hlower added

/-- A revision whose reference the history has already, and a simple change. -/
def repeatedAdditions : List Addition :=
  [.revision Revision.plainRevision, .simple none (some "again") none]

/-- The reference 7 still stands for the first revision, and the range that ends at 8 is the same. -/
theorem queries_after_repeatedAdditions : ∃ h', plainHistory.addAll repeatedAdditions = .ok h' ∧
    h'.size = 5 ∧ h'.resolve (some "7") = .ok Revision.plainRevision ∧
    h'.changes keepAll .utc (some "7") (some "8")
      = plainHistory.changes keepAll .utc (some "7") (some "8") := by
  have hok : (plainHistory.addAll repeatedAdditions).isOk = true := by rfl
  have hseven : plainHistory.Knows "7" := ⟨_, rfl⟩
  have height : plainHistory.Knows "8" := ⟨_, rfl⟩
  cases hrun : plainHistory.addAll repeatedAdditions with
  | error fault =>
    rw [hrun] at hok
    cases hok
  | ok h' =>
    obtain ⟨added, hlength, rfl, -, hresolve, hchanges, -⟩ := queries_after_addAll hrun keepAll .utc
    refine ⟨_, rfl, ?_, (hresolve "7" hseven).1, hchanges (some "7") "8" ?_ height⟩
    · rw [size_grown, hlength]
      rfl
    · rintro reference ⟨⟩
      exact hseven

end History

end MigrationBench
