import MigrationBench.Proofs.Revision.Newest
import MigrationBench.Proofs.Revision.Projection

/-!
# Ranges and single changes

A range takes its revisions by their positions, a single change takes one by its reference. Where no two
revisions have the same reference, both come to the same revisions: the changes of a range are the single
changes of its references, one after another.

* `History.between_sublist` — a range keeps the order of the history.
* `History.change_of_nodup`, `History.mapM_change_of_nodup` — the single changes of revisions, by their
  references.
* `History.map_ref_of_changes` — the references of changes.
* `History.changes_one_by_one` — **a range and its single changes agree**.
-/

namespace MigrationBench.History

variable {h : History} {p : Policy} {zone : Offset} {r : Revision}

/-- The revisions of a range stand in the history in the same order. -/
theorem between_sublist (h : History) (lower upper : Option Nat) :
    (h.between lower upper).Sublist h.revisions := by
  have hkept := (List.filter_sublist (l := h.revisions.zipIdx)
    (p := fun given => InRange lower upper given.2 ∧ given.1.matchesGlob = some true)).map Prod.fst
  rwa [List.zipIdx_map_fst] at hkept

/-! ### Single changes -/

/-- A reference that only one revision has leads to the change of that one. -/
theorem change_of_nodup (hnodup : (h.revisions.map (·.reference)).Nodup) (hr : r ∈ h.revisions) :
    h.change (some r.reference) p zone = r.toChange p zone := by
  rw [change, resolve_of_nodup hnodup hr]
  rfl

/-- The single changes of some revisions, asked for by their references. -/
theorem mapM_change_of_nodup (hnodup : (h.revisions.map (·.reference)).Nodup) {rs : List Revision}
    (hrs : ∀ r ∈ rs, r ∈ h.revisions) :
    (rs.map (·.reference)).mapM (fun reference => h.change (some reference) p zone)
      = rs.mapM (·.toChange p zone) := by
  induction rs with
  | nil => rfl
  | cons r rs ih =>
    obtain ⟨hr, hrest⟩ := List.forall_mem_cons.1 hrs
    rw [List.map_cons, List.mapM_cons, List.mapM_cons, change_of_nodup hnodup hr, ih hrest]

/-- The references of the changes of some revisions are those of the revisions. -/
theorem map_ref_of_changes {rs : List Revision} {changes : List Change}
    (hchanges : List.Forall₂ (fun r c => r.toChange p zone = .ok c) rs changes) :
    changes.map (·.ref) = rs.map (·.reference) := by
  induction hchanges with
  | nil => rfl
  | cons hc _ ih => rw [List.map_cons, List.map_cons, Revision.ref_of_toChange hc, ih]

/-! ### Whole ranges -/

/-- A bound stands at one position only. -/
theorem Marks.unique {bound : Option String} {a b : Option Nat} (ha : h.Marks bound a)
    (hb : h.Marks bound b) :
    a = b := by
  cases bound with
  | none => exact ha.trans hb.symm
  | some reference =>
    obtain ⟨i, rfl, hi⟩ := ha
    obtain ⟨j, rfl, hj⟩ := hb
    rw [← position?_eq_some_iff.2 hi, ← position?_eq_some_iff.2 hj]

/-- **A range and its single changes agree.** In a history in which no two revisions have the same
reference, take a range each of whose bounds is left out or known, and the references of the revisions
in it that the file pattern selects, in the order of the history. The changes of the range are the
single changes of these references; if one of them has no change, the fault of the range is that of the
first one without. Each change that is returned is that of the revision to which its reference leads,
and no two of them have the same reference. -/
theorem changes_one_by_one (hnodup : (h.revisions.map (·.reference)).Nodup) (p : Policy) (zone : Offset)
    {lower upper : Option String} (hlower : ∀ reference ∈ lower, h.Knows reference)
    (hupper : ∀ reference ∈ upper, h.Knows reference) :
    ∃ a b, h.Marks lower a ∧ h.Marks upper b ∧
      let references := (h.between a b).map (·.reference)
      h.changes p zone lower upper
        = references.mapM (fun reference => h.change (some reference) p zone) ∧
      (∀ changes, h.changes p zone lower upper = .ok changes ↔
        List.Forall₂ (fun reference c => h.change (some reference) p zone = .ok c) references changes) ∧
      (∀ fault, h.changes p zone lower upper = .error fault ↔ ∃ before reference after,
        references = before ++ reference :: after ∧
          (∀ earlier ∈ before, ∃ c, h.change (some earlier) p zone = .ok c) ∧
          h.change (some reference) p zone = .error fault) ∧
      ∀ changes, h.changes p zone lower upper = .ok changes →
        List.Forall₂ (fun r c => h.resolve (some c.ref) = .ok r ∧ r.toChange p zone = .ok c)
          (h.between a b) changes ∧
        (changes.map (·.ref)).Nodup := by
  obtain ⟨a, ha, -⟩ := exists_marks hlower
  obtain ⟨b, hb, -⟩ := exists_marks hupper
  refine ⟨a, b, ha, hb, ?_⟩
  intro references
  have hsublist := h.between_sublist a b
  have hbatch : h.changes p zone lower upper
      = references.mapM (fun reference => h.change (some reference) p zone) := by
    rw [changes_of_marks ha hb]
    exact (mapM_change_of_nodup hnodup fun r hr => hsublist.subset hr).symm
  refine ⟨hbatch, fun changes => ?_, fun fault => ?_, fun changes hchanges => ?_⟩
  · rw [hbatch]
    exact Steps.mapM_eq_ok_iff
  · rw [hbatch]
    exact Steps.mapM_eq_error_iff
  · rw [changes_of_marks ha hb, Steps.mapM_eq_ok_iff] at hchanges
    constructor
    · have hgiven := (List.forall₂_and_left _ _).2 ⟨fun r hr => hsublist.subset hr, hchanges⟩
      refine hgiven.imp fun r c ⟨hr, hc⟩ => ⟨?_, hc⟩
      rw [Revision.ref_of_toChange hc]
      exact resolve_of_nodup hnodup hr
    · rw [map_ref_of_changes hchanges]
      exact (hsublist.map _).nodup hnodup

/-- Between two revisions with a timestamp one that the file pattern leaves out, and one without a
timestamp. -/
def gappedHistory : History where
  revisions := [secondChange,
    { Revision.plainRevision with
      reference := "6"
      matchesGlob := some false
      reference_ne := by decide },
    Revision.plainRevision,
    { secondChange with
      reference := "9"
      reference_ne := by decide }]

/-- Up to the one that is left out there is one change, and its reference leads back to its revision;
behind it the fault is that of the reference 7, though the reference 9 behind that has a change. -/
theorem changes_of_gappedHistory :
    (∃ c, gappedHistory.changes keepAll .utc none (some "6") = .ok [c] ∧
      gappedHistory.resolve (some c.ref) = .ok secondChange) ∧
    gappedHistory.changes keepAll .utc (some "6") none = .error (.noTimestamp "7") := by
  have hnodup : (gappedHistory.revisions.map (·.reference)).Nodup := by decide
  have hnone : ∀ reference ∈ (none : Option String), gappedHistory.Knows reference := nofun
  have hsix : ∀ reference ∈ some "6", gappedHistory.Knows reference := by
    rintro reference ⟨⟩
    exact ⟨_, rfl⟩
  have hmark : gappedHistory.Marks (some "6") (some 1) := ⟨1, rfl, position?_eq_some_iff.1 (by decide)⟩
  constructor
  · obtain ⟨a, b, ha, hb, -, hok, -, hfound⟩ := changes_one_by_one hnodup keepAll .utc hnone hsix
    cases ha.unique (b := none) rfl
    cases hb.unique hmark
    obtain ⟨c, hc⟩ : ∃ c, gappedHistory.change (some "1") keepAll .utc = .ok c := ⟨_, rfl⟩
    have hchanges := (hok [c]).2 (.cons hc .nil)
    obtain ⟨⟨hresolve, -⟩, -⟩ := List.forall₂_cons.1 (hfound [c] hchanges).1
    exact ⟨c, hchanges, hresolve⟩
  · obtain ⟨a, b, ha, hb, -, -, herror, -⟩ := changes_one_by_one hnodup keepAll .utc hsix hnone
    cases ha.unique hmark
    cases hb.unique (b := none) rfl
    exact (herror _).2 ⟨[], "7", ["9"], rfl, List.forall_mem_nil _, rfl⟩

end MigrationBench.History
