import MigrationBench.Proofs.Revision.Override
import MigrationBench.Revision.History

/-!
# Ranges of a history

A range lies behind its lower bound and reaches up to its upper bound. A bound is a reference and stands
for the position of the first revision that has it.

* `History.FirstAt`, `History.Marks` — where a reference and a bound stand: `History.position?_eq_some_iff`.
* `History.between` — the revisions of a range, told by their positions: `History.selected_eq_between`.
* `History.changes_of_marks`, `History.changes_of_unknown_lower`, `History.changes_of_unknown_upper` — the
  changes of a range whose bounds are known, and the fault if one is not.
* `History.changes_append` — a range is cut in two at a reference.
* `History.ranges_compose` — **what ranges hold and how they compose**.
-/

namespace MigrationBench.History

/-! ### Positions -/

/-- The first revision with a reference stands at a position. -/
def FirstAt (h : History) (reference : String) (i : Nat) : Prop :=
  (∃ r, h.revisions[i]? = some r ∧ r.reference = reference) ∧
    ∀ j < i, ∀ r, h.revisions[j]? = some r → r.reference ≠ reference

/-- A bound stands at a position; no bound stands nowhere. -/
def Marks (h : History) : Option String → Option Nat → Prop
  | none, position => position = none
  | some reference, position => ∃ i, position = some i ∧ h.FirstAt reference i

variable {h : History}

theorem position?_eq_some_iff {reference : String} {i : Nat} :
    h.position? reference = some i ↔ h.FirstAt reference i := by
  rw [position?, List.findIdx?_eq_some_iff_getElem, FirstAt]
  constructor
  · rintro ⟨hi, hhere, hbefore⟩
    refine ⟨⟨h.revisions[i], List.getElem?_eq_getElem hi, by simpa using hhere⟩, ?_⟩
    intro j hj r hr
    obtain ⟨hlt, rfl⟩ := List.getElem?_eq_some_iff.1 hr
    simpa using hbefore j hj
  · rintro ⟨⟨r, hr, href⟩, hbefore⟩
    obtain ⟨hi, rfl⟩ := List.getElem?_eq_some_iff.1 hr
    refine ⟨hi, by simpa using href, ?_⟩
    intro j hj
    have hlt : j < h.revisions.length := by omega
    simpa using hbefore j hj h.revisions[j] (List.getElem?_eq_getElem hlt)

theorem position?_eq_none_iff {reference : String} :
    h.position? reference = none ↔ ∀ r ∈ h.revisions, r.reference ≠ reference := by
  rw [position?, List.findIdx?_eq_none_iff]
  simp

theorem FirstAt.lt_size {reference : String} {i : Nat} (hi : h.FirstAt reference i) : i < h.size := by
  obtain ⟨⟨r, hr, -⟩, -⟩ := hi
  exact (List.getElem?_eq_some_iff.1 hr).1

/-! ### Revisions by their positions -/

/-- A position lies behind a lower bound and not behind an upper one. -/
def InRange (lower upper : Option Nat) (i : Nat) : Prop :=
  (∀ k ∈ lower, k < i) ∧ ∀ k ∈ upper, i ≤ k

instance (lower upper : Option Nat) : DecidablePred (InRange lower upper) := fun _ =>
  inferInstanceAs (Decidable (_ ∧ _))

/-- The revisions in a range that the file pattern selects, each at its position, in order. -/
def between (h : History) (lower upper : Option Nat) : List Revision :=
  (h.revisions.zipIdx.filter fun given =>
    InRange lower upper given.2 ∧ given.1.matchesGlob = some true).map Prod.fst

/-- The items at some positions that have a property, for positions that are counted from a number on. -/
theorem filter_zipIdx {α : Type} (items : List α) (keep : α → Bool) (start stop first : Nat) :
    ((items.zipIdx first).filter fun given =>
        (start ≤ given.2 ∧ given.2 < stop) ∧ keep given.1 = true).map Prod.fst
      = ((items.take (stop - first)).drop (start - first)).filter keep := by
  induction items generalizing first with
  | nil => simp
  | cons a items ih =>
    have hrest := ih (first + 1)
    rw [List.zipIdx_cons, List.filter_cons]
    by_cases hin : start ≤ first ∧ first < stop
    · -- the first item is in the range, and so nothing is dropped
      have htake : stop - first = (stop - (first + 1)) + 1 := by omega
      have hdrop : start - first = 0 := by omega
      have hdrop' : start - (first + 1) = 0 := by omega
      rw [hdrop', List.drop_zero] at hrest
      rw [htake, hdrop, List.take_succ_cons, List.drop_zero, List.filter_cons]
      by_cases hkeep : keep a = true
      · rw [if_pos (decide_eq_true ⟨hin, hkeep⟩), if_pos hkeep, List.map_cons, hrest]
      · have hout : ¬ ((start ≤ first ∧ first < stop) ∧ keep a = true) := fun h => hkeep h.2
        rw [if_neg (by simpa using hout), if_neg hkeep, hrest]
    · have hout : ¬ ((start ≤ first ∧ first < stop) ∧ keep a = true) := fun h => hin h.1
      rw [if_neg (by simpa using hout), hrest]
      by_cases hstop : first < stop
      · have htake : stop - first = (stop - (first + 1)) + 1 := by omega
        have hdrop : start - first = (start - (first + 1)) + 1 := by omega
        rw [htake, hdrop, List.take_succ_cons, List.drop_succ_cons]
      · have htake : stop - first = 0 := by omega
        have htake' : stop - (first + 1) = 0 := by omega
        rw [htake, htake', List.take_zero, List.take_zero, List.drop_nil, List.drop_nil]

/-- The first position behind a lower bound. -/
def behind (lower : Option Nat) : Nat := lower.elim 0 (· + 1)

/-- The first position behind an upper bound. -/
def upTo (h : History) (upper : Option Nat) : Nat := upper.elim h.size (· + 1)

/-- **What a range selects** are the revisions at its positions. -/
theorem selected_eq_between (lower upper : Option Nat) :
    h.selected (behind lower) (h.upTo upper) = h.between lower upper := by
  have hpositions := filter_zipIdx h.revisions (·.matchesGlob == some true) (behind lower) (h.upTo upper) 0
  rw [Nat.sub_zero, Nat.sub_zero] at hpositions
  rw [selected, ← hpositions, between]
  congr 1
  apply List.filter_congr
  intro given hgiven
  have hlt : given.2 < h.revisions.length := by
    have hbounds := List.mem_zipIdx (x := given.1) (i := given.2) hgiven
    omega
  have hlower : behind lower ≤ given.2 ↔ ∀ k ∈ lower, k < given.2 := by
    cases lower with
    | none => simp [behind]
    | some k =>
      simp only [behind, Option.elim_some, Option.mem_some_iff, forall_eq']
      exact Nat.succ_le_iff
  have hupper : given.2 < h.upTo upper ↔ ∀ k ∈ upper, given.2 ≤ k := by
    cases upper with
    | none => simp [upTo, size, hlt]
    | some k =>
      simp only [upTo, Option.elim_some, Option.mem_some_iff, forall_eq']
      exact Nat.lt_succ_iff
  rw [decide_eq_decide, hlower, hupper, InRange, beq_iff_eq]

/-- A selection is cut in two at a position inside it. -/
theorem selected_append {start middle stop : Nat} (hstart : start ≤ middle) (hstop : middle ≤ stop) :
    h.selected start stop = h.selected start middle ++ h.selected middle stop := by
  have hcut : h.revisions.take stop
      = h.revisions.take middle ++ (h.revisions.take stop).drop middle := by
    have htake : (h.revisions.take stop).take middle = h.revisions.take middle := by
      rw [List.take_take, Nat.min_eq_left hstop]
    rw [← htake, List.take_append_drop]
  rw [selected, selected, selected, ← List.filter_append]
  congr 1
  by_cases hlength : middle ≤ h.revisions.length
  · rw [hcut, List.drop_append_of_le_length (by rw [List.length_take]; omega), ← hcut]
  · -- there is nothing behind the middle
    have hall : h.revisions.take stop = h.revisions.take middle := by
      rw [List.take_of_length_le (by omega), List.take_of_length_le (by omega)]
    have hnone : (h.revisions.take middle).drop middle = [] := by
      rw [List.drop_eq_nil_iff, List.length_take]
      omega
    rw [hall, hnone, List.append_nil]

/-! ### The changes of a range -/

variable {p : Policy} {zone : Offset}

theorem startOf_eq {lower : Option String} {a : Option Nat} (hlower : h.Marks lower a) :
    h.startOf lower = .ok (behind a) := by
  cases lower with
  | none =>
    cases hlower
    rfl
  | some reference =>
    obtain ⟨i, rfl, hi⟩ := hlower
    rw [startOf, position, position?_eq_some_iff.2 hi]
    rfl

theorem stopOf_eq {upper : Option String} {b : Option Nat} (hupper : h.Marks upper b) :
    h.stopOf upper = .ok (h.upTo b) := by
  cases upper with
  | none =>
    cases hupper
    rfl
  | some reference =>
    obtain ⟨i, rfl, hi⟩ := hupper
    rw [stopOf, position, position?_eq_some_iff.2 hi]
    rfl

theorem changes_eq_mapM {lower upper : Option String} {start stop : Nat}
    (hlower : h.startOf lower = .ok start) (hupper : h.stopOf upper = .ok stop) :
    h.changes p zone lower upper = (h.selected start stop).mapM (·.toChange p zone) := by
  rw [changes, hlower, hupper]
  rfl

/-- **The changes of a range** are those of the revisions in it, one after another. -/
theorem changes_of_marks {lower upper : Option String} {a b : Option Nat} (hlower : h.Marks lower a)
    (hupper : h.Marks upper b) :
    h.changes p zone lower upper = (h.between a b).mapM (·.toChange p zone) := by
  rw [changes_eq_mapM (startOf_eq hlower) (stopOf_eq hupper), selected_eq_between]

theorem position_of_unknown {reference : String} (h' : ∀ r ∈ h.revisions, r.reference ≠ reference) :
    h.position reference = .error (.unknownReference reference) := by
  rw [position, position?_eq_none_iff.2 h']

theorem changes_of_unknown_lower {reference : String} (upper : Option String)
    (hunknown : ∀ r ∈ h.revisions, r.reference ≠ reference) :
    h.changes p zone (some reference) upper = .error (.unknownReference reference) := by
  rw [changes, startOf, position_of_unknown hunknown]
  rfl

theorem changes_of_unknown_upper {lower : Option String} {a : Option Nat} {reference : String}
    (hlower : h.Marks lower a) (hunknown : ∀ r ∈ h.revisions, r.reference ≠ reference) :
    h.changes p zone lower (some reference) = .error (.unknownReference reference) := by
  rw [changes, startOf_eq hlower, stopOf, position_of_unknown hunknown]
  rfl

/-- **A range is cut in two** at a reference that stands inside it. -/
theorem changes_append {lower upper : Option String} {reference : String} {a b : Option Nat} {i : Nat}
    (hlower : h.Marks lower a) (hi : h.FirstAt reference i) (hupper : h.Marks upper b)
    (hai : ∀ k ∈ a, k ≤ i) (hib : ∀ k ∈ b, i ≤ k) :
    h.changes p zone lower upper = (do
      let first ← h.changes p zone lower (some reference)
      let rest ← h.changes p zone (some reference) upper
      return first ++ rest) := by
  have hmiddle : h.Marks (some reference) (some i) := ⟨i, rfl, hi⟩
  have hstart : behind a ≤ i + 1 := by
    cases a with
    | none => simp [behind]
    | some k =>
      have hk := hai k rfl
      simp only [behind, Option.elim_some]
      omega
  have hstop : i + 1 ≤ h.upTo b := by
    cases b with
    | none =>
      have hlt := hi.lt_size
      simp only [upTo, Option.elim_none]
      omega
    | some k =>
      have hk := hib k rfl
      simp only [upTo, Option.elim_some]
      omega
  rw [changes_eq_mapM (startOf_eq hlower) (stopOf_eq hupper),
    changes_eq_mapM (startOf_eq hlower) (stopOf_eq hmiddle),
    changes_eq_mapM (startOf_eq hmiddle) (stopOf_eq hupper), selected_append hstart hstop,
    List.mapM_append]
  rfl

/-- A range whose upper bound does not stand behind its lower one is empty. -/
theorem between_eq_nil {i j : Nat} (hle : j ≤ i) : h.between (some i) (some j) = [] := by
  rw [between, List.map_eq_nil_iff, List.filter_eq_nil_iff]
  intro given _
  simp only [InRange, Option.mem_some_iff, forall_eq', decide_eq_true_eq]
  omega

/-- **What ranges hold and how they compose.** The changes of a range whose bounds are known are those of
the revisions behind the position of the lower bound and up to the position of the upper one that the file
pattern selects, in the order of the history, each once; if one of them has no change, its fault is that of
the range, and the first such fault counts. The range is empty if the upper bound does not stand behind the
lower one. A range is cut in two at every reference that stands inside it, and the first fault of the parts
is that of the whole. An unknown lower bound is found first, then an unknown upper bound, and only then a
revision without a change. -/
theorem ranges_compose (h : History) (p : Policy) (zone : Offset) :
    (∀ lower upper a b, h.Marks lower a → h.Marks upper b →
      (∀ changes, h.changes p zone lower upper = .ok changes ↔
        List.Forall₂ (fun r c => r.toChange p zone = .ok c) (h.between a b) changes) ∧
      ∀ fault, h.changes p zone lower upper = .error fault ↔ ∃ before r after,
        h.between a b = before ++ r :: after ∧
          (∀ earlier ∈ before, ∃ c, earlier.toChange p zone = .ok c) ∧
          r.toChange p zone = .error fault) ∧
    (∀ x y i j, h.FirstAt x i → h.FirstAt y j → j ≤ i →
      h.changes p zone (some x) (some y) = .ok []) ∧
    (∀ lower x upper a i b, h.Marks lower a → h.FirstAt x i → h.Marks upper b →
      (∀ k ∈ a, k ≤ i) → (∀ k ∈ b, i ≤ k) →
      h.changes p zone lower upper = (do
        let first ← h.changes p zone lower (some x)
        let rest ← h.changes p zone (some x) upper
        return first ++ rest)) ∧
    (∀ x upper, (∀ r ∈ h.revisions, r.reference ≠ x) →
      h.changes p zone (some x) upper = .error (.unknownReference x)) ∧
    ∀ lower a y, h.Marks lower a → (∀ r ∈ h.revisions, r.reference ≠ y) →
      h.changes p zone lower (some y) = .error (.unknownReference y) := by
  refine ⟨?_, ?_, ?_, ?_, ?_⟩
  · intro lower upper a b hlower hupper
    rw [changes_of_marks hlower hupper]
    exact ⟨fun _ => Steps.mapM_eq_ok_iff, fun _ => Steps.mapM_eq_error_iff⟩
  · intro x y i j hx hy hle
    have hlower : h.Marks (some x) (some i) := ⟨i, rfl, hx⟩
    have hupper : h.Marks (some y) (some j) := ⟨j, rfl, hy⟩
    rw [changes_of_marks hlower hupper, between_eq_nil hle]
    rfl
  · intro lower x upper a i b hlower hx hupper hai hib
    exact changes_append hlower hx hupper hai hib
  · intro x upper hunknown
    exact changes_of_unknown_lower upper hunknown
  · intro lower a y hlower hunknown
    exact changes_of_unknown_upper hlower hunknown

/-- A history in which the reference 7 stands twice, around a revision that the file pattern leaves out. -/
def plainHistory : History where
  revisions := [Revision.plainRevision,
    { Revision.plainRevision with
      reference := "8"
      matchesGlob := some false
      reference_ne := by decide },
    Revision.plainRevision]

/-- A policy that keeps every author. -/
def keepAll : Policy := ⟨fun _ => true, Author.placeholder⟩

theorem firstAt_plainHistory : plainHistory.FirstAt "7" 0 ∧ plainHistory.FirstAt "8" 1 :=
  ⟨position?_eq_some_iff.1 (by decide), position?_eq_some_iff.1 (by decide)⟩

/-- The reference 7 stands for the first revision that has it, in both bounds; the second one is only in the
range that is not bounded above, and it has no timestamp. -/
theorem ranges_of_plainHistory :
    plainHistory.changes keepAll .utc (some "7") (some "8") = .ok [] ∧
    plainHistory.changes keepAll .utc (some "8") (some "7") = .ok [] ∧
    plainHistory.changes keepAll .utc (some "8") none = .error (.noTimestamp "7") ∧
    plainHistory.changes keepAll .utc (some "9") none = .error (.unknownReference "9") := by
  obtain ⟨hseven, height⟩ := firstAt_plainHistory
  have hseven' : plainHistory.Marks (some "7") (some 0) := ⟨0, rfl, hseven⟩
  have height' : plainHistory.Marks (some "8") (some 1) := ⟨1, rfl, height⟩
  have hbetween : plainHistory.between (some 0) (some 1) = [] := by decide
  obtain ⟨hrange, hempty, -, hlower, -⟩ := ranges_compose plainHistory keepAll .utc
  refine ⟨?_, hempty "8" "7" 1 0 height hseven (by decide), ?_, hlower "9" none (by decide)⟩
  · rw [(hrange (some "7") (some "8") (some 0) (some 1) hseven' height').1, hbetween]
    exact .nil
  · rw [(hrange (some "8") none (some 1) none height' rfl).2]
    exact ⟨[], Revision.plainRevision, [], rfl, List.forall_mem_nil _, rfl⟩

end MigrationBench.History
