import MigrationBench.Label.Map
import Mathlib.Data.List.Nodup

/-!
# The labels of a message

A message has a map of labels if and only if no name is declared twice, and the map then holds exactly
the labels of the message, line by line. Otherwise the fault is the first name that was declared before.

* `LabelMap.get?_eq_none_iff`, `LabelMap.pairs_insert` — a name that is new comes last.
* `LabelMap.addAll_eq_ok_iff` — labels can be added if their names are new and distinct.
* `LabelMap.ofMessage_eq_ok_iff` — **the labels of a message**.
* `LabelMap.IsFirstRepeat`, `LabelMap.ofMessage_eq_error_iff` — **the first repeated name**.
* `LabelMap.addLines`, `LabelMap.ofMessage_eq_addLines` — the same labels, added while the lines are read.
-/

namespace MigrationBench.LabelMap

theorem get?_eq_none_iff {m : LabelMap} {name : String} : m.get? name = none ↔ name ∉ m.names := by
  rw [get?, List.lookup_eq_none_iff, names, List.mem_map]
  constructor
  · rintro h ⟨pair, hpair, rfl⟩
    have hne := h pair hpair
    simp at hne
  · intro h pair hpair
    rw [bne_iff_ne]
    rintro rfl
    exact h ⟨pair, hpair, rfl⟩

theorem pairs_insert {m : LabelMap} {name : String} (h : name ∉ m.names) (value : String) :
    (m.insert name value).pairs = m.pairs ++ [(name, value)] := by
  rw [insert, dif_neg h]

theorem eq_of_pairs_eq {m n : LabelMap} (h : m.pairs = n.pairs) : m = n := by
  cases m
  cases n
  cases h
  rfl

/-- Labels are added to a map if and only if no name is there already or comes twice. They come last, in
order. -/
theorem addAll_eq_ok_iff {m n : LabelMap} {added : List (String × String)} :
    addAll m added = .ok n ↔
      ((m.pairs ++ added).map Prod.fst).Nodup ∧ n.pairs = m.pairs ++ added := by
  induction added generalizing m with
  | nil =>
    rw [addAll, List.append_nil, Except.ok.injEq]
    constructor
    · rintro rfl
      exact ⟨m.nodup, rfl⟩
    · intro h
      exact (eq_of_pairs_eq h.2).symm
  | cons pair rest ih =>
    obtain ⟨name, value⟩ := pair
    rw [addAll]
    cases hget : m.get? name with
    | some first =>
      -- the name is there: the names of all pairs are not distinct
      have hmem : name ∈ m.names := by
        by_contra hnew
        rw [get?_eq_none_iff.2 hnew] at hget
        cases hget
      refine iff_of_false (fun h => by cases h) ?_
      rintro ⟨hnodup, -⟩
      rw [List.map_append, List.map_cons] at hnodup
      exact List.disjoint_of_nodup_append hnodup hmem (List.mem_cons_self ..)
    | none =>
      have hnew : name ∉ m.names := get?_eq_none_iff.1 hget
      have hassoc : (m.insert name value).pairs ++ rest = m.pairs ++ (name, value) :: rest := by
        rw [pairs_insert hnew, List.append_assoc, List.singleton_append]
      simp only [ih, hassoc]

/-- **The labels of a message**: there is a map of them if and only if their names are distinct, and it
holds them in the order of the lines. -/
theorem ofMessage_eq_ok_iff {message : String} {m : LabelMap} :
    ofMessage message = .ok m ↔
      ((Label.pairsOfMessage message).map Prod.fst).Nodup ∧ m.pairs = Label.pairsOfMessage message :=
  addAll_eq_ok_iff

theorem exists_ofMessage {message : String}
    (h : ((Label.pairsOfMessage message).map Prod.fst).Nodup) : ∃ m, ofMessage message = .ok m :=
  ⟨⟨Label.pairsOfMessage message, h⟩, ofMessage_eq_ok_iff.2 ⟨h, rfl⟩⟩

/-! ### The first repeated name -/

/-- The pair at position `second` is the first one whose name was given before, by the pair at position
`first`. -/
structure IsFirstRepeat (pairs : List (String × String)) (first second : Nat) (cause : Repeated) : Prop where
  lt : first < second
  first_eq : pairs[first]? = some (cause.name, cause.first)
  second_eq : pairs[second]? = some (cause.name, cause.second)
  distinct : ∀ i j, i < j → j < second → (pairs.map Prod.fst)[i]? ≠ (pairs.map Prod.fst)[j]?

namespace IsFirstRepeat

variable {pairs : List (String × String)} {i j i' j' : Nat} {cause cause' : Repeated}

theorem names_eq (h : IsFirstRepeat pairs i j cause) :
    (pairs.map Prod.fst)[i]? = (pairs.map Prod.fst)[j]? := by
  rw [List.getElem?_map, List.getElem?_map, h.first_eq, h.second_eq]
  rfl

theorem not_nodup (h : IsFirstRepeat pairs i j cause) : ¬ (pairs.map Prod.fst).Nodup := by
  rw [List.nodup_iff_getElem?_ne_getElem?]
  intro hnodup
  refine hnodup i j h.lt ?_ h.names_eq
  rw [List.length_map]
  exact (List.getElem?_eq_some_iff.1 h.second_eq).1

/-- There is only one first repeat. -/
theorem unique (h : IsFirstRepeat pairs i j cause) (h' : IsFirstRepeat pairs i' j' cause') :
    cause = cause' := by
  have hj : j = j' := by
    rcases Nat.lt_trichotomy j j' with hlt | heq | hgt
    · exact absurd h.names_eq (h'.distinct i j h.lt hlt)
    · exact heq
    · exact absurd h'.names_eq (h.distinct i' j' h'.lt hgt)
  subst hj
  have hi : i = i' := by
    rcases Nat.lt_trichotomy i i' with hlt | heq | hgt
    · exact absurd (h.names_eq.trans h'.names_eq.symm) (h.distinct i i' hlt h'.lt)
    · exact heq
    · exact absurd (h'.names_eq.trans h.names_eq.symm) (h'.distinct i' i hgt h.lt)
  subst hi
  have hfirst := h.first_eq.symm.trans h'.first_eq
  have hsecond := h.second_eq.symm.trans h'.second_eq
  cases cause
  cases cause'
  cases hfirst
  cases hsecond
  rfl

end IsFirstRepeat

/-- Adding labels ends at the first name that is there already. -/
theorem exists_isFirstRepeat {m : LabelMap} {added : List (String × String)} {cause : Repeated}
    (h : addAll m added = .error cause) : ∃ i j, IsFirstRepeat (m.pairs ++ added) i j cause := by
  -- on what is added: the names in the map are distinct at every step
  induction added generalizing m with
  | nil => cases h
  | cons pair rest ih =>
    obtain ⟨name, value⟩ := pair
    rw [addAll] at h
    cases hget : m.get? name with
    | none =>
      rw [hget] at h
      have hrest := ih h
      rw [pairs_insert (get?_eq_none_iff.1 hget), List.append_assoc, List.singleton_append] at hrest
      exact hrest
    | some first =>
      rw [hget] at h
      cases h
      obtain ⟨before, after, hpairs, -⟩ := List.lookup_eq_some_iff.1 hget
      have hlt : before.length < m.pairs.length := by
        rw [hpairs, List.length_append, List.length_cons]
        omega
      refine ⟨before.length, m.pairs.length, hlt, ?_, ?_, fun i j hij hj => ?_⟩
      · rw [List.getElem?_append_left hlt, hpairs]
        simp
      · simp
      · have hj' : j < (m.pairs.map Prod.fst).length := by rwa [List.length_map]
        rw [List.map_append, List.getElem?_append_left hj', List.getElem?_append_left (Nat.lt_trans hij hj')]
        exact List.nodup_iff_getElem?_ne_getElem?.1 m.nodup i j hij hj'

/-- **The first repeated name** is the fault of the labels of a message. -/
theorem ofMessage_eq_error_iff {message : String} {cause : Repeated} :
    ofMessage message = .error cause ↔ ∃ i j, IsFirstRepeat (Label.pairsOfMessage message) i j cause := by
  refine ⟨exists_isFirstRepeat, ?_⟩
  rintro ⟨i, j, hrepeat⟩
  cases hlabels : ofMessage message with
  | ok m => exact absurd (ofMessage_eq_ok_iff.1 hlabels).1 hrepeat.not_nodup
  | error other =>
    obtain ⟨i', j', hother⟩ := exists_isFirstRepeat hlabels
    exact congrArg Except.error (hother.unique hrepeat)

/-- A message without a repeated label is one whose labels have distinct names. -/
theorem nodup_iff_not_isFirstRepeat {message : String} :
    ((Label.pairsOfMessage message).map Prod.fst).Nodup ↔
      ∀ i j cause, ¬ IsFirstRepeat (Label.pairsOfMessage message) i j cause := by
  constructor
  · intro hnodup i j cause hrepeat
    exact hrepeat.not_nodup hnodup
  · intro hnone
    cases hlabels : ofMessage message with
    | ok m => exact (ofMessage_eq_ok_iff.1 hlabels).1
    | error cause =>
      obtain ⟨i, j, hrepeat⟩ := ofMessage_eq_error_iff.1 hlabels
      exact absurd hrepeat (hnone i j cause)

/-! ### Labels line by line -/

/-- Adds the labels of lines to a map while the lines are read, and stops at the first name that is already
there. -/
def addLines (m : LabelMap) : List String → Except Repeated LabelMap
  | [] => .ok m
  | line :: rest =>
    match Label.parse? line with
    | none => addLines m rest
    | some label =>
      match m.get? label.name with
      | some first => .error ⟨label.name, first, label.value⟩
      | none => addLines (m.insert label.name label.value) rest

theorem addLines_eq_addAll (m : LabelMap) (lines : List String) :
    addLines m lines = addAll m ((lines.filterMap Label.parse?).map Label.pair) := by
  induction lines generalizing m with
  | nil => rfl
  | cons line rest ih =>
    rw [addLines, List.filterMap_cons]
    cases Label.parse? line with
    | none => exact ih m
    | some label =>
      simp only [List.map_cons, Label.pair, addAll]
      cases m.get? label.name with
      | some first => rfl
      | none => exact ih _

/-- Labels can be added while the lines of a message are read, or after all of them have been read. -/
theorem ofMessage_eq_addLines (message : String) : ofMessage message = addLines empty (Text.lines message) :=
  (addLines_eq_addAll empty _).symm

end MigrationBench.LabelMap
