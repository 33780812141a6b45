import MigrationBench.Label.Basic

/-!
# Maps of labels

Values by label name, in the order in which the names were first given.

* `LabelMap` — pairs with distinct names.
* `LabelMap.insert`, `LabelMap.ofPairs` — a name set again keeps its place.
* `LabelMap.sameEntries` — equality without regard to order.
* `LabelMap.ofMessage` — the labels of a message, each name at most once.
-/

namespace MigrationBench

/-- Values by name; the names are distinct and in order of insertion. -/
structure LabelMap where
  pairs : List (String × String)
  nodup : (pairs.map Prod.fst).Nodup
deriving DecidableEq, Repr

namespace LabelMap

/-- The map without entries. -/
def empty : LabelMap := ⟨[], by simp⟩

/-- The names in order of insertion. -/
def names (m : LabelMap) : List String :=
  m.pairs.map Prod.fst

/-- The value of a name. -/
def get? (m : LabelMap) (name : String) : Option String :=
  m.pairs.lookup name

/-- The pairs with the value of a name changed. -/
def setPairs (name value : String) (pairs : List (String × String)) : List (String × String) :=
  pairs.map fun p => if p.1 = name then (name, value) else p

theorem map_fst_setPairs (name value : String) (pairs : List (String × String)) :
    (setPairs name value pairs).map Prod.fst = pairs.map Prod.fst := by
  simp only [setPairs, List.map_map]
  refine List.map_congr_left fun p _ => ?_
  by_cases h : p.1 = name <;> simp [h]

/-- The map with a name set to a value: a name that is there keeps its place, a new one comes
last. -/
def insert (m : LabelMap) (name value : String) : LabelMap :=
  if h : name ∈ m.names then
    ⟨setPairs name value m.pairs, by rw [map_fst_setPairs]; exact m.nodup⟩
  else
    ⟨m.pairs ++ [(name, value)], by
      have := m.nodup
      simp only [names] at h
      rw [List.map_append, List.nodup_append]
      refine ⟨this, by simp, fun a ha b hb => ?_⟩
      simp only [List.map_cons, List.map_nil, List.mem_singleton] at hb
      subst hb
      intro hab
      exact h (hab ▸ ha)⟩

/-- The map that results from setting names one after another. -/
def ofPairs (pairs : List (String × String)) : LabelMap :=
  pairs.foldl (fun m p => m.insert p.1 p.2) empty

/-- Whether two maps give the same names the same values. -/
def sameEntries (m n : LabelMap) : Bool :=
  m.pairs.length == n.pairs.length && m.pairs.all fun p => n.pairs.contains p

/-- A label name that a message declares twice, with the first value and the second. -/
structure Repeated where
  name : String
  first : String
  second : String
deriving DecidableEq, Repr

/-- Adds labels to a map in order and stops at the first name that is already there. -/
def addAll (m : LabelMap) : List (String × String) → Except Repeated LabelMap
  | [] => .ok m
  | (name, value) :: rest =>
    match m.get? name with
    | some first => .error ⟨name, first, value⟩
    | none => addAll (m.insert name value) rest

/-- The labels of a message, if no name is declared twice. -/
def ofMessage (message : String) : Except Repeated LabelMap :=
  addAll empty (Label.pairsOfMessage message)

end LabelMap

end MigrationBench
