import MigrationBench.Proofs.Label.Message
import Mathlib.Data.List.Induction

/-!
# Setting names one after another

In a map that results from setting names one after another, a name stands where it was first given and has the
value that it was given last.

* `LabelMap.names_insert`, `LabelMap.get?_insert` — what one step does.
* `LabelMap.names_ofPairs`, `LabelMap.get?_ofPairs` — **the first place and the last value**.
-/

namespace MigrationBench.LabelMap

variable {name value other : String}

/-! ### One name -/

theorem names_insert (m : LabelMap) (name value : String) :
    (m.insert name value).names = if name ∈ m.names then m.names else m.names ++ [name] := by
  split
  · rename_i h
    rw [insert, dif_pos h, names, map_fst_setPairs, names]
  · rename_i h
    rw [names, pairs_insert h, List.map_append, names, List.map_singleton]

theorem lookup_setPairs_self {pairs : List (String × String)} (h : name ∈ pairs.map Prod.fst) :
    (setPairs name value pairs).lookup name = some value := by
  induction pairs with
  | nil => cases h
  | cons p rest ih =>
    rw [setPairs, List.map_cons]
    by_cases hp : p.1 = name
    · rw [if_pos hp, List.lookup_cons_self]
    · have hrest : name ∈ rest.map Prod.fst := (List.mem_cons.1 h).resolve_left (Ne.symm hp)
      rw [if_neg hp, List.lookup_cons, beq_false_of_ne (Ne.symm hp)]
      exact ih hrest

theorem lookup_setPairs_of_ne (hne : other ≠ name) (pairs : List (String × String)) :
    (setPairs name value pairs).lookup other = pairs.lookup other := by
  induction pairs with
  | nil => rfl
  | cons p rest ih =>
    rw [setPairs, List.map_cons]
    by_cases hp : p.1 = name
    · rw [if_pos hp, List.lookup_cons, List.lookup_cons, hp, beq_false_of_ne hne]
      exact ih
    · rw [if_neg hp, List.lookup_cons, List.lookup_cons]
      cases other == p.1 with
      | true => rfl
      | false => exact ih

/-- A name that is set has its value, and the other names keep theirs. -/
theorem get?_insert (m : LabelMap) (name value other : String) :
    (m.insert name value).get? other = if other = name then some value else m.get? other := by
  by_cases hmem : name ∈ m.names
  · rw [get?, insert, dif_pos hmem]
    split
    · rename_i heq
      rw [heq, lookup_setPairs_self hmem]
    · rename_i hne
      exact lookup_setPairs_of_ne hne _
  · rw [get?, pairs_insert hmem, List.lookup_append]
    split
    · rename_i heq
      have hnone : m.pairs.lookup name = none := get?_eq_none_iff.2 hmem
      rw [heq, hnone, Option.none_or, List.lookup_cons_self]
    · rename_i hne
      rw [List.lookup_cons, beq_false_of_ne hne]
      exact Option.or_none

/-! ### One name after another -/

theorem ofPairs_concat (pairs : List (String × String)) (p : String × String) :
    ofPairs (pairs ++ [p]) = (ofPairs pairs).insert p.1 p.2 := by
  rw [ofPairs, List.foldl_append]
  rfl

theorem eraseDups_concat {α : Type} [BEq α] [LawfulBEq α] (as : List α) (a : α) [Decidable (a ∈ as)] :
    (as ++ [a]).eraseDups = if a ∈ as then as.eraseDups else as.eraseDups ++ [a] := by
  rw [List.eraseDups_append]
  split
  · rename_i h
    simp [List.removeAll, h]
  · rename_i h
    simp [List.removeAll, h, List.eraseDups_cons]

/-- **A name stands where it was first given.** -/
theorem names_ofPairs (pairs : List (String × String)) :
    (ofPairs pairs).names = (pairs.map Prod.fst).eraseDups := by
  induction pairs using List.reverseRecOn with
  | nil => rfl
  | append_singleton pairs p ih =>
    rw [ofPairs_concat, names_insert, ih, List.map_append, List.map_singleton, eraseDups_concat]
    simp only [List.mem_eraseDups]

/-- **A name has the value that it was given last.** -/
theorem get?_ofPairs (pairs : List (String × String)) (name : String) :
    (ofPairs pairs).get? name = pairs.reverse.lookup name := by
  induction pairs using List.reverseRecOn with
  | nil => rfl
  | append_singleton pairs p ih =>
    rw [ofPairs_concat, get?_insert, ih, List.reverse_append, List.reverse_singleton, List.singleton_append,
      List.lookup_cons]
    by_cases hname : name = p.1
    · rw [if_pos hname, hname, beq_self_eq_true]
    · rw [if_neg hname, beq_false_of_ne hname]

end MigrationBench.LabelMap
