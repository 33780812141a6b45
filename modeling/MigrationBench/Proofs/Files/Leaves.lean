import MigrationBench.Files.System
import Mathlib.Tactic.Common

/-!
# What directories lead to

The list of the leaves below a directory and the look-up of a location are two views of one tree.

* `Node.lookup_eq_some_iff` — in a sound directory a name has one entry.
* `Node.at?_append`, `Node.at?_snoc` — the look-up of a location part by part.
* `Node.mem_leaves_iff` — the leaves are what a look-up finds and is no directory.
* `Node.isEntryName_of_at?` — every name on the way to a node is valid.
-/

namespace MigrationBench.Node

/-! ### Entries of a directory -/

theorem not_mem_of_any_eq_false {name : String} {es : List (String × Node)}
    (h : es.any (·.1 == name) = false) (node : Node) : (name, node) ∉ es := by
  intro hmem
  rw [List.any_eq_false] at h
  exact h _ hmem (beq_self_eq_true name)

/-- In a sound directory a name has one entry. -/
theorem lookup_eq_some_iff {es : List (String × Node)} (hes : soundEntries es = true)
    (name : String) (node : Node) : es.lookup name = some node ↔ (name, node) ∈ es := by
  induction es with
  | nil => simp
  | cons e rest ih =>
    obtain ⟨n, old⟩ := e
    simp only [soundEntries, Bool.and_eq_true, Bool.not_eq_true'] at hes
    obtain ⟨⟨⟨-, hfresh⟩, -⟩, hrest⟩ := hes
    rw [List.lookup_cons, List.mem_cons]
    by_cases hname : name = n
    · rw [hname, beq_self_eq_true]
      constructor
      · intro h
        cases h
        exact .inl rfl
      · intro h'
        rcases h' with h | h
        · cases h
          rfl
        · exact absurd h (not_mem_of_any_eq_false hfresh node)
    · rw [beq_false_of_ne hname]
      constructor
      · intro h
        exact .inr ((ih hrest).1 h)
      · intro h'
        rcases h' with h | h
        · cases h
          exact absurd rfl hname
        · exact (ih hrest).2 h

theorem sound_of_mem {es : List (String × Node)} (hes : soundEntries es = true) {name : String}
    {node : Node} (h : (name, node) ∈ es) : isEntryName name = true ∧ node.sound = true :=
  sound_of_lookup hes ((lookup_eq_some_iff hes name node).2 h)

/-! ### Locations -/

theorem at?_nil (node : Node) : node.at? [] = some node := by
  cases node <;> rfl

theorem at?_cons (node : Node) (name : String) (rest : List String) :
    node.at? (name :: rest) = (node.entries.lookup name).bind (at? · rest) := by
  cases node <;> rfl

theorem at?_append (node : Node) (a b : List String) :
    node.at? (a ++ b) = (node.at? a).bind (at? · b) := by
  induction a generalizing node with
  | nil =>
    rw [List.nil_append, at?_nil]
    rfl
  | cons name a ih =>
    rw [List.cons_append, at?_cons, at?_cons]
    cases node.entries.lookup name with
    | none => rfl
    | some below => exact ih below

theorem at?_snoc (node : Node) (location : List String) (name : String) :
    node.at? (location ++ [name]) = (node.at? location).bind (·.entries.lookup name) := by
  rw [at?_append]
  congr 1
  funext below
  rw [at?_cons]
  cases below.entries.lookup name with
  | none => rfl
  | some n => exact at?_nil n

/-- What is below a node is below a directory. -/
theorem at?_dropLast {node below : Node} {location : List String} {name : String}
    (h : node.at? (location ++ [name]) = some below) :
    ∃ es, node.at? location = some (.directory es) ∧ es.lookup name = some below := by
  rw [at?_snoc] at h
  cases hloc : node.at? location with
  | none =>
    rw [hloc] at h
    cases h
  | some parent =>
    rw [hloc] at h
    cases parent with
    | directory es => exact ⟨es, rfl, h⟩
    | file serial => cases h
    | pipe serial => cases h
    | link target => cases h

/-- In a sound tree every node is sound, and every name on the way to it is valid. -/
theorem isEntryName_of_at? {node below : Node} {location : List String} (hnode : node.sound = true)
    (h : node.at? location = some below) :
    (∀ name ∈ location, isEntryName name = true) ∧ below.sound = true := by
  induction location generalizing node with
  | nil =>
    rw [at?_nil] at h
    cases h
    exact ⟨List.forall_mem_nil _, hnode⟩
  | cons name rest ih =>
    rw [at?_cons] at h
    cases node with
    | directory es =>
      cases hlookup : es.lookup name with
      | none =>
        rw [show (directory es).entries.lookup name = none from hlookup] at h
        cases h
      | some next =>
        rw [show (directory es).entries.lookup name = some next from hlookup] at h
        obtain ⟨hname, hnext⟩ := sound_of_lookup hnode hlookup
        obtain ⟨hrest, hbelow⟩ := ih hnext h
        refine ⟨?_, hbelow⟩
        rw [List.forall_mem_cons]
        exact ⟨hname, hrest⟩
    | file serial => cases h
    | pipe serial => cases h
    | link target => cases h

/-! ### Leaves -/

theorem mem_sortEntries {α : Type} {e : String × α} {es : List (String × α)} :
    e ∈ sortEntries es ↔ e ∈ es := by
  rw [sortEntries, List.mem_mergeSort]

theorem branches_eq_map (es : List (String × Node)) :
    branches es = es.map fun e => (e.1, e.2.leaves) := by
  induction es with
  | nil => rfl
  | cons e rest ih =>
    obtain ⟨name, node⟩ := e
    rw [branches, ih]
    rfl

/-- The leaves below a directory are its entries that are no directories, and what is below those
that are. -/
theorem mem_leaves_directory (es : List (String × Node)) (location : List String) (leaf : Node) :
    (location, leaf) ∈ (directory es).leaves ↔
      (∃ name, location = [name] ∧ (name, leaf) ∈ es ∧ leaf.isDirectory = false) ∨
      ∃ name rest below, location = name :: rest ∧ (name, below) ∈ es ∧ (rest, leaf) ∈ below.leaves := by
  rw [leaves, List.mem_append]
  refine or_congr ?_ ?_
  · simp only [leafEntries, List.mem_map, mem_sortEntries, List.mem_filter, Prod.exists,
      Prod.mk.injEq, Bool.not_eq_true']
    constructor
    · intro h'
      obtain ⟨name, node, ⟨hmem, hleaf⟩, rfl, rfl⟩ := h'
      exact ⟨name, rfl, hmem, hleaf⟩
    · intro h'
      obtain ⟨name, rfl, hmem, hleaf⟩ := h'
      exact ⟨name, leaf, ⟨hmem, hleaf⟩, rfl, rfl⟩
  · simp only [List.mem_flatMap, mem_sortEntries, branches_eq_map, List.mem_map, Prod.exists,
      Prod.mk.injEq]
    constructor
    · intro h'
      obtain ⟨name, below, ⟨n, node, hmem, rfl, rfl⟩, rest, leaf', hleaf, rfl, rfl⟩ := h'
      exact ⟨n, rest, node, rfl, hmem, hleaf⟩
    · intro h'
      obtain ⟨name, rest, below, rfl, hmem, hleaf⟩ := h'
      exact ⟨name, below.leaves, ⟨name, below, hmem, rfl, rfl⟩, rest, leaf, hleaf, rfl, rfl⟩

/-- **The leaves of a sound directory** are what the look-up of a location finds and is no directory,
each with its location. -/
theorem mem_leaves_iff {es : List (String × Node)} (hes : soundEntries es = true)
    (location : List String) (leaf : Node) :
    (location, leaf) ∈ (directory es).leaves ↔
      (directory es).at? location = some leaf ∧ leaf.isDirectory = false := by
  -- on the location: each name of it is one level of directories
  induction location generalizing es with
  | nil =>
    rw [mem_leaves_directory, at?_nil]
    constructor
    · rintro (⟨name, h, -⟩ | ⟨name, rest, below, h, -⟩) <;> cases h
    · intro h'
      obtain ⟨h, hleaf⟩ := h'
      cases h
      cases hleaf
  | cons name rest ih =>
    rw [mem_leaves_directory, at?_cons]
    constructor
    · intro h'
      rcases h' with ⟨n, h, hmem, hleaf⟩ | ⟨n, r, below, h, hmem, hleaf⟩
      · cases h
        rw [show (directory es).entries.lookup name = some leaf from
          (lookup_eq_some_iff hes name leaf).2 hmem]
        exact ⟨at?_nil leaf, hleaf⟩
      · cases h
        rw [show (directory es).entries.lookup name = some below from
          (lookup_eq_some_iff hes name below).2 hmem]
        cases below with
        | directory below => exact (ih (sound_of_mem hes hmem).2).1 hleaf
        | file serial => cases hleaf
        | pipe serial => cases hleaf
        | link target => cases hleaf
    · intro h'
      obtain ⟨h, hleaf⟩ := h'
      cases hlookup : es.lookup name with
      | none =>
        rw [show (directory es).entries.lookup name = none from hlookup] at h
        cases h
      | some below =>
        rw [show (directory es).entries.lookup name = some below from hlookup] at h
        have hmem := (lookup_eq_some_iff hes name below).1 hlookup
        have hat : below.at? rest = some leaf := h
        cases rest with
        | nil =>
          rw [at?_nil] at hat
          cases hat
          exact .inl ⟨name, rfl, hmem, hleaf⟩
        | cons next rest =>
          refine .inr ⟨name, next :: rest, below, rfl, hmem, ?_⟩
          cases below with
          | directory below => exact (ih (sound_of_mem hes hmem).2).2 ⟨hat, hleaf⟩
          | file serial => cases hat
          | pipe serial => cases hat
          | link target => cases hat

end MigrationBench.Node
