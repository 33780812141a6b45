import MigrationBench.Path.Name
import MigrationBench.Text.Order

/-!
# Nodes of a directory tree

* `Node` — a file, a pipe, a symbolic link or a directory.
* `Node.sound` — in every directory the names are valid and distinct.
* `Node.at?`, `Node.put`, `Node.erase` — reading and changing a tree along real directories.
* `Node.leaves` — what real directories lead to and is no directory itself.
-/

namespace MigrationBench

/-- A node of a directory tree. The number of a file or a pipe tells it from others: one file can
have several names. -/
inductive Node where
  | file (serial : Nat)
  | pipe (serial : Nat)
  | link (target : String)
  | directory (entries : List (String × Node))

namespace Node

/-- The greatest number of bytes in a name. -/
def maxNameSize : Nat := 255

/-- Whether a name has more bytes than a directory can hold. -/
def isLongName (name : String) : Bool :=
  maxNameSize < name.utf8ByteSize

/-- Whether a directory can hold a name. -/
def isEntryName (name : String) : Bool :=
  isPathPart name.toList && name != ".." && !name.toList.contains '\x00' && !isLongName name

mutual

/-- Whether in every directory of a tree the names are valid and distinct. -/
def sound : Node → Bool
  | directory entries => soundEntries entries
  | _ => true

/-- Whether the names of some entries are valid and distinct, here and in the directories below. -/
def soundEntries : List (String × Node) → Bool
  | [] => true
  | (name, node) :: rest =>
    isEntryName name && !rest.any (·.1 == name) && sound node && soundEntries rest

end

/-- The entries of a directory; other nodes have none. -/
def entries : Node → List (String × Node)
  | directory es => es
  | _ => []

/-- Whether a node is a directory. -/
def isDirectory : Node → Bool
  | directory _ => true
  | _ => false

/-- The node below another one that directories lead to, name by name. -/
def at? : Node → List String → Option Node
  | node, [] => some node
  | node, name :: rest => (node.entries.lookup name).bind (at? · rest)

/-- Entries with a name set to a node: a name that is there keeps its place. -/
def setEntry (name : String) (node : Node) : List (String × Node) → List (String × Node)
  | [] => [(name, node)]
  | (n, old) :: rest => if n = name then (n, node) :: rest else (n, old) :: setEntry name node rest

/-- Entries without a name. -/
def eraseEntry (name : String) (es : List (String × Node)) : List (String × Node) :=
  es.filter (·.1 != name)

/-- A tree with a node placed at a location. Nothing changes if the location is no place in a
directory of the tree. -/
def put (new : Node) : Node → List String → Node
  | node, [] => node
  | directory es, [name] => directory (setEntry name new es)
  | directory es, name :: rest =>
    match es.lookup name with
    | some below => directory (setEntry name (put new below rest) es)
    | none => directory es
  | node, _ => node

/-- A tree without the node at a location. -/
def erase : Node → List String → Node
  | directory es, [name] => directory (eraseEntry name es)
  | directory es, name :: rest =>
    match es.lookup name with
    | some below => directory (setEntry name (erase below rest) es)
    | none => directory es
  | node, _ => node

/-! ### What directories lead to -/

/-- Entries in the order of their names. -/
def sortEntries {α : Type} (es : List (String × α)) : List (String × α) :=
  es.mergeSort fun a b => Text.precedes a.1 b.1

/-- The entries that are no directories, in order. -/
def leafEntries (es : List (String × Node)) : List (String × Node) :=
  sortEntries (es.filter fun e => !e.2.isDirectory)

mutual

/-- Everything below a node that is no directory, with its location: the entries of a directory by
their names, then what is in its subdirectories. Links are not followed. -/
def leaves : Node → List (List String × Node)
  | directory es =>
    (leafEntries es).map (fun (name, node) => ([name], node)) ++
      (sortEntries (branches es)).flatMap fun (name, below) =>
        below.map fun (location, node) => (name :: location, node)
  | _ => []

/-- Everything below each entry that is no directory. -/
def branches : List (String × Node) → List (String × List (List String × Node))
  | [] => []
  | (name, node) :: rest => (name, leaves node) :: branches rest

end

/-! ### Changes keep a tree sound -/

theorem any_setEntry (name other : String) (node : Node) (es : List (String × Node)) :
    (setEntry name node es).any (·.1 == other) = (es.any (·.1 == other) || name == other) := by
  induction es with
  | nil => simp [setEntry]
  | cons e rest ih =>
    obtain ⟨n, old⟩ := e
    rw [setEntry]
    split
    · rename_i h
      subst h
      simp only [List.any_cons]
      cases n == other <;> simp
    · simp only [List.any_cons, ih, Bool.or_assoc]

theorem soundEntries_setEntry {name : String} {node : Node} {es : List (String × Node)}
    (hname : isEntryName name = true) (hnode : node.sound = true)
    (hes : soundEntries es = true) : soundEntries (setEntry name node es) = true := by
  induction es with
  | nil => simp [setEntry, soundEntries, hname, hnode]
  | cons e rest ih =>
    obtain ⟨n, old⟩ := e
    simp only [soundEntries, Bool.and_eq_true, Bool.not_eq_true'] at hes
    obtain ⟨⟨⟨hn, hfresh⟩, hold⟩, hrest⟩ := hes
    rw [setEntry]
    split
    · simp [soundEntries, hn, hfresh, hnode, hrest]
    · rename_i hne
      simp only [soundEntries, Bool.and_eq_true, Bool.not_eq_true', hn, hold, ih hrest,
        any_setEntry, hfresh, Bool.false_or, beq_eq_false_iff_ne, true_and, and_true]
      exact fun h => hne h.symm

theorem soundEntries_eraseEntry (name : String) {es : List (String × Node)}
    (hes : soundEntries es = true) : soundEntries (eraseEntry name es) = true := by
  induction es with
  | nil => simpa [eraseEntry] using hes
  | cons e rest ih =>
    obtain ⟨n, old⟩ := e
    simp only [soundEntries, Bool.and_eq_true, Bool.not_eq_true'] at hes
    obtain ⟨⟨⟨hn, hfresh⟩, hold⟩, hrest⟩ := hes
    have ih := ih hrest
    simp only [eraseEntry] at ih ⊢
    rw [List.filter_cons]
    split
    · simp only [soundEntries, Bool.and_eq_true, Bool.not_eq_true', hn, hold, ih, true_and,
        and_true]
      rw [List.any_eq_false] at hfresh ⊢
      exact fun x hx => hfresh x (List.mem_filter.1 hx).1
    · exact ih

theorem sound_of_lookup {name : String} {node : Node} {es : List (String × Node)}
    (hes : soundEntries es = true) (h : es.lookup name = some node) :
    isEntryName name = true ∧ node.sound = true := by
  induction es with
  | nil => simp at h
  | cons e rest ih =>
    obtain ⟨n, old⟩ := e
    simp only [soundEntries, Bool.and_eq_true, Bool.not_eq_true'] at hes
    obtain ⟨⟨⟨hn, -⟩, hold⟩, hrest⟩ := hes
    rw [List.lookup_cons] at h
    split at h
    · rename_i heq
      rw [beq_iff_eq] at heq
      subst heq
      cases h
      exact ⟨hn, hold⟩
    · exact ih hrest h

theorem sound_put {new node : Node} {location : List String} (hnew : new.sound = true)
    (hnode : node.sound = true) (hlocation : location.all isEntryName = true) :
    (put new node location).sound = true := by
  fun_induction put new node location with
  | case1 => exact hnode
  | case2 es name =>
    simp only [List.all_cons, List.all_nil, Bool.and_true] at hlocation
    exact soundEntries_setEntry hlocation hnew hnode
  | case3 es name rest _ below hbelow ih =>
    simp only [List.all_cons, Bool.and_eq_true] at hlocation
    exact soundEntries_setEntry hlocation.1 (ih (sound_of_lookup hnode hbelow).2 hlocation.2) hnode
  | case4 => exact hnode
  | case5 => exact hnode

theorem sound_erase {node : Node} {location : List String} (hnode : node.sound = true) :
    (erase node location).sound = true := by
  fun_induction erase node location with
  | case1 es name => exact soundEntries_eraseEntry name hnode
  | case2 es name rest _ below hbelow ih =>
    obtain ⟨hname, hsound⟩ := sound_of_lookup hnode hbelow
    exact soundEntries_setEntry hname (ih hsound) hnode
  | case3 => exact hnode
  | case4 => exact hnode

end Node

end MigrationBench
