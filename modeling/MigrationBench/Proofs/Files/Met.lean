import MigrationBench.Proofs.Files.Answers
import MigrationBench.Proofs.Files.Walk
import Mathlib.Data.List.Nodup
import Mathlib.Data.String.Basic

/-!
# What a walk meets

A walk meets files up to its first fault. It meets each of them once: what is directly in a directory
comes in the order of names, before everything in the subdirectories.

* `FileSystem.met` — what a walk meets before its first fault.
* `Node.WalkedBefore` — the order of a walk; `Node.pairwise_leaves` — leaves are listed in it.
* `FileSystem.pairwise_met`, `FileSystem.nodup_met` — a walk meets files in its order, each once.
* `FileSystem.file_of_mem_walk` — what it meets are regular files that real directories lead to.
* `FileSystem.fault_of_mem_walk` — the faults on the way: names that cannot be, are too long or may not
  be looked up.
* `FileSystem.Walkable` — a walk meets no fault: `FileSystem.walkable_iff`.
-/

namespace MigrationBench

namespace Node

/-! ### The order of a walk -/

/-- The first location comes before the second one in a walk. If the second one is directly in a
directory that the first one is below, the first one is directly in it as well and has the lesser
name. -/
def WalkedBefore (a b : List String) : Prop :=
  ∀ dir name, b = dir ++ [name] → dir <+: a → ∃ earlier, a = dir ++ [earlier] ∧ earlier < name

theorem walkedBefore_of_lt {x y : String} (h : x < y) : WalkedBefore [x] [y] := by
  intro dir name hb _
  have hsize := congrArg List.length hb
  rw [List.length_append, List.length_singleton, List.length_singleton] at hsize
  have hdir : dir = [] := List.length_eq_zero_iff.1 (by omega)
  subst hdir
  cases hb
  exact ⟨x, rfl, h⟩

/-- In different entries of a directory every order is one of a walk, if the later entry is a
directory. -/
theorem walkedBefore_of_ne {x y : String} {a b : List String} (h : x ≠ y) (hb : b ≠ []) :
    WalkedBefore (x :: a) (y :: b) := by
  intro dir name heq hdir
  cases dir with
  | nil =>
    cases heq
    exact absurd rfl hb
  | cons d dir =>
    cases heq
    exact absurd (List.cons_prefix_cons.1 hdir).1 (Ne.symm h)

theorem WalkedBefore.cons {a b : List String} (h : WalkedBefore a b) (hb : b ≠ []) (x : String) :
    WalkedBefore (x :: a) (x :: b) := by
  intro dir name heq hdir
  cases dir with
  | nil =>
    cases heq
    exact absurd rfl hb
  | cons d dir =>
    cases heq
    obtain ⟨earlier, ha, hlt⟩ := h dir name rfl (List.cons_prefix_cons.1 hdir).2
    exact ⟨earlier, by rw [ha, List.cons_append], hlt⟩

theorem WalkedBefore.ne {a b : List String} (h : WalkedBefore a b) (hb : b ≠ []) : a ≠ b := by
  rintro rfl
  rcases List.eq_nil_or_concat a with rfl | ⟨dir, name, rfl⟩
  · exact hb rfl
  · rw [List.concat_eq_append] at h
    obtain ⟨earlier, heq, hlt⟩ := h dir name rfl (List.prefix_append _ _)
    have hname : [name] = [earlier] := List.append_cancel_left heq
    cases hname
    exact absurd hlt (lt_irrefl name)

/-! ### Leaves in the order of a walk -/

/-- The names in a sound directory are distinct. -/
theorem nodup_names {es : List (String × Node)} (h : soundEntries es = true) :
    (es.map Prod.fst).Nodup := by
  induction es with
  | nil => exact .nil
  | cons e rest ih =>
    obtain ⟨name, node⟩ := e
    simp only [soundEntries, Bool.and_eq_true, Bool.not_eq_true'] at h
    obtain ⟨⟨⟨-, hfresh⟩, -⟩, hrest⟩ := h
    rw [List.map_cons, List.nodup_cons]
    refine ⟨?_, ih hrest⟩
    intro hmem
    obtain ⟨⟨other, below⟩, hother, hname⟩ := List.mem_map.1 hmem
    have heq : other = name := hname
    rw [heq] at hother
    exact not_mem_of_any_eq_false hfresh below hother

theorem sortEntries_perm {α : Type} (es : List (String × α)) : (sortEntries es).Perm es :=
  List.mergeSort_perm es _

/-- Sorted entries with distinct names have increasing names. -/
theorem pairwise_sortEntries {α : Type} {es : List (String × α)} (h : (es.map Prod.fst).Nodup) :
    (sortEntries es).Pairwise fun a b => a.1 < b.1 := by
  have hsorted : (sortEntries es).Pairwise fun a b => Text.precedes a.1 b.1 = true := by
    refine List.pairwise_mergeSort (fun a b c hab hbc => ?_) (fun a b => ?_) es
    · simp only [Text.precedes, Bool.not_eq_true', decide_eq_false_iff_not, not_lt] at hab hbc ⊢
      exact le_trans hab hbc
    · simp only [Text.precedes, Bool.or_eq_true, Bool.not_eq_true', decide_eq_false_iff_not, not_lt]
      exact le_total a.1 b.1
  have hdistinct : (sortEntries es).Pairwise fun a b => a.1 ≠ b.1 := by
    have hnodup := ((sortEntries_perm es).map Prod.fst).nodup_iff.2 h
    exact List.pairwise_map.1 hnodup
  refine (hsorted.and hdistinct).imp fun hab => ?_
  simp only [Text.precedes, Bool.not_eq_true', decide_eq_false_iff_not, not_lt] at hab
  exact lt_of_le_of_ne hab.1 hab.2

/-- Every leaf below a directory is at some name. -/
theorem ne_nil_of_mem_leaves {node : Node} {found : List String × Node} (h : found ∈ node.leaves) :
    found.1 ≠ [] := by
  obtain ⟨location, leaf⟩ := found
  cases node with
  | directory es =>
    rcases (mem_leaves_directory es location leaf).1 h with ⟨name, rfl, -⟩ | ⟨name, rest, -, rfl, -⟩
    · exact List.cons_ne_nil _ _
    · exact List.cons_ne_nil _ _
  | file serial => cases h
  | pipe serial => cases h
  | link target => cases h

/-- A directory lists its leaves in the order of a walk if each of its entries does. -/
theorem pairwise_leaves_directory {es : List (String × Node)} (hes : soundEntries es = true)
    (hbelow : ∀ branch ∈ branches es, (branch.2.map Prod.fst).Pairwise WalkedBefore) :
    ((directory es).leaves.map Prod.fst).Pairwise WalkedBefore := by
  have hbranch : ∀ branch ∈ sortEntries (branches es), ∃ node, (branch.1, node) ∈ es ∧
      branch.2 = node.leaves := by
    intro branch hmem
    rw [mem_sortEntries, branches_eq_map] at hmem
    obtain ⟨⟨name, node⟩, hnode, rfl⟩ := List.mem_map.1 hmem
    exact ⟨node, hnode, rfl⟩
  have hnames : (branches es).map Prod.fst = es.map Prod.fst := by
    rw [branches_eq_map, List.map_map]
    rfl
  have hown : ((es.filter fun e => !e.2.isDirectory).map Prod.fst).Nodup :=
    (List.filter_sublist.map Prod.fst).nodup (nodup_names hes)
  rw [leaves, List.map_append, List.map_map, List.map_flatMap, List.pairwise_append,
    List.pairwise_map, List.pairwise_flatMap]
  refine ⟨(pairwise_sortEntries hown).imp walkedBefore_of_lt, ⟨?_, ?_⟩, ?_⟩
  · -- in one subdirectory
    intro branch hmem
    obtain ⟨node, -, hleaves⟩ := hbranch branch hmem
    have hinner := hbelow branch (mem_sortEntries.1 hmem)
    rw [List.pairwise_map] at hinner
    rw [List.map_map, List.pairwise_map]
    refine hinner.imp_of_mem fun {a b} _ hb hab => hab.cons ?_ branch.1
    rw [hleaves] at hb
    exact ne_nil_of_mem_leaves hb
  · -- in two subdirectories
    refine (pairwise_sortEntries (hnames ▸ nodup_names hes)).imp_of_mem ?_
    intro first second _ hsecond hlt a ha b hb
    obtain ⟨node, -, hleaves⟩ := hbranch second hsecond
    rw [List.map_map] at ha hb
    obtain ⟨x, -, rfl⟩ := List.mem_map.1 ha
    obtain ⟨y, hy, rfl⟩ := List.mem_map.1 hb
    rw [hleaves] at hy
    exact walkedBefore_of_ne (ne_of_lt hlt) (ne_nil_of_mem_leaves hy)
  · -- in the directory itself and in a subdirectory
    intro a ha b hb
    obtain ⟨⟨name, leaf⟩, hleaf, rfl⟩ := List.mem_map.1 ha
    obtain ⟨branch, hmem, hb⟩ := List.mem_flatMap.1 hb
    obtain ⟨node, hnode, hleaves⟩ := hbranch branch hmem
    rw [List.map_map] at hb
    obtain ⟨y, hy, rfl⟩ := List.mem_map.1 hb
    rw [hleaves] at hy
    rw [leafEntries, mem_sortEntries, List.mem_filter] at hleaf
    refine walkedBefore_of_ne ?_ (ne_nil_of_mem_leaves hy)
    intro hname
    have hsame : es.lookup name = some node := by
      rw [hname]
      exact (lookup_eq_some_iff hes _ _).2 hnode
    rw [(lookup_eq_some_iff hes _ _).2 hleaf.1] at hsame
    cases hsame
    cases leaf with
    | directory es => simp [isDirectory] at hleaf
    | file serial => cases hy
    | pipe serial => cases hy
    | link target => cases hy

mutual

/-- **Leaves come in the order of a walk.** -/
theorem pairwise_leaves : ∀ node : Node, node.sound = true →
    (node.leaves.map Prod.fst).Pairwise WalkedBefore
  | .directory es, h => pairwise_leaves_directory h (pairwise_branches es h)
  | .file _, _ => .nil
  | .pipe _, _ => .nil
  | .link _, _ => .nil

/-- So do the leaves below each entry of a directory. -/
theorem pairwise_branches : ∀ es : List (String × Node), soundEntries es = true →
    ∀ branch ∈ branches es, (branch.2.map Prod.fst).Pairwise WalkedBefore
  | [], _, branch, hmem => by cases hmem
  | (name, node) :: rest, h, branch, hmem => by
    simp only [soundEntries, Bool.and_eq_true] at h
    obtain ⟨⟨-, hnode⟩, hrest⟩ := h
    rcases List.mem_cons.1 hmem with rfl | hmem
    · exact pairwise_leaves node hnode
    · exact pairwise_branches rest hrest branch hmem

end

end Node

namespace FileSystem

variable {fs : FileSystem}

/-! ### What a walk meets -/

/-- What a walk meets before its first fault. -/
def met {α : Type} : List (Except FileFault α) → List α
  | .ok found :: visits => found :: met visits
  | _ => []

theorem met_map_ok {α : Type} (found : List α) : met (found.map .ok) = found := by
  induction found with
  | nil => rfl
  | cons x found ih => exact congrArg (x :: ·) ih

/-- A walk without faults is what it meets; any other one goes on with its first fault. -/
theorem eq_met {α : Type} (visits : List (Except FileFault α)) :
    visits = (met visits).map .ok ∨
      ∃ cause rest, visits = (met visits).map .ok ++ .error cause :: rest := by
  induction visits with
  | nil => exact .inl rfl
  | cons visit visits ih =>
    cases visit with
    | error cause => exact .inr ⟨cause, visits, rfl⟩
    | ok found =>
      rcases ih with h | ⟨cause, rest, h⟩
      · refine .inl ?_
        show Except.ok found :: visits = Except.ok found :: (met visits).map .ok
        rw [← h]
      · refine .inr ⟨cause, rest, ?_⟩
        show Except.ok found :: visits
          = Except.ok found :: ((met visits).map .ok ++ .error cause :: rest)
        rw [← h]

/-- A walk without faults is what it meets. -/
theorem eq_map_met {α : Type} {visits : List (Except FileFault α)}
    (h : ∀ cause, .error cause ∉ visits) : visits = (met visits).map .ok := by
  rcases eq_met visits with hall | ⟨cause, rest, hall⟩
  · exact hall
  · refine absurd ?_ (h cause)
    rw [hall]
    exact List.mem_append_right _ (List.mem_cons_self ..)

theorem ok_mem_of_mem_met {α : Type} {visits : List (Except FileFault α)} {found : α}
    (h : found ∈ met visits) : .ok found ∈ visits := by
  have hmem : Except.ok found ∈ (met visits).map (.ok : α → Except FileFault α) :=
    List.mem_map_of_mem h
  rcases eq_met visits with hall | ⟨cause, rest, hall⟩
  · rw [hall]
    exact hmem
  · rw [hall]
    exact List.mem_append_left _ hmem

/-- A visit without a fault is that of a regular file. -/
theorem visit_eq_ok {root : PathName} {top : List String} {leaf : List String × Node}
    {location : List String} (h : fs.visit root top leaf = some (.ok location)) :
    location = leaf.1 ∧ ∃ serial, leaf.2 = .file serial := by
  rcases fs.visit_cases root top leaf with
    ⟨-, hvisit⟩ | ⟨-, -, hvisit⟩ | ⟨-, -, hvisit⟩ | ⟨-, -, -, hvisit⟩
  · rw [hvisit] at h
    cases h
  · rw [hvisit] at h
    cases h
  · rw [hvisit] at h
    cases h
  · rw [hvisit] at h
    obtain ⟨way, node⟩ := leaf
    cases node with
    | file serial =>
      cases h
      exact ⟨rfl, serial, rfl⟩
    | pipe serial => cases h
    | link target => cases h
    | directory below => cases h

/-- A walk meets leaves in the order in which they are listed. -/
theorem met_sublist (fs : FileSystem) (root : PathName) (top : List String)
    (leaves : List (List String × Node)) :
    (met (leaves.filterMap (fs.visit root top))).Sublist (leaves.map Prod.fst) := by
  induction leaves with
  | nil => exact List.Sublist.refl _
  | cons leaf leaves ih =>
    rw [List.filterMap_cons, List.map_cons]
    cases hvisit : fs.visit root top leaf with
    | none => exact ih.cons _
    | some found =>
      cases found with
      | error cause => exact List.nil_sublist _
      | ok location =>
        rw [(visit_eq_ok hvisit).1]
        exact ih.cons_cons _

/-- **A walk meets files in its order.** -/
theorem pairwise_met (p : PathName) : (met (fs.walk p)).Pairwise Node.WalkedBefore := by
  rw [walk]
  cases h : fs.locate (.ofPath p) with
  | ok found =>
    obtain ⟨top, node⟩ := found
    have hsound : node.sound = true := (Node.isEntryName_of_at? tree_sound (node?_of_locate h)).2
    exact (Node.pairwise_leaves node hsound).sublist (met_sublist fs p top node.leaves)
  | error cause => cases cause <;> exact .nil

/-- What a walk meets are regular files that real directories lead to. -/
theorem file_of_mem_walk {p : PathName} {location : List String} (h : .ok location ∈ fs.walk p) :
    ∃ top es serial, fs.locate (.ofPath p) = .ok (top, .directory es) ∧
      fs.node? (top ++ location) = some (.file serial) := by
  have hwalk := h
  rw [walk] at h
  cases hlocate : fs.locate (.ofPath p) with
  | error cause =>
    rw [hlocate] at h
    cases cause <;> simp at h
  | ok found =>
    obtain ⟨top, node⟩ := found
    rw [hlocate] at h
    obtain ⟨leaf, hleaf, -⟩ := List.mem_filterMap.1 h
    cases node with
    | directory es =>
      obtain ⟨-, -, -, serial, hnode⟩ := (mem_walk_iff hlocate location).1 hwalk
      exact ⟨top, es, serial, rfl, hnode⟩
    | file serial => cases hleaf
    | pipe serial => cases hleaf
    | link target => cases hleaf

theorem ne_nil_of_mem_walk {p : PathName} {location : List String}
    (h : .ok location ∈ fs.walk p) : location ≠ [] := by
  obtain ⟨top, es, serial, hlocate, hnode⟩ := file_of_mem_walk h
  rintro rfl
  rw [List.append_nil, node?_of_locate hlocate] at hnode
  cases hnode

/-- **A walk meets no file twice**, and their texts differ as well. -/
theorem nodup_met (p : PathName) : ((met (fs.walk p)).map PathName.joinParts).Nodup := by
  have hnodup : (met (fs.walk p)).Nodup :=
    (pairwise_met p).imp_of_mem fun _ hb hab => hab.ne (ne_nil_of_mem_walk (ok_mem_of_mem_met hb))
  have hparts : ∀ location ∈ met (fs.walk p), ∀ part ∈ location, PathName.IsPart part := by
    intro location hmem
    obtain ⟨top, es, serial, -, hnode⟩ := file_of_mem_walk (ok_mem_of_mem_met hmem)
    exact isPart_of_node? hnode
  exact List.Nodup.map_on
    (fun a ha b hb heq => PathName.joinParts_inj (hparts a ha) (hparts b hb) heq) hnodup

/-! ### The faults of a walk -/

theorem advance_ne_badName {base parts : List String} :
    fs.advance base parts ≠ .fault .badName := by
  intro h
  obtain ⟨dir, ahead, -, hstop⟩ := advance_eq_iff.1 h
  cases hstop

theorem follow_ne_badName {final : Bool} {links : Nat} {base parts : List String} :
    fs.follow final links base parts ≠ .error .badName := by
  fun_induction follow fs final links base parts with
  | case1 links base parts p hp => simp
  | case2 links base parts cause hcause =>
    intro h
    cases h
    exact advance_ne_badName hcause
  | case3 links base parts above name target rest hlink hlast => simp
  | case4 base parts above name target rest hlink hlast => simp
  | case5 base parts above name target rest hlink hlast links route ih => exact ih

/-- Only a path that holds a NUL cannot be. -/
theorem locate_eq_badName_iff {p : PathName} :
    fs.locate (.ofPath p) = .error .badName ↔ p.hasNul = true := by
  constructor
  · intro h
    rcases cause_of_present h with h | h
    · cases h
    · by_cases hadmits : fs.Admits p
      · rw [hadmits.place_eq] at h
        exact absurd h follow_ne_badName
      · obtain ⟨cause, hcause, hflaw⟩ := place_of_not_admits true hadmits
        rw [h] at hcause
        cases hcause
        rcases hflaw with ⟨-, hnul⟩ | ⟨hflaw, -⟩ | ⟨hflaw, -⟩
        · exact hnul
        · cases hflaw
        · cases hflaw
  · intro hnul
    rw [locate, FileSystem.place, show (Route.ofPath p).hasNul = true from hnul]
    rfl

/-- **The faults of a walk** are a path that holds a NUL, and path texts that are too long or may not be
looked up. -/
theorem fault_of_mem_walk {p : PathName} {cause : FileFault} (h : .error cause ∈ fs.walk p) :
    fs.Obstructs cause ∨ cause = .badName ∧ p.hasNul = true := by
  rw [walk] at h
  cases hlocate : fs.locate (.ofPath p) with
  | ok found =>
    obtain ⟨top, node⟩ := found
    rw [hlocate] at h
    obtain ⟨leaf, -, hleaf⟩ := List.mem_filterMap.1 h
    rcases fs.visit_cases p top leaf with
      ⟨-, hvisit⟩ | ⟨-, -, hvisit⟩ | ⟨-, hsearch, hvisit⟩ | ⟨-, -, -, hvisit⟩
    · rw [hvisit] at hleaf
      cases hleaf
    · rw [hvisit] at hleaf
      cases hleaf
      exact .inl (.inl rfl)
    · rw [hvisit] at hleaf
      cases hleaf
      exact .inl (.inr ⟨rfl, _, hsearch⟩)
    · rw [hvisit] at hleaf
      obtain ⟨location, -, hok⟩ := Option.map_eq_some_iff.1 hleaf
      cases hok
  | error fault =>
    rw [hlocate] at h
    cases fault with
    | badName =>
      cases List.mem_singleton.1 h
      exact .inr ⟨rfl, locate_eq_badName_iff.1 hlocate⟩
    | _ => cases h

/-- A walk meets no fault on its way: the path holds no NUL, and in the directories below it that the
walk lists, the text of everything that is no directory is not too long and can be looked up. -/
structure Walkable (fs : FileSystem) (p : PathName) : Prop where
  noNul : p.hasNul = false
  visits : ∀ top es, fs.locate (.ofPath p) = .ok (top, .directory es) →
    ∀ location node, fs.node? (top ++ location) = some node → node.isDirectory = false →
      fs.enters p top location.dropLast = true →
      (p.below (PathName.joinParts location)).render.utf8ByteSize < Route.sizeLimit ∧
        fs.maySearch (top ++ location.dropLast) = true

/-- **A walk meets no fault** exactly if it can look at everything in the directories that it lists. -/
theorem walkable_iff {p : PathName} : fs.Walkable p ↔ ∀ cause, .error cause ∉ fs.walk p := by
  constructor
  · intro h cause hmem
    rw [walk] at hmem
    cases hlocate : fs.locate (.ofPath p) with
    | error fault =>
      rw [hlocate] at hmem
      cases fault with
      | badName =>
        have hnul := locate_eq_badName_iff.1 hlocate
        rw [h.noNul] at hnul
        cases hnul
      | _ => cases hmem
    | ok found =>
      obtain ⟨top, node⟩ := found
      rw [hlocate] at hmem
      cases node with
      | directory es =>
        obtain ⟨⟨location, leaf⟩, hleaf, hvisit⟩ := List.mem_filterMap.1 hmem
        obtain ⟨hnode, hdir⟩ := (mem_leaves_of_locate hlocate location leaf).1 hleaf
        cases hentry : fs.enters p top location.dropLast with
        | false =>
          rw [visit, hentry, if_pos rfl] at hvisit
          cases hvisit
        | true =>
          obtain ⟨hsize, hsearch⟩ := h.visits top es hlocate location leaf hnode hdir hentry
          have hregular : fs.visit p top (location, leaf) = (regular? (location, leaf)).map .ok :=
            visit_eq_regular? hentry hsize hsearch
          rw [hregular] at hvisit
          obtain ⟨found, -, hok⟩ := Option.map_eq_some_iff.1 hvisit
          cases hok
      | _ => cases hmem
  · intro h
    refine ⟨?_, ?_⟩
    · rw [← Bool.not_eq_true]
      intro hnul
      refine h .badName ?_
      rw [walk, locate_eq_badName_iff.2 hnul]
      exact List.mem_singleton_self _
    · intro top es hlocate location node hnode hdir hentry
      have hleaf := (mem_leaves_of_locate hlocate location node).2 ⟨hnode, hdir⟩
      have hvisited : ∀ cause, fs.visit p top (location, node) ≠ some (.error cause) := by
        intro cause hvisit
        refine h cause ?_
        rw [walk, hlocate]
        exact List.mem_filterMap.2 ⟨_, hleaf, hvisit⟩
      rcases fs.visit_cases p top (location, node) with
        ⟨hpassed, -⟩ | ⟨-, -, hvisit⟩ | ⟨-, -, hvisit⟩ | ⟨-, hsize, hsearch, -⟩
      · rw [hentry] at hpassed
        cases hpassed
      · exact absurd hvisit (hvisited _)
      · exact absurd hvisit (hvisited _)
      · exact ⟨hsize, hsearch⟩

/-- **A walk without faults** meets the files in all directories that it lists. -/
theorem Walkable.mem_met_iff {p : PathName} (h : fs.Walkable p) {top : List String}
    {es : List (String × Node)} (hlocate : fs.locate (.ofPath p) = .ok (top, .directory es))
    (location : List String) :
    location ∈ met (fs.walk p) ↔ fs.enters p top location.dropLast = true ∧
      ∃ serial, fs.node? (top ++ location) = some (.file serial) := by
  constructor
  · intro hmem
    obtain ⟨hentry, -, -, hfile⟩ := (mem_walk_iff hlocate location).1 (ok_mem_of_mem_met hmem)
    exact ⟨hentry, hfile⟩
  · intro h'
    obtain ⟨hentry, serial, hnode⟩ := h'
    obtain ⟨hsize, hsearch⟩ := h.visits top es hlocate location _ hnode rfl hentry
    have hmem := (mem_walk_iff hlocate location).2 ⟨hentry, hsize, hsearch, serial, hnode⟩
    rw [eq_map_met (walkable_iff.1 h)] at hmem
    obtain ⟨found, hfound, heq⟩ := List.mem_map.1 hmem
    cases heq
    exact hfound

end FileSystem

end MigrationBench
