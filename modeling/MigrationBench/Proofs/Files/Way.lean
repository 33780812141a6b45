import MigrationBench.Files.Route
import Mathlib.Tactic.Common

/-!
# The way along real directories

A way goes from directory to directory and stops at the end of its parts or at the first of them that
does not lead on. How far it gets and what it stops with are told once here; what other modules say of
a way is read off these two.

* `FileSystem.IsIdle`, `FileSystem.IsStep` — parts that lead nowhere else, and parts that name an entry.
* `FileSystem.Advances` — parts lead along real directories, with some of them still ahead.
* `FileSystem.StopsAt` — what a way stops with.
* `FileSystem.advance_eq_iff` — a way is the two after each other.
* `FileSystem.link_of_advance`, `FileSystem.place_of_advance` — the way to a link and to a place.
-/

namespace MigrationBench.FileSystem

variable (fs : FileSystem)

/-- A way without parts stays where it is. -/
theorem advance_nil (base : List String) : fs.advance base [] = .place ⟨base, fs.node? base⟩ := by
  rw [advance]

/-- A part that leads nowhere else: an empty one or a point. -/
def IsIdle (part : String) : Prop :=
  part = "" ∨ part = "."

instance : DecidablePred IsIdle := fun _ => inferInstanceAs (Decidable (_ ∨ _))

/-- A part that names an entry of a directory. -/
structure IsStep (part : String) : Prop where
  ne_empty : part ≠ ""
  ne_point : part ≠ "."
  ne_parent : part ≠ ".."
  short : Node.isLongName part = false

/-- Some parts lead from a directory along real directories to another one, with others ahead. Every
part but an empty one is looked up in a directory that may be searched. -/
inductive Advances : List String → List String → List String → List String → Prop where
  | here {base parts : List String} : Advances base parts base parts
  | idle {base parts dir ahead : List String} {part : String} :
      IsIdle part → (part ≠ "" → fs.maySearch base = true) → Advances base parts dir ahead →
      Advances base (part :: parts) dir ahead
  | up {base parts dir ahead : List String} :
      fs.maySearch base = true → Advances base.dropLast parts dir ahead →
      Advances base (".." :: parts) dir ahead
  | step {base parts dir ahead : List String} {part : String} {es : List (String × Node)} :
      IsStep part → fs.maySearch base = true →
      fs.node? (base ++ [part]) = some (.directory es) →
      Advances (base ++ [part]) parts dir ahead → Advances base (part :: parts) dir ahead

/-- What a way stops with in a directory, with some parts ahead. -/
inductive StopsAt : List String → List String → Stop → Prop where
  | finish {dir : List String} {found : Option Node} :
      fs.node? dir = found → StopsAt dir [] (.place ⟨dir, found⟩)
  | closed {dir ahead : List String} {part : String} :
      part ≠ "" → fs.maySearch dir = false → StopsAt dir (part :: ahead) (.fault .denied)
  | long {dir ahead : List String} {part : String} :
      fs.maySearch dir = true → Node.isLongName part = true →
      StopsAt dir (part :: ahead) (.fault .nameTooLong)
  | link {dir ahead : List String} {part target : String} :
      IsStep part → fs.maySearch dir = true → fs.node? (dir ++ [part]) = some (.link target) →
      StopsAt dir (part :: ahead) (.link dir part target ahead)
  | last {dir : List String} {part : String} {node : Node} :
      IsStep part → fs.maySearch dir = true → fs.node? (dir ++ [part]) = some node →
      node.isDirectory = false → (∀ target, node ≠ .link target) →
      StopsAt dir [part] (.place ⟨dir ++ [part], some node⟩)
  | vacant {dir : List String} {part : String} :
      IsStep part → fs.maySearch dir = true → fs.node? (dir ++ [part]) = none →
      StopsAt dir [part] (.place ⟨dir ++ [part], none⟩)
  | blocked {dir ahead : List String} {part : String} {node : Node} :
      IsStep part → fs.maySearch dir = true → fs.node? (dir ++ [part]) = some node →
      node.isDirectory = false → (∀ target, node ≠ .link target) → ahead ≠ [] →
      StopsAt dir (part :: ahead) (.fault .notDirectory)
  | absent {dir ahead : List String} {part : String} :
      IsStep part → fs.maySearch dir = true → fs.node? (dir ++ [part]) = none → ahead ≠ [] →
      StopsAt dir (part :: ahead) (.fault .missing)

variable {fs}

theorem IsStep.not_isIdle {part : String} (h : IsStep part) : ¬ IsIdle part := fun hidle =>
  hidle.elim h.ne_empty h.ne_point

theorem IsIdle.ne_parent {part : String} (h : IsIdle part) : part ≠ ".." := by
  rcases h with rfl | rfl <;> decide

theorem isDirectory_iff {node : Node} : node.isDirectory = true ↔ ∃ es, node = .directory es := by
  cases node <;> simp [Node.isDirectory]

theorem isDirectory_eq_false_iff {node : Node} :
    node.isDirectory = false ↔ ∀ es, node ≠ .directory es := by
  cases node <;> simp [Node.isDirectory]

/-! ### One part of a way -/

/-- No part but an empty one is looked up in a directory that may not be searched. -/
theorem advance_closed {base : List String} {part : String} (hempty : part ≠ "")
    (hsearch : fs.maySearch base = false) (ahead : List String) :
    fs.advance base (part :: ahead) = .fault .denied := by
  rw [advance, if_neg hempty, if_pos hsearch]

theorem advance_idle {base : List String} {part : String} (hidle : IsIdle part)
    (hsearch : part ≠ "" → fs.maySearch base = true) (ahead : List String) :
    fs.advance base (part :: ahead) = fs.advance base ahead := by
  rcases hidle with rfl | rfl
  · rw [advance, if_pos rfl]
  · rw [advance, if_neg (by decide), hsearch (by decide), if_neg Bool.noConfusion, if_pos rfl]

theorem advance_up {base : List String} (hsearch : fs.maySearch base = true) (ahead : List String) :
    fs.advance base (".." :: ahead) = fs.advance base.dropLast ahead := by
  rw [advance, if_neg (by decide), hsearch, if_neg Bool.noConfusion, if_neg (by decide), if_pos rfl]

/-- The step into a real directory. -/
theorem advance_directory {base : List String} {part : String} {es : List (String × Node)}
    (hs : IsStep part) (hsearch : fs.maySearch base = true)
    (h : fs.node? (base ++ [part]) = some (.directory es)) (ahead : List String) :
    fs.advance base (part :: ahead) = fs.advance (base ++ [part]) ahead := by
  rw [advance, if_neg hs.ne_empty, hsearch, if_neg hs.ne_point, if_neg hs.ne_parent, hs.short]
  simp only [Bool.true_eq_false, Bool.false_eq_true, if_false, h]

/-- The way ends at a link. -/
theorem advance_at_link {base : List String} {part target : String} (hs : IsStep part)
    (hsearch : fs.maySearch base = true) (h : fs.node? (base ++ [part]) = some (.link target))
    (ahead : List String) : fs.advance base (part :: ahead) = .link base part target ahead := by
  rw [advance, if_neg hs.ne_empty, hsearch, if_neg hs.ne_point, if_neg hs.ne_parent, hs.short]
  simp only [Bool.true_eq_false, Bool.false_eq_true, if_false, h]

/-- The way ends at something that is neither a directory nor a link; nothing is below it. -/
theorem advance_at_end {base : List String} {part : String} {node : Node} (hs : IsStep part)
    (hsearch : fs.maySearch base = true) (h : fs.node? (base ++ [part]) = some node)
    (hdir : node.isDirectory = false) (hlink : ∀ target, node ≠ .link target) (ahead : List String) :
    fs.advance base (part :: ahead)
      = if ahead = [] then .place ⟨base ++ [part], some node⟩ else .fault .notDirectory := by
  rw [advance, if_neg hs.ne_empty, hsearch, if_neg hs.ne_point, if_neg hs.ne_parent, hs.short]
  simp only [Bool.true_eq_false, Bool.false_eq_true, if_false, h]
  cases node with
  | directory es => cases hdir
  | link target => exact absurd rfl (hlink target)
  | file serial => rfl
  | pipe serial => rfl

/-- The way ends where nothing is. -/
theorem advance_at_none {base : List String} {part : String} (hs : IsStep part)
    (hsearch : fs.maySearch base = true) (h : fs.node? (base ++ [part]) = none)
    (ahead : List String) :
    fs.advance base (part :: ahead)
      = if ahead = [] then .place ⟨base ++ [part], none⟩ else .fault .missing := by
  rw [advance, if_neg hs.ne_empty, hsearch, if_neg hs.ne_point, if_neg hs.ne_parent, hs.short]
  simp only [Bool.true_eq_false, Bool.false_eq_true, if_false, h]
  rfl

/-- No way goes on at a name that no directory can hold. -/
theorem advance_long {base : List String} {part : String} (hsearch : fs.maySearch base = true)
    (h : Node.isLongName part = true) (ahead : List String) :
    fs.advance base (part :: ahead) = .fault .nameTooLong := by
  have hne : ∀ other : String, Node.isLongName other = false → part ≠ other := by
    rintro other hother rfl
    rw [h] at hother
    cases hother
  rw [advance, if_neg (hne "" (by decide)), hsearch, if_neg Bool.noConfusion,
    if_neg (hne "." (by decide)), if_neg (hne ".." (by decide)), if_pos h]

/-! ### A whole way -/

/-- A way is the same from each directory that it goes through. -/
theorem Advances.advance_eq {base parts dir ahead : List String}
    (h : fs.Advances base parts dir ahead) : fs.advance base parts = fs.advance dir ahead := by
  induction h with
  | here => rfl
  | idle hidle hsearch _ ih => rw [advance_idle hidle hsearch, ih]
  | up hsearch _ ih => rw [advance_up hsearch, ih]
  | step hs hsearch hnext _ ih => rw [advance_directory hs hsearch hnext, ih]

theorem StopsAt.advance_eq {dir ahead : List String} {stop : Stop}
    (h : fs.StopsAt dir ahead stop) : fs.advance dir ahead = stop := by
  cases h with
  | finish hfound => rw [advance_nil, hfound]
  | closed hempty hsearch => exact advance_closed hempty hsearch _
  | long hsearch hlong => exact advance_long hsearch hlong _
  | link hs hsearch hnode => exact advance_at_link hs hsearch hnode _
  | last hs hsearch hnode hdir hlink => rw [advance_at_end hs hsearch hnode hdir hlink, if_pos rfl]
  | vacant hs hsearch hnode => rw [advance_at_none hs hsearch hnode, if_pos rfl]
  | blocked hs hsearch hnode hdir hlink hahead =>
    rw [advance_at_end hs hsearch hnode hdir hlink, if_neg hahead]
  | absent hs hsearch hnode hahead => rw [advance_at_none hs hsearch hnode, if_neg hahead]

/-- A way goes as far as it can and stops there. -/
theorem exists_stop (fs : FileSystem) (base parts : List String) :
    ∃ dir ahead, fs.Advances base parts dir ahead ∧
      fs.StopsAt dir ahead (fs.advance base parts) := by
  fun_induction advance fs base parts with
  | case1 base => exact ⟨base, [], .here, .finish rfl⟩
  | case2 base parts ih =>
    obtain ⟨dir, ahead, hway, hstop⟩ := ih
    exact ⟨dir, ahead, .idle (.inl rfl) (absurd rfl) hway, hstop⟩
  | case3 base part parts hempty hsearch => exact ⟨base, _, .here, .closed hempty hsearch⟩
  | case4 base parts hsearch hempty ih =>
    obtain ⟨dir, ahead, hway, hstop⟩ := ih
    exact ⟨dir, ahead, .idle (.inr rfl) (fun _ => Bool.of_not_eq_false hsearch) hway, hstop⟩
  | case5 base parts hsearch hempty hpoint ih =>
    obtain ⟨dir, ahead, hway, hstop⟩ := ih
    exact ⟨dir, ahead, .up (Bool.of_not_eq_false hsearch) hway, hstop⟩
  | case6 base part parts hempty hsearch hpoint hparent hlong =>
    exact ⟨base, _, .here, .long (Bool.of_not_eq_false hsearch) hlong⟩
  | case7 base part parts hempty hsearch hpoint hparent hlong next es hnext ih =>
    obtain ⟨dir, ahead, hway, hstop⟩ := ih
    have hs : IsStep part := ⟨hempty, hpoint, hparent, Bool.of_not_eq_true hlong⟩
    exact ⟨dir, ahead, .step hs (Bool.of_not_eq_false hsearch) hnext hway, hstop⟩
  | case8 base part parts hempty hsearch hpoint hparent hlong next target hnext =>
    have hs : IsStep part := ⟨hempty, hpoint, hparent, Bool.of_not_eq_true hlong⟩
    exact ⟨base, _, .here, .link hs (Bool.of_not_eq_false hsearch) hnext⟩
  | case9 base part hempty hsearch hpoint hparent hlong next hdir hlink =>
    have hs : IsStep part := ⟨hempty, hpoint, hparent, Bool.of_not_eq_true hlong⟩
    refine ⟨base, [part], .here, ?_⟩
    cases hnext : fs.node? next with
    | none => exact .vacant hs (Bool.of_not_eq_false hsearch) hnext
    | some node =>
      exact .last hs (Bool.of_not_eq_false hsearch) hnext
        (isDirectory_eq_false_iff.2 fun es hes => hdir es (hes ▸ hnext))
        fun target htarget => hlink target (htarget ▸ hnext)
  | case10 base part parts hempty hsearch hpoint hparent hlong next hahead hdir hlink =>
    have hs : IsStep part := ⟨hempty, hpoint, hparent, Bool.of_not_eq_true hlong⟩
    refine ⟨base, part :: parts, .here, ?_⟩
    cases hnext : fs.node? next with
    | none => exact .absent hs (Bool.of_not_eq_false hsearch) hnext hahead
    | some node =>
      exact .blocked hs (Bool.of_not_eq_false hsearch) hnext
        (isDirectory_eq_false_iff.2 fun es hes => hdir es (hes ▸ hnext))
        (fun target htarget => hlink target (htarget ▸ hnext)) hahead

/-- **A way, told by how far it goes and what it stops with.** -/
theorem advance_eq_iff {base parts : List String} {stop : Stop} :
    fs.advance base parts = stop ↔
      ∃ dir ahead, fs.Advances base parts dir ahead ∧ fs.StopsAt dir ahead stop := by
  constructor
  · rintro rfl
    exact exists_stop fs base parts
  · rintro ⟨dir, ahead, hway, hstop⟩
    rw [hway.advance_eq, hstop.advance_eq]

namespace Advances

variable {base parts dir ahead : List String}

/-- Other parts behind those of a way do not change it. -/
theorem append (h : fs.Advances base parts dir ahead) (rest : List String) :
    fs.Advances base (parts ++ rest) dir (ahead ++ rest) := by
  induction h with
  | here => exact .here
  | idle hidle hsearch _ ih => exact .idle hidle hsearch ih
  | up hsearch _ ih => exact .up hsearch ih
  | step hs hsearch hnext _ ih => exact .step hs hsearch hnext ih

/-- The parts ahead are among those of the way. -/
theorem subset (h : fs.Advances base parts dir ahead) : ahead ⊆ parts := by
  induction h with
  | here => exact List.Subset.refl _
  | idle _ _ _ ih => exact List.subset_cons_of_subset _ ih
  | up _ _ ih => exact List.subset_cons_of_subset _ ih
  | step _ _ _ _ ih => exact List.subset_cons_of_subset _ ih

end Advances

/-- The way to a link: along real directories, to the one that the link is in. -/
theorem link_of_advance {base parts above ahead : List String} {name target : String}
    (h : fs.advance base parts = .link above name target ahead) :
    fs.Advances base parts above (name :: ahead) ∧ IsStep name ∧ fs.maySearch above = true ∧
      fs.node? (above ++ [name]) = some (.link target) := by
  obtain ⟨dir, rest, hway, hstop⟩ := advance_eq_iff.1 h
  cases hstop with
  | link hs hsearch hnode => exact ⟨hway, hs, hsearch, hnode⟩

/-- The way to a place where something is: it is a directory that the way leads to, or something else
that the last part names. -/
theorem place_of_advance {base parts location : List String} {node : Node}
    (h : fs.advance base parts = .place ⟨location, some node⟩) :
    (fs.Advances base parts location [] ∧ fs.node? location = some node) ∨
    ∃ dir part, location = dir ++ [part] ∧ fs.Advances base parts dir [part] ∧ IsStep part ∧
      fs.maySearch dir = true ∧ fs.node? location = some node ∧ node.isDirectory = false ∧
      ∀ target, node ≠ .link target := by
  obtain ⟨dir, rest, hway, hstop⟩ := advance_eq_iff.1 h
  cases hstop with
  | finish hnode => exact .inl ⟨hway, hnode⟩
  | last hs hsearch hnode hdir hlink =>
    exact .inr ⟨dir, _, rfl, hway, hs, hsearch, hnode, hdir, hlink⟩

/-- Parts along real directories can be followed by others. -/
theorem advance_append {base parts location : List String} {es : List (String × Node)}
    (h : fs.advance base parts = .place ⟨location, some (.directory es)⟩) (rest : List String) :
    fs.advance base (parts ++ rest) = fs.advance location rest := by
  rcases place_of_advance h with ⟨hway, -⟩ | ⟨dir, part, -, -, -, -, -, hdir, -⟩
  · exact (hway.append rest).advance_eq
  · cases hdir

theorem advance_link_append {base parts above ahead : List String} {name target : String}
    (h : fs.advance base parts = .link above name target ahead) (rest : List String) :
    fs.advance base (parts ++ rest) = .link above name target (ahead ++ rest) := by
  obtain ⟨hway, hs, hsearch, hnode⟩ := link_of_advance h
  rw [(hway.append rest).advance_eq]
  exact advance_at_link hs hsearch hnode _

end MigrationBench.FileSystem
