import MigrationBench.Proofs.Files.Resolution

/-!
# Straight paths

A path without `..` after a symbolic link leads where its text says: `..` may be taken out of the text
before the resolution.

* `FileSystem.NamesLink`, `FileSystem.Straight` — parts that name a link; a path in which no `..`
  stands behind such parts.
* `FileSystem.resolves_collapse` — straight parts lead to the same place without their `..`.
* `FileSystem.Denotes` — where the text of a path leads from a root, whatever the files are.
* `FileSystem.locate_of_straight` — two straight paths whose texts lead from one to the other are that
  far apart.
-/

namespace MigrationBench.FileSystem

variable (fs : FileSystem)

/-- Parts from the top down name a symbolic link. -/
def NamesLink (parts : List String) : Prop :=
  ∃ location target, fs.Resolves false [] parts location (.link target)

/-- No `..` stands right behind parts whose text names a symbolic link. -/
def StraightParts (parts : List String) : Prop :=
  ∀ before after, parts = before ++ ".." :: after → ¬ fs.NamesLink (PathName.collapse before)

/-- In no place of a path `..` stands right behind a symbolic link. -/
def Straight (p : PathName) : Prop :=
  fs.StraightParts (fs.start p ++ p.parts)

variable {fs}

theorem StraightParts.of_append {as bs : List String} (h : fs.StraightParts (as ++ bs)) :
    fs.StraightParts as := by
  rintro before after rfl
  refine h before (after ++ bs) ?_
  rw [List.append_assoc, List.cons_append]

/-- A path without `..` is straight. -/
theorem straight_of_not_mem {p : PathName} (h : ".." ∉ fs.start p ++ p.parts) : fs.Straight p := by
  intro before after hparts
  rw [hparts] at h
  exact absurd (List.mem_append_right _ (List.mem_cons_self ..)) h

/-- One part that is neither idle nor `..` and that leads to a directory is its name or the name of a link. -/
theorem Resolves.last_directory {base location : List String} {part : String}
    {es : List (String × Node)} (h : fs.Resolves true base [part] location (.directory es))
    (hidle : ¬ IsIdle part) (hparent : part ≠ "..") :
    location = base ++ [part] ∨
      ∃ target, fs.Resolves false base [part] (base ++ [part]) (.link target) := by
  cases h with
  | idle h => exact absurd h hidle
  | up h => exact absurd h hparent
  | step _ _ _ _ hrest =>
    cases hrest with
    | here _ => exact .inl rfl
  | @link _ _ _ _ target _ hs hnext => exact .inr ⟨target, .named rfl hs hnext⟩

/-- One part `..` leads to the directory above. -/
theorem Resolves.last_parent {base location : List String} {node : Node}
    (h : fs.Resolves true base [".."] location node) :
    location = base.dropLast ∧ fs.node? base.dropLast = some node := by
  cases h with
  | idle h => exact absurd rfl h.ne_parent
  | up _ hrest =>
    cases hrest with
    | here hnode => exact ⟨rfl, hnode⟩
  | step hs => exact absurd rfl hs.ne_parent
  | link hs => exact absurd rfl hs.ne_parent
  | named hfalse => cases hfalse

/-- The directory above one that parts lead to is what the parts without the last one lead to, unless
they name a link. -/
theorem resolves_dropLast {parts location : List String} {es : List (String × Node)}
    (h : fs.Resolves true [] parts location (.directory es)) (hidle : ∀ part ∈ parts, ¬ IsIdle part)
    (hparent : ".." ∉ parts) (hlink : ¬ fs.NamesLink parts) {node : Node}
    (hnode : fs.node? location.dropLast = some node) :
    fs.Resolves true [] parts.dropLast location.dropLast node := by
  rcases List.eq_nil_or_concat parts with rfl | ⟨before, last, rfl⟩
  · cases h with
    | here _ => exact .here hnode
  · rw [List.concat_eq_append] at h hidle hparent hlink ⊢
    rw [List.dropLast_concat]
    rw [List.mem_append, List.mem_singleton, not_or] at hparent
    obtain ⟨middle, above, hbefore, hlast⟩ := h.split isDirectoryAt_nil (List.cons_ne_nil _ _)
    rcases hlast.last_directory (hidle last (by simp)) (Ne.symm hparent.2) with rfl | ⟨target, hnamed⟩
    · rw [List.dropLast_concat] at hnode ⊢
      have habove := hbefore.node?_eq
      rw [hnode] at habove
      cases habove
      exact hbefore
    · exact absurd ⟨_, target, hbefore.append hnamed (fun h => absurd h (List.cons_ne_nil _ _))⟩ hlink

/-- **Straight parts lead to the same place without their `..`.** -/
theorem resolves_collapse {parts location : List String} {node : Node}
    (hstraight : fs.StraightParts parts) (hidle : ∀ part ∈ parts, ¬ IsIdle part)
    (h : fs.Resolves true [] parts location node) :
    fs.Resolves true [] (PathName.collapse parts) location node := by
  -- on the last part: those before it lead to a directory, from which it goes on
  induction parts using List.reverseRecOn generalizing location node with
  | nil => exact h
  | append_singleton parts last ih =>
    obtain ⟨middle, es, hparts, hlast⟩ := h.split isDirectoryAt_nil (List.cons_ne_nil _ _)
    have hidle' : ∀ part ∈ parts, ¬ IsIdle part := fun part hmem =>
      hidle part (List.mem_append_left _ hmem)
    have hmiddle := ih hstraight.of_append hidle' hparts
    by_cases hparent : last = ".."
    · subst hparent
      obtain ⟨rfl, hnode⟩ := hlast.last_parent
      rw [PathName.collapse_snoc_parent]
      refine resolves_dropLast hmiddle ?_ ?_ (hstraight parts [] rfl) hnode
      · exact fun part hmem => hidle' part (PathName.mem_collapse hmem).1
      · exact fun hmem => (PathName.mem_collapse hmem).2 rfl
    · rw [PathName.collapse_snoc parts hparent]
      exact hmiddle.append hlast (fun _ => rfl)

theorem isPart_of_mem_cwd {part : String} (h : part ∈ fs.cwd) : PathName.IsPart part := by
  obtain ⟨es, hes⟩ := fs.isDirectoryAt_cwd
  exact isPart_of_isEntryName ((Node.isEntryName_of_at? tree_sound hes).1 part h)

theorem not_isIdle_of_mem_start_append {p : PathName} {part : String}
    (h : part ∈ fs.start p ++ p.parts) : ¬ IsIdle part := by
  refine not_isIdle_of_isPart ?_
  rcases List.mem_append.1 h with hmem | hmem
  · rw [start] at hmem
    split at hmem
    · exact isPart_of_mem_cwd hmem
    · cases hmem
  · exact PathName.isPart_of_mem_parts p hmem

/-- A straight path leads where its text says. -/
theorem resolves_absoluteParts {p : PathName} (hstraight : fs.Straight p) {location : List String}
    {node : Node} (h : fs.locate (.ofPath p) = .ok (location, node)) :
    fs.Resolves true [] (PathName.absoluteParts fs.cwd p) location node := by
  have hstart : ∃ es, fs.Resolves true [] (fs.start p) (fs.start p) (.directory es) := by
    obtain ⟨es, hes⟩ := fs.isDirectoryAt_start p
    exact ⟨es, resolves_down true hes (fun _ => Node.noConfusion)⟩
  obtain ⟨es, hes⟩ := hstart
  rw [absoluteParts_eq]
  exact resolves_collapse hstraight (fun _ => not_isIdle_of_mem_start_append)
    (hes.append (resolves_of_locate h) (fun _ => rfl))

/-- **A straight path below a straight root** leads as far below what the root leads to as its text
says. -/
theorem locate_of_straight {root path : PathName}
    (hroot : fs.Straight root) (hpath : fs.Straight path) {top way location : List String}
    {es : List (String × Node)} {leaf node : Node}
    (htop : fs.locate (.ofPath root) = .ok (top, .directory es))
    (hlocation : fs.locate (.ofPath path) = .ok (location, node))
    (hway : PathName.absoluteParts fs.cwd path = PathName.absoluteParts fs.cwd root ++ way)
    (hleaf : fs.node? (top ++ way) = some leaf) (hlink : ∀ target, leaf ≠ .link target) :
    location = top ++ way ∧ node = leaf := by
  have hdown : fs.Resolves true [] (PathName.absoluteParts fs.cwd root ++ way) (top ++ way) leaf :=
    (resolves_absoluteParts hroot htop).append (resolves_down true hleaf hlink) (fun _ => rfl)
  have hthere := resolves_absoluteParts hpath hlocation
  rw [hway] at hthere
  exact hthere.unique hdown

/-! ### Where the text of a path leads -/

variable (fs) in
/-- The text of a path leads from a root to a location below it, whatever the files are. -/
def Denotes (root p : PathName) (location : List String) : Prop :=
  PathName.absoluteParts fs.cwd p = PathName.absoluteParts fs.cwd root ++ location

/-- A path has the key of a file below the root exactly if its text leads there. -/
theorem key_eq_iff_denotes {root : PathName} {top location : List String} {node : Node}
    (h : fs.node? (top ++ location) = some node) (path : PathName) :
    PathName.key fs.cwd root path = PathName.joinParts location ↔ fs.Denotes root path location :=
  PathName.key_eq_joinParts_iff (fun _ => isPart_of_mem_cwd) root path (isPart_of_node? h)
    (parent_not_mem_of_node? h)

/-- The text of a straight path below a straight root leads to where the path leads, if real
directories lead on from the root to what the text names. -/
theorem denotes_of_straight {root path : PathName}
    (hroot : fs.Straight root) (hpath : fs.Straight path) {top way location : List String}
    {es : List (String × Node)} {leaf node : Node}
    (htop : fs.locate (.ofPath root) = .ok (top, .directory es))
    (hlocation : fs.locate (.ofPath path) = .ok (top ++ location, node))
    (hway : fs.Denotes root path way) (hleaf : fs.node? (top ++ way) = some leaf)
    (hlink : ∀ target, leaf ≠ .link target) : fs.Denotes root path location := by
  obtain ⟨hplace, -⟩ := locate_of_straight hroot hpath htop hlocation hway hleaf hlink
  rw [List.append_cancel_left hplace]
  exact hway

end MigrationBench.FileSystem
