import MigrationBench.Files.Query
import MigrationBench.Proofs.Files.Leaves
import MigrationBench.Proofs.Files.Way
import MigrationBench.Proofs.Path.Lexical

/-!
# Resolution as a relation

What a path leads to, without counting links and whatever the process may do: part by part, with `..`
applied to the directory reached and every link replaced by its target.

* `FileSystem.Resolves` — the relation; `Resolves.unique`, `Resolves.append`, `Resolves.split`.
* `FileSystem.resolves_of_follow`, `FileSystem.resolves_of_locate` — the resolution computes it.
* `FileSystem.Admits` — a path text that can be looked up at all; `FileSystem.locate_eq_ok_iff`.
* `FileSystem.Passable` — the directories on a way may be searched.
* `FileSystem.locate_below` — below a directory that a path leads to, real directories lead on.
-/

namespace MigrationBench.FileSystem

variable (fs : FileSystem)

/-- What some parts lead to from a directory. A link that the last part names is followed only if
`final` is set. -/
inductive Resolves (final : Bool) :
    List String → List String → List String → Node → Prop where
  | here {base : List String} {node : Node} : fs.node? base = some node → Resolves final base [] base node
  | idle {base ahead location : List String} {part : String} {node : Node} :
      IsIdle part → Resolves final base ahead location node →
      Resolves final base (part :: ahead) location node
  | up {base ahead location : List String} {part : String} {node : Node} :
      part = ".." → Resolves final base.dropLast ahead location node →
      Resolves final base (part :: ahead) location node
  | step {base ahead location : List String} {part : String} {next node : Node} :
      IsStep part → fs.node? (base ++ [part]) = some next → (∀ target, next ≠ .link target) →
      (ahead ≠ [] → next.isDirectory = true) →
      Resolves final (base ++ [part]) ahead location node →
      Resolves final base (part :: ahead) location node
  | link {base ahead location : List String} {part target : String} {node : Node} :
      IsStep part → fs.node? (base ++ [part]) = some (.link target) → (ahead = [] → final = true) →
      Resolves final (if (Route.ofText target).isAbsolute then [] else base)
        ((Route.ofText target).parts ++ ahead) location node →
      Resolves final base (part :: ahead) location node
  | named {base : List String} {part target : String} :
      final = false → IsStep part → fs.node? (base ++ [part]) = some (.link target) →
      Resolves final base [part] (base ++ [part]) (.link target)

variable {fs}

theorem isStep_of_isEntryName {name : String} (h : Node.isEntryName name = true) : IsStep name := by
  simp only [Node.isEntryName, Bool.and_eq_true, bne_iff_ne, ne_eq, Bool.not_eq_true'] at h
  obtain ⟨⟨⟨hpart, hparent⟩, -⟩, hshort⟩ := h
  refine ⟨?_, ?_, hparent, hshort⟩
  · rintro rfl
    exact absurd hpart (by decide)
  · rintro rfl
    exact absurd hpart (by decide)

/-- No part of a path name is idle. -/
theorem not_isIdle_of_isPart {part : String} (h : PathName.IsPart part) : ¬ IsIdle part := by
  rintro (rfl | rfl)
  · exact absurd h (by decide)
  · exact h.ne_point rfl

namespace Resolves

/-- What parts lead to is there. -/
theorem node?_eq {final : Bool} {base parts location : List String} {node : Node}
    (h : fs.Resolves final base parts location node) : fs.node? location = some node := by
  induction h with
  | here h => exact h
  | idle _ _ ih => exact ih
  | up _ _ ih => exact ih
  | step _ _ _ _ _ ih => exact ih
  | link _ _ _ _ ih => exact ih
  | named _ _ h => exact h

/-- Parts lead to one place. -/
theorem unique {final : Bool} {base parts location location' : List String} {node node' : Node}
    (h : fs.Resolves final base parts location node)
    (h' : fs.Resolves final base parts location' node') : location = location' ∧ node = node' := by
  induction h with
  | here hnode =>
    cases h' with
    | here hnode' =>
      rw [hnode] at hnode'
      cases hnode'
      exact ⟨rfl, rfl⟩
  | idle hidle _ ih =>
    cases h' with
    | idle _ h' => exact ih h'
    | up hparent => exact absurd hparent hidle.ne_parent
    | step hs => exact absurd hidle hs.not_isIdle
    | link hs => exact absurd hidle hs.not_isIdle
    | named _ hs => exact absurd hidle hs.not_isIdle
  | up hparent _ ih =>
    cases h' with
    | idle hidle => exact absurd hparent hidle.ne_parent
    | up _ h' => exact ih h'
    | step hs => exact absurd hparent hs.ne_parent
    | link hs => exact absurd hparent hs.ne_parent
    | named _ hs => exact absurd hparent hs.ne_parent
  | step hs hnext hlink _ _ ih =>
    cases h' with
    | idle hidle => exact absurd hidle hs.not_isIdle
    | up hparent => exact absurd hparent hs.ne_parent
    | step _ _ _ _ h' => exact ih h'
    | link _ hnext' =>
      rw [hnext] at hnext'
      exact absurd (Option.some.inj hnext') (hlink _)
    | named _ _ hnext' =>
      rw [hnext] at hnext'
      exact absurd (Option.some.inj hnext') (hlink _)
  | link hs hnext hfinal _ ih =>
    cases h' with
    | idle hidle => exact absurd hidle hs.not_isIdle
    | up hparent => exact absurd hparent hs.ne_parent
    | step _ hnext' hlink' =>
      rw [hnext] at hnext'
      exact absurd (Option.some.inj hnext').symm (hlink' _)
    | link _ hnext' _ h' =>
      rw [hnext] at hnext'
      cases hnext'
      exact ih h'
    | named hfalse =>
      rw [hfinal rfl] at hfalse
      cases hfalse
  | named hfalse hs hnext =>
    cases h' with
    | idle hidle => exact absurd hidle hs.not_isIdle
    | up hparent => exact absurd hparent hs.ne_parent
    | step _ hnext' hlink' =>
      rw [hnext] at hnext'
      exact absurd (Option.some.inj hnext').symm (hlink' _)
    | link _ _ hfinal =>
      rw [hfinal rfl] at hfalse
      cases hfalse
    | named _ _ hnext' =>
      rw [hnext] at hnext'
      cases hnext'
      exact ⟨rfl, rfl⟩

/-- Parts that lead to a directory can be followed by others. -/
theorem append {final : Bool} {base parts location rest location' : List String}
    {es : List (String × Node)} {node : Node}
    (h : fs.Resolves true base parts location (.directory es))
    (h' : fs.Resolves final location rest location' node) (hfinal : rest = [] → final = true) :
    fs.Resolves final base (parts ++ rest) location' node := by
  generalize hd : Node.directory es = d at h
  induction h with
  | here _ => exact h'
  | idle hidle _ ih => exact .idle hidle (ih h' hd)
  | up hparent _ ih => exact .up hparent (ih h' hd)
  | @step base ahead location part next node' hs hnext hlink hdir hrest ih =>
    refine .step hs hnext hlink ?_ (ih h' hd)
    intro hne
    by_cases hahead : ahead = []
    · subst hahead
      -- the part is the last one, so it is the directory
      have hlast := hrest.node?_eq
      cases hrest with
      | here _ =>
        rw [hnext] at hlast
        rw [Option.some.inj hlast, ← hd]
        rfl
    · exact hdir hahead
  | link hs hnext _ _ ih =>
    refine .link hs hnext ?_ ?_
    · intro hnil
      exact hfinal (List.append_eq_nil_iff.1 hnil).2
    · have hgo := ih h' hd
      rw [List.append_assoc] at hgo
      exact hgo
  | named hfalse => cases hfalse

end Resolves

/-! ### Names on the way to a node -/

theorem tree_sound : fs.tree.sound = true := fs.top_sound

theorem isPart_of_isEntryName {name : String} (h : Node.isEntryName name = true) :
    PathName.IsPart name := by
  simp only [Node.isEntryName, Bool.and_eq_true] at h
  exact h.1.1.1

theorem isEntryName_of_node? {top way : List String} {node : Node}
    (h : fs.node? (top ++ way) = some node) : ∀ name ∈ way, Node.isEntryName name = true :=
  fun name hname => (Node.isEntryName_of_at? tree_sound h).1 name (List.mem_append_right _ hname)

theorem isPart_of_node? {top way : List String} {node : Node}
    (h : fs.node? (top ++ way) = some node) : ∀ name ∈ way, PathName.IsPart name :=
  fun name hname => isPart_of_isEntryName (isEntryName_of_node? h name hname)

theorem parent_not_mem_of_node? {top way : List String} {node : Node}
    (h : fs.node? (top ++ way) = some node) : ".." ∉ way := by
  intro hparent
  exact (isStep_of_isEntryName (isEntryName_of_node? h _ hparent)).ne_parent rfl

/-! ### Directories -/

/-- A location is that of a directory. -/
def IsDirectoryAt (fs : FileSystem) (location : List String) : Prop :=
  ∃ es, fs.node? location = some (.directory es)

theorem isDirectoryAt_nil : fs.IsDirectoryAt [] := ⟨fs.top, rfl⟩

/-- What is above a node is a directory. -/
theorem IsDirectoryAt.of_snoc {location : List String} {name : String} {node : Node}
    (h : fs.node? (location ++ [name]) = some node) : fs.IsDirectoryAt location := by
  obtain ⟨es, hes, -⟩ := Node.at?_dropLast h
  exact ⟨es, hes⟩

/-- What has something other than itself below it is a directory. -/
theorem IsDirectoryAt.of_append {location way : List String} {node : Node}
    (h : fs.node? (location ++ way) = some node) (hway : way ≠ []) : fs.IsDirectoryAt location := by
  induction way using List.reverseRecOn generalizing node with
  | nil => exact absurd rfl hway
  | append_singleton way name ih =>
    rw [← List.append_assoc] at h
    obtain ⟨es, hes⟩ := IsDirectoryAt.of_snoc h
    by_cases hnil : way = []
    · rw [hnil, List.append_nil] at hes
      exact ⟨es, hes⟩
    · exact ih hes hnil

theorem IsDirectoryAt.dropLast {location : List String} (h : fs.IsDirectoryAt location) :
    fs.IsDirectoryAt location.dropLast := by
  rcases List.eq_nil_or_concat location with rfl | ⟨above, name, rfl⟩
  · exact h
  · obtain ⟨es, hes⟩ := h
    rw [List.concat_eq_append] at hes ⊢
    rw [List.dropLast_concat]
    exact .of_snoc hes

/-- A way leads from a directory to directories only. -/
theorem Advances.isDirectoryAt {base parts dir ahead : List String}
    (h : fs.Advances base parts dir ahead) (hbase : fs.IsDirectoryAt base) :
    fs.IsDirectoryAt dir := by
  induction h with
  | here => exact hbase
  | idle _ _ _ ih => exact ih hbase
  | up _ _ ih => exact ih hbase.dropLast
  | step _ _ hnext _ ih => exact ih ⟨_, hnext⟩

/-- Parts with others after them lead to a directory, from which the others go on. -/
theorem Resolves.split {final : Bool} {base parts rest location : List String} {node : Node}
    (hbase : fs.IsDirectoryAt base) (h : fs.Resolves final base (parts ++ rest) location node)
    (hrest : rest ≠ []) :
    ∃ middle es, fs.Resolves true base parts middle (.directory es) ∧
      fs.Resolves final middle rest location node := by
  generalize hall : parts ++ rest = all at h
  induction h generalizing parts with
  | here _ => exact absurd (List.append_eq_nil_iff.1 hall).2 hrest
  | @idle base ahead location part node hidle h ih =>
    cases parts with
    | nil =>
      obtain ⟨es, hes⟩ := hbase
      refine ⟨base, es, .here hes, ?_⟩
      rw [show rest = part :: ahead from hall]
      exact .idle hidle h
    | cons first parts =>
      cases hall
      obtain ⟨middle, es, hfirst, hthen⟩ := ih hbase rfl
      exact ⟨middle, es, .idle hidle hfirst, hthen⟩
  | @up base ahead location part node hparent h ih =>
    cases parts with
    | nil =>
      obtain ⟨es, hes⟩ := hbase
      refine ⟨base, es, .here hes, ?_⟩
      rw [show rest = part :: ahead from hall]
      exact .up hparent h
    | cons first parts =>
      cases hall
      obtain ⟨middle, es, hfirst, hthen⟩ := ih hbase.dropLast rfl
      exact ⟨middle, es, .up hparent hfirst, hthen⟩
  | @step base ahead location part next node hs hnext hlink hdir h ih =>
    cases parts with
    | nil =>
      obtain ⟨es, hes⟩ := hbase
      refine ⟨base, es, .here hes, ?_⟩
      rw [show rest = part :: ahead from hall]
      exact .step hs hnext hlink hdir h
    | cons first parts =>
      cases hall
      have hnextDir : next.isDirectory = true := hdir (by simp [hrest])
      obtain ⟨below, rfl⟩ := isDirectory_iff.1 hnextDir
      obtain ⟨middle, es, hfirst, hthen⟩ := ih ⟨below, hnext⟩ rfl
      exact ⟨middle, es, .step hs hnext hlink (fun _ => rfl) hfirst, hthen⟩
  | @link base ahead location part target node hs hnext hfinal h ih =>
    cases parts with
    | nil =>
      obtain ⟨es, hes⟩ := hbase
      refine ⟨base, es, .here hes, ?_⟩
      rw [show rest = part :: ahead from hall]
      exact .link hs hnext hfinal h
    | cons first parts =>
      cases hall
      have htarget : fs.IsDirectoryAt (if (Route.ofText target).isAbsolute then [] else base) := by
        split
        · exact isDirectoryAt_nil
        · exact hbase
      obtain ⟨middle, es, hfirst, hthen⟩ := ih htarget (List.append_assoc ..)
      exact ⟨middle, es, .link hs hnext (fun _ => rfl) hfirst, hthen⟩
  | @named base part target hfalse hs hnext =>
    cases parts with
    | nil =>
      obtain ⟨es, hes⟩ := hbase
      refine ⟨base, es, .here hes, ?_⟩
      rw [show rest = [part] from hall]
      exact .named hfalse hs hnext
    | cons first parts =>
      exact absurd (List.append_eq_nil_iff.1 (List.cons.inj hall).2).2 hrest

theorem isDirectoryAt_cwd (fs : FileSystem) : fs.IsDirectoryAt fs.cwd := by
  obtain ⟨node, hnode, hdir⟩ := (Option.any_eq_true ..).1 fs.cwd_there
  obtain ⟨es, rfl⟩ := isDirectory_iff.1 hdir
  exact ⟨es, hnode⟩

/-! ### The resolution computes the relation -/

/-- What the parts ahead lead to, all parts of a way lead to. -/
theorem Advances.resolves {base parts dir ahead : List String}
    (h : fs.Advances base parts dir ahead) {final : Bool} {location : List String} {node : Node}
    (hahead : fs.Resolves final dir ahead location node) :
    fs.Resolves final base parts location node := by
  induction h with
  | here => exact hahead
  | idle hidle _ _ ih => exact .idle hidle (ih hahead)
  | up _ _ ih => exact .up rfl (ih hahead)
  | step hs _ hnext _ ih =>
    exact .step hs hnext (fun _ => Node.noConfusion) (fun _ => rfl) (ih hahead)

/-- The way along real directories to a place. -/
theorem resolves_of_advance (final : Bool) {base parts location : List String} {node : Node}
    (h : fs.advance base parts = .place ⟨location, some node⟩) :
    fs.Resolves final base parts location node := by
  rcases place_of_advance h with ⟨hway, hnode⟩ | ⟨dir, part, rfl, hway, hs, -, hnode, -, hlink⟩
  · exact hway.resolves (.here hnode)
  · exact hway.resolves (.step hs hnode hlink (absurd rfl) (.here hnode))

/-- The way through links to a place. -/
theorem resolves_of_follow {final : Bool} {links : Nat} {base parts location : List String}
    {node : Node} (h : fs.follow final links base parts = .ok ⟨location, some node⟩) :
    fs.Resolves final base parts location node := by
  fun_induction follow fs final links base parts with
  | case1 links base parts p hp =>
    cases h
    exact resolves_of_advance final hp
  | case2 links base parts cause hcause => cases h
  | case3 links base parts above name target rest hlink hlast =>
    cases h
    obtain ⟨hway, hs, -, hnode⟩ := link_of_advance hlink
    rw [Bool.and_eq_true, Bool.not_eq_true', decide_eq_true_eq] at hlast
    obtain ⟨rfl, hfinal⟩ := hlast
    exact hway.resolves (.named hfinal hs hnode)
  | case4 base parts above name target rest hlink hlast => cases h
  | case5 base parts above name target rest hlink hlast links route ih =>
    obtain ⟨hway, hs, -, hnode⟩ := link_of_advance hlink
    refine hway.resolves (.link hs hnode ?_ (ih h))
    rintro rfl
    simpa using hlast

/-! ### Paths that can be looked up -/

/-- The directory from which the parts of a path are resolved. -/
def start (fs : FileSystem) (p : PathName) : List String :=
  match p.root with
  | .relative => fs.cwd
  | _ => []

theorem absoluteParts_eq (p : PathName) :
    PathName.absoluteParts fs.cwd p = PathName.collapse (fs.start p ++ p.parts) := by
  rw [PathName.absoluteParts, start]
  cases p.root <;> rfl

theorem start_eq (p : PathName) :
    (if (Route.ofPath p).isAbsolute then [] else fs.cwd) = fs.start p := by
  rw [start, Route.ofPath]
  cases p.root <;> rfl

theorem isDirectoryAt_start (fs : FileSystem) (p : PathName) : fs.IsDirectoryAt (fs.start p) := by
  rw [start]
  split
  · exact fs.isDirectoryAt_cwd
  · exact isDirectoryAt_nil

/-- The text of a path can be looked up: it holds no NUL and is not too long, and if it is relative,
the current directory may be searched. -/
structure Admits (fs : FileSystem) (p : PathName) : Prop where
  noNul : p.hasNul = false
  size : p.render.utf8ByteSize < Route.sizeLimit
  cwd : p.root = .relative → fs.maySearch fs.cwd = true

/-- A path that cannot be looked up has no place, and its first flaw is told. -/
theorem place_of_not_admits (final : Bool) {p : PathName} (h : ¬ fs.Admits p) :
    ∃ cause, fs.place final (.ofPath p) = .error cause ∧
      (cause = .badName ∧ p.hasNul = true ∨
        cause = .nameTooLong ∧ Route.sizeLimit ≤ p.render.utf8ByteSize ∨
        cause = .denied ∧ p.root = .relative ∧ fs.maySearch fs.cwd = false) := by
  rw [FileSystem.place, show (Route.ofPath p).hasNul = p.hasNul from rfl,
    show (Route.ofPath p).size = p.render.utf8ByteSize from rfl,
    show (Route.ofPath p).isAbsolute = (p.root != .relative) from rfl]
  split
  · rename_i hnul
    exact ⟨_, rfl, .inl ⟨rfl, hnul⟩⟩
  · rename_i hnul
    split
    · rename_i hsize
      exact ⟨_, rfl, .inr (.inl ⟨rfl, hsize⟩)⟩
    · rename_i hsize
      split
      · rename_i hcwd
        simp only [Bool.and_eq_true, Bool.not_eq_true', bne_eq_false_iff_eq] at hcwd
        exact ⟨_, rfl, .inr (.inr ⟨rfl, hcwd⟩)⟩
      · rename_i hcwd
        refine absurd ⟨by simpa using hnul, Nat.not_le.1 hsize, fun hroot => ?_⟩ h
        simpa [hroot] using hcwd

/-- A path that can be looked up has the place that its parts lead to. -/
theorem Admits.place_eq {p : PathName} (h : fs.Admits p) (final : Bool) :
    fs.place final (.ofPath p) = fs.follow final maxLinks (fs.start p) p.parts := by
  have hcwd : (!(Route.ofPath p).isAbsolute && !fs.maySearch fs.cwd) = false := by
    rw [show (Route.ofPath p).isAbsolute = (p.root != .relative) from rfl]
    cases hroot : p.root with
    | relative => simp [h.cwd hroot]
    | single => rfl
    | double => rfl
  rw [FileSystem.place, start_eq, show (Route.ofPath p).hasNul = false from h.noNul, hcwd,
    show (Route.ofPath p).size = p.render.utf8ByteSize from rfl, if_neg Bool.false_ne_true,
    if_neg (Nat.not_le.2 h.size), if_neg Bool.false_ne_true]
  rfl

/-- A path has a place if it can be looked up and its parts have one. -/
theorem place_eq_ok_iff (final : Bool) (p : PathName) (place : Place) :
    fs.place final (.ofPath p) = .ok place ↔
      fs.Admits p ∧ fs.follow final maxLinks (fs.start p) p.parts = .ok place := by
  by_cases h : fs.Admits p
  · rw [h.place_eq, and_iff_right h]
  · obtain ⟨cause, hcause, -⟩ := place_of_not_admits final h
    rw [hcause]
    exact iff_of_false (fun herror => by cases herror) fun hadmits => h hadmits.1

theorem present_eq_ok_iff (place : Place) (location : List String) (node : Node) :
    present place = .ok (location, node) ↔ place = ⟨location, some node⟩ := by
  obtain ⟨l, n⟩ := place
  cases n <;> simp [present]

theorem locate_eq_ok_iff (p : PathName) (location : List String) (node : Node) :
    fs.locate (.ofPath p) = .ok (location, node) ↔
      fs.Admits p ∧ fs.follow true maxLinks (fs.start p) p.parts = .ok ⟨location, some node⟩ := by
  rw [← place_eq_ok_iff, locate]
  cases fs.place true (.ofPath p) with
  | error cause => simp [bind, Except.bind]
  | ok place => simp [bind, Except.bind, present_eq_ok_iff]

theorem locateEntry_eq_ok_iff (p : PathName) (location : List String) (node : Node) :
    fs.locateEntry (.ofPath p) = .ok (location, node) ↔
      fs.Admits p ∧ fs.follow false maxLinks (fs.start p) p.parts = .ok ⟨location, some node⟩ := by
  rw [← place_eq_ok_iff, locateEntry]
  cases fs.place false (.ofPath p) with
  | error cause => simp [bind, Except.bind]
  | ok place => simp [bind, Except.bind, present_eq_ok_iff]

/-- **What a path leads to**, read off its parts. -/
theorem resolves_of_locate {p : PathName} {location : List String} {node : Node}
    (h : fs.locate (.ofPath p) = .ok (location, node)) :
    fs.Resolves true (fs.start p) p.parts location node :=
  resolves_of_follow ((locate_eq_ok_iff p location node).1 h).2

/-! ### Below a directory that a path leads to -/

/-- A way that meets no link needs none. -/
theorem follow_of_advance {final : Bool} {links : Nat} {base parts : List String} {place : Place}
    (h : fs.advance base parts = .place place) : fs.follow final links base parts = .ok place := by
  cases links with
  | zero => rw [follow, h]
  | succ links => rw [follow, h]

/-- From a directory that parts lead to, others go on without counting more links than they meet. -/
theorem follow_append {links : Nat} {base parts location rest : List String}
    {es : List (String × Node)} {place : Place}
    (h : fs.follow true links base parts = .ok ⟨location, some (.directory es)⟩)
    (hrest : fs.advance location rest = .place place) :
    fs.follow true links base (parts ++ rest) = .ok place := by
  induction links generalizing base parts with
  | zero =>
    rw [follow] at h ⊢
    cases hstop : fs.advance base parts with
    | place p =>
      rw [hstop] at h
      cases h
      rw [advance_append hstop, hrest]
    | fault cause =>
      rw [hstop] at h
      cases h
    | link above name target ahead =>
      rw [hstop] at h
      simp at h
  | succ links ih =>
    rw [follow] at h ⊢
    cases hstop : fs.advance base parts with
    | place p =>
      rw [hstop] at h
      cases h
      rw [advance_append hstop, hrest]
    | fault cause =>
      rw [hstop] at h
      cases h
    | link above name target ahead =>
      rw [hstop] at h
      rw [advance_link_append hstop]
      simp only [Bool.not_true, Bool.and_false, Bool.false_eq_true, if_false] at h ⊢
      rw [← List.append_assoc]
      exact ih h

/-- Every directory on the way along some names may be searched. -/
def Passable (fs : FileSystem) (location way : List String) : Prop :=
  ∀ front name back, way = front ++ name :: back → fs.maySearch (location ++ front) = true

theorem Passable.head {location way : List String} {name : String}
    (h : fs.Passable location (name :: way)) : fs.maySearch location = true := by
  simpa using h [] name way rfl

theorem Passable.tail {location way : List String} {name : String}
    (h : fs.Passable location (name :: way)) : fs.Passable (location ++ [name]) way := by
  rintro front next back rfl
  simpa using h (name :: front) next back rfl

/-- Names of real directories lead on. -/
theorem resolves_down (final : Bool) {location way : List String} {node : Node}
    (h : fs.node? (location ++ way) = some node) (hlink : ∀ target, node ≠ .link target) :
    fs.Resolves final location way (location ++ way) node := by
  induction way generalizing location with
  | nil =>
    rw [List.append_nil] at h ⊢
    exact .here h
  | cons name way ih =>
    have hname : IsStep name :=
      isStep_of_isEntryName (isEntryName_of_node? h name (List.mem_cons_self ..))
    rw [List.append_cons] at h ⊢
    by_cases hnil : way = []
    · subst hnil
      rw [List.append_nil] at h ⊢
      exact .step hname h hlink (absurd rfl) (.here h)
    · obtain ⟨es, hes⟩ := IsDirectoryAt.of_append h hnil
      exact .step hname hes (fun _ => Node.noConfusion) (fun _ => rfl) (ih h)

/-- They lead there on the way along directories that may be searched. -/
theorem advance_down {location way : List String} {node : Node}
    (h : fs.node? (location ++ way) = some node) (hlink : ∀ target, node ≠ .link target)
    (hsearch : fs.Passable location way) :
    fs.advance location way = .place ⟨location ++ way, some node⟩ := by
  induction way generalizing location with
  | nil =>
    rw [List.append_nil] at h ⊢
    rw [advance_nil, h]
  | cons name way ih =>
    have hname : IsStep name :=
      isStep_of_isEntryName (isEntryName_of_node? h name (List.mem_cons_self ..))
    rw [List.append_cons] at h ⊢
    by_cases hdir : fs.IsDirectoryAt (location ++ [name])
    · obtain ⟨es, hes⟩ := hdir
      rw [advance_directory hname hsearch.head hes]
      exact ih h hsearch.tail
    · -- nothing is below a node that is no directory, so the name is the last one
      have hnil : way = [] := by
        by_contra hway
        exact hdir (.of_append h hway)
      subst hnil
      rw [List.append_nil] at h ⊢
      have hnode : node.isDirectory = false := by
        rw [Bool.eq_false_iff, ne_eq, isDirectory_iff]
        rintro ⟨es, rfl⟩
        exact hdir ⟨es, h⟩
      rw [advance_at_end hname hsearch.head h hnode hlink, if_pos rfl]

/-- **Below a directory that a path leads to**, the names of real directories lead on, as long as
the text is not too long and the directories may be searched. -/
theorem locate_below {root : PathName} {location way : List String} {es : List (String × Node)}
    {node : Node} (hroot : fs.locate (.ofPath root) = .ok (location, .directory es))
    (hnode : fs.node? (location ++ way) = some node) (hlink : ∀ target, node ≠ .link target)
    (hsearch : fs.Passable location way)
    (hsize : (root.below (PathName.joinParts way)).render.utf8ByteSize < Route.sizeLimit) :
    fs.locate (.ofPath (root.below (PathName.joinParts way))) = .ok (location ++ way, node) := by
  obtain ⟨hadmits, hfollow⟩ := (locate_eq_ok_iff ..).1 hroot
  have hparts := isPart_of_node? hnode
  have hbelow := PathName.below_joinParts_root root hparts
  have hstart : fs.start (root.below (PathName.joinParts way)) = fs.start root := by
    rw [start, start, hbelow]
  rw [locate_eq_ok_iff, hstart, PathName.below_joinParts_parts root hparts]
  refine ⟨⟨?_, hsize, fun hrelative => hadmits.cwd (hbelow ▸ hrelative)⟩,
    follow_append hfollow (advance_down hnode hlink hsearch)⟩
  rw [PathName.hasNul, PathName.below_joinParts_parts root hparts, List.any_append,
    show (root.parts.any fun part => part.toList.contains '\x00') = false from hadmits.noNul,
    Bool.false_or, List.any_eq_false]
  intro name hname
  have hentry := isEntryName_of_node? hnode name hname
  simp only [Node.isEntryName, Bool.and_eq_true, Bool.not_eq_true'] at hentry
  rw [hentry.1.2]
  exact Bool.false_ne_true

end MigrationBench.FileSystem
