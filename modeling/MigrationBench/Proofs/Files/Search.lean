import MigrationBench.Proofs.Files.Resolution

/-!
# Directories that a path is looked up in

The resolution of a path fails for want of a right only at a directory in which one of its parts is
looked up. Which directories these are depends on the tree alone, not on what the process may do.

* `FileSystem.LooksIn` — parts are looked up in a directory.
* `FileSystem.denied_of_follow` — a resolution that is denied looks in a directory that may not be
  searched.
* `FileSystem.Searchable` — every directory that a path is looked up in may be searched.
* `FileSystem.Searchable.place_ne_denied` — such a path is not denied.
* `FileSystem.Obstructs` — a fault that stands in the way of a look-up.
-/

namespace MigrationBench.FileSystem

variable (fs : FileSystem)

/-- Some parts are looked up in a directory, from another one. An empty part is looked up nowhere, and
a link that the last part names is followed only if `final` is set. -/
inductive LooksIn (final : Bool) : List String → List String → List String → Prop where
  | here {base ahead : List String} {part : String} :
      part ≠ "" → LooksIn final base (part :: ahead) base
  | idle {base ahead dir : List String} {part : String} :
      IsIdle part → LooksIn final base ahead dir → LooksIn final base (part :: ahead) dir
  | up {base ahead dir : List String} {part : String} :
      part = ".." → LooksIn final base.dropLast ahead dir → LooksIn final base (part :: ahead) dir
  | step {base ahead dir : List String} {part : String} {es : List (String × Node)} :
      IsStep part → fs.node? (base ++ [part]) = some (.directory es) →
      LooksIn final (base ++ [part]) ahead dir → LooksIn final base (part :: ahead) dir
  | link {base ahead dir : List String} {part target : String} :
      IsStep part → fs.node? (base ++ [part]) = some (.link target) → (ahead = [] → final = true) →
      LooksIn final (if (Route.ofText target).isAbsolute then [] else base)
        ((Route.ofText target).parts ++ ahead) dir →
      LooksIn final base (part :: ahead) dir

variable {fs}

/-- What the parts ahead are looked up in, all parts of a way are looked up in. -/
theorem Advances.looksIn {base parts above ahead : List String}
    (h : fs.Advances base parts above ahead) {final : Bool} {dir : List String}
    (hdir : fs.LooksIn final above ahead dir) : fs.LooksIn final base parts dir := by
  induction h with
  | here => exact hdir
  | idle hidle _ _ ih => exact .idle hidle (ih hdir)
  | up _ _ ih => exact .up rfl (ih hdir)
  | step hs _ hnext _ ih => exact .step hs hnext (ih hdir)

/-- A way along real directories is denied at a directory that it looks in. -/
theorem denied_of_advance (final : Bool) {base parts : List String}
    (h : fs.advance base parts = .fault .denied) :
    ∃ dir, fs.LooksIn final base parts dir ∧ fs.maySearch dir = false := by
  obtain ⟨dir, ahead, hway, hstop⟩ := advance_eq_iff.1 h
  cases hstop with
  | closed hempty hsearch => exact ⟨dir, hway.looksIn (.here hempty), hsearch⟩

/-- **A resolution that is denied** looks in a directory that may not be searched. -/
theorem denied_of_follow {final : Bool} {links : Nat} {base parts : List String}
    (h : fs.follow final links base parts = .error .denied) :
    ∃ dir, fs.LooksIn final base parts dir ∧ fs.maySearch dir = false := by
  fun_induction follow fs final links base parts with
  | case1 links base parts p hp => cases h
  | case2 links base parts cause hcause =>
    cases h
    exact denied_of_advance final hcause
  | case3 links base parts above name target rest hlink hlast => cases h
  | case4 base parts above name target rest hlink hlast => cases h
  | case5 base parts above name target rest hlink hlast links route ih =>
    obtain ⟨dir, hlooks, hdir⟩ := ih h
    obtain ⟨hway, hs, -, hnode⟩ := link_of_advance hlink
    refine ⟨dir, hway.looksIn (.link hs hnode ?_ hlooks), hdir⟩
    rintro rfl
    simpa using hlast

/-- Every directory that a path is looked up in may be searched. A relative path starts in the current
directory, also if it has no parts. -/
structure Searchable (fs : FileSystem) (final : Bool) (p : PathName) : Prop where
  cwd : p.root = .relative → fs.maySearch fs.cwd = true
  directories : ∀ dir, fs.LooksIn final (fs.start p) p.parts dir → fs.maySearch dir = true

/-- **A path is not denied** if every directory that it is looked up in may be searched. -/
theorem Searchable.place_ne_denied {final : Bool} {p : PathName} (h : fs.Searchable final p) :
    fs.place final (.ofPath p) ≠ .error .denied := by
  intro hdenied
  by_cases hadmits : fs.Admits p
  · rw [hadmits.place_eq] at hdenied
    obtain ⟨dir, hlooks, hdir⟩ := denied_of_follow hdenied
    rw [h.directories dir hlooks] at hdir
    cases hdir
  · obtain ⟨cause, hcause, hflaw⟩ := place_of_not_admits final hadmits
    rw [hdenied] at hcause
    cases hcause
    rcases hflaw with ⟨hflaw, -⟩ | ⟨hflaw, -⟩ | ⟨-, hroot, hcwd⟩
    · cases hflaw
    · cases hflaw
    · rw [h.cwd hroot] at hcwd
      cases hcwd

/-- A process that lacks no right to search can look up every path. -/
theorem searchable_of_maySearch (h : ∀ dir, fs.maySearch dir = true) (final : Bool) (p : PathName) :
    fs.Searchable final p where
  cwd := fun _ => h _
  directories := fun dir _ => h dir

/-- What stands in the way of a look-up: a name or a path text that is too long, or a directory that may
not be searched. -/
def Obstructs (fs : FileSystem) (cause : FileFault) : Prop :=
  cause = .nameTooLong ∨ cause = .denied ∧ ∃ dir, fs.maySearch dir = false

/-- A fault of a place that leaves open what is there stands in the way. -/
theorem obstructs_of_place {final : Bool} {p : PathName} {cause : FileFault}
    (h : fs.place final (.ofPath p) = .error cause) (hopen : cause.leavesOpen = true) :
    fs.Obstructs cause := by
  cases cause with
  | nameTooLong => exact .inl rfl
  | denied =>
    refine .inr ⟨rfl, ?_⟩
    by_contra hnone
    have hall : ∀ dir, fs.maySearch dir = true := fun dir =>
      Bool.of_not_eq_false fun hdir => hnone ⟨dir, hdir⟩
    exact (searchable_of_maySearch hall final p).place_ne_denied h
  | _ => cases hopen

end MigrationBench.FileSystem
