import MigrationBench.Proofs.Files.Search

/-!
# Answers about files

What the questions about files answer, and that they do where no name and no path text is too long and
the directories on the way may be searched.

* `FileSystem.IsThere`, `FileSystem.bytesAt?`, `FileSystem.linkAt?`, `FileSystem.SameFile` — what a
  path leads to or names.
* `PathName.InLimits`, `FileSystem.ShortLinks` — no name and no path text is too long.
* `FileSystem.InReach` — a path can be looked up to its end.
* `FileSystem.exists?_eq_ok`, `FileSystem.linkTarget?_eq_ok`, `FileSystem.sameFile_eq_ok` — no
  question stays open then.
* `FileSystem.exists?_eq_decide`, `FileSystem.linkTarget?_eq_linkAt?` — every answer is right.
* `FileSystem.obstructs_of_exists?`, `FileSystem.obstructs_of_linkTarget?` — only what is too long or may
  not be searched leaves a question open.
-/

namespace MigrationBench

/-- A path text is not too long, and directories can hold the names in it. -/
structure PathName.InLimits (p : PathName) : Prop where
  names : ∀ part ∈ p.parts, Node.isLongName part = false
  size : p.render.utf8ByteSize < Route.sizeLimit

instance : DecidablePred PathName.InLimits := fun p =>
  decidable_of_iff ((∀ part ∈ p.parts, Node.isLongName part = false) ∧
    p.render.utf8ByteSize < Route.sizeLimit) ⟨fun h => ⟨h.1, h.2⟩, fun h => ⟨h.names, h.size⟩⟩

namespace FileSystem

variable (fs : FileSystem)

/-- A path leads to something. -/
def IsThere (p : PathName) : Prop :=
  ∃ location node, fs.locate (.ofPath p) = .ok (location, node)

theorem isThere_iff_isOk (p : PathName) :
    (fs.locate (.ofPath p)).isOk = true ↔ fs.IsThere p := by
  rw [IsThere]
  cases fs.locate (.ofPath p) with
  | ok found =>
    obtain ⟨location, node⟩ := found
    exact ⟨fun _ => ⟨location, node, rfl⟩, fun _ => rfl⟩
  | error cause =>
    constructor
    · intro h
      cases h
    · intro h'
      obtain ⟨location, node, h⟩ := h'
      cases h

instance (p : PathName) : Decidable (fs.IsThere p) :=
  decidable_of_iff _ (fs.isThere_iff_isOk p)

/-- The bytes of the regular file that a path leads to, if it may be read. -/
def bytesAt? (p : PathName) : Option (List UInt8) :=
  match fs.locate (.ofPath p) with
  | .ok (_, .file serial) => if fs.allows .read (.serial serial) then some (fs.bytesOf serial) else none
  | _ => none

/-- The target of the symbolic link that a path names. -/
def linkAt? (p : PathName) : Option String :=
  match fs.locateEntry (.ofPath p) with
  | .ok (_, .link target) => some target
  | _ => none

/-- What tells the file that a path leads to from others. -/
def identityAt? (p : PathName) : Option Identity :=
  match fs.locate (.ofPath p) with
  | .ok (location, node) => some (identity location node)
  | .error _ => none

/-- Two paths lead to one file. -/
def SameFile (p q : PathName) : Prop :=
  ∃ file, fs.identityAt? p = some file ∧ fs.identityAt? q = some file

theorem sameFile_iff_eq (p q : PathName) :
    fs.identityAt? p ≠ none ∧ fs.identityAt? p = fs.identityAt? q ↔ fs.SameFile p q := by
  constructor
  · intro h'
    obtain ⟨hp, hq⟩ := h'
    obtain ⟨file, hfile⟩ := Option.ne_none_iff_exists'.1 hp
    exact ⟨file, hfile, hq ▸ hfile⟩
  · intro h'
    obtain ⟨file, hp, hq⟩ := h'
    rw [hp, hq]
    exact ⟨Option.some_ne_none file, rfl⟩

instance (p q : PathName) : Decidable (fs.SameFile p q) :=
  decidable_of_iff _ (fs.sameFile_iff_eq p q)

/-- A path can be looked up to its end: neither its text nor a name in it is too long, and the
directories that it is looked up in may be searched. A link that its last part names is followed only
if `final` is set. -/
structure InReach (final : Bool) (p : PathName) : Prop where
  limits : p.InLimits
  search : fs.Searchable final p

/-- Directories can hold every name in the targets of the links. -/
def ShortLinks : Prop :=
  ∀ location target, fs.node? location = some (.link target) →
    ∀ part ∈ (Route.ofText target).parts, Node.isLongName part = false

variable {fs}

/-! ### Limits of paths -/

theorem mem_parts_below {p : PathName} {text part : String} (h : part ∈ (p.below text).parts) :
    part ∈ p.parts ∨ part ∈ (PathName.ofString text).parts := by
  rw [PathName.below, PathName.join] at h
  split at h
  · exact List.mem_append.1 h
  · exact .inr h

/-- The parts of a text as a path name are among those that a resolution sees. -/
theorem mem_route_of_mem_parts {text part : String} (h : part ∈ (PathName.ofString text).parts) :
    part ∈ (Route.ofText text).parts := by
  obtain ⟨piece, hpiece, rfl⟩ := List.mem_map.1 h
  obtain ⟨hmem, hpart⟩ := List.mem_filter.1 hpiece
  refine List.mem_map.2 ⟨piece, List.mem_append_left _ (List.mem_filter.2 ⟨hmem, ?_⟩), rfl⟩
  simp only [isPathPart, Bool.and_eq_true] at hpart
  exact hpart.1.1

/-- A path below another one is within the limits if the names in both are. -/
theorem inLimits_below {p : PathName} {text : String}
    (hp : ∀ part ∈ p.parts, Node.isLongName part = false)
    (htext : ∀ part ∈ (PathName.ofString text).parts, Node.isLongName part = false)
    (hsize : (p.below text).render.utf8ByteSize < Route.sizeLimit) : (p.below text).InLimits := by
  refine ⟨fun part hpart => ?_, hsize⟩
  rcases mem_parts_below hpart with hpart | hpart
  · exact hp part hpart
  · exact htext part hpart

/-- Directories can hold the names in the target of a link that a path names. -/
theorem ShortLinks.of_linkAt? (hlinks : fs.ShortLinks) {p : PathName} {link : String}
    (h : fs.linkAt? p = some link) :
    ∀ part ∈ (PathName.ofString link).parts, Node.isLongName part = false := by
  rw [linkAt?] at h
  split at h
  · rename_i location target hlocate
    cases h
    have hnode := (resolves_of_follow ((locateEntry_eq_ok_iff ..).1 hlocate).2).node?_eq
    exact fun part hpart => hlinks location link hnode part (mem_route_of_mem_parts hpart)
  · cases h

/-- What the target of a link stands for, in the directory of the link, is in reach if its text is not too
long and it may be looked up. -/
theorem ShortLinks.inReach_reached (hlinks : fs.ShortLinks) {p : PathName} (hp : p.InLimits)
    {link : String} (hlink : fs.linkAt? p = some link)
    (h : (p.parent.below link).render.utf8ByteSize < Route.sizeLimit ∧
      fs.Searchable true (p.parent.below link)) : fs.InReach true (p.parent.below link) where
  limits := inLimits_below (fun part hpart => hp.names part ((List.dropLast_sublist _).subset hpart))
    (hlinks.of_linkAt? hlink) h.1
  search := h.2

/-! ### Only a name that is too long makes a path too long -/

/-- A way along real directories that meets a name that is too long has it among its parts. -/
theorem long_of_advance {base parts : List String}
    (h : fs.advance base parts = .fault .nameTooLong) :
    ∃ part ∈ parts, Node.isLongName part = true := by
  obtain ⟨dir, ahead, hway, hstop⟩ := advance_eq_iff.1 h
  cases hstop with
  | long _ hlong => exact ⟨_, hway.subset (List.mem_cons_self ..), hlong⟩

theorem follow_ne_nameTooLong (hlinks : fs.ShortLinks) (final : Bool) (links : Nat)
    {base parts : List String} (hparts : ∀ part ∈ parts, Node.isLongName part = false) :
    fs.follow final links base parts ≠ .error .nameTooLong := by
  -- the parts ahead stay short, since targets are short
  fun_induction follow fs final links base parts with
  | case1 links base parts p hp => simp
  | case2 links base parts cause hcause =>
    intro h
    cases h
    obtain ⟨part, hpart, hlong⟩ := long_of_advance hcause
    rw [hparts part hpart] at hlong
    cases hlong
  | case3 links base parts above name target rest hlink hlast => simp
  | case4 base parts above name target rest hlink hlast => simp
  | case5 base parts above name target rest hlink hlast links route ih =>
    obtain ⟨hway, -, -, hnode⟩ := link_of_advance hlink
    refine ih fun part hpart => ?_
    rcases List.mem_append.1 hpart with hpart | hpart
    · exact hlinks _ target hnode part hpart
    · exact hparts part (hway.subset (List.mem_cons_of_mem _ hpart))

theorem place_ne_nameTooLong (hlinks : fs.ShortLinks) (final : Bool) {p : PathName}
    (hp : p.InLimits) : fs.place final (.ofPath p) ≠ .error .nameTooLong := by
  by_cases hadmits : fs.Admits p
  · rw [hadmits.place_eq]
    exact follow_ne_nameTooLong hlinks final maxLinks hp.names
  · obtain ⟨cause, hcause, hflaw⟩ := place_of_not_admits final hadmits
    rw [hcause]
    rintro ⟨⟩
    rcases hflaw with ⟨hflaw, -⟩ | ⟨-, hsize⟩ | ⟨hflaw, -⟩
    · cases hflaw
    · exact absurd hp.size (Nat.not_lt.2 hsize)
    · cases hflaw

/-! ### No question stays open -/

/-- A path within the limits that may be looked up has a place or a fault that answers the question. -/
theorem leavesOpen_of_place (hlinks : fs.ShortLinks) {final : Bool} {p : PathName}
    (hp : fs.InReach final p) {cause : FileFault} (h : fs.place final (.ofPath p) = .error cause) :
    cause.leavesOpen = false := by
  cases cause with
  | nameTooLong => exact absurd h (place_ne_nameTooLong hlinks final hp.limits)
  | denied => exact absurd h hp.search.place_ne_denied
  | _ => rfl

/-- What has a place is there or missing. -/
theorem cause_of_present {final : Bool} {p : PathName} {cause : FileFault}
    (h : fs.place final (.ofPath p) >>= present = .error cause) :
    cause = .missing ∨ fs.place final (.ofPath p) = .error cause := by
  cases hplace : fs.place final (.ofPath p) with
  | error fault =>
    rw [hplace] at h
    cases h
    exact .inr rfl
  | ok place =>
    obtain ⟨location, node⟩ := place
    rw [hplace] at h
    cases node with
    | none =>
      cases h
      exact .inl rfl
    | some node => cases h

theorem leavesOpen_of_present (hlinks : fs.ShortLinks) {final : Bool} {p : PathName}
    (hp : fs.InReach final p) {cause : FileFault}
    (h : fs.place final (.ofPath p) >>= present = .error cause) : cause.leavesOpen = false := by
  rcases cause_of_present h with rfl | hplace
  · rfl
  · exact leavesOpen_of_place hlinks hp hplace

theorem exists?_of_error {p : PathName} {cause : FileFault} (h : fs.locate (.ofPath p) = .error cause) :
    fs.exists? p = if cause.leavesOpen then .error cause else .ok false := by
  rw [exists?, h]

theorem linkTarget?_of_error {p : PathName} {cause : FileFault}
    (h : fs.locateEntry (.ofPath p) = .error cause) :
    fs.linkTarget? p = if cause.leavesOpen then .error cause else .ok none := by
  rw [linkTarget?, h]

theorem exists?_eq_ok (hlinks : fs.ShortLinks) {p : PathName} (hp : fs.InReach true p) :
    fs.exists? p = .ok (decide (fs.IsThere p)) := by
  cases h : fs.locate (.ofPath p) with
  | ok found =>
    have hthere : fs.IsThere p := ⟨found.1, found.2, h⟩
    rw [exists?, h, decide_eq_true hthere]
  | error cause =>
    have hthere : ¬ fs.IsThere p := by
      intro h'
      obtain ⟨location, node, h'⟩ := h'
      rw [h] at h'
      cases h'
    rw [decide_eq_false hthere, exists?_of_error h, leavesOpen_of_present hlinks hp h]
    rfl

theorem exists?_eq_true_iff {p : PathName} : fs.exists? p = .ok true ↔ fs.IsThere p := by
  rw [exists?, ← isThere_iff_isOk]
  cases fs.locate (.ofPath p) with
  | ok found => exact ⟨fun _ => rfl, fun _ => rfl⟩
  | error cause =>
    constructor
    · intro h
      cases cause <;> cases h
    · intro h
      cases h

theorem exists?_eq_decide {p : PathName} {there : Bool} (h : fs.exists? p = .ok there) :
    there = decide (fs.IsThere p) := by
  cases there with
  | true => exact (decide_eq_true (exists?_eq_true_iff.1 h)).symm
  | false =>
    refine (decide_eq_false fun hthere => ?_).symm
    rw [exists?_eq_true_iff.2 hthere] at h
    cases h

/-- A fault that leaves open what is at a path stands in the way of looking it up. -/
theorem obstructs_of_present {final : Bool} {p : PathName} {cause : FileFault}
    (h : fs.place final (.ofPath p) >>= present = .error cause) (hopen : cause.leavesOpen = true) :
    fs.Obstructs cause := by
  rcases cause_of_present h with rfl | hplace
  · cases hopen
  · exact obstructs_of_place hplace hopen

/-- Only what stands in the way of looking a path up leaves the question open. -/
theorem obstructs_of_exists? {p : PathName} {cause : FileFault} (h : fs.exists? p = .error cause) :
    fs.Obstructs cause := by
  rw [exists?] at h
  split at h
  · cases h
  · rename_i fault hlocate
    split at h
    · rename_i hopen
      cases h
      exact obstructs_of_present hlocate hopen
    · cases h

/-- A path text that is too long leaves the question open, wherever the path would lead. -/
theorem exists?_eq_error {p : PathName} (hnul : p.hasNul = false)
    (hsize : Route.sizeLimit ≤ p.render.utf8ByteSize) : fs.exists? p = .error .nameTooLong := by
  have hplace : fs.place true (.ofPath p) = .error .nameTooLong := by
    rw [FileSystem.place, show (Route.ofPath p).hasNul = false from hnul]
    exact if_pos hsize
  rw [exists?, locate, hplace]
  rfl

/-- A name that no directory can hold, on the way along real directories, leaves it open as well. -/
theorem exists?_of_advance {p : PathName} (hnul : p.hasNul = false)
    (hcwd : p.root = .relative → fs.maySearch fs.cwd = true)
    (h : fs.advance (fs.start p) p.parts = .fault .nameTooLong) :
    fs.exists? p = .error .nameTooLong := by
  by_cases hsize : p.render.utf8ByteSize < Route.sizeLimit
  · have hplace : fs.place true (.ofPath p) = .error .nameTooLong := by
      rw [Admits.place_eq ⟨hnul, hsize, hcwd⟩, follow, h]
    rw [exists?, locate, hplace]
    rfl
  · exact exists?_eq_error hnul (Nat.not_lt.1 hsize)

theorem linkTarget?_eq_ok (hlinks : fs.ShortLinks) {p : PathName} (hp : fs.InReach false p) :
    fs.linkTarget? p = .ok (fs.linkAt? p) := by
  cases h : fs.locateEntry (.ofPath p) with
  | ok found =>
    obtain ⟨location, node⟩ := found
    rw [linkTarget?, linkAt?, h]
    cases node <;> rfl
  | error cause =>
    rw [linkTarget?_of_error h, linkAt?, h, leavesOpen_of_present hlinks hp h]
    rfl

theorem linkTarget?_eq_linkAt? {p : PathName} {link : Option String}
    (h : fs.linkTarget? p = .ok link) : link = fs.linkAt? p := by
  rw [linkTarget?] at h
  rw [linkAt?]
  cases hentry : fs.locateEntry (.ofPath p) with
  | ok found =>
    obtain ⟨location, node⟩ := found
    rw [hentry] at h
    cases node <;> cases h <;> rfl
  | error cause =>
    rw [hentry] at h
    cases cause <;> cases h <;> rfl

theorem obstructs_of_linkTarget? {p : PathName} {cause : FileFault}
    (h : fs.linkTarget? p = .error cause) : fs.Obstructs cause := by
  rw [linkTarget?] at h
  split at h
  · cases h
  · cases h
  · rename_i fault hlocate
    split at h
    · rename_i hopen
      cases h
      exact obstructs_of_present hlocate hopen
    · cases h

theorem identityAt?_eq {p : PathName} {location : List String} {node : Node}
    (h : fs.locate (.ofPath p) = .ok (location, node)) :
    fs.identityAt? p = some (identity location node) := by
  rw [identityAt?, h]

theorem sameFile_eq_ok {p q : PathName} (hp : fs.IsThere p) (hq : fs.IsThere q) :
    fs.sameFile p q = .ok (decide (fs.SameFile p q)) := by
  obtain ⟨a, nodeA, ha⟩ := hp
  obtain ⟨b, nodeB, hb⟩ := hq
  have hsame : fs.SameFile p q ↔ identity a nodeA = identity b nodeB := by
    rw [← sameFile_iff_eq, identityAt?_eq ha, identityAt?_eq hb, Option.some_inj]
    exact and_iff_right (Option.some_ne_none _)
  rw [sameFile, ha, hb, decide_eq_decide.2 hsame]
  show Except.ok (identity a nodeA == identity b nodeB) = _
  rw [beq_eq_decide]

theorem isThere_of_identityAt? {p : PathName} {file : Identity} (h : fs.identityAt? p = some file) :
    fs.IsThere p := by
  rw [identityAt?] at h
  split at h
  · rename_i location node hlocate
    exact ⟨location, node, hlocate⟩
  · cases h

/-- Bytes are those of a file that is there and that may be read. -/
theorem exists_locate_of_bytesAt? {p : PathName} {bytes : List UInt8}
    (h : fs.bytesAt? p = some bytes) : ∃ location serial,
      fs.locate (.ofPath p) = .ok (location, .file serial) ∧
        fs.allows .read (.serial serial) = true ∧ bytes = fs.bytesOf serial := by
  rw [bytesAt?] at h
  split at h
  · rename_i location serial hlocate
    split at h
    · rename_i hread
      cases h
      exact ⟨location, serial, hlocate, hread, rfl⟩
    · cases h
  · cases h

theorem isThere_of_bytesAt? {p : PathName} {bytes : List UInt8} (h : fs.bytesAt? p = some bytes) :
    fs.IsThere p := by
  obtain ⟨location, serial, hlocate, -⟩ := exists_locate_of_bytesAt? h
  exact ⟨location, _, hlocate⟩

theorem read_eq_ok {p : PathName} {bytes : List UInt8} (h : fs.bytesAt? p = some bytes) :
    fs.read p = .ok bytes := by
  obtain ⟨location, serial, hlocate, hread, rfl⟩ := exists_locate_of_bytesAt? h
  rw [read, hlocate]
  show (if fs.allows .read (.serial serial) then _ else _) = _
  rw [hread]
  rfl

end FileSystem

end MigrationBench
