import MigrationBench.Proofs.Files.Met
import MigrationBench.Proofs.Tree.Findings
import Mathlib

/-!
# Strays

What the last check of all makes of the paths that are verified by then, on every walk: it reports the
files that the walk meets and that are not verified, and it ends at the first fault of the walk, if
there is one.

* `Inspection.strays` — the findings about files that are not among some verified paths.
* `Inspection.outcome_last` — the last check records the strays and verifies nothing.
* `Inspection.outcome_noMoreFiles` — after checks of names it records the files that they do not cover.
* `Inspection.enact_recording_ok_iff` — a recording run ends early at a fault only.
* `Inspection.IsStray` — a file below the root that no verified path stands for.
* `Inspection.Lists` — the walk lists the directory that a location is in.
* `Inspection.strays_reported` — which strays the last check reports, and in which order.
* `Inspection.stray_passed_over` — strays that it does not report.
-/

namespace MigrationBench

namespace Inspection

variable (i : Inspection)

/-- The findings about the files that a walk meets and that are not among some verified paths. -/
def strays (verified : List String) : List Finding :=
  (((FileSystem.met (i.files.walk i.root)).map PathName.joinParts).filter
    (· ∉ verified)).map .unverified

/-- Strays depend on which paths are verified, not on their order. -/
theorem strays_congr {verified verified' : List String}
    (h : ∀ k, k ∈ verified' ↔ k ∈ verified) : i.strays verified' = i.strays verified := by
  rw [strays, strays]
  congr 1
  refine List.filter_congr fun k _ => ?_
  rw [decide_eq_decide, h k]

/-- More verified paths take away the strays that have one of them as their path. -/
theorem strays_of_more {verified verified' more : List String}
    (h : ∀ k, k ∈ verified' ↔ k ∈ verified ∨ k ∈ more) :
    i.strays verified' = (i.strays verified).filter (· ∉ more.map Finding.unverified) := by
  rw [strays, strays]
  generalize (FileSystem.met (i.files.walk i.root)).map PathName.joinParts = seen
  rw [List.filter_map, List.filter_filter]
  congr 1
  refine List.filter_congr fun k _ => ?_
  have hmore : Finding.unverified k ∈ more.map .unverified ↔ k ∈ more := by simp
  rw [Function.comp_apply, ← Bool.decide_and, decide_eq_decide, h k, hmore, not_or, and_comm]

variable {i}

/-- The acts of the last check are demands for the files that the walk meets, up to a fault. -/
theorem acts_last : ∃ ending,
    i.acts .noMoreFiles
      = ((FileSystem.met (i.files.walk i.root)).map PathName.joinParts).map .demand ++ ending ∧
    (ending = [] ∧ i.files.walk i.root = (FileSystem.met (i.files.walk i.root)).map .ok ∨
      ∃ cause rest, ending = .halt cause :: rest ∧ .error cause ∈ i.files.walk i.root) := by
  have hdemands : ∀ found : List (List String),
      ((found.map .ok : List (Except FileFault (List String))).flatMap fun visit =>
        Act.upon visit fun location => [.demand (PathName.joinParts location)])
        = (found.map PathName.joinParts).map .demand := by
    intro found
    rw [List.flatMap_map, List.map_map]
    exact List.map_eq_flatMap.symm
  rw [acts_noMoreFiles]
  rcases FileSystem.eq_met (i.files.walk i.root) with hall | ⟨cause, rest, hall⟩
  · refine ⟨[], ?_, .inl ⟨rfl, hall⟩⟩
    rw [List.append_nil, ← hdemands, ← hall]
  · refine ⟨.halt cause :: rest.flatMap fun visit =>
      Act.upon visit fun location => [.demand (PathName.joinParts location)], ?_,
      .inr ⟨cause, _, rfl, ?_⟩⟩
    · conv_lhs => rw [hall]
      rw [List.flatMap_append, List.flatMap_cons, hdemands]
      rfl
    · rw [hall]
      exact List.mem_append_right _ (List.mem_cons_self ..)

/-- **The last check**, whatever is verified by then. It ends at the first fault of the walk if there
is one; it records the strays that it meets before, and it verifies nothing. -/
theorem outcome_last (hs : i.strategy = .recording) : ∃ result,
    (result = .ok () ∧ i.files.walk i.root = (FileSystem.met (i.files.walk i.root)).map .ok ∨
      ∃ cause, result = .error (.file cause) ∧ .error cause ∈ i.files.walk i.root) ∧
    ∀ p, ∃ q, i.outcome [.noMoreFiles] p = (result, q) ∧ q.verified = p.verified ∧
      q.findings = p.findings ++ i.strays p.verified := by
  obtain ⟨ending, hacts, hending⟩ := acts_last (i := i)
  have hdemands := enact_demands hs ((FileSystem.met (i.files.walk i.root)).map PathName.joinParts)
  rcases hending with ⟨rfl, hall⟩ | ⟨cause, rest, rfl, hmem⟩
  · refine ⟨.ok (), .inl ⟨rfl, hall⟩, fun p => ?_⟩
    obtain ⟨q, hq, hverified, hfindings⟩ := hdemands p
    refine ⟨q, ?_, hverified, hfindings⟩
    rw [outcome_eq_enact, List.flatMap_singleton, hacts, List.append_nil, hq]
  · refine ⟨.error (.file cause), .inr ⟨cause, rfl, hmem⟩, fun p => ?_⟩
    obtain ⟨q, hq, hverified, hfindings⟩ := hdemands p
    refine ⟨q, ?_, hverified, hfindings⟩
    rw [outcome_eq_enact, List.flatMap_singleton, hacts, enact_append, hq]
    show i.enact (.halt cause :: rest) q = _
    rw [enact_cons, perform_halt]

instance (names : List String) (k : String) : Decidable (i.Covers names k) :=
  inferInstanceAs (Decidable (∃ name ∈ names, i.key (i.root.below name) = k))

/-- **The last check of all** records the files that the checks before do not cover, in the order of
the walk. -/
theorem outcome_noMoreFiles (hs : i.strategy = .recording) {checks : List Check}
    {found : List Finding} (h : Records (checks.flatMap i.acts) found)
    {walked : List (List String)} (hwalk : i.files.walk i.root = walked.map .ok) :
    ∃ q, i.outcome (checks ++ [.noMoreFiles]) {} = (.ok (), q) ∧
      q.findings = found ++ (walked.filter fun location =>
        ¬ i.Covers (checks.flatMap Check.claimed) (PathName.joinParts location)).map fun location =>
          .unverified (PathName.joinParts location) := by
  obtain ⟨p, hp, hfindings⟩ := enact_records hs h {}
  rw [← outcome_eq_enact] at hp
  obtain ⟨result, hresult, hlast⟩ := outcome_last hs
  obtain ⟨q, hq, -, hstrays⟩ := hlast p
  have hok : result = .ok () := by
    rcases hresult with ⟨hok, -⟩ | ⟨cause, -, hmem⟩
    · exact hok
    · rw [hwalk] at hmem
      simp at hmem
  subst hok
  refine ⟨q, ?_, ?_⟩
  · rw [outcome_append, hp]
    exact hq
  · -- by then exactly the claimed names are verified
    have hverified : ∀ location, decide (PathName.joinParts location ∉ p.verified)
        = decide (¬ i.Covers (checks.flatMap Check.claimed) (PathName.joinParts location)) := by
      intro location
      rw [decide_eq_decide, i.mem_verified_outcome hp, or_iff_right List.not_mem_nil]
    rw [hstrays, show p.findings = found from hfindings, strays, hwalk, FileSystem.met_map_ok,
      List.filter_map, List.map_map]
    show _ ++ (walked.filter fun location =>
      decide (PathName.joinParts location ∉ p.verified)).map _ = _
    simp only [hverified]
    rfl

/-- A recording run comes to its end exactly if no act of it is a fault. -/
theorem enact_recording_ok_iff (hs : i.strategy = .recording) (as : List Act) (p : Progress) :
    (∃ q, i.enact as p = (.ok (), q)) ↔ ∀ cause, .halt cause ∉ as := by
  constructor
  · intro h'
    obtain ⟨q, h⟩ := h'
    exact i.halt_not_mem_of_enact h
  · intro h
    induction as generalizing p with
    | nil => exact ⟨p, rfl⟩
    | cons a as ih =>
      replace ih := fun p => ih p fun cause hcause => h cause (List.mem_cons_of_mem _ hcause)
      rw [enact_cons]
      cases a with
      | report f =>
        rw [perform_report_recording i hs]
        exact ih _
      | remember path => exact ih _
      | demand key =>
        rw [perform_demand]
        by_cases hkey : key ∈ p.verified
        · rw [if_pos hkey]
          exact ih p
        · rw [if_neg hkey, perform_report_recording i hs]
          exact ih _
      | halt cause => exact absurd (List.mem_cons_self ..) (h cause)

/-! ### Which files are reported -/

variable (i)

/-- A regular file below the root that real directories lead to, and that no verified path stands for.
What the root leads to is read off its parts, whatever the process may do. -/
def IsStray (verified : List String) (location : List String) : Prop :=
  ∃ top es serial, i.files.Resolves true (i.files.start i.root) i.root.parts top (.directory es) ∧
    i.files.node? (top ++ location) = some (.file serial) ∧
    PathName.joinParts location ∉ verified

/-- The root can be looked up, and the walk lists the directory that something below it is in. -/
def Lists (location : List String) : Prop :=
  ∃ top es, i.files.locate (.ofPath i.root) = .ok (top, .directory es) ∧
    i.files.enters i.root top location.dropLast = true

variable {i} in
/-- What a walk without faults meets and what is not verified are the strays in the directories that
it lists. -/
theorem mem_met_iff_isStray {verified location : List String} (h : i.files.Walkable i.root) :
    location ∈ FileSystem.met (i.files.walk i.root) ∧ PathName.joinParts location ∉ verified ↔
      i.IsStray verified location ∧ i.Lists location := by
  constructor
  · intro h'
    obtain ⟨hmet, hfresh⟩ := h'
    obtain ⟨top, es, serial, hlocate, hnode⟩ :=
      FileSystem.file_of_mem_walk (FileSystem.ok_mem_of_mem_met hmet)
    obtain ⟨hentry, -⟩ := (h.mem_met_iff hlocate location).1 hmet
    exact ⟨⟨top, es, serial, FileSystem.resolves_of_locate hlocate, hnode, hfresh⟩,
      top, es, hlocate, hentry⟩
  · intro h'
    obtain ⟨⟨top, es, serial, hresolves, hnode, hfresh⟩, top', es', hlocate, hentry⟩ := h'
    obtain ⟨rfl, -⟩ := hresolves.unique (FileSystem.resolves_of_locate hlocate)
    exact ⟨(h.mem_met_iff hlocate location).2 ⟨hentry, serial, hnode⟩, hfresh⟩

/-- **The strays that the last check reports**, whatever the files, the rights and the verified paths
are. It verifies nothing. It records strays and nothing else, each of them once by its path, what is
directly in a directory in the order of names and before what is in the subdirectories. It comes to its
end exactly if the walk meets no fault: the root holds no NUL, and in the directories that the walk
lists no path text is too long and each name may be looked up. If it comes to its end, it has recorded
the strays in the directories that the walk lists. So it comes to its end with all strays recorded
exactly if the walk meets no fault and lists every directory with a stray. -/
theorem strays_reported (p : Progress) :
    ∃ (result : Except Halt Unit) (q : Progress) (found : List (List String)),
      i.recording.outcome [.noMoreFiles] p = (result, q) ∧
      q.verified = p.verified ∧
      q.findings = p.findings ++ found.map (fun location => .unverified (PathName.joinParts location)) ∧
      (∀ location ∈ found, i.IsStray p.verified location) ∧
      (found.map PathName.joinParts).Nodup ∧
      found.Pairwise Node.WalkedBefore ∧
      (result = .ok () ↔ i.files.Walkable i.root) ∧
      (result = .ok () → ∀ location, location ∈ found ↔ i.IsStray p.verified location ∧
        i.Lists location) ∧
      (result = .ok () ∧ (∀ location, location ∈ found ↔ i.IsStray p.verified location) ↔
        i.files.Walkable i.root ∧ ∀ location, i.IsStray p.verified location → i.Lists location) := by
  obtain ⟨result, hresult, hlast⟩ := outcome_last (i := i.recording) rfl
  obtain ⟨q, hq, hverified, hfindings⟩ := hlast p
  let found := (FileSystem.met (i.files.walk i.root)).filter
    fun location => PathName.joinParts location ∉ p.verified
  have hmem : ∀ location, location ∈ found ↔
      location ∈ FileSystem.met (i.files.walk i.root) ∧ PathName.joinParts location ∉ p.verified := by
    intro location
    rw [List.mem_filter, decide_eq_true_eq]
  have hends : result = .ok () ↔ i.files.Walkable i.root := by
    rw [FileSystem.walkable_iff]
    rcases hresult with ⟨rfl, hall⟩ | ⟨cause, rfl, hfault⟩
    · refine iff_of_true rfl fun cause hcause => ?_
      rw [show i.files.walk i.root = (FileSystem.met (i.files.walk i.root)).map .ok from hall] at hcause
      simp at hcause
    · exact iff_of_false (fun hok => by cases hok) fun hnone => hnone cause hfault
  have hlisted : result = .ok () → ∀ location, location ∈ found ↔
      i.IsStray p.verified location ∧ i.Lists location := fun hok location =>
    (hmem location).trans (mem_met_iff_isStray (hends.1 hok))
  refine ⟨result, q, found, hq, hverified, ?_, ?_, ?_, ?_, hends, hlisted, ?_⟩
  · rw [hfindings]
    show p.findings ++ ((((FileSystem.met (i.files.walk i.root)).map PathName.joinParts).filter
      (· ∉ p.verified)).map Finding.unverified) = _
    rw [List.filter_map, List.map_map]
    rfl
  · intro location hfound
    obtain ⟨hmet, hfresh⟩ := (hmem location).1 hfound
    obtain ⟨top, es, serial, hlocate, hnode⟩ :=
      FileSystem.file_of_mem_walk (FileSystem.ok_mem_of_mem_met hmet)
    exact ⟨top, es, serial, FileSystem.resolves_of_locate hlocate, hnode, hfresh⟩
  · exact (List.filter_sublist.map _).nodup (FileSystem.nodup_met i.root)
  · exact (FileSystem.pairwise_met i.root).sublist List.filter_sublist
  · constructor
    · intro h'
      obtain ⟨hok, hall⟩ := h'
      exact ⟨hends.1 hok, fun location hstray =>
        ((hlisted hok location).1 ((hall location).2 hstray)).2⟩
    · intro h'
      obtain ⟨hwalkable, hlists⟩ := h'
      have hok := hends.2 hwalkable
      exact ⟨hok, fun location =>
        (hlisted hok location).trans (and_iff_left_of_imp (hlists location))⟩

/-- A root with a file, a directory with another one, a link to the directory and a pipe, and a link to
the root. -/
def linkedTree : FileSystem where
  top := [("srv", .directory [("root", .directory [("b", .directory [("f", .file 1)]), ("a", .file 0),
    ("l", .link "b"), ("p", .pipe 2)]), ("w", .link "root")])]
  contents := [(0, [120]), (1, [121])]
  fresh := 3
  cwd := ["srv"]
  top_sound := by decide
  cwd_there := by decide

/-- The linked tree, tested along the link to its root. -/
def linkedInspection : Inspection where
  files := linkedTree
  strategy := .recording
  root := PathName.ofString "w"

theorem locate_linkedTree : linkedTree.locate (.ofPath (PathName.ofString "w"))
    = .ok (["srv", "root"], .directory [("b", .directory [("f", .file 1)]), ("a", .file 0),
      ("l", .link "b"), ("p", .pipe 2)]) := by cbv

theorem walkable_linkedTree : linkedTree.Walkable (PathName.ofString "w") where
  noNul := by decide
  visits := by
    intro top es hlocate location leaf hnode hleaf _
    have hmem := (FileSystem.mem_leaves_of_locate hlocate location leaf).2 ⟨hnode, hleaf⟩
    rw [locate_linkedTree] at hlocate
    cases hlocate
    rw [show (Node.directory [("b", .directory [("f", .file 1)]), ("a", .file 0), ("l", .link "b"),
      ("p", .pipe 2)]).leaves = [(["a"], .file 0), (["l"], .link "b"), (["p"], .pipe 2),
      (["b", "f"], .file 1)] by cbv] at hmem
    simp only [List.mem_cons, List.not_mem_nil, Prod.mk.injEq, or_false] at hmem
    rcases hmem with ⟨rfl, -⟩ | ⟨rfl, -⟩ | ⟨rfl, -⟩ | ⟨rfl, -⟩ <;> exact ⟨by decide, by decide⟩

/-- Below the linked tree both files are reported, the one in the root first. -/
theorem strays_of_linkedTree : linkedInspection.files.Walkable linkedInspection.root ∧
    ∃ (q : Progress) (found : List (List String)),
      linkedInspection.recording.outcome [.noMoreFiles] {} = (.ok (), q) ∧
      q.findings = [.unverified "a", .unverified "b/f"] ∧ linkedInspection.IsStray [] ["b", "f"] ∧
      linkedInspection.Lists ["b", "f"] ∧ ["b", "f"] ∈ found ∧
      q.findings = found.map fun location => .unverified (PathName.joinParts location) := by
  obtain ⟨result, q, found, hrun, -, hfindings, -, -, -, hends, hall, -⟩ :=
    linkedInspection.strays_reported {}
  obtain rfl := hends.2 walkable_linkedTree
  have hstray : linkedInspection.IsStray [] ["b", "f"] :=
    ⟨["srv", "root"], _, 1, FileSystem.resolves_of_locate locate_linkedTree, rfl, List.not_mem_nil⟩
  have hlists : linkedInspection.Lists ["b", "f"] := ⟨_, _, locate_linkedTree, by decide⟩
  have hq : (linkedInspection.recording.outcome [.noMoreFiles] {}).2.findings
      = [.unverified "a", .unverified "b/f"] := by cbv
  rw [hrun] at hq
  exact ⟨walkable_linkedTree, q, found, hrun, hq, hstray, hlists,
    (hall rfl _).2 ⟨hstray, hlists⟩, hfindings⟩

/-! ### Directories that a walk does not list -/

/-- A path that enters a directory and leaves it so many times, and then enters it. -/
def detour (n : Nat) : PathName where
  root := .relative
  parts := (List.replicate n ["d", ".."]).flatten ++ ["d"]
  parts_ok := by
    rw [List.all_append, List.all_flatten, List.all_eq_true.2]
    · rfl
    · intro parts hparts
      rw [List.eq_of_mem_replicate hparts]
      rfl

theorem mem_detour {n : Nat} {part : String} (h : part ∈ (detour n).parts) :
    part = "d" ∨ part = ".." := by
  rcases List.mem_append.1 h with h | h
  · obtain ⟨parts, hparts, h⟩ := List.mem_flatten.1 h
    rw [List.eq_of_mem_replicate hparts] at h
    simpa using h
  · exact .inl (List.mem_singleton.1 h)

theorem size_detour (n : Nat) {way : List String} (h : way ≠ []) :
    (String.intercalate "/" ((List.replicate n ["d", ".."]).flatten ++ way)).utf8ByteSize
      = 5 * n + (String.intercalate "/" way).utf8ByteSize := by
  induction n with
  | zero => simp
  | succ n ih =>
    have hne : (List.replicate n ["d", ".."]).flatten ++ way ≠ [] :=
      List.append_ne_nil_of_right_ne_nil _ h
    obtain ⟨next, rest, hrest⟩ := List.exists_cons_of_ne_nil hne
    rw [hrest] at ih
    rw [List.replicate_succ, List.flatten_cons, List.append_assoc, hrest]
    show (String.intercalate "/" ("d" :: ".." :: next :: rest)).utf8ByteSize = _
    rw [String.intercalate_cons_cons, String.intercalate_cons_cons, String.utf8ByteSize_append,
      String.utf8ByteSize_append, String.utf8ByteSize_append, String.utf8ByteSize_append, ih]
    show 1 + 1 + (2 + 1 + _) = _
    omega

/-- A file in a directory in a directory. -/
def nestedTree : FileSystem where
  top := [("tmp", .directory [("d", .directory [("deep", .directory [("f", .file 0)])])])]
  contents := [(0, [120])]
  fresh := 1
  cwd := ["tmp"]
  top_sound := by decide
  cwd_there := by decide

/-- The nested tree, tested along a detour. -/
def detourInspection (n : Nat) : Inspection where
  files := nestedTree
  strategy := .recording
  root := detour n

/-- The nested tree, tested along a path that cannot be. -/
def nulInspection : Inspection where
  files := nestedTree
  strategy := .recording
  root := PathName.ofString "\x00"

theorem advance_detour (n : Nat) :
    nestedTree.advance ["tmp"] ((List.replicate n ["d", ".."]).flatten ++ ["d"])
      = .place ⟨["tmp", "d"], some (.directory [("deep", .directory [("f", .file 0)])])⟩ := by
  induction n with
  | zero => cbv
  | succ n ih =>
    have hstep : FileSystem.IsStep "d" := ⟨by decide, by decide, by decide, by decide⟩
    have hnode : nestedTree.node? (["tmp"] ++ ["d"])
        = some (.directory [("deep", .directory [("f", .file 0)])]) := rfl
    rw [List.replicate_succ, List.flatten_cons, List.append_assoc]
    show nestedTree.advance ["tmp"] ("d" :: ".." :: _) = _
    rw [FileSystem.advance_directory hstep rfl hnode, FileSystem.advance_up rfl]
    exact ih

theorem locate_detour {n : Nat} (h : 5 * n + 1 < Route.sizeLimit) :
    nestedTree.locate (.ofPath (detour n))
      = .ok (["tmp", "d"], .directory [("deep", .directory [("f", .file 0)])]) := by
  rw [FileSystem.locate_eq_ok_iff]
  refine ⟨⟨?_, ?_, fun _ => rfl⟩, ?_⟩
  · show ((detour n).parts.any fun part => part.toList.contains '\x00') = false
    rw [List.any_eq_false]
    intro part hpart
    rcases mem_detour hpart with rfl | rfl <;> decide
  · show (detour n).render.utf8ByteSize < Route.sizeLimit
    have hne : (detour n).parts ≠ [] := List.append_ne_nil_of_right_ne_nil _ (List.cons_ne_nil _ _)
    rw [FileSystem.size_render hne]
    show 0 + (String.intercalate "/" ((List.replicate n ["d", ".."]).flatten ++ ["d"])).utf8ByteSize < _
    rw [size_detour n (List.cons_ne_nil _ _)]
    show 0 + (5 * n + 1) < _
    omega
  · exact FileSystem.follow_of_advance (advance_detour n)

/-- The file in the nested tree is a stray along every detour that leads to it. -/
theorem isStray_detour {n : Nat} (h : 5 * n + 1 < Route.sizeLimit) :
    (detourInspection n).IsStray [] ["deep", "f"] :=
  ⟨_, _, 0, FileSystem.resolves_of_locate (locate_detour h), rfl, List.not_mem_nil⟩

/-- A walk that cannot enter the inner directory meets nothing. -/
theorem walk_detour {n : Nat} (h : 5 * n + 1 < Route.sizeLimit) (hlong : Route.sizeLimit ≤ 5 * n + 6) :
    nestedTree.walk (detour n) = [] := by
  have hparts : ∀ part ∈ ["deep"], PathName.IsPart part := by decide
  have hsize : ((detour n).below "deep").render.utf8ByteSize = 5 * n + 6 := by
    show ((detour n).below (PathName.joinParts ["deep"])).render.utf8ByteSize = _
    have hne : ((detour n).below (PathName.joinParts ["deep"])).parts ≠ [] := by
      rw [PathName.below_joinParts_parts _ hparts]
      exact List.append_ne_nil_of_right_ne_nil _ (List.cons_ne_nil _ _)
    rw [FileSystem.size_render hne, PathName.below_joinParts_root _ hparts,
      PathName.below_joinParts_parts _ hparts]
    show 0 + (String.intercalate "/" (((List.replicate n ["d", ".."]).flatten ++ ["d"])
      ++ ["deep"])).utf8ByteSize = _
    rw [List.append_assoc, size_detour n (by simp)]
    show 0 + (5 * n + 6) = _
    omega
  have hentry : nestedTree.enters (detour n) ["tmp", "d"] ["deep"] = false := by
    rw [Bool.eq_false_iff, ne_eq, FileSystem.enters_iff]
    rintro ⟨hshort, -⟩
    have hlower : ((detour n).below "deep").render.utf8ByteSize
        ≤ FileSystem.entrySize (detour n) ["deep"] := Nat.le_add_right _ _
    omega
  rw [FileSystem.walk, locate_detour h]
  show (Node.directory [("deep", .directory [("f", .file 0)])]).leaves.filterMap _ = []
  rw [show (Node.directory [("deep", .directory [("f", .file 0)])]).leaves
    = [(["deep", "f"], .file 0)] by cbv, List.filterMap_cons, FileSystem.visit,
    show (["deep", "f"], Node.file 0).1.dropLast = ["deep"] from rfl, hentry, if_pos rfl]
  rfl

/-- A directory that may not be listed and one that may not be searched, with a file in each. -/
def lockedTree : FileSystem where
  top := [("vault", .directory [("blind", .directory [("f", .file 0)]),
    ("shut", .directory [("g", .file 1)])])]
  contents := [(0, [120]), (1, [121])]
  fresh := 2
  cwd := ["vault"]
  denied := [(.read, .location ["vault", "blind"]), (.search, .location ["vault", "shut"])]
  top_sound := by decide
  cwd_there := by decide

/-- The locked tree, tested from one of its directories. -/
def lockedInspection (root : String) : Inspection where
  files := lockedTree
  strategy := .recording
  root := PathName.ofString root

theorem locate_blind : lockedTree.locate (.ofPath (PathName.ofString "blind"))
    = .ok (["vault", "blind"], .directory [("f", .file 0)]) := by cbv

/-- **Strays that are not reported**: the walk cannot enter the directory that one is in, and it may not
list the directory that the other one is in. In a directory that may not be searched and along a path
that holds a NUL, the last check does not come to its end. -/
theorem stray_passed_over :
    ((detourInspection 818).IsStray [] ["deep", "f"] ∧
      (detourInspection 818).recording.outcome [.noMoreFiles] {} = (.ok (), {})) ∧
    ((lockedInspection "blind").IsStray [] ["f"] ∧
      (lockedInspection "blind").recording.outcome [.noMoreFiles] {} = (.ok (), {})) ∧
    (lockedInspection "shut").recording.outcome [.noMoreFiles] {} = (.error (.file .denied), {}) ∧
    nulInspection.recording.outcome [.noMoreFiles] {} = (.error (.file .badName), {}) := by
  refine ⟨⟨isStray_detour (by decide), ?_⟩, ⟨?_, by cbv⟩, by cbv, by cbv⟩
  · have hwalk : (detourInspection 818).recording.files.walk (detourInspection 818).recording.root
        = [] := walk_detour (by decide) (by decide)
    rw [outcome_eq_enact, List.flatMap_singleton, acts_noMoreFiles, hwalk]
    rfl
  · exact ⟨_, _, 0, FileSystem.resolves_of_locate locate_blind, rfl, List.not_mem_nil⟩

end Inspection

end MigrationBench
