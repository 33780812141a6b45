import MigrationBench.Proofs.Tree.Completion
import MigrationBench.Proofs.Tree.Entries

/-!
# Names that lead out of the root

No check keeps a name from leading out of the tree that it tests. A name that leads out shows in its
entry, which climbs, and it stands for no file of the tree.

* `PathName.Climbs` — the first part of a text is `..`.
* `PathName.climbs_key_iff` — the key of a path climbs exactly if its text leads out of the root.
* `Inspection.Encloses` — the text of a name leads to the root or below it.
* `Inspection.strays_of_enclosed` — names that lead out take away no stray.
* `Inspection.names_outside` — what checks make of names that lead out of the root.
* `Inspection.outside_accepted` — a file outside the root that is found.
-/

namespace MigrationBench

namespace PathName

/-- The first part of a text is `..`. -/
def Climbs (text : String) : Prop :=
  (Text.cutAt '/' text.toList).head? = some ['.', '.']

instance : DecidablePred Climbs :=
  fun text => inferInstanceAs (Decidable ((Text.cutAt '/' text.toList).head? = some ['.', '.']))

theorem climbs_joinParts_iff {parts : List String} (h : ∀ part ∈ parts, IsPart part) :
    Climbs (joinParts parts) ↔ parts.head? = some ".." := by
  cases parts with
  | nil => decide
  | cons part rest =>
    rw [Climbs, joinParts, if_neg (List.cons_ne_nil _ _), cutAt_intercalate (List.cons_ne_nil _ _) h,
      List.map_cons, List.head?_cons, List.head?_cons, Option.some_inj, Option.some_inj]
    exact ⟨fun htext => String.toList_inj.1 htext, fun htext => by rw [htext]; rfl⟩

/-- The way to a target climbs first unless the target is at or below the directory. -/
theorem head?_relativeParts_iff {base target : List String} (h : ".." ∉ target) :
    (relativeParts base target).head? = some ".." ↔ ¬ base <+: target := by
  fun_induction relativeParts base target with
  | case1 target =>
    refine iff_of_false (fun hhead => h (List.mem_of_head? hhead)) ?_
    exact not_not_intro (List.nil_prefix ..)
  | case2 base hbase =>
    obtain ⟨d, rest, rfl⟩ := List.exists_cons_of_ne_nil hbase
    exact iff_of_true rfl fun hprefix => hbase (List.prefix_nil.1 hprefix)
  | case3 base t target ih =>
    rw [ih fun hmem => h (List.mem_cons_of_mem _ hmem), List.cons_prefix_cons, and_iff_right rfl]
  | case4 d base t target hne =>
    exact iff_of_true rfl fun hprefix => hne (List.cons_prefix_cons.1 hprefix).1

/-- **The key of a path climbs** exactly if its text leads out of the root. -/
theorem climbs_key_iff {cwd : List String} (hcwd : ∀ p ∈ cwd, IsPart p) (root path : PathName) :
    Climbs (key cwd root path) ↔ ¬ absoluteParts cwd root <+: absoluteParts cwd path := by
  rw [key, climbs_joinParts_iff, head?_relativeParts_iff (parent_not_mem_absoluteParts cwd path)]
  exact fun part hpart =>
    isPart_of_mem_relativeParts (fun _ => isPart_of_mem_absoluteParts hcwd path) hpart

end PathName

namespace Inspection

variable (i : Inspection)

/-- The text of a name leads to the root or to something below it. -/
def Encloses (name : String) : Prop :=
  PathName.absoluteParts i.files.cwd i.root <+: PathName.absoluteParts i.files.cwd (i.root.below name)

instance : DecidablePred i.Encloses := fun name =>
  inferInstanceAs (Decidable (PathName.absoluteParts i.files.cwd i.root <+:
    PathName.absoluteParts i.files.cwd (i.root.below name)))

theorem climbs_key_iff (name : String) :
    PathName.Climbs (i.key (i.root.below name)) ↔ ¬ i.Encloses name :=
  PathName.climbs_key_iff (fun _ => FileSystem.isPart_of_mem_cwd) i.root (i.root.below name)

/-- Strays depend on which of the files that the walk meets are verified. -/
theorem strays_congr_met {verified verified' : List String}
    (h : ∀ location ∈ FileSystem.met (i.files.walk i.root),
      PathName.joinParts location ∈ verified' ↔ PathName.joinParts location ∈ verified) :
    i.strays verified' = i.strays verified := by
  rw [strays, strays]
  congr 1
  refine List.filter_congr fun k hk => ?_
  obtain ⟨location, hmet, rfl⟩ := List.mem_map.1 hk
  rw [decide_eq_decide, h location hmet]

/-- **Names that lead out of the root take away no stray.** -/
theorem strays_of_enclosed {verified verified' names : List String}
    (h : ∀ k, k ∈ verified' ↔ k ∈ verified ∨ i.Covers names k) :
    i.strays verified' = i.strays
      (verified ++ (names.filter i.Encloses).map fun name => i.key (i.root.below name)) := by
  refine i.strays_congr_met fun location hmet => ?_
  obtain ⟨top, es, serial, -, hnode⟩ :=
    FileSystem.file_of_mem_walk (FileSystem.ok_mem_of_mem_met hmet)
  rw [h, List.mem_append, List.mem_map, Covers]
  refine or_congr_right (exists_congr fun name => ?_)
  rw [List.mem_filter, decide_eq_true_eq, and_assoc]
  refine and_congr_right fun _ => (and_iff_right_of_imp fun hkey => ?_).symm
  -- the text of a name with the key of a file of the tree leads to that file
  have hway := (FileSystem.key_eq_iff_denotes hnode (i.root.below name)).1 hkey
  exact ⟨location, hway.symm⟩

/-- **Names outside the root.** If a check for a file completes and finds nothing, then its name leads to
something, wherever that is, and the key of the name is added and nothing else. The key climbs exactly if
the text of the name leads neither to the root nor below it. After a run of any checks the last check ends
and reports as if only those names had been verified that do not lead out of the root. -/
theorem names_outside :
    (∀ name p q, i.recording.outcome [.files [name]] p = (.ok (), q) → q.findings = p.findings →
      i.files.IsThere (i.root.below name) ∧
      q.verified = p.verified.insert (i.key (i.root.below name)) ∧
      (PathName.Climbs (i.key (i.root.below name)) ↔ ¬ i.Encloses name)) ∧
    ∀ checks p q, i.recording.outcome checks p = (.ok (), q) →
      i.recording.lastCheck q = i.recording.lastCheck { p with
        verified := p.verified ++ ((checks.flatMap Check.claimed).filter i.Encloses).map
          fun name => i.key (i.root.below name) } := by
  constructor
  · intro name p q hq hquiet
    have hfound := findings_eq_found (i := i.recording) rfl (c := .files [name]) rfl hq
    rw [hquiet, List.self_eq_append_right] at hfound
    have hthere : i.files.IsThere (i.root.below name) := by
      by_contra hmissing
      have hnone : i.files.missing i.root name = [] := by
        rwa [found, List.flatMap_singleton] at hfound
      rw [FileSystem.missing, if_neg hmissing] at hnone
      cases hnone
    obtain ⟨q', hq', -, hverified⟩ := outcome_files_of_ok (FileSystem.exists?_eq_true_iff.2 hthere) p
    rw [hq] at hq'
    cases hq'
    exact ⟨hthere, hverified, i.climbs_key_iff name⟩
  · intro checks p q hq
    obtain ⟨result, hlast⟩ := lastCheck_eq (i := i.recording) rfl
    rw [hlast, hlast, i.recording.strays_of_enclosed (i.recording.mem_verified_outcome hq)]
    rfl

/-- A root with a file, and another file beside the root. -/
def siblingTree : FileSystem where
  top := [("yard", .directory [("root", .directory [("a", .file 0)]), ("x", .file 1)])]
  contents := [(0, [120]), (1, [121])]
  fresh := 2
  cwd := ["yard"]
  top_sound := by decide
  cwd_there := by decide

/-- The tree with the file beside it, tested from its root. -/
def siblingInspection : Inspection where
  files := siblingTree
  strategy := .recording
  root := PathName.ofString "root"

/-- A detour over the directory above the root leads back into the tree and does not climb. -/
theorem names_outside_of_detour : siblingInspection.Encloses "../root/./a" ∧
    ∃ q, siblingInspection.recording.outcome [.files ["../root/./a", "../x"]] {} = (.ok (), q) ∧
      siblingInspection.recording.lastCheck q
        = siblingInspection.recording.lastCheck { verified := ["a"] } ∧
      ∃ q', siblingInspection.recording.outcome [.files ["../root/./a"]] {} = (.ok (), q') ∧
        q'.verified = ["a"] ∧ ¬ PathName.Climbs "a" := by
  obtain ⟨hone, hlast⟩ := siblingInspection.names_outside
  have hrun : ∃ q, siblingInspection.recording.outcome [.files ["../root/./a", "../x"]] {}
      = (.ok (), q) := ⟨_, by cbv⟩
  have hrun' : ∃ q', siblingInspection.recording.outcome [.files ["../root/./a"]] {} = (.ok (), q') ∧
      q'.findings = [] := ⟨_, by cbv, by cbv⟩
  obtain ⟨q, hq⟩ := hrun
  obtain ⟨q', hq', hquiet⟩ := hrun'
  have hinside : siblingInspection.Encloses "../root/./a" := by decide
  obtain ⟨-, hverified, hclimbs⟩ := hone "../root/./a" {} q' hq' hquiet
  have hkey : siblingInspection.key (siblingInspection.root.below "../root/./a") = "a" := by cbv
  rw [hkey] at hverified hclimbs
  refine ⟨hinside, q, hq, hlast _ {} q hq, q', hq', hverified, ?_⟩
  rw [hclimbs]
  exact not_not_intro hinside

/-- **A file outside the root is accepted**: a check for the file beside the root finds nothing and adds an
entry that climbs. -/
theorem outside_accepted : ¬ siblingInspection.Encloses "../x" ∧
    siblingInspection.files.bytesAt? (siblingInspection.root.below "../x") = some [121] ∧
    ∃ q, siblingInspection.recording.outcome [.files ["../x"]] {} = (.ok (), q) ∧
      q.findings = [] ∧ q.verified = ["../x"] ∧ PathName.Climbs "../x" :=
  ⟨by decide, by cbv, _, by cbv, by cbv, by cbv, by decide⟩

end Inspection

end MigrationBench
