import MigrationBench.Proofs.Command.Request
import MigrationBench.Proofs.Files.Straight
import MigrationBench.Proofs.Tree.Strays
import Mathlib

/-!
# The exact check

A file counts as verified if the text of some name leads to it, but the name is looked up part by
part, through symbolic links. Where the two differ, a request can pass although none of its names
leads to some file.

* `TreeRequest.Passes` — a request that succeeds; `TreeRequest.Passes.quiet` tells what it has found.
* `FileSystem.Reaches`, `FileSystem.Truthful` — what a name leads to; a location to which no text is
  misleading.
* `TreeRequest.exact_check_sound_iff` — on which trees the exact check is sound, and for which
  requests on every tree.
* `TreeRequest.exact_check_unsound` — a tree on which it is not.
-/

namespace MigrationBench

namespace FileSystem

variable (fs : FileSystem)

/-- A path leads to the regular file with a number. -/
def Reaches (p : PathName) (serial : Nat) : Prop :=
  ∃ location, fs.locate (.ofPath p) = .ok (location, .file serial)

/-- Every name that is there and whose text leads to a location leads to the file with a number. -/
def Truthful (root : PathName) (location : List String) (serial : Nat) : Prop :=
  ∀ name, fs.Denotes root (root.below name) location → fs.IsThere (root.below name) →
    fs.Reaches (root.below name) serial

end FileSystem

namespace TreeRequest

variable (r : TreeRequest) (fs : FileSystem)

/-- The command exits with 0. -/
def Passes : Prop :=
  ∃ out, (r.run fs).1 = .ok out ∧ out.exit = 0

variable {r fs}

/-! ### Requests that pass -/

theorem Passes.outcome (h : r.Passes fs) : ∃ checks p, r.checks = .ok checks ∧
    (r.inspection fs).outcome checks {} = (.ok (), p) ∧ p.findings = [] := by
  obtain ⟨out, hout, hexit⟩ := h
  rw [run] at hout
  cases hchecks : r.checks with
  | error fault =>
    rw [hchecks] at hout
    cases hout
  | ok checks =>
    rw [hchecks] at hout
    rcases hend : (r.inspection fs).outcome checks {} with ⟨result, p⟩
    simp only [hend] at hout
    cases result with
    | error halt => cases hout
    | ok u =>
      cases hout
      refine ⟨checks, p, rfl, hend, ?_⟩
      by_contra hfindings
      rw [report] at hexit
      split at hexit <;> simp [Output.ofDocument] at hexit

/-- A request that passes reports nothing and meets no fault, and it has verified every file that it
demands. -/
theorem Passes.quiet (h : r.Passes fs) : ∃ checks, r.checks = .ok checks ∧
    (∀ f, .report f ∉ checks.flatMap (r.inspection fs).acts) ∧
    (∀ cause, .halt cause ∉ checks.flatMap (r.inspection fs).acts) ∧
    ∀ key, .demand key ∈ checks.flatMap (r.inspection fs).acts →
      (r.inspection fs).Covers r.requested key := by
  obtain ⟨checks, p, hchecks, hout, hfindings⟩ := h.outcome
  have henact := ((r.inspection fs).outcome_eq_enact checks {}).symm.trans hout
  obtain ⟨hreport, hdemand⟩ := Inspection.quiet_of_enact rfl henact hfindings
  refine ⟨checks, hchecks, hreport, (r.inspection fs).halt_not_mem_of_enact henact, ?_⟩
  intro key hkey
  have hverified := hdemand key hkey
  rw [(r.inspection fs).mem_verified_outcome hout, claimed_checks hchecks] at hverified
  exact hverified.resolve_left List.not_mem_nil

/-- A request that passes finds every name that it verifies. -/
theorem Passes.isThere (h : r.Passes fs) {name : String} (hname : name ∈ r.requested) :
    fs.IsThere (r.root.below name) := by
  obtain ⟨checks, hchecks, hreport, hhalt, -⟩ := h.quiet
  rw [← claimed_checks hchecks] at hname
  obtain ⟨c, hc, hclaimed⟩ := List.mem_flatMap.1 hname
  have hacts : ∀ a ∈ (r.inspection fs).verifyActs (r.root.below name),
      a ∈ checks.flatMap (r.inspection fs).acts := fun a ha =>
    List.mem_flatMap.2 ⟨c, hc, List.mem_append_left _ (List.mem_flatMap.2 ⟨name, hclaimed, ha⟩)⟩
  exact Inspection.isThere_of_quiet (i := r.inspection fs) (fun f hf => hreport f (hacts _ hf))
    (fun cause hcause => hhalt cause (hacts _ hcause))

/-- In an exact request that passes the walk meets no fault, and each file that it meets has the key
of some name. -/
theorem Passes.walk (h : r.Passes fs) (hexact : r.exact = true) :
    (∀ cause, .error cause ∉ fs.walk r.root) ∧
      ∀ seen, .ok seen ∈ fs.walk r.root →
        (r.inspection fs).Covers r.requested (PathName.joinParts seen) := by
  obtain ⟨checks, hchecks, -, hhalt, hdemand⟩ := h.quiet
  have hlast : Check.noMoreFiles ∈ checks := by
    rw [checks_eq hchecks, hexact]
    exact List.mem_append_right _ (List.mem_singleton_self _)
  have hacts : ∀ visit ∈ fs.walk r.root, ∀ a ∈ Act.upon visit
      (fun location => [.demand (PathName.joinParts location)]),
      a ∈ checks.flatMap (r.inspection fs).acts := fun visit hvisit a ha =>
    List.mem_flatMap.2 ⟨_, hlast, List.mem_append_right _ (List.mem_flatMap.2 ⟨visit, hvisit, ha⟩)⟩
  constructor
  · intro cause hcause
    exact hhalt cause (hacts _ hcause _ (List.mem_singleton_self _))
  · intro seen hseen
    exact hdemand _ (hacts _ hseen _ (List.mem_singleton_self _))

/-- An exact request for files. -/
def exactlyFiles (root : PathName) (names : List String) : TreeRequest where
  root := root
  files := names
  exact := true

/-- An exact request for files that are there passes if their texts lead to all files that a walk
meets. -/
theorem passes_of_covers {root : PathName} {names : List String} {walked : List (List String)}
    (hnames : ∀ name ∈ names, fs.IsThere (root.below name))
    (hwalk : fs.walk root = walked.map .ok)
    (hwalked : ∀ seen ∈ walked, ∃ name ∈ names,
      PathName.key fs.cwd root (root.below name) = PathName.joinParts seen) :
    (exactlyFiles root names).Passes fs := by
  have hrecords : Records ([Check.files names, .noFiles []].flatMap
      ((exactlyFiles root names).inspection fs).acts) [] := by
    have hverify : ∀ name ∈ names,
        Records (((exactlyFiles root names).inspection fs).verifyActs (root.below name)) [] := by
      intro name hname
      rw [Inspection.verifyActs_of_there (i := (exactlyFiles root names).inspection fs)
        (FileSystem.exists?_eq_true_iff.2 (hnames name hname))]
      exact .remember _
    have hall := Records.flatMap hverify
    rw [List.flatMap_eq_nil_iff.2 fun _ _ => rfl] at hall
    rw [List.flatMap_cons, Inspection.acts_files]
    exact hall.append .nil
  obtain ⟨q, hq, hfindings⟩ :=
    Inspection.outcome_noMoreFiles (i := (exactlyFiles root names).inspection fs) rfl hrecords hwalk
  have hquiet : q.findings = [] := by
    rw [hfindings, List.nil_append, List.map_eq_nil_iff, List.filter_eq_nil_iff]
    intro seen hseen
    obtain ⟨name, hname, hkey⟩ := hwalked seen hseen
    rw [decide_eq_true_eq, not_not]
    exact ⟨name, List.mem_append_left _ hname, hkey⟩
  have hchecks : (exactlyFiles root names).checks
      = .ok ([.files names, .noFiles []] ++ [.noMoreFiles]) := rfl
  refine ⟨(exactlyFiles root names).report q, run_of_outcome hchecks hq, ?_⟩
  rw [report, hquiet]
  rfl

/-! ### Names and locations -/

variable {root : PathName} {top : List String} {es : List (String × Node)}

/-- The plain name of a file that a walk meets leads to it, in truth and by its text. -/
theorem plain_name (hroot : fs.locate (.ofPath root) = .ok (top, .directory es))
    {seen : List String} {serial : Nat} (hnode : fs.node? (top ++ seen) = some (.file serial))
    (hsearch : fs.Passable top seen)
    (hsize : (root.below (PathName.joinParts seen)).render.utf8ByteSize < Route.sizeLimit) :
    fs.Denotes root (root.below (PathName.joinParts seen)) seen ∧
      fs.locate (.ofPath (root.below (PathName.joinParts seen))) = .ok (top ++ seen, .file serial) := by
  constructor
  · exact PathName.absoluteParts_below_joinParts fs.cwd root (FileSystem.isPart_of_node? hnode)
      (FileSystem.parent_not_mem_of_node? hnode)
  · exact FileSystem.locate_below hroot hnode (fun _ => Node.noConfusion) hsearch hsize

/-- Where the text of some name is misleading, or the file is another one, a name stands for the
location and does not lead to the file. -/
theorem exists_name_avoiding (hroot : fs.locate (.ofPath root) = .ok (top, .directory es))
    {seen : List String} (hseen : .ok seen ∈ fs.walk root) (serial : Nat)
    (hmislead : fs.node? (top ++ seen) = some (.file serial) → ¬ fs.Truthful root seen serial) :
    ∃ name, fs.Denotes root (root.below name) seen ∧ fs.IsThere (root.below name) ∧
      ¬ fs.Reaches (root.below name) serial := by
  obtain ⟨hentry, hsize, hsearch, other, hnode⟩ := (FileSystem.mem_walk_iff hroot seen).1 hseen
  by_cases hserial : other = serial
  · rw [hserial] at hnode
    have hnot := hmislead hnode
    simp only [FileSystem.Truthful, not_forall] at hnot
    obtain ⟨name, hdenotes, hthere, hreaches⟩ := hnot
    exact ⟨name, hdenotes, hthere, hreaches⟩
  · obtain ⟨-, hlist⟩ := FileSystem.enters_iff.1 hentry
    obtain ⟨hdenotes, hlocate⟩ :=
      plain_name hroot hnode (FileSystem.passable_of_mayEnter hlist hsearch) hsize
    refine ⟨_, hdenotes, ⟨_, _, hlocate⟩, ?_⟩
    intro h'
    obtain ⟨location, hreaches⟩ := h'
    rw [hlocate] at hreaches
    cases hreaches
    exact hserial rfl

/-- If every file that the walk meets has a name that stands for it and does not lead to one file,
then a request passes none of whose names leads to that file. -/
theorem exists_passing_avoiding (hroot : fs.locate (.ofPath root) = .ok (top, .directory es))
    (hfault : ∀ cause, .error cause ∉ fs.walk root) (serial : Nat)
    (hmislead : ∀ seen, .ok seen ∈ fs.walk root → fs.node? (top ++ seen) = some (.file serial) →
      ¬ fs.Truthful root seen serial) :
    ∃ r : TreeRequest, r.root = root ∧ r.exact = true ∧ r.Passes fs ∧
      ∀ name ∈ r.requested, ¬ fs.Reaches (root.below name) serial := by
  have hwalk := FileSystem.eq_map_met hfault
  have hpick : ∀ seen, .ok seen ∈ fs.walk root → ∃ name, fs.Denotes root (root.below name) seen ∧
      fs.IsThere (root.below name) ∧ ¬ fs.Reaches (root.below name) serial := fun seen hseen =>
    exists_name_avoiding hroot hseen serial (hmislead seen hseen)
  choose! pick hpick using hpick
  have hmem : ∀ seen ∈ FileSystem.met (fs.walk root), .ok seen ∈ fs.walk root := fun seen hseen =>
    FileSystem.ok_mem_of_mem_met hseen
  refine ⟨exactlyFiles root ((FileSystem.met (fs.walk root)).map pick), rfl, rfl, ?_, ?_⟩
  · refine passes_of_covers (fun name hname => ?_) hwalk (fun seen hseen => ?_)
    · obtain ⟨seen, hseen, rfl⟩ := List.mem_map.1 hname
      exact (hpick seen (hmem seen hseen)).2.1
    · obtain ⟨-, -, -, other, hnode⟩ := (FileSystem.mem_walk_iff hroot seen).1 (hmem seen hseen)
      refine ⟨pick seen, List.mem_map_of_mem hseen, ?_⟩
      exact (FileSystem.key_eq_iff_denotes hnode _).2 (hpick seen (hmem seen hseen)).1
  · intro name hname
    have hpicked : name ∈ (FileSystem.met (fs.walk root)).map pick := by
      simpa [requested, exactlyFiles] using hname
    obtain ⟨seen, hseen, rfl⟩ := List.mem_map.1 hpicked
    exact (hpick seen (hmem seen hseen)).2.2

/-- A request that passes has a name whose text leads to a file that the walk meets. -/
theorem Passes.exists_denoting (h : r.Passes fs) (hexact : r.exact = true)
    (hroot : fs.locate (.ofPath r.root) = .ok (top, .directory es)) {seen : List String}
    (hseen : .ok seen ∈ fs.walk r.root) : ∃ name ∈ r.requested,
      fs.Denotes r.root (r.root.below name) seen ∧ fs.IsThere (r.root.below name) := by
  obtain ⟨name, hname, hkey⟩ := (h.walk hexact).2 seen hseen
  obtain ⟨-, -, -, serial, hnode⟩ := (FileSystem.mem_walk_iff hroot seen).1 hseen
  exact ⟨name, hname, (FileSystem.key_eq_iff_denotes hnode _).1 hkey, h.isThere hname⟩

/-- **The exact check**, on a tree whose root is a directory. Every exact request that passes leads to
every file below the root by one of its names exactly if no request can pass, since the walk meets a
fault, or every file is met by the walk at a location to which no text is misleading. On every tree a
request that passes leads to every file that the walk meets, if in the root and the names no `..`
stands behind a symbolic link. -/
theorem exact_check_sound_iff (hroot : fs.locate (.ofPath root) = .ok (top, .directory es)) :
    ((∀ r : TreeRequest, r.root = root → r.exact = true → r.Passes fs →
        ∀ location serial, fs.node? (top ++ location) = some (.file serial) →
          ∃ name ∈ r.requested, fs.Reaches (root.below name) serial) ↔
      (∃ cause, .error cause ∈ fs.walk root) ∨
        ∀ location serial, fs.node? (top ++ location) = some (.file serial) →
          ∃ seen, .ok seen ∈ fs.walk root ∧ fs.node? (top ++ seen) = some (.file serial) ∧
            fs.Truthful root seen serial) ∧
    (∀ r : TreeRequest, r.root = root → r.exact = true → r.Passes fs →
      fs.Straight root → (∀ name ∈ r.requested, fs.Straight (root.below name)) →
      ∀ seen, .ok seen ∈ fs.walk root → ∃ name ∈ r.requested, ∃ serial,
        fs.locate (.ofPath (root.below name)) = .ok (top ++ seen, .file serial)) := by
  refine ⟨⟨?_, ?_⟩, ?_⟩
  · intro hsound
    by_cases hfault : ∃ cause, .error cause ∈ fs.walk root
    · exact .inl hfault
    · refine .inr fun location serial hfile => ?_
      by_contra hnone
      -- otherwise each file that the walk meets has a name that avoids this one
      obtain ⟨r, hr, hexact, hpasses, havoid⟩ := exists_passing_avoiding hroot
        (fun cause hcause => hfault ⟨cause, hcause⟩) serial
        (fun seen hseen hnode htruthful => hnone ⟨seen, hseen, hnode, htruthful⟩)
      obtain ⟨name, hname, hreaches⟩ := hsound r hr hexact hpasses location serial hfile
      exact havoid name hname hreaches
  · rintro hcondition r rfl hexact hpasses location serial hfile
    rcases hcondition with ⟨cause, hcause⟩ | htruthful
    · exact absurd hcause ((hpasses.walk hexact).1 cause)
    · obtain ⟨seen, hseen, -, htruth⟩ := htruthful location serial hfile
      obtain ⟨name, hname, hdenotes, hthere⟩ := hpasses.exists_denoting hexact hroot hseen
      exact ⟨name, hname, htruth name hdenotes hthere⟩
  · rintro r rfl hexact hpasses hstraight hnames seen hseen
    obtain ⟨-, -, -, serial, hnode⟩ := (FileSystem.mem_walk_iff hroot seen).1 hseen
    obtain ⟨name, hname, hdenotes, location, node, hlocate⟩ :=
      hpasses.exists_denoting hexact hroot hseen
    obtain ⟨rfl, rfl⟩ := FileSystem.locate_of_straight hstraight (hnames name hname) hroot
      hlocate hdenotes hnode (fun _ => Node.noConfusion)
    exact ⟨name, hname, serial, hlocate⟩

/-- A root with two files, in it and in a directory `b`, and a link `l` to a directory in `b`. -/
def twistedTree : FileSystem where
  top := [("home", .directory [("root", .directory
    [("f", .file 0), ("b", .directory [("c", .directory []), ("f", .file 1)]), ("l", .link "b/c")])])]
  contents := [(0, [120]), (1, [121])]
  fresh := 2
  cwd := ["home"]
  top_sound := by decide
  cwd_there := by decide

/-- An exact request for both files by their plain names. -/
def plainRequest : TreeRequest :=
  exactlyFiles (PathName.ofString "root") ["f", "b/f"]

/-- An exact request for the file in `b` by two names. The text of the second one leads to the other
file. -/
def misleadingRequest : TreeRequest :=
  exactlyFiles (PathName.ofString "root") ["b/f", "l/../f"]

theorem locate_twistedTree : twistedTree.locate (.ofPath (PathName.ofString "root"))
    = .ok (["home", "root"], .directory [("f", .file 0),
      ("b", .directory [("c", .directory []), ("f", .file 1)]), ("l", .link "b/c")]) := by cbv

/-- The plain request passes and leads to every file that the walk meets. -/
theorem exact_check_of_plainRequest : plainRequest.Passes twistedTree ∧
    ∀ seen, .ok seen ∈ twistedTree.walk (PathName.ofString "root") →
      ∃ name ∈ plainRequest.requested, ∃ serial,
        twistedTree.locate (.ofPath ((PathName.ofString "root").below name))
          = .ok (["home", "root"] ++ seen, .file serial) := by
  have hpasses : plainRequest.Passes twistedTree := ⟨_, by cbv, rfl⟩
  refine ⟨hpasses, (exact_check_sound_iff locate_twistedTree).2 plainRequest rfl rfl hpasses
    (FileSystem.straight_of_not_mem (by decide)) fun name hname => ?_⟩
  have hnames : name = "f" ∨ name = "b/f" := by
    simpa [requested, plainRequest, exactlyFiles] using hname
  rcases hnames with rfl | rfl <;> exact FileSystem.straight_of_not_mem (by decide)

/-- **The exact check is not sound**: the misleading request passes, and none of its names leads to
the file in the root. -/
theorem exact_check_unsound : misleadingRequest.Passes twistedTree ∧
    twistedTree.node? (["home", "root"] ++ ["f"]) = some (.file 0) ∧
    ∀ name ∈ misleadingRequest.requested,
      ¬ twistedTree.Reaches ((PathName.ofString "root").below name) 0 := by
  have hplain : twistedTree.locate (.ofPath ((PathName.ofString "root").below "b/f"))
      = .ok (["home", "root", "b", "f"], .file 1) := by cbv
  have htwisted : twistedTree.locate (.ofPath ((PathName.ofString "root").below "l/../f"))
      = .ok (["home", "root", "b", "f"], .file 1) := by cbv
  refine ⟨⟨_, by cbv, rfl⟩, by cbv, ?_⟩
  rintro name hname ⟨location, hreaches⟩
  have hnames : name = "b/f" ∨ name = "l/../f" := by
    simpa [requested, misleadingRequest, exactlyFiles] using hname
  rcases hnames with rfl | rfl
  · rw [hplain] at hreaches
    cases hreaches
  · rw [htwisted] at hreaches
    cases hreaches

end TreeRequest

end MigrationBench
