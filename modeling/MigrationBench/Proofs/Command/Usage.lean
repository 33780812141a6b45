import MigrationBench.Main
import MigrationBench.Proofs.Command.Verdict
import MigrationBench.Proofs.Tree.Completion

/-!
# Usage errors of the tree command

The tree command shows every fault that lies in a value as a usage error. Names that no file can have
do not make the checks fail in that way, and contents are read whatever their bytes are, so such a fault
is always a text that is no pair, and it is found before anything is checked.

* `IsMalformed` — the texts that are no pairs; `splitPair?_eq_none`, `exists_pair` decide between both.
* `TreeRequest.firstMalformed?` — the first such text of a request: `TreeRequest.run_of_malformed`.
* `Inspection.isBadValue_of_halt_mem` — no check of a root that can be meets a fault that lies in a value.
* `CommandLine.hasNul_of_treeRequest` — the root on a command line can be.
* `TreeRequest.usage_error_iff_malformed` — the usage errors are exactly the malformed pairs.
-/

namespace MigrationBench

/-! ### Texts that are no pairs -/

/-- A text is no pair if it has no equals sign or begins with one. -/
def IsMalformed (text : String) : Prop :=
  '=' ∉ text.toList ∨ text.toList.head? = some '='

instance : DecidablePred IsMalformed := fun _ => inferInstanceAs (Decidable (_ ∨ _))

theorem splitPair?_eq_none {text : String} (h : IsMalformed text) : splitPair? text = none := by
  rcases h with habsent | hhead
  · have hafter : text.toList.dropWhile (· != '=') = [] := by
      rw [List.dropWhile_eq_nil_iff]
      intro c hc
      rw [bne_iff_ne]
      rintro rfl
      exact habsent hc
    simp only [splitPair?, hafter]
  · cases hcs : text.toList with
    | nil =>
      rw [hcs] at hhead
      cases hhead
    | cons c rest =>
      rw [hcs, List.head?_cons, Option.some_inj] at hhead
      subst hhead
      simp [splitPair?, hcs]

/-- Any other text is cut at its first equals sign. -/
theorem exists_pair {text : String} (h : ¬ IsMalformed text) :
    ∃ pair, IsPair pair ∧ text = pairText pair := by
  obtain ⟨hmem, hhead⟩ := not_or.1 h
  obtain ⟨name, value, hcut, hname⟩ := List.eq_append_cons_of_mem (not_not.1 hmem)
  have hne : name ≠ [] := by
    rintro rfl
    rw [hcut] at hhead
    exact hhead rfl
  refine ⟨(String.ofList name, String.ofList value), ⟨?_, ?_⟩, ?_⟩
  · intro hempty
    rw [← String.toList_eq_nil_iff, String.toList_ofList] at hempty
    exact hne hempty
  · rw [String.toList_ofList]
    exact hname
  · apply String.toList_inj.1
    rw [toList_pairText, String.toList_ofList, String.toList_ofList]
    exact hcut

/-- All texts are split in order, unless one of them is no pair: then the first such text is told. -/
theorem mapM_splitPair_eq (option : PairOption) (texts : List String) :
    texts.mapM (splitPair option) = match texts.find? (IsMalformed ·) with
      | some text => .error (.notPair option text)
      | none => .ok (texts.filterMap splitPair?) := by
  induction texts with
  | nil => rfl
  | cons text texts ih =>
    rw [List.mapM_cons, splitPair, ih]
    by_cases hbad : IsMalformed text
    · have hfirst : (text :: texts).find? (IsMalformed ·) = some text :=
        List.find?_cons_of_pos (decide_eq_true hbad)
      rw [splitPair?_eq_none hbad, hfirst]
      rfl
    · obtain ⟨pair, hpair, rfl⟩ := exists_pair hbad
      have hrest : (pairText pair :: texts).find? (IsMalformed ·) = texts.find? (IsMalformed ·) :=
        List.find?_cons_of_neg (by simpa using hbad)
      rw [splitPair?_pairText hpair, hrest, List.filterMap_cons, splitPair?_pairText hpair]
      cases texts.find? (IsMalformed ·) <;> rfl

/-! ### Requests with such a text -/

namespace TreeRequest

variable (r : TreeRequest)

/-- The texts of a request that have to be pairs, contents before links. -/
def pairTexts : List (PairOption × String) :=
  r.contents.map (.content, ·) ++ r.symlinks.map (.symlink, ·)

/-- The first text of a request that is no pair. -/
def firstMalformed? : Option (PairOption × String) :=
  r.pairTexts.find? fun given => IsMalformed given.2

variable {r}

theorem firstMalformed?_isSome_iff :
    r.firstMalformed?.isSome ↔ ∃ text ∈ r.contents ++ r.symlinks, IsMalformed text := by
  rw [firstMalformed?, List.find?_isSome]
  constructor
  · rintro ⟨⟨option, text⟩, hmem, hbad⟩
    refine ⟨text, ?_, of_decide_eq_true hbad⟩
    simp only [pairTexts, List.mem_append, List.mem_map, Prod.mk.injEq] at hmem
    rcases hmem with ⟨_, hmem, -, rfl⟩ | ⟨_, hmem, -, rfl⟩
    · exact List.mem_append_left _ hmem
    · exact List.mem_append_right _ hmem
  · rintro ⟨text, hmem, hbad⟩
    rcases List.mem_append.1 hmem with hmem | hmem
    · exact ⟨(.content, text), List.mem_append_left _ (List.mem_map_of_mem hmem), decide_eq_true hbad⟩
    · exact ⟨(.symlink, text), List.mem_append_right _ (List.mem_map_of_mem hmem), decide_eq_true hbad⟩

/-- The checks of a request, if all its texts are pairs. -/
theorem checks_eq_firstMalformed? :
    (∀ option text, r.firstMalformed? = some (option, text) → r.checks = .error (.notPair option text)) ∧
      (r.firstMalformed? = none → ∃ checks, r.checks = .ok checks) := by
  have hfirst : r.firstMalformed? = ((r.contents.find? (IsMalformed ·)).map (PairOption.content, ·)).or
      ((r.symlinks.find? (IsMalformed ·)).map (PairOption.symlink, ·)) := by
    rw [firstMalformed?, pairTexts, List.find?_append, List.find?_map, List.find?_map]
    rfl
  rw [hfirst, checks, mapM_splitPair_eq, mapM_splitPair_eq]
  cases r.contents.find? (IsMalformed ·) with
  | some text =>
    refine ⟨?_, fun h => by cases h⟩
    intro option other h
    cases h
    rfl
  | none =>
    cases r.symlinks.find? (IsMalformed ·) with
    | some text =>
      refine ⟨?_, fun h => by cases h⟩
      intro option other h
      cases h
      rfl
    | none => exact ⟨fun _ _ h => by (cases h), fun _ => ⟨_, rfl⟩⟩

/-- **A text that is no pair is found first**, whatever the files are, and nothing is checked. -/
theorem run_of_malformed {option : PairOption} {text : String}
    (h : r.firstMalformed? = some (option, text)) (fs : FileSystem) :
    r.run fs = (.error (.notPair option text), []) := by
  rw [run, checks_eq_firstMalformed?.1 option text h]

end TreeRequest

/-! ### The faults of checks -/

namespace FileSystem

variable {fs : FileSystem}

/-- Reading a file that is there fails only at a directory or at a file that may not be read. -/
theorem cause_of_read {p : PathName} {cause : FileFault} (hthere : fs.IsThere p)
    (h : fs.read p = .error cause) : cause = .isDirectory ∨ cause = .denied := by
  obtain ⟨location, node, hlocate⟩ := hthere
  rw [read, hlocate] at h
  replace h : (if fs.allows .read (identity location node) then _ else throw FileFault.denied)
    = Except.error cause := h
  split at h
  · cases node with
    | directory es =>
      cases h
      exact .inl rfl
    | _ => cases h
  · cases h
    exact .inr rfl

/-- What stands in the way of a look-up does not lie in a value. -/
theorem Obstructs.isBadValue_eq {cause : FileFault} (h : fs.Obstructs cause) :
    cause.isBadValue = false := by
  rcases h with rfl | ⟨rfl, -⟩ <;> rfl

/-- A route that leads somewhere holds no NUL. -/
theorem hasNul_of_locate_eq_ok {r : Route} {found : List String × Node}
    (h : fs.locate r = .ok found) : r.hasNul = false := by
  by_contra hnul
  rw [Bool.not_eq_false] at hnul
  rw [locate, place, if_pos hnul] at h
  cases h

end FileSystem

namespace Inspection

variable {i : Inspection}

/-- **No check meets a fault that lies in a value**, if the root is a path that can be: names that cannot
be are not there, and bytes that are no text are read all the same. -/
theorem isBadValue_of_halt_mem (hroot : i.root.hasNul = false) {c : Check} {cause : FileFault}
    (h : .halt cause ∈ i.acts c) : cause.isBadValue = false := by
  cases hreads : c.readsBytes with
  | false =>
    rcases cause_of_halt_mem hreads h with hobstructs | ⟨-, -, hnul⟩
    · exact hobstructs.isBadValue_eq
    · rw [hroot] at hnul
      cases hnul
  | true =>
    -- the other checks: a file is looked up, and read if it is there
    cases c with
    | file name contents =>
      rw [acts_file, List.mem_append] at h
      rcases h with h | h
      · have hlookup : .halt cause ∈ i.acts (.files [name]) := by
          rw [acts_files, List.flatMap_singleton]
          exact h
        rcases cause_of_halt_mem rfl hlookup with hobstructs | ⟨-, hlast, -⟩
        · exact hobstructs.isBadValue_eq
        · cases hlast
      · rcases mem_upon.1 h with ⟨there, hthere, hmem⟩ | ⟨fault, hfault, heq⟩
        · cases there with
          | false => cases hmem
          | true =>
            rcases mem_upon.1 hmem with ⟨bytes, -, hcompare⟩ | ⟨fault, hfault, heq⟩
            · split at hcompare <;> simp at hcompare
            · cases heq
              rcases FileSystem.cause_of_read (FileSystem.exists?_eq_true_iff.1 hthere) hfault with
                rfl | rfl <;> rfl
        · cases heq
          exact (FileSystem.obstructs_of_exists? hfault).isBadValue_eq
    | _ => cases hreads

end Inspection

namespace TreeRequest

variable {r : TreeRequest} {fs : FileSystem}

/-- A request whose texts are pairs ends with a report or at a fault of the files. -/
theorem run_of_wellFormed (hroot : r.root.hasNul = false) (h : r.firstMalformed? = none) :
    (∃ p, (r.run fs).1 = .ok (r.report p)) ∨
      ∃ cause, (r.run fs).1 = .error (.halt (.file cause)) ∧ cause.isBadValue = false := by
  obtain ⟨checks, hchecks⟩ := checks_eq_firstMalformed?.2 h
  rcases hout : (r.inspection fs).outcome checks {} with ⟨result, p⟩
  rw [run_of_outcome hchecks hout]
  cases result with
  | ok u => exact .inl ⟨p, rfl⟩
  | error halt =>
    right
    have henact := hout
    rw [Inspection.outcome_eq_enact] at henact
    obtain ⟨cause, rfl⟩ := (r.inspection fs).enact_recording_error (checks.flatMap (r.inspection fs).acts)
      {} halt (congrArg Prod.fst henact)
    obtain ⟨c, -, hhalt⟩ := List.mem_flatMap.1 (Inspection.halt_mem_of_enact henact)
    exact ⟨cause, rfl, Inspection.isBadValue_of_halt_mem hroot hhalt⟩

end TreeRequest

/-! ### The command line -/

namespace CommandLine

variable {fs : FileSystem}

/-- A path on the command line leads somewhere, so it can be. -/
theorem hasNul_of_pathOf {parameter text : String} {kind : PathKind} {path : PathName}
    (h : pathOf fs parameter kind text = .ok path) : path.hasNul = false := by
  rw [pathOf] at h
  cases hnode : locateText fs text with
  | error cause =>
    rw [hnode] at h
    cases cause <;> cases h
  | ok node =>
    rw [hnode] at h
    rw [locateText] at hnode
    split at hnode
    · cases hnode
    · cases hlocate : fs.locate (.ofText text) with
      | error cause =>
        rw [hlocate] at hnode
        cases hnode
      | ok found =>
        have hnul : (Route.ofText text).hasNul = false := FileSystem.hasNul_of_locate_eq_ok hlocate
        simp only at h
        split at h
        · cases h
        · split at h
          · cases h
            rw [Route.hasNul, List.any_eq_false] at hnul
            rw [PathName.hasNul, List.any_eq_false]
            intro part hpart
            exact hnul part (FileSystem.mem_route_of_mem_parts hpart)
          · cases h

theorem hasNul_of_onlyPath {parameter : String} {kind : PathKind} {texts : List String}
    {path : PathName} (h : onlyPath fs parameter kind texts = .ok path) : path.hasNul = false := by
  cases texts with
  | nil => cases h
  | cons text rest =>
    rw [onlyPath] at h
    cases hpath : pathOf fs parameter kind text with
    | error ending =>
      rw [hpath] at h
      cases h
    | ok found =>
      have hrest : (if rest = [] then .ok found else .error (.usage (.extraArguments rest)) :
          Step PathName) = .ok path := by
        rw [hpath] at h
        exact h
      split at hrest
      · cases hrest
        exact hasNul_of_pathOf hpath
      · cases hrest

/-- The root of a request on a command line can be. -/
theorem hasNul_of_treeRequest {words : List String} {request : TreeRequest}
    (h : treeRequest fs words = .ok request) : request.root.hasNul = false := by
  rw [treeRequest] at h
  cases hwords : commandWords treeOptions words with
  | error ending =>
    rw [hwords] at h
    cases h
  | ok w =>
    rw [hwords] at h
    cases hroot : onlyPath fs "ROOT" .directory w.arguments with
    | error ending =>
      simp only [bind, Except.bind, hroot] at h
      cases h
    | ok root =>
      simp only [bind, Except.bind, hroot, pure, Except.pure, Except.ok.injEq] at h
      subst h
      exact hasNul_of_onlyPath hroot

/-- A command line with the tree command runs what its words ask for. -/
theorem run_tree {zone : Offset} {words rest : List String} {level : Option String}
    {request : TreeRequest} (hwords : groupWords words = .ok (level, "tree" :: rest))
    (hrequest : treeRequest fs rest = .ok request) :
    (run fs zone words).1 = treeEnding (request.run fs).1 := by
  have hne : words ≠ [] := by
    rintro rfl
    cases hwords
  rw [run, if_neg hne, hwords]
  show (runCommand fs zone "tree" rest).1 = _
  rw [runCommand, if_pos rfl, hrequest]

/-- A report of the tree command is no usage error. -/
theorem status_report (r : TreeRequest) (p : Progress) :
    (Program.reportOf (.output (r.report p))).status ≠ 2 := by
  show UInt32.ofNat (r.report p).exit ≠ 2
  have hexit : (r.report p).exit = if p.findings = [] then 0 else 1 := by
    rw [TreeRequest.report]
    cases r.asJson <;> rfl
  rw [hexit]
  split <;> decide

/-- A request on a command line ends as a usage error exactly if one of its texts is no pair. The first
such text is named. -/
theorem ending_of_treeRequest {words : List String} {request : TreeRequest}
    (hrequest : treeRequest fs words = .ok request) :
    (∀ cause, treeEnding (request.run fs).1 = .usage cause ↔ ∃ option text,
      request.firstMalformed? = some (option, text) ∧ cause = .badValue (option.complaint text)) ∧
    ((Program.reportOf (treeEnding (request.run fs).1)).status = 2 ↔
      request.firstMalformed?.isSome) := by
  cases hfirst : request.firstMalformed? with
  | some given =>
    obtain ⟨option, text⟩ := given
    rw [TreeRequest.run_of_malformed hfirst fs]
    refine ⟨?_, fun _ => rfl, fun _ => rfl⟩
    intro cause
    constructor
    · intro h
      cases h
      exact ⟨option, text, rfl, rfl⟩
    · rintro ⟨other, otherText, heq, rfl⟩
      cases heq
      rfl
  | none =>
    have hnone : ∀ cause, ¬ ∃ option text,
        (none : Option (PairOption × String)) = some (option, text) ∧
          cause = UsageFault.badValue (option.complaint text) := by
      rintro cause ⟨option, text, heq, -⟩
      cases heq
    rcases @TreeRequest.run_of_wellFormed request fs (hasNul_of_treeRequest hrequest) hfirst with
      ⟨p, hp⟩ | ⟨cause, hcause, hgood⟩
    · rw [hp]
      refine ⟨fun other => iff_of_false (fun h => by cases h) (hnone other), ?_⟩
      exact iff_of_false (status_report request p) (by simp)
    · have hending : treeEnding (.error (.halt (.file cause))) = .halt (.file cause) := by
        rw [treeEnding, hgood]
        rfl
      rw [hcause, hending]
      refine ⟨fun other => iff_of_false (fun h => by cases h) (hnone other), ?_⟩
      refine iff_of_false ?_ (by simp)
      show (1 : UInt32) ≠ 2
      decide

end CommandLine

namespace TreeRequest

/-- **Usage errors of the tree command are exactly the malformed pairs.** A run on a root that is a
directory ends at a fault that lies in a value if and only if a text for contents or links has no equals
sign or begins with one. The first such text is told, contents before links, whatever the files are, and
nothing has been checked by then. So the program shows a usage error for a tree command whose words are
understood exactly for such a text, and no check that fails or cannot be made gives the exit status of a
usage error. Every other text is cut at its first equals sign, and every pair is read back. -/
theorem usage_error_iff_malformed (fs : FileSystem) (r : TreeRequest)
    (hroot : ∃ top es, fs.locate (.ofPath r.root) = .ok (top, .directory es)) :
    ((∃ fault, (r.run fs).1 = .error fault ∧ fault.isBadValue = true) ↔
      ∃ text ∈ r.contents ++ r.symlinks, IsMalformed text) ∧
    (∀ option text, r.firstMalformed? = some (option, text) →
      ∀ files, r.run files = (.error (.notPair option text), [])) ∧
    (∀ zone words level rest request,
      CommandLine.groupWords words = .ok (level, "tree" :: rest) →
      CommandLine.treeRequest fs rest = .ok request →
      (∀ cause, (CommandLine.run fs zone words).1 = .usage cause ↔ ∃ option text,
        request.firstMalformed? = some (option, text) ∧
          cause = .badValue (option.name ++ " expects NAME=VALUE, got '" ++ text ++ "'")) ∧
      ((Program.reportOf (CommandLine.run fs zone words).1).status = 2 ↔
        ∃ text ∈ request.contents ++ request.symlinks, IsMalformed text)) ∧
    (∀ text, ¬ IsMalformed text → ∃ name value, name ≠ "" ∧ '=' ∉ name.toList ∧
      text = name ++ "=" ++ value) ∧
    ∀ name value, name ≠ "" → '=' ∉ name.toList →
      splitPair? (name ++ "=" ++ value) = some (name, value) := by
  refine ⟨?_, fun option text => run_of_malformed, ?_, ?_, ?_⟩
  · rw [← firstMalformed?_isSome_iff]
    constructor
    · rintro ⟨fault, hfault, hbad⟩
      by_contra hnone
      have hfirst : r.firstMalformed? = none := by simpa using hnone
      obtain ⟨top, es, htop⟩ := hroot
      rcases run_of_wellFormed (FileSystem.hasNul_of_locate_eq_ok htop) hfirst with
        ⟨p, hp⟩ | ⟨cause, hcause, hgood⟩
      · rw [hp] at hfault
        cases hfault
      · rw [hcause] at hfault
        cases hfault
        rw [TreeFault.isBadValue, hgood] at hbad
        cases hbad
    · intro h
      obtain ⟨⟨option, text⟩, hfirst⟩ := Option.isSome_iff_exists.1 h
      exact ⟨.notPair option text, by rw [run_of_malformed hfirst], rfl⟩
  · intro zone words level rest request hwords hrequest
    have hending := CommandLine.ending_of_treeRequest hrequest
    simp only [PairOption.complaint] at hending
    rw [CommandLine.run_tree hwords hrequest, ← firstMalformed?_isSome_iff]
    exact hending
  · intro text h
    obtain ⟨pair, hpair, htext⟩ := exists_pair h
    exact ⟨pair.1, pair.2, hpair.name_ne, hpair.equals_not_mem, htext⟩
  · intro name value hname hequals
    have hpair : IsPair (name, value) := ⟨hname, hequals⟩
    have hread := splitPair?_pairText hpair
    rw [pairText] at hread
    exact hread

/-- A line with three texts for pairs: the second one has nothing before its equals sign, and the third
one has no equals sign. -/
def oddLine : List String :=
  ["tree", ".", "--symlink", "l", "--content", "a=x=y", "--content", "=x"]

/-- What the odd line asks for. -/
def oddRequest : TreeRequest where
  root := PathName.ofString "."
  contents := ["a=x=y", "=x"]
  symlinks := ["l"]

/-- The odd line ends as a usage error that names the second text, since contents come before links. -/
theorem usage_error_of_oddLine :
    (∃ top es, Expectation.smallTree.locate (.ofPath oddRequest.root) = .ok (top, .directory es)) ∧
    (∃ fault, (oddRequest.run Expectation.smallTree).1 = .error fault ∧ fault.isBadValue = true) ∧
    (CommandLine.run Expectation.smallTree Offset.utc oddLine).1
      = .usage (.badValue "--content expects NAME=VALUE, got '=x'") ∧
    splitPair? "a=x=y" = some ("a", "x=y") := by
  have hroot : ∃ top es, Expectation.smallTree.locate (.ofPath oddRequest.root)
      = .ok (top, .directory es) := ⟨_, _, Expectation.locate_smallTree⟩
  have hbad : IsMalformed "=x" := by decide
  have hwords : CommandLine.groupWords oddLine = .ok (none, "tree" :: oddLine.tail) := by cbv
  have hrequest : CommandLine.treeRequest Expectation.smallTree oddLine.tail = .ok oddRequest := by cbv
  have hfirst : oddRequest.firstMalformed? = some (.content, "=x") := by decide
  obtain ⟨hfault, -, hline, -, hsplit⟩ := usage_error_iff_malformed Expectation.smallTree oddRequest hroot
  refine ⟨hroot, hfault.2 ⟨"=x", by decide, hbad⟩, ?_, hsplit "a" "x=y" (by decide) (by decide)⟩
  obtain ⟨hcause, -⟩ := hline Offset.utc oddLine none oddLine.tail oddRequest hwords hrequest
  exact (hcause _).2 ⟨.content, "=x", hfirst, by decide⟩

end TreeRequest

end MigrationBench
