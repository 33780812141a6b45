import MigrationBench.Proofs.Tree.Reordering

/-!
# Runs that read no bytes

Checks that only ask whether paths are there, and what links they name, end early for one reason: a
path is too long, may not be looked up, or is no path at all. Otherwise a recording run completes, and
each check adds exactly what is wrong with the names that it is given.

* `Check.readsBytes` — the checks that read contents.
* `Check.followed`, `Check.named` — the names that a check looks up, with or without following a link.
* `Inspection.found`, `Inspection.account` — the findings of a check and of a run.
* `Inspection.findings_eq_account` — a run that completes records its account.
* `Inspection.InReach`, `Inspection.halt_not_mem_of_inReach` — where everything is in reach, no check
  meets a fault.
* `Inspection.run_without_reading` — how runs of such checks end and what they record.
* `Inspection.run_halted` — runs that do not complete.
-/

namespace MigrationBench

/-- Whether a check reads the contents of a file. -/
def Check.readsBytes : Check → Bool
  | .file .. => true
  | _ => false

/-- The names that a check looks up to see what is there. -/
def Check.followed : Check → List String
  | .files names | .noFiles names => names
  | .file name _ => [name]
  | .symlink _ target => [target]
  | .noMoreFiles => []

/-- The names that a check looks up to see whether they are links. -/
def Check.named : Check → List String
  | .symlink name _ => [name]
  | _ => []

namespace Inspection

variable (i : Inspection)

/-- What is wrong with the names of a check, of which contents are compared if they are regular files,
or with the tree after so many paths are verified. -/
def found (verified : List String) : Check → List Finding
  | .files names => names.flatMap (i.files.missing i.root)
  | .noFiles names => names.flatMap (i.files.unexpected i.root)
  | .file name contents => i.files.missing i.root name ++ i.files.mismatch i.root name contents
  | .symlink name target => i.files.missing i.root target ++ i.files.misdirected i.root name target
  | .noMoreFiles => i.strays verified

/-- What is wrong in a run: each check is told the paths that those before it claim. -/
def account (verified : List String) : List Check → List Finding
  | [] => []
  | c :: checks =>
    i.found verified c ++
      account (verified ++ c.claimed.map fun name => i.key (i.root.below name)) checks

/-- An account depends on which paths are verified, not on their order. -/
theorem account_congr (checks : List Check) {verified verified' : List String}
    (h : ∀ k, k ∈ verified' ↔ k ∈ verified) : i.account verified' checks = i.account verified checks := by
  induction checks generalizing verified verified' with
  | nil => rfl
  | cons c checks ih =>
    have hfound : i.found verified' c = i.found verified c := by
      cases c with
      | noMoreFiles => exact i.strays_congr h
      | _ => rfl
    rw [account, account, hfound, ih]
    intro k
    rw [List.mem_append, List.mem_append, h k]

theorem account_recording (verified : List String) (checks : List Check) :
    i.recording.account verified checks = i.account verified checks := by
  induction checks generalizing verified with
  | nil => rfl
  | cons c checks ih =>
    have hfound : i.recording.found verified c = i.found verified c := by cases c <;> rfl
    rw [account, account, hfound, ih]
    rfl

variable {i}

/-! ### The findings of a check -/

/-- Where acts upon an answer are without faults, there is an answer, and the acts that follow it are
without faults. -/
theorem ok_of_halt_not_mem {α : Type} {answer : Except FileFault α} {acts : α → List Act}
    (h : ∀ cause, .halt cause ∉ Act.upon answer acts) :
    ∃ x, answer = .ok x ∧ ∀ cause, .halt cause ∉ acts x := by
  cases answer with
  | error cause => exact absurd (List.mem_singleton_self _) (h cause)
  | ok x => exact ⟨x, rfl, h⟩

/-- A link that is verified without faults has been compared to its target. -/
theorem records_link_of_quiet {name target : String} {there : Bool}
    (htarget : i.files.exists? (i.root.below target) = .ok there)
    (hhalt : ∀ cause, .halt cause ∉ i.linkActs name target) :
    Records (i.linkActs name target) (i.files.misdirected i.root name target) := by
  obtain ⟨link, hlink, hacts⟩ := ok_of_halt_not_mem hhalt
  refine records_link_of_ok hlink fun text htext => ?_
  rw [htext] at hacts
  obtain ⟨same, hsame, -⟩ := ok_of_halt_not_mem hacts
  cases hreached : i.files.exists? (i.reached name text) with
  | ok reached => exact agree_eq hreached htarget
  | error cause =>
    rw [FileSystem.agree, hreached] at hsame
    cases hsame

/-- A check of names that meets no fault and reads no bytes records what is wrong with its names. -/
theorem records_found {c : Check} (hreads : c.readsBytes = false) (hnamed : c ≠ .noMoreFiles)
    (hhalt : ∀ cause, .halt cause ∉ i.acts c) (verified : List String) :
    Records (i.acts c) (i.found verified c) := by
  have hverify : ∀ {name : String}, (∀ cause, .halt cause ∉ i.verifyActs (i.root.below name)) →
      Records (i.verifyActs (i.root.below name)) (i.files.missing i.root name) := fun hquiet => by
    obtain ⟨there, hthere, -⟩ := ok_of_halt_not_mem hquiet
    exact records_verify_of_ok hthere
  cases c with
  | files names =>
    rw [acts_files] at hhalt ⊢
    exact .flatMap fun name hname => hverify fun cause hcause =>
      hhalt cause (List.mem_flatMap.2 ⟨name, hname, hcause⟩)
  | noFiles names =>
    rw [acts_noFiles] at hhalt ⊢
    refine .flatMap fun name hname => ?_
    obtain ⟨there, hthere, -⟩ := ok_of_halt_not_mem fun cause hcause =>
      hhalt cause (List.mem_flatMap.2 ⟨name, hname, hcause⟩)
    exact records_absence_of_ok hthere
  | file name contents => cases hreads
  | symlink name target =>
    rw [acts_symlink] at hhalt ⊢
    have hquiet : ∀ cause, .halt cause ∉ i.verifyActs (i.root.below target) := fun cause hcause =>
      hhalt cause (List.mem_append_left _ hcause)
    obtain ⟨there, hthere, -⟩ := ok_of_halt_not_mem hquiet
    exact (hverify hquiet).append (records_link_of_quiet hthere fun cause hcause =>
      hhalt cause (List.mem_append_right _ hcause))
  | noMoreFiles => exact absurd rfl hnamed

/-- **A check that completes** adds what is wrong with its names or with the tree. -/
theorem findings_eq_found (hs : i.strategy = .recording) {c : Check} (hreads : c.readsBytes = false)
    {p q : Progress} (h : i.outcome [c] p = (.ok (), q)) :
    q.findings = p.findings ++ i.found p.verified c := by
  by_cases hnamed : c = .noMoreFiles
  · subst hnamed
    obtain ⟨result, -, hlast⟩ := outcome_last hs
    obtain ⟨q', hq', -, hfindings⟩ := hlast p
    rw [h] at hq'
    cases hq'
    exact hfindings
  · have hhalt : ∀ cause, .halt cause ∉ i.acts c := fun cause hcause =>
      halt_not_mem_of_outcome h cause (by rwa [List.flatMap_singleton])
    obtain ⟨q', hq', hfindings⟩ := enact_records hs (records_found hreads hnamed hhalt p.verified) p
    rw [outcome_eq_enact, List.flatMap_singleton, hq'] at h
    cases h
    exact hfindings

/-- **A run that completes** records its account. -/
theorem findings_eq_account (hs : i.strategy = .recording) {checks : List Check}
    (hreads : ∀ c ∈ checks, c.readsBytes = false) {p q : Progress}
    (h : i.outcome checks p = (.ok (), q)) :
    q.findings = p.findings ++ i.account p.verified checks := by
  -- on the checks: after the first one its claims are verified
  induction checks generalizing p with
  | nil =>
    cases h
    exact (List.append_nil _).symm
  | cons c checks ih =>
    obtain ⟨hfirst, hrest⟩ := List.forall_mem_cons.1 hreads
    rw [← List.singleton_append, outcome_append] at h
    rcases hstep : i.outcome [c] p with ⟨result, m⟩
    rw [hstep] at h
    cases result with
    | error halt => cases h
    | ok u =>
      rw [ih hrest h, findings_eq_found hs hfirst hstep, account, List.append_assoc]
      refine congrArg (fun found => p.findings ++ (i.found p.verified c ++ found)) ?_
      refine i.account_congr checks fun k => ?_
      rw [i.mem_verified_outcome hstep k, List.flatMap_singleton, List.mem_append, List.mem_map, Covers]

/-! ### The faults of a run -/

/-- A finding is no fault, whatever the strategy makes of it. -/
theorem perform_report_ne_file (f : Finding) (cause : FileFault) (p q : Progress) :
    (i.perform (.report f)).run.run p ≠ (.error (.file cause), q) := by
  cases hs : i.strategy with
  | raising =>
    rw [perform_report_raising i hs]
    exact fun h => by cases h
  | recording =>
    rw [perform_report_recording i hs]
    exact fun h => by cases h

/-- A run ends early at a fault among its acts. -/
theorem halt_mem_of_enact {as : List Act} {p q : Progress} {cause : FileFault}
    (h : i.enact as p = (.error (.file cause), q)) : .halt cause ∈ as := by
  induction as generalizing p with
  | nil => cases h
  | cons a as ih =>
    rw [enact_cons] at h
    rcases hstep : (i.perform a).run.run p with ⟨result, m⟩
    rw [hstep] at h
    cases result with
    | ok u => exact List.mem_cons_of_mem _ (ih h)
    | error halt =>
      cases h
      cases a with
      | report f => exact absurd hstep (perform_report_ne_file f cause p q)
      | remember path => cases hstep
      | demand key =>
        rw [perform_demand] at hstep
        split at hstep
        · cases hstep
        · exact absurd hstep (perform_report_ne_file _ cause p q)
      | halt other =>
        rw [perform_halt] at hstep
        cases hstep
        exact List.mem_cons_self ..

theorem obstructs_of_agree {p q : PathName} {cause : FileFault}
    (h : i.files.agree p q = .error cause) : i.files.Obstructs cause := by
  rw [FileSystem.agree] at h
  cases hp : i.files.exists? p with
  | error fault =>
    rw [hp] at h
    cases h
    exact FileSystem.obstructs_of_exists? hp
  | ok a =>
    cases hq : i.files.exists? q with
    | error fault =>
      rw [hp, hq] at h
      cases a <;> cases h
      exact FileSystem.obstructs_of_exists? hq
    | ok b =>
      have hagree := agree_eq hp hq
      rw [FileSystem.agree] at hagree
      rw [hagree] at h
      cases h

/-- **The faults of a check that reads no bytes** are paths that are too long or may not be looked up,
and for the last check a root that holds a NUL. -/
theorem cause_of_halt_mem {c : Check} (hreads : c.readsBytes = false) {cause : FileFault}
    (h : .halt cause ∈ i.acts c) : i.files.Obstructs cause ∨
      cause = .badName ∧ c = .noMoreFiles ∧ i.root.hasNul = true := by
  have hexists : ∀ {path : PathName} {acts : Bool → List Act},
      (∀ there cause, .halt cause ∉ acts there) →
      .halt cause ∈ Act.upon (i.files.exists? path) acts → i.files.Obstructs cause := by
    intro path acts hacts hmem
    rcases mem_upon.1 hmem with ⟨there, -, hthere⟩ | ⟨fault, hfault, heq⟩
    · exact absurd hthere (hacts there cause)
    · cases heq
      exact FileSystem.obstructs_of_exists? hfault
  rw [acts, List.mem_append] at h
  rcases h with h | h
  · obtain ⟨name, -, hname⟩ := List.mem_flatMap.1 h
    exact .inl (hexists (fun there cause => by cases there <;> simp) hname)
  · cases c with
    | files names => cases h
    | noFiles names =>
      obtain ⟨name, -, hname⟩ := List.mem_flatMap.1 h
      exact .inl (hexists (fun there cause => by cases there <;> simp) hname)
    | file name contents => cases hreads
    | symlink name target =>
      left
      rcases mem_upon.1 h with ⟨link, -, hlink⟩ | ⟨fault, hfault, heq⟩
      · cases link with
        | none => simp at hlink
        | some link =>
          rcases mem_upon.1 hlink with ⟨same, -, hsame⟩ | ⟨fault, hfault, heq⟩
          · cases same <;> simp at hsame
          · cases heq
            exact obstructs_of_agree hfault
      · cases heq
        exact FileSystem.obstructs_of_linkTarget? hfault
    | noMoreFiles =>
      obtain ⟨visit, hvisit, hmem⟩ := List.mem_flatMap.1 h
      rcases mem_upon.1 hmem with ⟨location, -, hdemand⟩ | ⟨fault, rfl, heq⟩
      · simp at hdemand
      · cases heq
        exact (FileSystem.fault_of_mem_walk hvisit).imp_right fun hbad => ⟨hbad.1, rfl, hbad.2⟩

variable (i)

/-- Everything that checks look up is in reach: the names, and what the targets of links stand for. The
last check meets no fault in the directories that it lists. -/
structure InReach (checks : List Check) : Prop where
  links : i.files.ShortLinks
  followed : ∀ c ∈ checks, ∀ name ∈ c.followed, i.files.InReach true (i.root.below name)
  named : ∀ c ∈ checks, ∀ name ∈ c.named, i.files.InReach false (i.root.below name)
  targets : ∀ name target, .symlink name target ∈ checks →
    ∀ link, i.files.linkAt? (i.root.below name) = some link →
      ((i.root.below name).parent.below link).render.utf8ByteSize < Route.sizeLimit ∧
        i.files.Searchable true ((i.root.below name).parent.below link)
  walk : .noMoreFiles ∈ checks → i.files.Walkable i.root

variable {i}

theorem InReach.reached {checks : List Check} (h : i.InReach checks) {name target link : String}
    (hmem : .symlink name target ∈ checks)
    (hlink : i.files.linkAt? (i.root.below name) = some link) :
    i.files.InReach true ((i.root.below name).parent.below link) :=
  h.links.inReach_reached (h.named _ hmem name (List.mem_singleton_self _)).limits hlink
    (h.targets name target hmem link hlink)

theorem halt_not_mem_of_records {as : List Act} {findings : List Finding}
    (h : Records as findings) (cause : FileFault) : .halt cause ∉ as := fun hmem =>
  (h.plain _ hmem).elim

/-- Where everything is in reach, no check that reads no bytes meets a fault. -/
theorem halt_not_mem_of_inReach {checks : List Check} (h : i.InReach checks)
    (hreads : ∀ c ∈ checks, c.readsBytes = false) (cause : FileFault) :
    .halt cause ∉ checks.flatMap i.acts := by
  intro hmem
  obtain ⟨c, hc, hhalt⟩ := List.mem_flatMap.1 hmem
  cases c with
  | files names =>
    rw [acts_files] at hhalt
    exact halt_not_mem_of_records
      (.flatMap fun name hname => records_verify h.links (h.followed _ hc name hname)) cause hhalt
  | noFiles names =>
    rw [acts_noFiles] at hhalt
    exact halt_not_mem_of_records
      (.flatMap fun name hname => records_absence h.links (h.followed _ hc name hname)) cause hhalt
  | file name contents => cases hreads _ hc
  | symlink name target =>
    have hname := h.named _ hc name (List.mem_singleton_self _)
    have htarget := h.followed _ hc target (List.mem_singleton_self _)
    rw [acts_symlink] at hhalt
    exact halt_not_mem_of_records ((records_verify h.links htarget).append
      (records_link h.links hname htarget fun link => h.reached hc)) cause hhalt
  | noMoreFiles =>
    rw [acts_noMoreFiles] at hhalt
    obtain ⟨visit, hvisit, hmem⟩ := List.mem_flatMap.1 hhalt
    rcases mem_upon.1 hmem with ⟨location, -, hdemand⟩ | ⟨fault, rfl, -⟩
    · simp at hdemand
    · exact FileSystem.walkable_iff.1 (h.walk hc) fault hvisit

/-- **Runs that read no bytes**, under the recording strategy. A run that does not complete has met a path
that is too long, a directory that may not be searched, or a last check of a root that holds a NUL. Where
everything is in reach it completes. A run that completes adds exactly its account: for every name that
has to be there one finding if it is missing, for every name that must not be there one if it is there,
for every link what is wrong with its target and one more if it is no link or leads elsewhere, and for
every last check the files that are not verified by then. -/
theorem run_without_reading {checks : List Check} (hreads : ∀ c ∈ checks, c.readsBytes = false)
    (p : Progress) :
    (∀ halt q, i.recording.outcome checks p = (.error halt, q) →
      halt = .file .nameTooLong ∨
      (halt = .file .denied ∧ ∃ dir, i.files.maySearch dir = false) ∨
      halt = .file .badName ∧ .noMoreFiles ∈ checks ∧ i.root.hasNul = true) ∧
    (i.InReach checks → ∃ q, i.recording.outcome checks p = (.ok (), q)) ∧
    ∀ q, i.recording.outcome checks p = (.ok (), q) →
      q.findings = p.findings ++ i.account p.verified checks := by
  refine ⟨?_, ?_, ?_⟩
  · intro halt q h
    rw [outcome_eq_enact] at h
    obtain ⟨cause, rfl⟩ := i.enact_recording_error _ p halt (by rw [h])
    obtain ⟨c, hc, hhalt⟩ := List.mem_flatMap.1 (halt_mem_of_enact h)
    rcases cause_of_halt_mem (hreads c hc) hhalt with (rfl | ⟨rfl, hdir⟩) | ⟨rfl, rfl, hnul⟩
    · exact .inl rfl
    · exact .inr (.inl ⟨rfl, hdir⟩)
    · exact .inr (.inr ⟨rfl, hc, hnul⟩)
  · intro hreach
    rw [outcome_eq_enact, enact_recording_ok_iff rfl]
    intro cause
    rw [show i.recording.acts = i.acts from funext i.acts_recording]
    exact halt_not_mem_of_inReach hreach hreads cause
  · intro q h
    rw [findings_eq_account rfl hreads h, account_recording]

/-- A name that cannot be and one that is there, a name that must not be there, a file that is no link,
and the last check. -/
def oddChecks : List Check :=
  [.files ["x\x00", "b/f"], .noFiles ["y"], .symlink "a" "b/f", .noMoreFiles]

theorem shortLinks_linkedTree : linkedTree.ShortLinks := by
  intro location target hlink
  have hleaf := FileSystem.mem_leaves_tree.2 ⟨hlink, rfl⟩
  rw [show linkedTree.tree.leaves = [(["srv", "w"], .link "root"), (["srv", "root", "a"], .file 0),
    (["srv", "root", "l"], .link "b"), (["srv", "root", "p"], .pipe 2),
    (["srv", "root", "b", "f"], .file 1)] by cbv] at hleaf
  simp only [List.mem_cons, List.not_mem_nil, Prod.mk.injEq, or_false, reduceCtorEq, and_false,
    false_or, Node.link.injEq] at hleaf
  rcases hleaf with ⟨-, rfl⟩ | ⟨-, rfl⟩ <;> decide

theorem searchable_linkedTree (final : Bool) (p : PathName) : linkedTree.Searchable final p :=
  FileSystem.searchable_of_maySearch (fun _ => rfl) final p

theorem inReach_oddChecks : linkedInspection.InReach oddChecks where
  links := shortLinks_linkedTree
  followed := by
    have hlimits : ∀ c ∈ oddChecks, ∀ name ∈ c.followed, (linkedInspection.root.below name).InLimits := by
      decide
    exact fun c hc name hname => ⟨hlimits c hc name hname, searchable_linkedTree ..⟩
  named := by
    have hlimits : ∀ c ∈ oddChecks, ∀ name ∈ c.named, (linkedInspection.root.below name).InLimits := by
      decide
    exact fun c hc name hname => ⟨hlimits c hc name hname, searchable_linkedTree ..⟩
  targets := by
    intro name target hmem link hlink
    have hname : name = "a" := by
      simp only [oddChecks, List.mem_cons, List.not_mem_nil, reduceCtorEq, false_or, or_false,
        Check.symlink.injEq] at hmem
      exact hmem.1
    rw [hname, show linkedInspection.files.linkAt? (linkedInspection.root.below "a") = none by cbv]
      at hlink
    cases hlink
  walk := fun _ => walkable_linkedTree

/-- The odd checks complete with one finding for each thing that is wrong. -/
theorem run_of_oddChecks : (∀ c ∈ oddChecks, c.readsBytes = false) ∧
    ∃ q, linkedInspection.recording.outcome oddChecks {} = (.ok (), q) ∧
      q.findings = [.missing (linkedInspection.root.below "x\x00"), .notLink "a",
        .unverified "a"] := by
  have hreads : ∀ c ∈ oddChecks, c.readsBytes = false := by decide
  obtain ⟨-, hcompletes, hrecords⟩ := linkedInspection.run_without_reading hreads {}
  obtain ⟨q, hq⟩ := hcompletes inReach_oddChecks
  refine ⟨hreads, q, hq, ?_⟩
  rw [hrecords q hq]
  cbv

/-- A name of so many letters. -/
def longName (n : Nat) : String := String.ofList (List.replicate n 'x')

/-- The nested tree, tested from the directory in it. -/
def nestedInspection : Inspection where
  files := nestedTree
  strategy := .recording
  root := PathName.ofString "d"

theorem size_longName (n : Nat) : (longName n).utf8ByteSize = n := by
  rw [longName, String.utf8ByteSize_ofList]
  induction n with
  | zero => rfl
  | succ n ih =>
    rw [List.replicate_succ, String.utf8Len_cons, ih]
    rfl

theorem isPart_longName {n : Nat} (h : Node.maxNameSize < n) : PathName.IsPart (longName n) := by
  obtain ⟨m, rfl⟩ : ∃ m, n = m + 2 := ⟨n - 2, by rw [Node.maxNameSize] at h; omega⟩
  rw [PathName.IsPart, longName, String.toList_ofList]
  simp [isPathPart, List.replicate_succ]

theorem below_longName {n : Nat} (h : Node.maxNameSize < n) :
    (nestedInspection.root.below (longName n)).root = .relative ∧
      (nestedInspection.root.below (longName n)).parts = ["d", longName n] := by
  have hname : PathName.joinParts [longName n] = longName n := by
    rw [PathName.joinParts, if_neg (List.cons_ne_nil _ _), String.intercalate_singleton]
  have hpart : ∀ part ∈ [longName n], PathName.IsPart part :=
    List.forall_mem_singleton.2 (isPart_longName h)
  have hroot := PathName.below_joinParts_root nestedInspection.root hpart
  have hparts := PathName.below_joinParts_parts nestedInspection.root hpart
  rw [hname] at hroot hparts
  exact ⟨hroot, hparts⟩

/-- Whether a directory has a file with a name that it cannot hold stays open. -/
theorem exists?_longName {n : Nat} (h : Node.maxNameSize < n) :
    nestedTree.exists? (nestedInspection.root.below (longName n)) = .error .nameTooLong := by
  obtain ⟨hroot, hparts⟩ := below_longName h
  refine FileSystem.exists?_of_advance ?_ (fun _ => rfl) ?_
  · rw [PathName.hasNul, hparts]
    simp [longName]
  · have hstep : FileSystem.IsStep "d" := ⟨by decide, by decide, by decide, by decide⟩
    have hnode : nestedTree.node? (["tmp"] ++ ["d"])
        = some (.directory [("deep", .directory [("f", .file 0)])]) := rfl
    have hlong : Node.isLongName (longName n) = true := by
      rw [Node.isLongName, size_longName]
      exact decide_eq_true h
    rw [FileSystem.start, hroot, hparts]
    show nestedTree.advance ["tmp"] ["d", longName n] = _
    rw [FileSystem.advance_directory hstep rfl hnode, FileSystem.advance_long rfl hlong]

/-- A name that no directory can hold ends a run. -/
theorem outcome_longName {n : Nat} (h : Node.maxNameSize < n) :
    nestedInspection.recording.outcome [.files [longName n]] {}
      = (.error (.file .nameTooLong), {}) := by
  have hacts : nestedInspection.recording.verifyActs (nestedInspection.root.below (longName n))
      = [.halt .nameTooLong] := verifyActs_of_error (exists?_longName h)
  rw [outcome_eq_enact, List.flatMap_singleton, acts_files, List.flatMap_singleton]
  show nestedInspection.recording.enact
    (nestedInspection.recording.verifyActs (nestedInspection.root.below (longName n))) {} = _
  rw [hacts]
  rfl

/-- **Runs that do not complete**: a name that is too long is not reported as missing, nor is one in a
directory that may not be searched, and the last check of a root that holds a NUL does not end either. -/
theorem run_halted : ¬ nestedTree.IsThere (nestedInspection.root.below (longName 256)) ∧
    nestedInspection.recording.outcome [.files [longName 256]] {} = (.error (.file .nameTooLong), {}) ∧
    (lockedInspection "shut").recording.outcome [.files ["x"]] {} = (.error (.file .denied), {}) ∧
    nulInspection.recording.outcome [.noMoreFiles] {} = (.error (.file .badName), {}) := by
  refine ⟨fun hthere => ?_, outcome_longName (by decide), by cbv, by cbv⟩
  have hopen := exists?_longName (n := 256) (by decide)
  rw [FileSystem.exists?_eq_true_iff.2 hthere] at hopen
  cases hopen

end Inspection

end MigrationBench
