import MigrationBench.Tree.Check
import Mathlib.Tactic.Common

/-!
# What checks do, act by act

A check reads the files and nothing that earlier checks have left, apart from the last check of all.
So the checks of a tree are a list of acts that the files and the root determine, and a run is the
performance of that list.

* `Act` — a finding, a verified path, a demand that a file is verified, or a fault.
* `Inspection.acts` — the acts of a check: `Inspection.run_eq_forM_acts`.
* `Inspection.enact` — the performance of acts, with one step lemma for each act.
* `Check.claimed` — the names that a check remembers.
-/

namespace MigrationBench

/-- What a check can do. -/
inductive Act where
  /-- Reports a finding. -/
  | report (f : Finding)
  /-- Remembers that a path is verified. -/
  | remember (path : PathName)
  /-- Reports a file unless it is verified by then. -/
  | demand (key : String)
  /-- Ends the run at a fault. -/
  | halt (cause : FileFault)
deriving DecidableEq, Repr

/-- The acts that follow an answer about a file. -/
def Act.upon {α : Type} (answer : Except FileFault α) (acts : α → List Act) : List Act :=
  match answer with
  | .ok a => acts a
  | .error cause => [.halt cause]

/-- The names whose files a check remembers. -/
def Check.claimed : Check → List String
  | files names => names
  | file name _ => [name]
  | symlink _ target => [target]
  | noFiles _ | noMoreFiles => []

/-- Whether two paths lead to one file that is there. -/
def FileSystem.agree (fs : FileSystem) (p q : PathName) : Except FileFault Bool := do
  if ← fs.exists? p then
    if ← fs.exists? q then fs.sameFile p q else pure false
  else pure false

namespace Inspection

variable (i : Inspection)

/-- Performs an act. -/
def perform : Act → Checking Unit
  | .report f => i.report f
  | .remember path => i.remember path
  | .demand key => do
    unless (← get).verified.contains key do
      i.report (.unverified key)
  | .halt cause => throw (.file cause)

/-- The acts that verify a path: it is remembered also if it leads nowhere. -/
def verifyActs (path : PathName) : List Act :=
  Act.upon (i.files.exists? path) fun there =>
    (if there then [] else [.report (.missing path)]) ++ [.remember path]

/-- The acts that verify the contents of a file. -/
def contentsActs (name expected : String) : List Act :=
  Act.upon (i.files.exists? (i.root.below name)) fun there =>
    if there then
      Act.upon (i.files.read (i.root.below name)) fun bytes =>
        if Utf8.decodeLossy bytes ≠ expected then
          [.report (.contents name (Utf8.decodeLossy bytes) expected)]
        else []
    else []

/-- The path that the target of a link stands for: in the directory that the link is in. -/
def reached (name link : String) : PathName :=
  (i.root.below name).parent.below link

/-- The acts that verify a symbolic link. -/
def linkActs (name target : String) : List Act :=
  Act.upon (i.files.linkTarget? (i.root.below name)) fun
    | none => [.report (.notLink name)]
    | some link =>
      Act.upon (i.files.agree (i.reached name link) (i.root.below target)) fun same =>
        if same then [] else [.report (.wrongTarget name (i.reached name link) target)]

/-- The acts that verify that nothing is there. -/
def absenceActs (path : PathName) : List Act :=
  Act.upon (i.files.exists? path) fun there => if there then [.report (.unexpected path)] else []

/-- What a check does beside verifying the names it claims. -/
def remarks : Check → List Act
  | .files _ => []
  | .noFiles names => names.flatMap fun name => i.absenceActs (i.root.below name)
  | .file name contents => i.contentsActs name contents
  | .symlink name target => i.linkActs name target
  | .noMoreFiles => (i.files.walk i.root).flatMap fun visit =>
    Act.upon visit fun location => [.demand (PathName.joinParts location)]

/-- The acts of a check. -/
def acts (c : Check) : List Act :=
  (c.claimed.flatMap fun name => i.verifyActs (i.root.below name)) ++ i.remarks c

variable {i} in
theorem verifyActs_of_error {path : PathName} {cause : FileFault}
    (h : i.files.exists? path = .error cause) : i.verifyActs path = [.halt cause] := by
  rw [verifyActs, h]
  rfl

variable {i} in
theorem verifyActs_of_there {path : PathName} (h : i.files.exists? path = .ok true) :
    i.verifyActs path = [.remember path] := by
  rw [verifyActs, h]
  rfl

variable {i} in
theorem verifyActs_of_missing {path : PathName} (h : i.files.exists? path = .ok false) :
    i.verifyActs path = [.report (.missing path), .remember path] := by
  rw [verifyActs, h]
  rfl

theorem acts_files (names : List String) :
    i.acts (.files names) = names.flatMap fun name => i.verifyActs (i.root.below name) :=
  List.append_nil _

theorem acts_noFiles (names : List String) :
    i.acts (.noFiles names) = names.flatMap fun name => i.absenceActs (i.root.below name) := rfl

theorem acts_file (name contents : String) :
    i.acts (.file name contents)
      = i.verifyActs (i.root.below name) ++ i.contentsActs name contents := by
  rw [acts, Check.claimed, List.flatMap_singleton]
  rfl

theorem acts_symlink (name target : String) :
    i.acts (.symlink name target) = i.verifyActs (i.root.below target) ++ i.linkActs name target := by
  rw [acts, Check.claimed, List.flatMap_singleton]
  rfl

theorem acts_noMoreFiles :
    i.acts .noMoreFiles = (i.files.walk i.root).flatMap fun visit =>
      Act.upon visit fun location => [.demand (PathName.joinParts location)] := rfl

/-- The performance of acts, one after another. -/
def enact (as : List Act) (p : Progress) : Except Halt Unit × Progress :=
  (as.forM i.perform).run.run p

/-! ### A run is the performance of its acts -/

theorem forM_upon {α : Type} (answer : Except FileFault α) (acts : α → List Act) :
    (Act.upon answer acts).forM i.perform
      = Checking.ofFile answer >>= fun a => (acts a).forM i.perform := by
  cases answer with
  | error cause => simp [Act.upon, Checking.ofFile, perform]
  | ok a => simp [Act.upon, Checking.ofFile]

theorem forM_verifyActs (path : PathName) :
    (i.verifyActs path).forM i.perform = i.verify path := by
  rw [verifyActs, forM_upon]
  show Checking.ofFile (i.files.exists? path) >>= _ = Checking.ofFile (i.files.exists? path) >>= _
  congr 1
  funext there
  cases there <;> simp [perform]

theorem forM_absenceActs (path : PathName) :
    (i.absenceActs path).forM i.perform
      = (do if ← i.isThere path then i.report (.unexpected path)) := by
  rw [absenceActs, forM_upon]
  show Checking.ofFile (i.files.exists? path) >>= _ = Checking.ofFile (i.files.exists? path) >>= _
  congr 1
  funext there
  cases there <;> simp [perform]

theorem forM_contentsActs (name expected : String) :
    (i.contentsActs name expected).forM i.perform
      = (do
          if ← i.isThere (i.root.below name) then
            i.verifyContents name (i.root.below name) expected) := by
  rw [contentsActs, forM_upon]
  show Checking.ofFile _ >>= _ = Checking.ofFile _ >>= _
  congr 1
  funext there
  cases there with
  | false => simp
  | true =>
    simp only [if_true, forM_upon, verifyContents]
    congr 1
    funext bytes
    split <;> simp_all [perform]

theorem ofFile_bind {α β : Type} (answer : Except FileFault α) (next : α → Except FileFault β) :
    Checking.ofFile (answer >>= next) = Checking.ofFile answer >>= fun a => Checking.ofFile (next a) := by
  cases answer with
  | error cause => simp [Checking.ofFile, bind, Except.bind]; rfl
  | ok a => simp [Checking.ofFile, bind, Except.bind]; rfl

theorem ofFile_agree (p q : PathName) :
    Checking.ofFile (i.files.agree p q) = i.agree p q := by
  rw [FileSystem.agree, ofFile_bind, agree]
  congr 1
  funext there
  cases there with
  | false => rfl
  | true => 
    simp only [if_true, ofFile_bind]
    congr 1
    funext there
    cases there <;> rfl

theorem forM_linkActs (name target : String) :
    (i.linkActs name target).forM i.perform
      = i.verifyLink name target (i.root.below target) := by
  rw [linkActs, forM_upon, verifyLink]
  congr 1
  funext link
  cases link with
  | none => simp [perform]
  | some link =>
    simp only [forM_upon, ofFile_agree]
    show i.agree _ _ >>= _ = i.agree _ _ >>= _
    congr 1
    funext same
    cases same <;> simp [perform, reached]

theorem forM_flatMap {α : Type} (xs : List α) (acts : α → List Act) :
    (xs.flatMap acts).forM i.perform = xs.forM fun x => (acts x).forM i.perform := by
  induction xs with
  | nil => rfl
  | cons x xs ih =>
    rw [List.forM_eq_forM, List.forM_eq_forM] at ih
    simp [ih]

/-- **A check is the performance of its acts.** -/
theorem run_eq_forM_acts (c : Check) : i.run c = (i.acts c).forM i.perform := by
  rw [acts, List.forM_eq_forM, List.forM_append]
  simp only [← List.forM_eq_forM, forM_flatMap, forM_verifyActs]
  cases c with
  | files names => simp [run, remarks, Check.claimed]
  | noFiles names => simp [run, remarks, Check.claimed, forM_flatMap, forM_absenceActs]
  | file name contents => simp [run, remarks, Check.claimed, forM_contentsActs]
  | symlink name target => simp [run, remarks, Check.claimed, forM_linkActs]
  | noMoreFiles =>
    have hvisit : ∀ location, ([.demand (PathName.joinParts location)] : List Act).forM i.perform
        = i.reportUnverified location := fun location => by
      simp only [List.forM_eq_forM, List.forM_cons, List.forM_nil, bind_pure_unit]
      rfl
    simp only [run, remarks, Check.claimed, forM_flatMap, forM_upon, hvisit]
    simp

theorem runAll_eq_forM_acts (checks : List Check) :
    i.runAll checks = (checks.flatMap i.acts).forM i.perform := by
  rw [runAll, forM_flatMap]
  congr 1
  funext c
  exact i.run_eq_forM_acts c

theorem outcome_eq_enact (checks : List Check) (p : Progress) :
    i.outcome checks p = i.enact (checks.flatMap i.acts) p := by
  rw [outcome, runAll_eq_forM_acts, enact]

/-! ### Step lemmas -/

theorem enact_cons (a : Act) (as : List Act) (p : Progress) :
    i.enact (a :: as) p = match (i.perform a).run.run p with
      | (.ok _, q) => i.enact as q
      | (.error h, q) => (.error h, q) := by
  rw [enact, List.forM_eq_forM, List.forM_cons, ExceptT.run_bind, StateT.run_bind]
  rcases (i.perform a).run.run p with ⟨r, q⟩
  cases r <;> rfl

theorem enact_append (as bs : List Act) (p : Progress) :
    i.enact (as ++ bs) p = match i.enact as p with
      | (.ok _, q) => i.enact bs q
      | (.error h, q) => (.error h, q) := by
  induction as generalizing p with
  | nil => rfl
  | cons a as ih =>
    rw [List.cons_append, enact_cons, enact_cons]
    rcases (i.perform a).run.run p with ⟨r, q⟩
    cases r with
    | error h => rfl
    | ok u => exact ih q

/-- What is remembered once a path is verified. -/
def remembered (path : PathName) (p : Progress) : Progress :=
  { p with
    verified := p.verified.insert (i.key path)
    log := p.log ++ ["Whitelisted " ++ i.key path ++ " under " ++ i.root.render] }

/-- What is remembered of a finding that ends the run: a line in the log. -/
def noted (f : Finding) (p : Progress) : Progress :=
  { p with log := p.log ++ ["Check failed: " ++ f.message i.root] }

/-- What is remembered of a finding that is recorded. -/
def recorded (f : Finding) (p : Progress) : Progress :=
  { i.noted f p with findings := p.findings ++ [f] }

theorem perform_remember (path : PathName) (p : Progress) :
    (i.perform (.remember path)).run.run p = (.ok (), i.remembered path p) := rfl

theorem perform_halt (cause : FileFault) (p : Progress) :
    (i.perform (.halt cause)).run.run p = (.error (.file cause), p) := rfl

theorem perform_report_recording (h : i.strategy = .recording) (f : Finding) (p : Progress) :
    (i.perform (.report f)).run.run p = (.ok (), i.recorded f p) := by
  simp only [perform, report, h]
  rfl

theorem perform_report_raising (h : i.strategy = .raising) (f : Finding) (p : Progress) :
    (i.perform (.report f)).run.run p = (.error (.finding f), i.noted f p) := by
  simp only [perform, report, h]
  rfl

theorem perform_demand (key : String) (p : Progress) :
    (i.perform (.demand key)).run.run p
      = if key ∈ p.verified then (.ok (), p)
        else (i.perform (.report (.unverified key))).run.run p := by
  show (unless p.verified.contains key do i.report (.unverified key) : Checking Unit).run.run p = _
  by_cases hkey : key ∈ p.verified
  · rw [if_pos hkey, List.contains_iff_mem.2 hkey]
    rfl
  · rw [if_neg hkey, show p.verified.contains key = false by simpa using hkey]
    rfl

end Inspection

end MigrationBench
