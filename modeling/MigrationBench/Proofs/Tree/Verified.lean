import MigrationBench.Proofs.Tree.Strategies
import Mathlib.Data.List.TakeWhile

/-!
# The verified paths

What a run of checks has verified depends on the names that the checks claim and on nothing else: a
complete run verifies all of them, whether or not they are there, and a run that a finding stops
verifies those whose existence was found before it.

* `Inspection.Covers` — a key is that of one of some names.
* `Inspection.finds` — a name is found to exist.
* `Inspection.mem_verified_enact` — the paths verified by acts that come to their end.
* `Inspection.outcome_raising_stop` — the check at which a raising run stops.
* `Inspection.verified_of_run` — the verified paths of every run.
-/

namespace MigrationBench.Inspection

variable (i : Inspection)

/-- A key is that of one of some names below the root. -/
def Covers (names : List String) (k : String) : Prop :=
  ∃ name ∈ names, i.key (i.root.below name) = k

/-- Whether a name is found to exist below the root. -/
def finds (name : String) : Bool :=
  match i.files.exists? (i.root.below name) with
  | .ok there => there
  | .error _ => false

theorem covers_append (as bs : List String) (k : String) :
    i.Covers (as ++ bs) k ↔ i.Covers as k ∨ i.Covers bs k := by
  simp only [Covers, List.mem_append, or_and_right, exists_or]

theorem covers_cons (name : String) (names : List String) (k : String) :
    i.Covers (name :: names) k ↔ i.key (i.root.below name) = k ∨ i.Covers names k := by
  simp only [Covers, List.mem_cons, exists_eq_or_imp]

theorem not_covers_nil (k : String) : ¬ i.Covers [] k := by
  intro h'
  obtain ⟨name, hname, -⟩ := h'
  cases hname

/-! ### Acts that come to their end -/

/-- **Acts that come to their end** verify the paths that they remember, under either strategy. -/
theorem mem_verified_enact {as : List Act} {p q : Progress} (h : i.enact as p = (.ok (), q))
    (k : String) :
    k ∈ q.verified ↔ k ∈ p.verified ∨ ∃ path, .remember path ∈ as ∧ i.key path = k := by
  induction as generalizing p with
  | nil =>
    cases h
    simp
  | cons a as ih =>
    rw [enact_cons] at h
    rcases hstep : (i.perform a).run.run p with ⟨r, m⟩
    rw [hstep] at h
    cases r with
    | error halt => cases h
    | ok u =>
      have hm : m.verified = i.verifiedAfter p.verified a := by
        rw [← i.verified_perform, hstep]
      rw [ih h, hm, mem_verifiedAfter, or_assoc]
      simp only [List.mem_cons, or_and_right, exists_or, eq_comm]

theorem halt_not_mem_of_enact {as : List Act} {p q : Progress} (h : i.enact as p = (.ok (), q))
    (cause : FileFault) : .halt cause ∉ as := by
  induction as generalizing p with
  | nil => simp
  | cons a as ih =>
    rw [enact_cons] at h
    rcases hstep : (i.perform a).run.run p with ⟨r, m⟩
    rw [hstep] at h
    cases r with
    | error halt => cases h
    | ok u =>
      rw [List.mem_cons, not_or]
      refine ⟨?_, ih h⟩
      rintro rfl
      rw [perform_halt] at hstep
      cases hstep

/-! ### What checks remember -/

theorem mem_upon {α : Type} {answer : Except FileFault α} {acts : α → List Act} {a : Act} :
    a ∈ Act.upon answer acts ↔
      (∃ x, answer = .ok x ∧ a ∈ acts x) ∨ ∃ cause, answer = .error cause ∧ a = .halt cause := by
  cases answer with
  | error cause => simp [Act.upon]
  | ok x => simp [Act.upon]

/-- Beside its claims a check remembers nothing, and no finding of it is about a missing path. -/
def IsRemark : Act → Prop
  | .report f => ∀ path, f ≠ .missing path
  | .remember _ => False
  | .demand _ => True
  | .halt _ => True

theorem isRemark_of_mem_upon {α : Type} {answer : Except FileFault α} {acts : α → List Act} {a : Act}
    (h : ∀ x, a ∈ acts x → IsRemark a) (ha : a ∈ Act.upon answer acts) : IsRemark a := by
  rcases mem_upon.1 ha with ⟨x, -, hx⟩ | ⟨cause, -, rfl⟩
  · exact h x hx
  · trivial

theorem isRemark_of_mem_remarks {c : Check} {a : Act} (h : a ∈ i.remarks c) : IsRemark a := by
  cases c with
  | files names => cases h
  | noFiles names =>
    obtain ⟨name, -, h⟩ := List.mem_flatMap.1 h
    refine isRemark_of_mem_upon (fun there hthere => ?_) h
    cases there with
    | false => cases hthere
    | true =>
      rw [List.mem_singleton.1 hthere]
      intro path hpath
      cases hpath
  | file name contents =>
    refine isRemark_of_mem_upon (fun there hthere => ?_) h
    cases there with
    | false => cases hthere
    | true =>
      refine isRemark_of_mem_upon (fun bytes hbytes => ?_) hthere
      split at hbytes
      · rw [List.mem_singleton.1 hbytes]
        intro path hpath
        cases hpath
      · cases hbytes
  | symlink name target =>
    refine isRemark_of_mem_upon (fun link hlink => ?_) h
    cases link with
    | none =>
      rw [List.mem_singleton.1 hlink]
      intro path hpath
      cases hpath
    | some link =>
      refine isRemark_of_mem_upon (fun same hsame => ?_) hlink
      cases same with
      | true => cases hsame
      | false =>
        rw [List.mem_singleton.1 hsame]
        intro path hpath
        cases hpath
  | noMoreFiles =>
    obtain ⟨visit, -, h⟩ := List.mem_flatMap.1 h
    refine isRemark_of_mem_upon (fun location hlocation => ?_) h
    rw [List.mem_singleton.1 hlocation]
    trivial

theorem remember_not_mem_remarks (c : Check) (path : PathName) : .remember path ∉ i.remarks c :=
  fun h => i.isRemark_of_mem_remarks h

theorem remember_mem_verifyActs {path path' : PathName} (h : .remember path ∈ i.verifyActs path') :
    path = path' := by
  rw [verifyActs, mem_upon] at h
  rcases h with ⟨there, -, h⟩ | ⟨cause, -, h⟩
  · cases there <;> simpa using h
  · cases h

theorem remember_or_halt_mem_verifyActs (path : PathName) :
    .remember path ∈ i.verifyActs path ∨ ∃ cause, .halt cause ∈ i.verifyActs path := by
  simp only [verifyActs, mem_upon]
  cases i.files.exists? path with
  | error cause => exact .inr ⟨cause, .inr ⟨cause, rfl, rfl⟩⟩
  | ok there => exact .inl (.inl ⟨there, rfl, by simp⟩)

/-- Checks that meet no fault remember the names that they claim. -/
theorem remember_mem_acts {checks : List Check}
    (h : ∀ cause, .halt cause ∉ checks.flatMap i.acts) (path : PathName) :
    .remember path ∈ checks.flatMap i.acts ↔
      ∃ name ∈ checks.flatMap Check.claimed, i.root.below name = path := by
  constructor
  · intro hpath
    obtain ⟨c, hc, hpath⟩ := List.mem_flatMap.1 hpath
    rcases List.mem_append.1 hpath with hpath | hpath
    · obtain ⟨name, hname, hpath⟩ := List.mem_flatMap.1 hpath
      exact ⟨name, List.mem_flatMap.2 ⟨c, hc, hname⟩, (i.remember_mem_verifyActs hpath).symm⟩
    · exact absurd hpath (i.remember_not_mem_remarks c path)
  · intro h'
    obtain ⟨name, hname, rfl⟩ := h'
    obtain ⟨c, hc, hname⟩ := List.mem_flatMap.1 hname
    have hacts : ∀ a ∈ i.verifyActs (i.root.below name), a ∈ checks.flatMap i.acts := fun a ha =>
      List.mem_flatMap.2 ⟨c, hc, List.mem_append_left _ (List.mem_flatMap.2 ⟨name, hname, ha⟩)⟩
    rcases i.remember_or_halt_mem_verifyActs (i.root.below name) with hmem | ⟨cause, hmem⟩
    · exact hacts _ hmem
    · exact absurd (hacts _ hmem) (h cause)

/-- A complete run of checks verifies exactly the names that they claim. -/
theorem mem_verified_outcome {checks : List Check} {p q : Progress}
    (h : i.outcome checks p = (.ok (), q)) (k : String) :
    k ∈ q.verified ↔ k ∈ p.verified ∨ i.Covers (checks.flatMap Check.claimed) k := by
  rw [outcome_eq_enact] at h
  rw [i.mem_verified_enact h, Covers]
  refine or_congr_right ?_
  constructor
  · intro h'
    obtain ⟨path, hpath, rfl⟩ := h'
    obtain ⟨name, hname, rfl⟩ := (i.remember_mem_acts (i.halt_not_mem_of_enact h) path).1 hpath
    exact ⟨name, hname, rfl⟩
  · intro h'
    obtain ⟨name, hname, rfl⟩ := h'
    exact ⟨_, (i.remember_mem_acts (i.halt_not_mem_of_enact h) _).2 ⟨name, hname, rfl⟩, rfl⟩

/-! ### Where a raising run stops -/

/-- Acts that remember nothing leave the verified paths as they are, wherever the run ends. -/
theorem verified_enact_of_remember_not_mem {as : List Act} (h : ∀ path, .remember path ∉ as)
    (p : Progress) : (i.enact as p).2.verified = p.verified := by
  induction as generalizing p with
  | nil => rfl
  | cons a as ih =>
    have hstep := i.verified_perform a p
    have ha : i.verifiedAfter p.verified a = p.verified := by
      cases a with
      | remember path => exact absurd (List.mem_cons_self ..) (h path)
      | _ => rfl
    rw [ha] at hstep
    rw [enact_cons]
    rcases hperform : (i.perform a).run.run p with ⟨r, q⟩
    rw [hperform] at hstep
    cases r with
    | error halt => exact hstep
    | ok u =>
      show (i.enact as q).2.verified = p.verified
      rw [ih (fun path hpath => h path (List.mem_cons_of_mem _ hpath)) q]
      exact hstep

/-- A finding that stops a raising run is reported by one of the acts, or it is about a file that one
of them demands. -/
theorem report_or_demand_mem {as : List Act} {p q : Progress} {f : Finding}
    (hs : i.strategy = .raising) (h : i.enact as p = (.error (.finding f), q)) :
    .report f ∈ as ∨ ∃ key, .demand key ∈ as ∧ f = .unverified key := by
  induction as generalizing p with
  | nil => cases h
  | cons a as ih =>
    rw [enact_cons] at h
    cases a with
    | report g =>
      rw [perform_report_raising i hs] at h
      cases h
      exact .inl (List.mem_cons_self ..)
    | remember path =>
      rw [perform_remember] at h
      rcases ih h with hf | ⟨key, hkey, hf⟩
      · exact .inl (List.mem_cons_of_mem _ hf)
      · exact .inr ⟨key, List.mem_cons_of_mem _ hkey, hf⟩
    | demand key =>
      rw [perform_demand] at h
      split at h
      · rename_i hstep
        split at hstep
        · cases hstep
          rcases ih h with hf | ⟨key', hkey, hf⟩
          · exact .inl (List.mem_cons_of_mem _ hf)
          · exact .inr ⟨key', List.mem_cons_of_mem _ hkey, hf⟩
        · rw [perform_report_raising i hs] at hstep
          cases hstep
      · rename_i hstep
        split at hstep
        · cases hstep
        · rw [perform_report_raising i hs] at hstep
          cases hstep
          cases h
          exact .inr ⟨key, List.mem_cons_self .., rfl⟩
    | halt cause =>
      rw [perform_halt] at h
      cases h

/-- A raising run that verifies names goes on as long as they are found. It remembers those, and the
first one that is not found stops it. -/
theorem enact_raising_verify (hs : i.strategy = .raising) (names : List String) {p q : Progress}
    {r : Except Halt Unit}
    (h : i.enact (names.flatMap fun name => i.verifyActs (i.root.below name)) p = (r, q)) :
    (∀ k, k ∈ q.verified ↔ k ∈ p.verified ∨ i.Covers (names.takeWhile i.finds) k) ∧
      (r = .ok () → names.takeWhile i.finds = names) ∧
      ∀ f, r = .error (.finding f) → ∃ name rest,
        names = names.takeWhile i.finds ++ name :: rest ∧
        i.files.exists? (i.root.below name) = .ok false ∧ f = .missing (i.root.below name) := by
  induction names generalizing p with
  | nil =>
    cases h
    refine ⟨?_, fun _ => rfl, ?_⟩
    · intro k
      simp [not_covers_nil]
    · intro f hf
      cases hf
  | cons name names ih =>
    rw [List.flatMap_cons, enact_append] at h
    cases hthere : i.files.exists? (i.root.below name) with
    | error cause =>
      have hfinds : i.finds name = false := by rw [finds, hthere]
      rw [verifyActs_of_error hthere, enact_cons, perform_halt] at h
      cases h
      rw [List.takeWhile_cons, hfinds]
      refine ⟨?_, ?_, ?_⟩
      · intro k
        simp [not_covers_nil]
      · intro hr
        cases hr
      · intro f hf
        cases hf
    | ok there =>
      have hfinds : i.finds name = there := by rw [finds, hthere]
      cases there with
      | true =>
        rw [verifyActs_of_there hthere, enact_cons, perform_remember] at h
        obtain ⟨hmem, hok, hstop⟩ := ih (p := i.remembered (i.root.below name) p) h
        rw [List.takeWhile_cons, hfinds]
        refine ⟨?_, ?_, ?_⟩
        · intro k
          rw [hmem k, if_pos rfl, covers_cons]
          show k ∈ p.verified.insert (i.key (i.root.below name)) ∨ _ ↔ _
          rw [List.mem_insert_iff]
          simp only [eq_comm, or_assoc, or_left_comm]
        · intro hr
          rw [if_pos rfl, hok hr]
        · intro f hf
          obtain ⟨first, rest, hnames, hfirst⟩ := hstop f hf
          refine ⟨first, rest, ?_, hfirst⟩
          rw [if_pos rfl, List.cons_append, ← hnames]
      | false =>
        rw [verifyActs_of_missing hthere, enact_cons, perform_report_raising i hs] at h
        cases h
        rw [List.takeWhile_cons, hfinds]
        refine ⟨?_, ?_, ?_⟩
        · intro k
          show k ∈ p.verified ↔ _
          simp [not_covers_nil]
        · intro hr
          cases hr
        · intro f hf
          cases hf
          exact ⟨name, names, rfl, hthere, rfl⟩

/-- A check under the raising strategy, to its end or to the finding that stops it. -/
theorem enact_raising_acts (hs : i.strategy = .raising) (c : Check) {p q : Progress}
    {r : Except Halt Unit} (h : i.enact (i.acts c) p = (r, q)) :
    (∀ k, k ∈ q.verified ↔ k ∈ p.verified ∨ i.Covers (c.claimed.takeWhile i.finds) k) ∧
      (r = .ok () → c.claimed.takeWhile i.finds = c.claimed) ∧
      ∀ f, r = .error (.finding f) →
        (∃ name rest, c.claimed = c.claimed.takeWhile i.finds ++ name :: rest ∧
          i.files.exists? (i.root.below name) = .ok false ∧ f = .missing (i.root.below name)) ∨
        (c.claimed.takeWhile i.finds = c.claimed ∧ ∀ path, f ≠ .missing path) := by
  rw [acts, enact_append] at h
  rcases hverify : i.enact (c.claimed.flatMap fun name => i.verifyActs (i.root.below name)) p
    with ⟨rv, m⟩
  obtain ⟨hmem, hok, hstop⟩ := i.enact_raising_verify hs c.claimed hverify
  rw [hverify] at h
  cases rv with
  | error halt =>
    cases h
    refine ⟨hmem, ?_, fun f hf => .inl (hstop f hf)⟩
    intro hr
    cases hr
  | ok u =>
    have hall : c.claimed.takeWhile i.finds = c.claimed := hok rfl
    have hq : q.verified = m.verified := by
      rw [← i.verified_enact_of_remember_not_mem (i.remember_not_mem_remarks c) m,
        show i.enact (i.remarks c) m = (r, q) from h]
    refine ⟨fun k => by rw [hq]; exact hmem k, fun _ => hall, ?_⟩
    intro f hf
    subst hf
    refine .inr ⟨hall, ?_⟩
    rcases i.report_or_demand_mem hs h with hmem | ⟨key, -, rfl⟩
    · exact i.isRemark_of_mem_remarks hmem
    · intro path hpath
      cases hpath

theorem outcome_cons (c : Check) (checks : List Check) (p : Progress) :
    i.outcome (c :: checks) p = match i.enact (i.acts c) p with
      | (.ok _, q) => i.outcome checks q
      | (.error h, q) => (.error h, q) := by
  rw [outcome_eq_enact, List.flatMap_cons, enact_append]
  rcases i.enact (i.acts c) p with ⟨r, q⟩
  cases r with
  | error h => rfl
  | ok u => exact (i.outcome_eq_enact checks q).symm

/-- A raising run that a finding stops has completed the checks before some check, at which it stops. -/
theorem outcome_raising_stop {checks : List Check} {p q : Progress} {f : Finding}
    (h : i.outcome checks p = (.error (.finding f), q)) :
    ∃ before c after m, checks = before ++ c :: after ∧ i.outcome before p = (.ok (), m) ∧
      i.enact (i.acts c) m = (.error (.finding f), q) := by
  induction checks generalizing p with
  | nil => cases h
  | cons c checks ih =>
    rw [outcome_cons] at h
    rcases hc : i.enact (i.acts c) p with ⟨r, m⟩
    rw [hc] at h
    cases r with
    | error halt =>
      cases h
      exact ⟨[], c, checks, p, rfl, rfl, hc⟩
    | ok u =>
      obtain ⟨before, d, after, m', hchecks, hbefore, hd⟩ := ih h
      refine ⟨c :: before, d, after, m', by rw [hchecks]; rfl, ?_, hd⟩
      rw [outcome_cons, hc]
      exact hbefore

/-- A raising run that comes to its end has found all names that its checks claim. -/
theorem finds_of_outcome_raising (hs : i.strategy = .raising) {checks : List Check}
    {p q : Progress} (h : i.outcome checks p = (.ok (), q)) :
    ∀ name ∈ checks.flatMap Check.claimed, i.finds name = true := by
  induction checks generalizing p with
  | nil => simp
  | cons c checks ih =>
    rw [outcome_cons] at h
    rcases hc : i.enact (i.acts c) p with ⟨r, m⟩
    rw [hc] at h
    cases r with
    | error halt => cases h
    | ok u =>
      have hall := (i.enact_raising_acts hs c hc).2.1 rfl
      intro name hname
      rw [List.flatMap_cons, List.mem_append] at hname
      rcases hname with hname | hname
      · rw [← hall] at hname
        exact List.mem_takeWhile_imp hname
      · exact ih h name hname

/-! ### The verified paths of a run -/

theorem outcome_append (before after : List Check) (p : Progress) :
    i.outcome (before ++ after) p = match i.outcome before p with
      | (.ok _, q) => i.outcome after q
      | (.error h, q) => (.error h, q) := by
  rw [outcome_eq_enact, List.flatMap_append, enact_append, outcome_eq_enact]
  rcases i.enact (before.flatMap i.acts) p with ⟨r, q⟩
  cases r with
  | error h => rfl
  | ok u => exact (i.outcome_eq_enact after q).symm

theorem verified_subset_outcome (checks : List Check) (p : Progress) :
    p.verified ⊆ (i.outcome checks p).2.verified := by
  rw [outcome_eq_enact]
  exact i.verified_subset_enact _ p

/-- Verified paths stay verified from check to check. -/
theorem verified_outcome_mono (before after : List Check) (p : Progress) :
    (i.outcome before p).2.verified ⊆ (i.outcome (before ++ after) p).2.verified := by
  rw [outcome_append]
  rcases i.outcome before p with ⟨r, q⟩
  cases r with
  | error h => exact List.Subset.refl _
  | ok u => exact i.verified_subset_outcome after q

/-- The names that a check claims, of which a raising run stopped at a finding of that check has
verified a part. If the finding is that a name is missing, these are the names before it; otherwise
all of them. -/
def StopsWith (c : Check) (f : Finding) (found : List String) : Prop :=
  (∃ name rest, c.claimed = found ++ name :: rest ∧
    i.files.exists? (i.root.below name) = .ok false ∧ f = .missing (i.root.below name)) ∨
  (c.claimed = found ∧ ∀ path, f ≠ .missing path)

/-- **The verified paths of every run.** A recording run that comes to its end has verified the names
that its checks claim, there or not; so their order, their repetition and the files play no part. A
run of more checks has verified at least as much. A raising run that a finding stops has verified the
names claimed by the checks before and by the check that stops it, up to the missing one if one is
missing, and each of them was found to exist. -/
theorem verified_of_run (checks : List Check) (p : Progress) :
    (∀ q, i.recording.outcome checks p = (.ok (), q) →
      (∀ k, k ∈ q.verified ↔ k ∈ p.verified ∨ i.Covers (checks.flatMap Check.claimed) k) ∧
      ∀ (j : Inspection) (others : List Check) (q' : Progress),
        j.root = i.root → j.files.cwd = i.files.cwd → (∀ c, c ∈ others ↔ c ∈ checks) →
        j.recording.outcome others p = (.ok (), q') → ∀ k, k ∈ q'.verified ↔ k ∈ q.verified) ∧
    (∀ before after, checks = before ++ after →
      (i.outcome before p).2.verified ⊆ (i.outcome checks p).2.verified) ∧
    (∀ f q, i.raising.outcome checks p = (.error (.finding f), q) →
      ∃ before c after m found, checks = before ++ c :: after ∧
        i.raising.outcome before p = (.ok (), m) ∧
        i.raising.outcome [c] m = (.error (.finding f), q) ∧
        i.StopsWith c f found ∧
        (∀ name ∈ before.flatMap Check.claimed ++ found,
          i.files.exists? (i.root.below name) = .ok true) ∧
        ∀ k, k ∈ q.verified ↔
          k ∈ p.verified ∨ i.Covers (before.flatMap Check.claimed ++ found) k) := by
  refine ⟨?_, ?_, ?_⟩
  · intro q h
    have hmem : ∀ k, k ∈ q.verified ↔ k ∈ p.verified ∨ i.Covers (checks.flatMap Check.claimed) k :=
      i.recording.mem_verified_outcome h
    refine ⟨hmem, ?_⟩
    intro j others q' hroot hcwd hsame h' k
    have hcovers : j.Covers (others.flatMap Check.claimed) k
        ↔ i.Covers (checks.flatMap Check.claimed) k := by
      simp only [Covers, key, hroot, hcwd, List.mem_flatMap, hsame]
    rw [hmem k, ← hcovers]
    exact j.recording.mem_verified_outcome h' k
  · rintro before after rfl
    exact i.verified_outcome_mono before after p
  · intro f q h
    obtain ⟨before, c, after, m, hchecks, hbefore, hc⟩ := i.raising.outcome_raising_stop h
    obtain ⟨hmem, -, hstop⟩ := i.raising.enact_raising_acts rfl c hc
    refine ⟨before, c, after, m, c.claimed.takeWhile i.finds, hchecks, hbefore, ?_, ?_, ?_, ?_⟩
    · rw [outcome_cons, hc]
    · rcases hstop f rfl with hmissing | ⟨hall, hnot⟩
      · exact .inl hmissing
      · exact .inr ⟨hall.symm, hnot⟩
    · intro name hname
      have hfinds : i.finds name = true := by
        rcases List.mem_append.1 hname with hname | hname
        · exact i.raising.finds_of_outcome_raising rfl hbefore name hname
        · exact List.mem_takeWhile_imp hname
      rw [finds] at hfinds
      split at hfinds
      · rename_i hthere
        rw [hthere, hfinds]
      · cases hfinds
    · intro k
      rw [hmem k, i.raising.mem_verified_outcome hbefore k, covers_append, or_assoc]
      rfl

end MigrationBench.Inspection
