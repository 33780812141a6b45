import MigrationBench.Proofs.Tree.Strays

/-!
# The order of checks

What a check of names reads are the files, and what it leaves behind are verified paths and findings.
So checks of names can be reordered, split and repeated, and the last check of all only sees which
names they claim.

* `Inspection.told` — the findings of a check of names, whatever is verified.
* `Inspection.outcome_of_named` — a complete run of checks of names records what each of them tells.
* `Inspection.lastCheck` — how the last check ends after a run, and the findings that it adds.
* `Inspection.order_of_checks` — reordered, repeated, added and split checks compared.
-/

namespace MigrationBench.Inspection

variable (i : Inspection)

/-- Names cover the same keys in every order. -/
theorem covers_perm {as bs : List String} (h : as.Perm bs) (k : String) :
    i.Covers as k ↔ i.Covers bs k := by
  simp only [Covers, h.mem_iff]

/-! ### Checks of names -/

theorem demand_not_mem_upon {α : Type} {answer : Except FileFault α} {acts : α → List Act}
    {key : String} (h : ∀ x, .demand key ∉ acts x) : .demand key ∉ Act.upon answer acts := by
  intro hmem
  rcases mem_upon.1 hmem with ⟨x, -, hx⟩ | ⟨cause, -, hcause⟩
  · exact h x hx
  · cases hcause

/-- Only the last check of all reads the verified paths. -/
theorem demand_not_mem_acts {c : Check} (h : c ≠ .noMoreFiles) (key : String) :
    .demand key ∉ i.acts c := by
  have hverify : ∀ path, .demand key ∉ i.verifyActs path := fun path =>
    demand_not_mem_upon fun there => by cases there <;> simp
  have habsence : ∀ path, .demand key ∉ i.absenceActs path := fun path =>
    demand_not_mem_upon fun there => by cases there <;> simp
  rw [acts, List.mem_append, List.mem_flatMap]
  rintro (⟨name, -, hname⟩ | hremark)
  · exact hverify _ hname
  · cases c with
    | files names => cases hremark
    | noFiles names =>
      obtain ⟨name, -, hname⟩ := List.mem_flatMap.1 hremark
      exact habsence _ hname
    | file name contents =>
      refine demand_not_mem_upon (fun there => ?_) hremark
      cases there with
      | false => simp
      | true =>
        refine demand_not_mem_upon fun bytes => ?_
        split <;> simp
    | symlink name target =>
      refine demand_not_mem_upon (fun link => ?_) hremark
      cases link with
      | none => simp
      | some link => exact demand_not_mem_upon fun same => by cases same <;> simp
    | noMoreFiles => exact h rfl

/-- The findings that a check reports whatever is verified. -/
def told (c : Check) : List Finding :=
  (i.acts c).filterMap Act.finding?

theorem filterMap_flatMap_acts (checks : List Check) :
    (checks.flatMap i.acts).filterMap Act.finding? = checks.flatMap i.told := by
  rw [List.filterMap_flatMap]
  rfl

variable {i}

/-- Checks of names that meet no fault record what each of them tells. -/
theorem records_of_named {checks : List Check} (hnamed : .noMoreFiles ∉ checks)
    (hhalt : ∀ cause, .halt cause ∉ checks.flatMap i.acts) :
    Records (checks.flatMap i.acts) (checks.flatMap i.told) := by
  refine ⟨fun a ha => ?_, i.filterMap_flatMap_acts checks⟩
  cases a with
  | report f => trivial
  | remember path => trivial
  | demand key =>
    obtain ⟨c, hc, hdemand⟩ := List.mem_flatMap.1 ha
    refine absurd hdemand (i.demand_not_mem_acts ?_ key)
    rintro rfl
    exact hnamed hc
  | halt cause => exact absurd ha (hhalt cause)

/-- **Checks of names** that meet no fault come to their end, record what each of them tells and verify
the names that they claim. -/
theorem outcome_of_named (hs : i.strategy = .recording) {checks : List Check}
    (hnamed : .noMoreFiles ∉ checks) (hhalt : ∀ cause, .halt cause ∉ checks.flatMap i.acts)
    (p : Progress) : ∃ q, i.outcome checks p = (.ok (), q) ∧
      q.findings = p.findings ++ checks.flatMap i.told ∧
      ∀ k, k ∈ q.verified ↔ k ∈ p.verified ∨ i.Covers (checks.flatMap Check.claimed) k := by
  obtain ⟨q, hq, hfindings⟩ := enact_records hs (records_of_named hnamed hhalt) p
  rw [← outcome_eq_enact] at hq
  exact ⟨q, hq, hfindings, i.mem_verified_outcome hq⟩

/-- A complete run meets no fault. -/
theorem halt_not_mem_of_outcome {checks : List Check} {p q : Progress}
    (h : i.outcome checks p = (.ok (), q)) (cause : FileFault) :
    .halt cause ∉ checks.flatMap i.acts := by
  rw [outcome_eq_enact] at h
  exact i.halt_not_mem_of_enact h cause

variable (i)

/-! ### The last check after a run -/

/-- How the last check of all ends after some progress, and the findings that it adds. -/
def lastCheck (p : Progress) : Except Halt Unit × List Finding :=
  ((i.outcome [.noMoreFiles] p).1, (i.outcome [.noMoreFiles] p).2.findings.drop p.findings.length)

variable {i}

/-- The last check adds the strays, and it ends in the same way after every progress. -/
theorem lastCheck_eq (hs : i.strategy = .recording) :
    ∃ result, ∀ p, i.lastCheck p = (result, i.strays p.verified) := by
  obtain ⟨result, -, hlast⟩ := outcome_last hs
  refine ⟨result, fun p => ?_⟩
  obtain ⟨q, hq, -, hfindings⟩ := hlast p
  rw [lastCheck, hq, hfindings, List.drop_left]

/-- The last check sees which paths are verified, and nothing else. -/
theorem lastCheck_congr (hs : i.strategy = .recording) {p q : Progress}
    (h : ∀ k, k ∈ q.verified ↔ k ∈ p.verified) : i.lastCheck q = i.lastCheck p := by
  obtain ⟨result, hlast⟩ := lastCheck_eq hs
  rw [hlast, hlast, i.strays_congr h]

/-- More names verified take away the files that have one of their paths. -/
theorem lastCheck_of_more (hs : i.strategy = .recording) {p q : Progress} {names : List String}
    (h : ∀ k, k ∈ q.verified ↔ k ∈ p.verified ∨ i.Covers names k) :
    i.lastCheck q = ((i.lastCheck p).1, (i.lastCheck p).2.filter
      (· ∉ names.map fun name => .unverified (i.key (i.root.below name)))) := by
  obtain ⟨result, hlast⟩ := lastCheck_eq hs
  have hmore : ∀ k, k ∈ q.verified ↔
      k ∈ p.verified ∨ k ∈ names.map fun name => i.key (i.root.below name) := by
    intro k
    rw [h k, Covers, List.mem_map]
  rw [hlast, hlast, i.strays_of_more hmore, List.map_map]
  rfl

/-! ### Checks reordered, repeated, added and split -/

/-- Names can be given to one check or to several. -/
theorem outcome_files_flatten (groups : List (List String)) (p : Progress) :
    i.outcome [.files groups.flatten] p = i.outcome (groups.map .files) p := by
  have hacts : (groups.map Check.files).flatMap i.acts
      = groups.flatMap fun names => names.flatMap fun name => i.verifyActs (i.root.below name) := by
    rw [List.flatMap_map]
    congr 1
    funext names
    exact i.acts_files names
  rw [outcome_eq_enact, outcome_eq_enact, List.flatMap_singleton, acts_files, hacts,
    ← List.flatMap_id, List.flatMap_assoc]
  rfl

/-- **The order of checks.** Take checks of names that come to their end under the recording strategy.
In another order they record the same findings in some order, and the last check afterwards adds the
same ones. A check that is repeated records its own findings again, those it has recorded before, and
the last check adds the same ones as without. If more checks of any kind are made, in whatever place,
the last check adds the same findings without those about files that have the path of an added name or
target. Names can be given to one check or to several. -/
theorem order_of_checks {checks : List Check} (hnamed : .noMoreFiles ∉ checks) {p q : Progress}
    (h : i.recording.outcome checks p = (.ok (), q)) :
    (∀ others, others.Perm checks → ∃ q', i.recording.outcome others p = (.ok (), q') ∧
      q'.findings.Perm q.findings ∧ i.recording.lastCheck q' = i.recording.lastCheck q) ∧
    (∀ c ∈ checks, ∃ own q', i.recording.outcome [c] {} = (.ok (), own) ∧
      i.recording.outcome (checks ++ [c]) p = (.ok (), q') ∧
      q'.findings = q.findings ++ own.findings ∧
      own.findings.Sublist (q.findings.drop p.findings.length) ∧
      i.recording.lastCheck q' = i.recording.lastCheck q) ∧
    (∀ added more q', more.Perm (checks ++ added) → i.recording.outcome more p = (.ok (), q') →
      i.recording.lastCheck q' = ((i.recording.lastCheck q).1, (i.recording.lastCheck q).2.filter
        (· ∉ (added.flatMap Check.claimed).map fun name =>
          .unverified (i.key (i.root.below name))))) ∧
    ∀ (groups : List (List String)) (p' : Progress), i.recording.outcome [.files groups.flatten] p'
      = i.recording.outcome (groups.map .files) p' := by
  have hs : i.recording.strategy = .recording := rfl
  have hhalt := halt_not_mem_of_outcome h
  have hverified := i.recording.mem_verified_outcome h
  have hfindings : q.findings = p.findings ++ checks.flatMap i.recording.told := by
    obtain ⟨q₁, hq₁, hfound, -⟩ := outcome_of_named hs hnamed hhalt p
    rw [h] at hq₁
    cases hq₁
    exact hfound
  refine ⟨?_, ?_, ?_, outcome_files_flatten⟩
  · intro others hperm
    have hhalt' : ∀ cause, .halt cause ∉ others.flatMap i.recording.acts := fun cause hcause =>
      hhalt cause ((hperm.flatMap_right _).subset hcause)
    obtain ⟨q', hq', hfound, hverified'⟩ :=
      outcome_of_named hs (fun hmem => hnamed (hperm.subset hmem)) hhalt' p
    refine ⟨q', hq', ?_, lastCheck_congr hs fun k => ?_⟩
    · rw [hfound, hfindings]
      exact (hperm.flatMap_right _).append_left _
    · rw [hverified' k, hverified k, i.recording.covers_perm (hperm.flatMap_right _)]
  · intro c hc
    have hnamed' : Check.noMoreFiles ∉ [c] := by
      rw [List.mem_singleton]
      rintro rfl
      exact hnamed hc
    have hhalt' : ∀ cause, .halt cause ∉ [c].flatMap i.recording.acts := by
      intro cause hcause
      rw [List.flatMap_singleton] at hcause
      exact hhalt cause (List.mem_flatMap.2 ⟨c, hc, hcause⟩)
    obtain ⟨own, hown, hownFindings, -⟩ := outcome_of_named hs hnamed' hhalt' {}
    obtain ⟨q', hq', hfound, hverified'⟩ := outcome_of_named hs hnamed' hhalt' q
    have hown' : own.findings = i.recording.told c := by
      rw [hownFindings, List.flatMap_singleton]
      rfl
    refine ⟨own, q', hown, ?_, ?_, ?_, lastCheck_congr hs fun k => ?_⟩
    · rw [outcome_append, h]
      exact hq'
    · rw [hfound, hown', List.flatMap_singleton]
    · rw [hfindings, List.drop_left, hown', List.flatMap_def]
      exact List.sublist_flatten_of_mem (List.mem_map_of_mem hc)
    · -- what the check claims is verified already
      rw [hverified' k, or_iff_left_iff_imp]
      intro hcovers
      obtain ⟨name, hname, hkey⟩ := hcovers
      rw [List.flatMap_singleton] at hname
      exact (hverified k).2 (.inr ⟨name, List.mem_flatMap.2 ⟨c, hc, hname⟩, hkey⟩)
  · intro added more q' hperm hq'
    refine lastCheck_of_more hs fun k => ?_
    rw [i.recording.mem_verified_outcome hq' k, hverified k, or_assoc, ← covers_append,
      ← List.flatMap_append, i.recording.covers_perm (hperm.flatMap_right _)]

/-- A name that is missing, one that must not be there, and a link that leads to its target. -/
def linkedChecks : List Check :=
  [.files ["a", "x"], .noFiles ["b/f"], .symlink "l" "b"]

/-- In the other order the checks of the linked tree find the same, and the last check reports the
same file. -/
theorem order_of_linkedChecks : .noMoreFiles ∉ linkedChecks ∧
    ∃ q q', linkedInspection.recording.outcome linkedChecks {} = (.ok (), q) ∧
      q.findings.length = 2 ∧
      linkedInspection.recording.outcome linkedChecks.reverse {} = (.ok (), q') ∧
      q'.findings.Perm q.findings ∧
      linkedInspection.recording.lastCheck q' = (.ok (), [.unverified "b/f"]) := by
  have hrun : ∃ q, linkedInspection.recording.outcome linkedChecks {} = (.ok (), q) ∧
      q.findings.length = 2 ∧
      linkedInspection.recording.lastCheck q = (.ok (), [.unverified "b/f"]) :=
    ⟨_, by cbv, by cbv, by cbv⟩
  obtain ⟨q, hq, hsize, hlast⟩ := hrun
  have hnamed : Check.noMoreFiles ∉ linkedChecks := by decide
  obtain ⟨q', hq', hperm, hlast'⟩ :=
    (order_of_checks hnamed hq).1 linkedChecks.reverse linkedChecks.reverse_perm
  exact ⟨hnamed, q, q', hq, hsize, hq', hperm, hlast'.trans hlast⟩

end MigrationBench.Inspection
