import MigrationBench.Proofs.Tree.Acts

/-!
# The two strategies agree

The raising run of some checks is the recording run up to the first finding: acts before it are
performed alike, since no act reads the findings. After it the recording run goes on alone and
only adds to the verified paths.

* `Inspection.recording`, `Inspection.raising` — an inspection under either strategy.
* `Inspection.verified_subset_enact` — no act takes a verified path away.
* `Inspection.raising_agrees_with_recording` — the two runs of any checks compared.
-/

namespace MigrationBench.Inspection

variable (i : Inspection)

/-- The inspection that records findings. -/
def recording : Inspection := { i with strategy := .recording }

/-- The inspection that stops at a finding. -/
def raising : Inspection := { i with strategy := .raising }

/-- The acts of a check do not depend on the strategy. -/
theorem acts_recording (c : Check) : i.recording.acts c = i.acts c := by
  cases c <;> rfl

theorem acts_raising (c : Check) : i.raising.acts c = i.acts c := by
  cases c <;> rfl

/-! ### Verified paths stay verified -/

/-- The verified paths after an act. -/
def verifiedAfter (verified : List String) : Act → List String
  | .remember path => verified.insert (i.key path)
  | _ => verified

/-- What an act verifies depends neither on the strategy nor on whether the run ends at it. -/
theorem verified_perform (a : Act) (p : Progress) :
    ((i.perform a).run.run p).2.verified = i.verifiedAfter p.verified a := by
  have hreport : ∀ f, ((i.perform (.report f)).run.run p).2.verified = p.verified := by
    intro f
    cases hs : i.strategy with
    | raising => rw [perform_report_raising i hs]; rfl
    | recording => rw [perform_report_recording i hs]; rfl
  cases a with
  | report f => exact hreport f
  | remember path => rfl
  | demand key =>
    rw [perform_demand]
    split
    · rfl
    · exact hreport (.unverified key)
  | halt cause => rfl

theorem mem_verifiedAfter (verified : List String) (a : Act) (k : String) :
    k ∈ i.verifiedAfter verified a ↔ k ∈ verified ∨ ∃ path, a = .remember path ∧ i.key path = k := by
  cases a with
  | remember path =>
    show k ∈ verified.insert (i.key path) ↔ _
    rw [List.mem_insert_iff]
    simp [eq_comm, or_comm]
  | _ => simp [verifiedAfter]

/-- Acts add to the verified paths and take none away, wherever the run ends. -/
theorem verified_subset_enact (as : List Act) (p : Progress) :
    p.verified ⊆ (i.enact as p).2.verified := by
  induction as generalizing p with
  | nil => exact List.Subset.refl _
  | cons a as ih =>
    have hstep := i.verified_perform a p
    rw [enact_cons]
    rcases h : (i.perform a).run.run p with ⟨r, q⟩
    rw [h] at hstep
    have hsub : p.verified ⊆ q.verified := fun k hk => by
      rw [show q.verified = i.verifiedAfter p.verified a from hstep, mem_verifiedAfter]
      exact .inl hk
    cases r with
    | error halt => exact hsub
    | ok u => exact List.Subset.trans hsub (ih q)

/-! ### The runs in step -/

/-- An act either finds nothing and has the same effect under both strategies, or it finds something
that one strategy raises and the other records. -/
theorem perform_cases (a : Act) (p : Progress) :
    ((i.raising.perform a).run.run p = (i.recording.perform a).run.run p ∧
      ((i.recording.perform a).run.run p).2.findings = p.findings ∧
      ∀ h, ((i.recording.perform a).run.run p).1 = .error h → ∃ cause, h = .file cause) ∨
    ∃ f, (i.raising.perform a).run.run p = (.error (.finding f), i.noted f p) ∧
      (i.recording.perform a).run.run p = (.ok (), i.recorded f p) := by
  have hreport : ∀ f, (i.raising.perform (.report f)).run.run p = (.error (.finding f), i.noted f p) ∧
      (i.recording.perform (.report f)).run.run p = (.ok (), i.recorded f p) := fun f =>
    ⟨perform_report_raising i.raising rfl f p, perform_report_recording i.recording rfl f p⟩
  cases a with
  | report f => exact .inr ⟨f, hreport f⟩
  | remember path =>
    refine .inl ⟨rfl, rfl, ?_⟩
    intro h hh
    cases hh
  | demand key =>
    rw [perform_demand, perform_demand]
    by_cases hkey : key ∈ p.verified
    · rw [if_pos hkey, if_pos hkey]
      refine .inl ⟨rfl, rfl, ?_⟩
      intro h hh
      cases hh
    · rw [if_neg hkey, if_neg hkey]
      exact .inr ⟨.unverified key, hreport _⟩
  | halt cause =>
    refine .inl ⟨rfl, rfl, ?_⟩
    intro h hh
    cases hh
    exact ⟨cause, rfl⟩

/-- A recording run only ends before its last act at a fault of the files. -/
theorem enact_recording_error (as : List Act) (p : Progress) (h : Halt)
    (hh : (i.recording.enact as p).1 = .error h) : ∃ cause, h = .file cause := by
  induction as generalizing p with
  | nil => cases hh
  | cons a as ih =>
    rw [enact_cons] at hh
    rcases i.perform_cases a p with ⟨-, -, hfile⟩ | ⟨f, -, hrec⟩
    · rcases hstep : (i.recording.perform a).run.run p with ⟨r, q⟩
      rw [hstep] at hh hfile
      cases r with
      | error halt => exact hfile h hh
      | ok u => exact ih q hh
    · rw [hrec] at hh
      exact ih _ hh

/-- **Acts under both strategies.** The recording run adds some findings. If it adds none, the raising
run is the same; otherwise the raising run stops at the first one. -/
theorem enact_raising_of_recording (as : List Act) (p : Progress) :
    ∃ found, (i.recording.enact as p).2.findings = p.findings ++ found ∧
      (found = [] → i.raising.enact as p = i.recording.enact as p) ∧
      ∀ f rest, found = f :: rest →
        (i.raising.enact as p).1 = .error (.finding f) ∧
        (i.raising.enact as p).2.verified ⊆ (i.recording.enact as p).2.verified := by
  -- as long as nothing is found, both runs are in one state
  induction as generalizing p with
  | nil =>
    refine ⟨[], (List.append_nil _).symm, fun _ => rfl, ?_⟩
    intro f rest h
    cases h
  | cons a as ih =>
    rw [enact_cons, enact_cons]
    rcases i.perform_cases a p with ⟨hsame, hfindings, -⟩ | ⟨f, hraise, hrec⟩
    · rw [hsame]
      rcases hstep : (i.recording.perform a).run.run p with ⟨r, q⟩
      rw [hstep] at hfindings
      cases r with
      | error halt =>
        refine ⟨[], by rw [List.append_nil]; exact hfindings, fun _ => rfl, ?_⟩
        intro f rest h
        cases h
      | ok u =>
        have hq : q.findings = p.findings := hfindings
        rw [← hq]
        exact ih q
    · rw [hraise, hrec]
      obtain ⟨later, hlater, -⟩ := ih (i.recorded f p)
      refine ⟨f :: later, ?_, ?_, ?_⟩
      · show (i.recording.enact as (i.recorded f p)).2.findings = p.findings ++ f :: later
        rw [hlater]
        show (p.findings ++ [f]) ++ later = p.findings ++ f :: later
        rw [List.append_assoc, List.singleton_append]
      · intro h
        cases h
      · intro g rest h
        cases h
        exact ⟨rfl, i.recording.verified_subset_enact as (i.recorded f p)⟩

/-- **The two strategies agree.** A recording run of checks adds findings to those that were there.
If there is a first one, the raising run ends with it, and what it has verified is part of what the
recording run verifies. If there is none, the raising run ends as the recording run does, at the same
fault of the files or after the last check, with the same paths verified. -/
theorem raising_agrees_with_recording (checks : List Check) (p : Progress) :
    ∃ found, (i.recording.outcome checks p).2.findings = p.findings ++ found ∧
      (∀ f rest, found = f :: rest →
        (i.raising.outcome checks p).1 = .error (.finding f) ∧
        (i.raising.outcome checks p).2.verified ⊆ (i.recording.outcome checks p).2.verified) ∧
      (∀ halt, found = [] → (i.recording.outcome checks p).1 = .error halt →
        (i.raising.outcome checks p).1 = .error halt ∧ ∃ cause, halt = .file cause) ∧
      (found = [] → (i.recording.outcome checks p).1 = .ok () →
        (i.raising.outcome checks p).1 = .ok () ∧
        (i.raising.outcome checks p).2.verified = (i.recording.outcome checks p).2.verified) := by
  have hacts : i.raising.acts = i.recording.acts := by
    funext c
    rw [acts_raising, acts_recording]
  rw [outcome_eq_enact, outcome_eq_enact, hacts]
  obtain ⟨found, hfound, hsame, hfirst⟩ :=
    i.enact_raising_of_recording (checks.flatMap i.recording.acts) p
  refine ⟨found, hfound, hfirst, ?_, ?_⟩
  · intro halt hnone hend
    rw [hsame hnone]
    exact ⟨hend, i.enact_recording_error _ p halt hend⟩
  · intro hnone hend
    rw [hsame hnone]
    exact ⟨hend, rfl⟩

end MigrationBench.Inspection
