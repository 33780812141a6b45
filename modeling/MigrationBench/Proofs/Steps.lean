import Mathlib.Data.List.Forall2
import Mathlib.Tactic.Common

/-!
# Steps that can fail

A chain of steps has an answer if every step has one; otherwise it ends at the first fault.

* `Steps.bind_eq_ok_iff`, `Steps.bind_eq_error_iff` — two steps.
* `Steps.map_eq_ok_iff`, `Steps.map_eq_error_iff` — a step whose answer is seen as another one.
* `Steps.mapError_eq_ok_iff`, `Steps.mapError_eq_error_iff` — a step whose fault is seen as another one.
* `Steps.mapM_eq_ok_iff`, `Steps.mapM_eq_error_iff` — one step for each item of a list.
* `Steps.Alike` — two steps that end with one fault or with related answers.
-/

namespace MigrationBench.Steps

variable {ε α β : Type}

theorem bind_eq_ok_iff {first : Except ε α} {next : α → Except ε β} {b : β} :
    (first >>= next) = .ok b ↔ ∃ a, first = .ok a ∧ next a = .ok b := by
  cases first with
  | error fault => simp [bind, Except.bind]
  | ok a => simp [bind, Except.bind]

theorem bind_eq_error_iff {first : Except ε α} {next : α → Except ε β} {fault : ε} :
    (first >>= next) = .error fault ↔
      first = .error fault ∨ ∃ a, first = .ok a ∧ next a = .error fault := by
  cases first with
  | error cause => simp [bind, Except.bind]
  | ok a => simp [bind, Except.bind]

theorem map_eq_ok_iff {f : α → β} {step : Except ε α} {b : β} :
    step.map f = .ok b ↔ ∃ a, step = .ok a ∧ f a = b := by
  cases step <;> simp [Except.map]

theorem map_eq_error_iff {f : α → β} {step : Except ε α} {fault : ε} :
    step.map f = .error fault ↔ step = .error fault := by
  cases step <;> simp [Except.map]

theorem mapError_eq_ok_iff {ε' : Type} {seen : ε → ε'} {step : Except ε α} {a : α} :
    step.mapError seen = .ok a ↔ step = .ok a := by
  cases step <;> simp [Except.mapError]

theorem mapError_eq_error_iff {ε' : Type} {seen : ε → ε'} {step : Except ε α} {fault : ε'} :
    step.mapError seen = .error fault ↔ ∃ cause, step = .error cause ∧ seen cause = fault := by
  cases step <;> simp [Except.mapError]

/-- All items have an answer, and the answers stand in the order of the items. -/
theorem mapM_eq_ok_iff {step : α → Except ε β} {items : List α} {answers : List β} :
    items.mapM step = .ok answers ↔ List.Forall₂ (fun a b => step a = .ok b) items answers := by
  induction items generalizing answers with
  | nil =>
    rw [List.mapM_nil, List.forall₂_nil_left_iff]
    simp [pure, Except.pure, eq_comm]
  | cons a items ih =>
    rw [List.mapM_cons, bind_eq_ok_iff, List.forall₂_cons_left_iff]
    constructor
    · rintro ⟨b, hb, hrest⟩
      obtain ⟨rest, hmapM, heq⟩ := bind_eq_ok_iff.1 hrest
      cases heq
      exact ⟨b, rest, hb, ih.1 hmapM, rfl⟩
    · rintro ⟨b, rest, hb, hrest, rfl⟩
      exact ⟨b, hb, bind_eq_ok_iff.2 ⟨rest, ih.2 hrest, rfl⟩⟩

theorem exists_of_mapM_eq_ok {step : α → Except ε β} {items : List α} {answers : List β}
    (h : items.mapM step = .ok answers) {a : α} (ha : a ∈ items) : ∃ b, step a = .ok b := by
  rw [mapM_eq_ok_iff] at h
  induction h with
  | nil => cases ha
  | cons hb _ ih =>
    rcases List.mem_cons.1 ha with rfl | ha
    · exact ⟨_, hb⟩
    · exact ih ha

/-- The fault is that of the first item that has one. -/
theorem mapM_eq_error_iff {step : α → Except ε β} {items : List α} {fault : ε} :
    items.mapM step = .error fault ↔ ∃ before a after, items = before ++ a :: after ∧
      (∀ earlier ∈ before, ∃ b, step earlier = .ok b) ∧ step a = .error fault := by
  induction items with
  | nil =>
    rw [List.mapM_nil]
    refine iff_of_false (fun h => by cases h) ?_
    rintro ⟨before, a, after, heq, -⟩
    simp at heq
  | cons a items ih =>
    rw [List.mapM_cons, bind_eq_error_iff]
    constructor
    · rintro (hfault | ⟨b, hb, hrest⟩)
      · exact ⟨[], a, items, rfl, List.forall_mem_nil _, hfault⟩
      · rcases bind_eq_error_iff.1 hrest with hmapM | ⟨rest, -, hpure⟩
        · obtain ⟨before, other, after, rfl, hbefore, hfault⟩ := ih.1 hmapM
          exact ⟨a :: before, other, after, rfl, List.forall_mem_cons.2 ⟨⟨b, hb⟩, hbefore⟩, hfault⟩
        · cases hpure
    · rintro ⟨before, other, after, heq, hbefore, hfault⟩
      cases before with
      | nil =>
        cases heq
        exact .inl hfault
      | cons first before =>
        cases heq
        obtain ⟨⟨b, hb⟩, hbefore⟩ := List.forall_mem_cons.1 hbefore
        have hmapM := ih.2 ⟨before, other, after, rfl, hbefore, hfault⟩
        exact .inr ⟨b, hb, bind_eq_error_iff.2 (.inl hmapM)⟩

/-- Two steps end alike: with one fault, or with answers that are related. -/
inductive Alike (related : α → α → Prop) : Except ε α → Except ε α → Prop where
  | fault (cause : ε) : Alike related (.error cause) (.error cause)
  | answer (a b : α) (h : related a b) : Alike related (.ok a) (.ok b)

/-- Steps that end alike have the same fault, if they have one. -/
theorem Alike.error_iff {related : α → α → Prop} {first second : Except ε α} (h : Alike related first second)
    (fault : ε) : first = .error fault ↔ second = .error fault := by
  cases h with
  | fault cause => exact Iff.rfl
  | answer a b _ => simp

end MigrationBench.Steps
