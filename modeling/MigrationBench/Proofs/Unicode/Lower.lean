import MigrationBench.Unicode.Casing
import Mathlib

/-!
# Lower case and ASCII letters

The lower case of a text does not depend on the case of its ASCII letters, also where it looks at the
neighbours of a capital sigma.

* `apply_toLower` — what has one value for both cases of each ASCII letter.
* `lower_toLower`, `lower_congr` — **the case of ASCII letters does not count**.
* `IsPlain`, `lower_eq_iff_of_plain` — **which texts have a plain word as their lower case**: those that
  are the word up to the case of ASCII letters, since no other character has one of ASCII as its lower
  case, but for `k`.
-/

namespace MigrationBench.Unicode

theorem toLower_of_beyond {c : Char} (hc : 0x80 ≤ c.toNat) : c.toLower = c := by
  have hcapital : ¬ ('A'.val ≤ c.val ∧ c.val ≤ 'Z'.val) := by
    rintro ⟨-, hhigh⟩
    have hle : c.toNat ≤ 0x5a := hhigh
    omega
  rw [Char.toLower, dif_neg hcapital]

/-- A function of characters does not see the case of ASCII letters if it has the same value for both cases
of the characters of ASCII. -/
theorem apply_toLower {β : Type} (f : Char → β)
    (h : ∀ n < 0x80, f (Char.ofNat n).toLower = f (Char.ofNat n)) (c : Char) : f c.toLower = f c := by
  by_cases hascii : c.toNat < 0x80
  · have hc := h c.toNat hascii
    rwa [Char.ofNat_toNat] at hc
  · rw [toLower_of_beyond (Nat.le_of_not_lt hascii)]

theorem meetsCased_map_toLower (cs : List Char) : meetsCased (cs.map Char.toLower) = meetsCased cs := by
  induction cs with
  | nil => rfl
  | cons c rest ih =>
    have hignorable : inRanges caseIgnorableRanges c.toLower.toNat
        = inRanges caseIgnorableRanges c.toNat :=
      apply_toLower (fun c => inRanges caseIgnorableRanges c.toNat) (by decide) c
    have hcased : inRanges casedRanges c.toLower.toNat = inRanges casedRanges c.toNat :=
      apply_toLower (fun c => inRanges casedRanges c.toNat) (by decide) c
    rw [List.map_cons, meetsCased, meetsCased, ih, hignorable, hcased]

theorem lowerAfter_map_toLower (before cs : List Char) :
    lowerAfter (before.map Char.toLower) (cs.map Char.toLower) = lowerAfter before cs := by
  induction cs generalizing before with
  | nil => rfl
  | cons c rest ih =>
    have hsigma := apply_toLower (fun c => decide (c.toNat = 0x3a3)) (by decide) c
    have himage := apply_toLower lowerChar (by decide) c
    rw [decide_eq_decide] at hsigma
    rw [List.map_cons, lowerAfter, lowerAfter, meetsCased_map_toLower, meetsCased_map_toLower, himage,
      ← List.map_cons, ih]
    simp only [hsigma]

/-- **The case of ASCII letters does not count.** -/
theorem lower_toLower (s : String) : lower s.toLower = lower s := by
  have htoList : s.toLower.toList = s.toList.map Char.toLower := String.toList_map
  rw [lower, htoList, lower, ← lowerAfter_map_toLower [] s.toList, List.map_nil]

theorem lower_congr {s s' : String} (h : s.toLower = s'.toLower) : lower s = lower s' := by
  rw [← lower_toLower s, h, lower_toLower]

/-! ### Plain words -/

/-- A character that only characters of ASCII have as their lower case: one of ASCII, but neither NUL nor the
letter `k`, which is also the lower case of the Kelvin sign. -/
def IsPlain (d : Char) : Prop :=
  d.toNat < 0x80 ∧ d.toNat ≠ 0 ∧ d ≠ 'k'

instance (d : Char) : Decidable (IsPlain d) :=
  inferInstanceAs (Decidable (_ ∧ _))

/-- A code point stays as it is, or lies in a run that moves it. -/
theorem lowerInRuns_cases (runs : List (Nat × Nat × Nat × Nat)) (n : Nat) :
    lowerInRuns runs n = n ∨
      ∃ run ∈ runs, run.1 ≤ n ∧ n ≤ run.2.1 ∧ lowerInRuns runs n = run.2.2.2 + (n - run.1) := by
  induction runs with
  | nil => exact .inl rfl
  | cons run rest ih =>
    obtain ⟨first, last, step, target⟩ := run
    rw [lowerInRuns]
    split
    · exact .inl rfl
    · rename_i hfirst
      split
      · rename_i hlast
        rw [Bool.and_eq_true, decide_eq_true_eq] at hlast
        exact .inr ⟨_, List.mem_cons_self .., by omega, hlast.1, rfl⟩
      · rcases ih with hstays | ⟨run, hrun, hmoves⟩
        · exact .inl hstays
        · exact .inr ⟨run, List.mem_cons_of_mem _ hrun, hmoves⟩

/-- A code point beyond ASCII has no lower case in ASCII, but for the Kelvin sign. -/
theorem lowerInRuns_beyond {n : Nat} (hn : 0x80 ≤ n) :
    0x80 ≤ lowerInRuns lowerRuns n ∨ lowerInRuns lowerRuns n = 'k'.toNat := by
  have htable : ∀ run ∈ lowerRuns, run.2.1 < 0x80 ∨ 0x80 ≤ run.2.2.2 ∨
      run.1 = run.2.1 ∧ run.2.2.2 = 'k'.toNat := by decide +kernel
  rcases lowerInRuns_cases lowerRuns n with hstays | ⟨run, hrun, hfirst, hlast, hmoves⟩
  · exact .inl (hstays.symm ▸ hn)
  · rcases htable run hrun with hascii | hbeyond | ⟨hone, hkelvin⟩
    · omega
    · exact .inl (by omega)
    · exact .inr (by omega)

theorem lowerChar_of_ascii {c : Char} (hc : c.toNat < 0x80) : lowerChar c = [c.toLower] := by
  have hascii : ∀ n < 0x80, lowerChar (Char.ofNat n) = [(Char.ofNat n).toLower] := by decide
  have h := hascii c.toNat hc
  rwa [Char.ofNat_toNat] at h

theorem toNat_ofNat_cases (n : Nat) : (Char.ofNat n).toNat = n ∨ (Char.ofNat n).toNat = 0 := by
  rw [Char.ofNat]
  split
  · exact .inl rfl
  · exact .inr rfl

/-- The lower case of a character beyond ASCII is not plain. -/
theorem exists_not_plain_of_beyond {c : Char} (hc : 0x80 ≤ c.toNat) : ∃ d ∈ lowerChar c, ¬ IsPlain d := by
  rw [lowerChar]
  split
  · exact ⟨Char.ofNat 0x307, by simp, by decide⟩
  · refine ⟨_, List.mem_singleton_self _, ?_⟩
    rintro ⟨hascii, hnul, hkelvin⟩
    rcases toNat_ofNat_cases (lowerInRuns lowerRuns c.toNat) with hvalid | hinvalid
    · rw [hvalid] at hascii
      rcases lowerInRuns_beyond hc with hbeyond | hk
      · omega
      · exact hkelvin (Char.toNat_inj.1 (hvalid.trans hk))
    · exact hnul hinvalid

/-- A text of ASCII changes letter by letter. -/
theorem lowerAfter_of_ascii {cs : List Char} (hcs : ∀ c ∈ cs, c.toNat < 0x80) (before : List Char) :
    lowerAfter before cs = cs.map Char.toLower := by
  induction cs generalizing before with
  | nil => rfl
  | cons c rest ih =>
    obtain ⟨hc, hrest⟩ := List.forall_mem_cons.1 hcs
    have hsigma : c.toNat ≠ 0x3a3 := by omega
    rw [lowerAfter, if_neg hsigma, lowerChar_of_ascii hc, ih hrest, List.map_cons, List.singleton_append]

/-- A text whose lower case is plain is one of ASCII. -/
theorem ascii_of_plain_lowerAfter {before cs : List Char} (h : ∀ d ∈ lowerAfter before cs, IsPlain d) :
    ∀ c ∈ cs, c.toNat < 0x80 := by
  induction cs generalizing before with
  | nil => exact List.forall_mem_nil _
  | cons c rest ih =>
    rw [lowerAfter, List.forall_mem_append] at h
    refine List.forall_mem_cons.2 ⟨?_, ih h.2⟩
    by_contra hbeyond
    by_cases hsigma : c.toNat = 0x3a3
    · -- both forms of the small sigma lie beyond ASCII
      rw [if_pos hsigma] at h
      split at h
      · exact absurd (h.1 _ (List.mem_singleton_self _)) (by decide)
      · exact absurd (h.1 _ (List.mem_singleton_self _)) (by decide)
    · rw [if_neg hsigma] at h
      obtain ⟨d, hd, hplain⟩ := exists_not_plain_of_beyond (Nat.le_of_not_lt hbeyond)
      exact hplain (h.1 d hd)

theorem ascii_of_plain_lower {s : String} (h : ∀ d ∈ (lower s).toList, IsPlain d) :
    ∀ c ∈ s.toList, c.toNat < 0x80 := by
  rw [lower, String.toList_ofList] at h
  exact ascii_of_plain_lowerAfter h

theorem ascii_of_plain_toLower {c : Char} (h : IsPlain c.toLower) : c.toNat < 0x80 := by
  by_contra hbeyond
  rw [toLower_of_beyond (Nat.le_of_not_lt hbeyond)] at h
  exact hbeyond h.1

/-- **Which texts have a plain word as their lower case**: those that are the word up to the case of ASCII
letters. -/
theorem lower_eq_iff_of_plain {s word : String} (hword : ∀ d ∈ word.toList, IsPlain d) :
    lower s = word ↔ s.toLower = word := by
  have htoList : s.toLower.toList = s.toList.map Char.toLower := String.toList_map
  have hlower : (∀ c ∈ s.toList, c.toNat < 0x80) → lower s = s.toLower := by
    intro hascii
    rw [lower, lowerAfter_of_ascii hascii, ← htoList, String.ofList_toList]
  constructor
  · rintro rfl
    exact (hlower (ascii_of_plain_lower hword)).symm
  · rintro rfl
    refine hlower fun c hc => ascii_of_plain_toLower (hword _ ?_)
    rw [htoList]
    exact List.mem_map_of_mem hc

end MigrationBench.Unicode
