import MigrationBench.Text.Blank
import MigrationBench.Text.Lines
import Mathlib.Data.List.DropRight
import Mathlib.Data.List.TakeWhile

/-!
# Cutting text

Text is cut behind a run of characters, at the first occurrence of a character or at all of them, and the
blanks at its ends are cut off. Trimming takes away nothing else, and doing it again changes nothing.

* `takeWhile_append_stop`, `dropWhile_append_stop` — a run of characters, and what follows.
* `takeWhile_append_cut`, `dropWhile_append_cut` — what stands before the first occurrence of a character,
  and what follows.
* `cutAt_append`, `cutAt_of_not_mem` — the pieces of two texts with a separator between.
* `length_cutAt`, `newlines`, `length_lines` — the number of pieces and of lines.
* `lines_append` — the lines of two texts with a newline between.
* `infix_of_trimChars`, `mem_trimChars` — what is left of a trimmed text.
* `trimChars_eq_self_iff` — a text stays as it is if it neither begins nor ends with a blank.
* `trimChars_trimChars`, `trimChars_concat`, `trimChars_append_blanks` — trimming again, and between blanks.
-/

namespace MigrationBench.Text

variable {sep : Char} {front behind : List Char}

/-! ### Runs of characters -/

/-- A run ends where a character without the property follows. -/
theorem takeWhile_append_stop {p : Char → Bool} (hfront : ∀ c ∈ front, p c = true)
    (hstop : ∀ c ∈ behind.head?, p c = false) : (front ++ behind).takeWhile p = front := by
  rw [List.takeWhile_append_of_pos hfront]
  cases behind with
  | nil => rw [List.takeWhile_nil, List.append_nil]
  | cons c rest =>
    rw [List.takeWhile_cons_of_neg (by rw [hstop c rfl]; exact Bool.false_ne_true), List.append_nil]

theorem dropWhile_append_stop {p : Char → Bool} (hfront : ∀ c ∈ front, p c = true)
    (hstop : ∀ c ∈ behind.head?, p c = false) : (front ++ behind).dropWhile p = behind := by
  rw [List.dropWhile_append_of_pos hfront]
  cases behind with
  | nil => rfl
  | cons c rest => rw [List.dropWhile_cons_of_neg (by rw [hstop c rfl]; exact Bool.false_ne_true)]

/-! ### The first occurrence of a character -/

theorem bne_of_not_mem (h : sep ∉ front) : ∀ c ∈ front, (c != sep) = true := by
  intro c hc
  rw [bne_iff_ne]
  rintro rfl
  exact h hc

theorem takeWhile_append_cut (h : sep ∉ front) (rest : List Char) :
    (front ++ sep :: rest).takeWhile (· != sep) = front :=
  takeWhile_append_stop (bne_of_not_mem h) (by simp)

theorem dropWhile_append_cut (h : sep ∉ front) (rest : List Char) :
    (front ++ sep :: rest).dropWhile (· != sep) = sep :: rest :=
  dropWhile_append_stop (bne_of_not_mem h) (by simp)

/-- There is only one way to cut a text at the first occurrence of a character. -/
theorem append_cut_inj {front' rest rest' : List Char} (h : sep ∉ front) (h' : sep ∉ front')
    (heq : front ++ sep :: rest = front' ++ sep :: rest') : front = front' ∧ rest = rest' := by
  have hfront := congrArg (List.takeWhile (· != sep)) heq
  have hrest := congrArg (List.dropWhile (· != sep)) heq
  rw [takeWhile_append_cut h, takeWhile_append_cut h'] at hfront
  rw [dropWhile_append_cut h, dropWhile_append_cut h'] at hrest
  exact ⟨hfront, List.tail_eq_of_cons_eq hrest⟩

theorem not_mem_takeWhile_bne (sep : Char) (cs : List Char) : sep ∉ cs.takeWhile (· != sep) := by
  intro h
  simpa using List.mem_takeWhile_imp h

/-! ### The pieces between separators -/

theorem cutAt_of_not_mem (h : sep ∉ front) : cutAt sep front = [front] := by
  induction front with
  | nil => rfl
  | cons c front ih =>
    rw [List.mem_cons, not_or] at h
    rw [cutAt, if_neg (Ne.symm h.1), ih h.2]

/-- A separator between two texts ends the last piece of the first one. -/
theorem cutAt_append (sep : Char) (front behind : List Char) :
    cutAt sep (front ++ sep :: behind) = cutAt sep front ++ cutAt sep behind := by
  induction front with
  | nil => simp [cutAt]
  | cons c front ih =>
    rw [List.cons_append, cutAt, cutAt, ih]
    split
    · rfl
    · obtain ⟨piece, pieces, hfront⟩ := List.exists_cons_of_ne_nil (cutAt_ne_nil sep front)
      rw [hfront, List.cons_append]
      rfl

theorem lines_append (a b : String) : lines (a ++ "\n" ++ b) = lines a ++ lines b := by
  have hchars : (a ++ "\n" ++ b).toList = a.toList ++ '\n' :: b.toList := by simp
  rw [lines, hchars, cutAt_append, List.map_append]
  rfl

/-- There is one piece more than there are separators. -/
theorem length_cutAt (sep : Char) (cs : List Char) : (cutAt sep cs).length = cs.count sep + 1 := by
  induction cs with
  | nil => rfl
  | cons c cs ih =>
    rw [cutAt]
    split
    · rename_i hc
      rw [hc, List.count_cons_self, List.length_cons, ih]
    · rename_i hc
      obtain ⟨piece, pieces, hrest⟩ := List.exists_cons_of_ne_nil (cutAt_ne_nil sep cs)
      rw [List.count_cons_of_ne hc, ← ih, hrest]
      rfl

/-- The number of newlines in a text. -/
def newlines (s : String) : Nat :=
  s.toList.count '\n'

theorem newlines_append (s t : String) : newlines (s ++ t) = newlines s + newlines t := by
  rw [newlines, String.toList_append, List.count_append, newlines, newlines]

theorem newlines_eq_zero_iff {s : String} : newlines s = 0 ↔ '\n' ∉ s.toList :=
  List.count_eq_zero

theorem length_lines (s : String) : (lines s).length = newlines s + 1 := by
  rw [lines, List.length_map, length_cutAt, newlines]

/-- A text without newlines is one line. -/
theorem lines_of_not_mem {line : String} (h : '\n' ∉ line.toList) : lines line = [line] := by
  rw [lines, cutAt_of_not_mem h, List.map_singleton, String.ofList_toList]

/-! ### Trimming -/

theorem trimChars_eq_rdropWhile (cs : List Char) :
    trimChars cs = (cs.dropWhile isBlank).rdropWhile isBlank := rfl

theorem prefix_of_trimChars (cs : List Char) : trimChars cs <+: cs.dropWhile isBlank :=
  List.rdropWhile_prefix isBlank _

theorem infix_of_trimChars (cs : List Char) : trimChars cs <:+: cs :=
  (prefix_of_trimChars cs).isInfix.trans (List.dropWhile_suffix isBlank).isInfix

theorem mem_of_mem_trimChars {c : Char} {cs : List Char} (h : c ∈ trimChars cs) : c ∈ cs :=
  (infix_of_trimChars cs).subset h

/-- Only blanks are cut off. -/
theorem mem_trimChars {c : Char} {cs : List Char} (hc : isBlank c = false) (h : c ∈ cs) :
    c ∈ trimChars cs := by
  have hnot : ¬ isBlank c = true := by
    rw [hc]
    exact Bool.false_ne_true
  have hrest : c ∈ cs.dropWhile isBlank := by
    rw [← List.takeWhile_append_dropWhile (p := isBlank) (l := cs), List.mem_append] at h
    exact h.resolve_left fun hfront => hnot (List.mem_takeWhile_imp hfront)
  rw [← List.rdropWhile_append_rtakeWhile (p := isBlank) (l := cs.dropWhile isBlank),
    List.mem_append] at hrest
  exact hrest.resolve_right fun hback => hnot (List.mem_rtakeWhile_imp hback)

theorem trimChars_eq_nil_iff {cs : List Char} : trimChars cs = [] ↔ ∀ c ∈ cs, isBlank c = true := by
  rw [trimChars_eq_rdropWhile, List.rdropWhile_eq_nil_iff]
  constructor
  · intro h c hc
    rw [← List.takeWhile_append_dropWhile (p := isBlank) (l := cs), List.mem_append] at hc
    rcases hc with hfront | hrest
    · exact List.mem_takeWhile_imp hfront
    · exact h c hrest
  · intro h c hc
    exact h c ((List.dropWhile_suffix isBlank).subset hc)

/-- A text that neither begins nor ends with a blank stays as it is. -/
theorem trimChars_eq_self_iff {cs : List Char} : trimChars cs = cs ↔
    (∀ c ∈ cs.head?, isBlank c = false) ∧ ∀ c ∈ cs.getLast?, isBlank c = false := by
  have hfront : cs.dropWhile isBlank = cs ↔ ∀ c ∈ cs.head?, isBlank c = false := by
    cases cs with
    | nil => simp
    | cons c rest => simp [List.dropWhile_eq_self_iff]
  have hback : cs.rdropWhile isBlank = cs ↔ ∀ c ∈ cs.getLast?, isBlank c = false := by
    rw [List.rdropWhile_eq_self_iff]
    cases cs using List.reverseRecOn with
    | nil => simp
    | append_singleton front c => simp
  rw [← hfront, ← hback]
  constructor
  · intro h
    have hlength : cs.length ≤ (cs.dropWhile isBlank).length := by
      conv_lhs => rw [← h]
      exact (prefix_of_trimChars cs).length_le
    have hall : cs.dropWhile isBlank = cs := (List.dropWhile_suffix isBlank).eq_of_length_le hlength
    refine ⟨hall, ?_⟩
    rw [trimChars, hall] at h
    exact h
  · rintro ⟨hall, h⟩
    rw [trimChars, hall]
    exact h

/-- What trimming leaves neither begins nor ends with a blank. -/
theorem trimChars_trimChars (cs : List Char) : trimChars (trimChars cs) = trimChars cs := by
  rw [trimChars_eq_self_iff]
  constructor
  · intro c hc
    -- the first character that is left is the first one that is no blank
    have hhead : (cs.dropWhile isBlank).head? = some c := by
      obtain ⟨rest, hrest⟩ := prefix_of_trimChars cs
      rw [← hrest, List.head?_append, Option.mem_def.1 hc]
      rfl
    have hnot := List.head?_dropWhile_not isBlank cs
    rw [hhead] at hnot
    simpa using hnot
  · intro c hc
    have hne : trimChars cs ≠ [] := by
      intro hnil
      rw [hnil] at hc
      cases hc
    have hlast : (trimChars cs).getLast hne = c := by
      rw [List.getLast?_eq_getLast_of_ne_nil hne] at hc
      exact Option.some.inj hc
    have hnot := List.rdropWhile_last_not isBlank (cs.dropWhile isBlank) hne
    rw [← hlast, Bool.eq_false_iff]
    exact hnot

/-- A blank at the end does not count. -/
theorem trimChars_concat {c : Char} (hc : isBlank c = true) (cs : List Char) :
    trimChars (cs ++ [c]) = trimChars cs := by
  rw [trimChars, List.dropWhile_append]
  split
  · rename_i hall
    rw [trimChars, List.isEmpty_iff.1 hall, List.dropWhile_cons_of_pos hc, List.dropWhile_nil]
  · exact List.rdropWhile_concat_pos isBlank _ c hc

/-- Blanks in front and behind do not count. -/
theorem trimChars_append_blanks {cs : List Char} (hfront : ∀ c ∈ front, isBlank c = true)
    (hbehind : ∀ c ∈ behind, isBlank c = true) : trimChars (front ++ cs ++ behind) = trimChars cs := by
  induction behind using List.reverseRecOn with
  | nil => rw [List.append_nil, trimChars, List.dropWhile_append_of_pos hfront, trimChars]
  | append_singleton behind c ih =>
    rw [List.forall_mem_append, List.forall_mem_singleton] at hbehind
    rw [← List.append_assoc, trimChars_concat hbehind.2, ih hbehind.1]

end MigrationBench.Text
