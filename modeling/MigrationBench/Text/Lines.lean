/-!
# Splitting text

Texts cut at a separator, and the end-of-line conventions.

* `cutAt` — the pieces of a list of characters between the occurrences of a separator.
* `lines` — the pieces of a text between newlines; other line separators do not count.
* `firstLine` — the text before the first newline.
* `unifyNewlines` — carriage returns read as newlines.
-/

namespace MigrationBench.Text

/-- The pieces between the occurrences of `sep`; there is always one more piece than separators. -/
def cutAt (sep : Char) : List Char → List (List Char)
  | [] => [[]]
  | c :: rest =>
    if c = sep then [] :: cutAt sep rest
    else match cutAt sep rest with
      | piece :: pieces => (c :: piece) :: pieces
      | [] => [[c]]

/-- The pieces of a text between newlines. -/
def lines (s : String) : List String :=
  (cutAt '\n' s.toList).map String.ofList

/-- The text before the first newline. -/
def firstLine (s : String) : String :=
  String.ofList (s.toList.takeWhile (· != '\n'))

/-- Reads a carriage return, alone or before a newline, as one newline. -/
def unifyNewlines : List Char → List Char
  | [] => []
  | '\r' :: '\n' :: rest => '\n' :: unifyNewlines rest
  | c :: rest => (if c = '\r' then '\n' else c) :: unifyNewlines rest

theorem cutAt_ne_nil (sep : Char) (cs : List Char) : cutAt sep cs ≠ [] := by
  induction cs with
  | nil => simp [cutAt]
  | cons c rest ih =>
    rw [cutAt]
    split
    · simp
    · split <;> simp

/-- No piece holds the separator. -/
theorem not_mem_of_mem_cutAt {sep : Char} {cs piece : List Char} (h : piece ∈ cutAt sep cs) :
    sep ∉ piece := by
  induction cs generalizing piece with
  | nil => simp_all [cutAt]
  | cons c rest ih =>
    rw [cutAt] at h
    split at h
    · rcases List.mem_cons.1 h with rfl | h
      · simp
      · exact ih h
    · rename_i hc
      split at h
      · rename_i first pieces heq
        rcases List.mem_cons.1 h with rfl | h
        · simp only [List.mem_cons, not_or]
          exact ⟨fun h => hc h.symm, ih (by rw [heq]; simp)⟩
        · exact ih (by rw [heq]; simp [h])
      · rename_i heq
        exact absurd heq (cutAt_ne_nil sep rest)

/-- Newlines are the only thing that ends a line. -/
theorem newline_not_mem_firstLine (s : String) : '\n' ∉ (firstLine s).toList := by
  simp only [firstLine, String.toList_ofList]
  intro h
  have := List.all_eq_true.1 (List.all_takeWhile (p := (· != '\n')) (l := s.toList)) _ h
  simp at this

end MigrationBench.Text
