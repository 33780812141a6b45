import MigrationBench.Proofs.Label.Grammar

/-!
# The labels of composed texts

The labels of two texts, one below the other, are those of the first text and then those of the second.
So a list of labels can be written into a text, with any other lines between, and is read back from it.

* `Label.pairsOfMessage_append`, `Label.pairsOfMessage_intercalate` — the labels of texts below one another.
* `Label.Line`, `Label.compose` — a text that is put together of labels and other lines.
* `Label.pairsOfMessage_compose` — **the labels of a composed text** are those that were written into it.
-/

namespace MigrationBench.Label

/-! ### Texts below one another -/

theorem pairsOfMessage_append (a b : String) :
    pairsOfMessage (a ++ "\n" ++ b) = pairsOfMessage a ++ pairsOfMessage b := by
  simp only [pairsOfMessage, ofMessage, Text.lines_append, List.filterMap_append, List.map_append]

theorem pairsOfMessage_intercalate (texts : List String) :
    pairsOfMessage (String.intercalate "\n" texts) = texts.flatMap pairsOfMessage := by
  induction texts with
  | nil => decide
  | cons text rest ih =>
    by_cases hrest : rest = []
    · rw [hrest, String.intercalate_singleton, List.flatMap_singleton]
    · rw [String.intercalate_cons_of_ne_nil hrest, pairsOfMessage_append, ih, List.flatMap_cons]

theorem pairsOfMessage_of_not_mem {line : String} (h : '\n' ∉ line.toList) :
    pairsOfMessage line = ((parse? line).map pair).toList := by
  rw [pairsOfMessage, ofMessage, Text.lines_of_not_mem h]
  cases hline : parse? line with
  | none => simp [hline]
  | some l => simp [hline]

/-! ### Composed texts -/

/-- A line of a text that is put together: a label with a name and a value, or another line. -/
inductive Line where
  | label (name value : String)
  | other (text : String)
deriving DecidableEq, Repr

namespace Line

/-- The text of a line. -/
def text : Line → String
  | label name value => name ++ ": " ++ value
  | other text => text

/-- The name and the value of a label. -/
def pair? : Line → Option (String × String)
  | label name value => some (name, value)
  | other _ => none

/-- A label has a name of name characters and a value without newline; another line is no label. -/
def IsProper : Line → Prop
  | label name value => name ≠ "" ∧ (∀ c ∈ name.toList, isNameChar c = true) ∧ '\n' ∉ value.toList
  | other text => parse? text = none ∧ '\n' ∉ text.toList

instance : DecidablePred IsProper
  | label name value =>
    decidable_of_iff (name ≠ "" ∧ name.toList.all isNameChar = true ∧ '\n' ∉ value.toList)
      (by rw [IsProper, List.all_eq_true])
  | other text => inferInstanceAs (Decidable (parse? text = none ∧ '\n' ∉ text.toList))

variable {line : Line}

theorem parse?_text_label {name value : String} (h : (label name value).IsProper) :
    parse? (label name value).text = some ⟨name, ": ", value⟩ := by
  obtain ⟨hname, hchars, hvalue⟩ := h
  have hseparator : ": ".toList = List.replicate 0 ' ' ++ [':', ' '] := by decide
  have hblank : ": ".toList.getLast? = some ' ' := by decide
  have hlong : ": " ≠ ":" := by decide
  have hwell : IsWellFormed ⟨name, ": ", value⟩ :=
    ⟨hname, hchars, ⟨0, ':', [' '], hseparator, .inl rfl, .inr rfl⟩, hvalue, .inl hblank,
      fun hurl => hlong hurl.1⟩
  have hread := parse?_text hwell
  exact hread

theorem newline_not_mem_text (h : line.IsProper) : '\n' ∉ line.text.toList := by
  cases line with
  | label name value =>
    obtain ⟨-, hchars, hvalue⟩ := h
    have hname : '\n' ∉ name.toList := fun hmem => absurd (hchars _ hmem) (by decide)
    simp [text, hname, hvalue]
  | other text => exact h.2

theorem pairsOfMessage_text (h : line.IsProper) : pairsOfMessage line.text = line.pair?.toList := by
  rw [pairsOfMessage_of_not_mem (newline_not_mem_text h)]
  cases line with
  | label name value =>
    rw [parse?_text_label h]
    rfl
  | other text =>
    rw [Line.text, h.1]
    rfl

end Line

/-- The text of lines below one another. -/
def compose (lines : List Line) : String :=
  String.intercalate "\n" (lines.map Line.text)

/-- **The labels of a composed text** are those that were written into it, whatever stands between them. -/
theorem pairsOfMessage_compose {lines : List Line} (h : ∀ line ∈ lines, line.IsProper) :
    pairsOfMessage (compose lines) = lines.filterMap Line.pair? := by
  rw [compose, pairsOfMessage_intercalate, List.flatMap_map, List.filterMap_eq_flatMap_toList]
  exact List.flatMap_congr fun line hline => Line.pairsOfMessage_text (h line hline)

end MigrationBench.Label
