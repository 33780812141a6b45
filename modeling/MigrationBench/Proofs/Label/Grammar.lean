import MigrationBench.Label.Read
import MigrationBench.Proofs.Text.Cuts

/-!
# The grammar of label lines

A label line begins with a name. Behind the name stand blanks and a mark; a blank behind the mark
belongs to the separator, and the value is what follows up to the first newline. Only the start of a
URL, where `://` stands right behind the name, looks like a label and is none. There is one way at most
to cut a line like this, and the parts of a label, written in a row, are read back.

* `Label.Cut`, `Label.Cut.IsLabel` — a line cut at the mark behind its name, and the cuts that make a label.
* `Label.Cut.chars_injective` — a line has one such cut at most.
* `Label.Cut.parse?_of_chars`, `Label.exists_cut_of_parse?` — a line is a label if and only if it has one.
* `Label.IsWellFormed`, `Label.parse?_text_iff` — the labels that are read back from their texts.
* `Label.line_grammar` — **the grammar of label lines**.
-/

namespace MigrationBench.Label

/-! ### Lines cut at the mark -/

/-- A line cut at the mark behind its name: the name, a number of blanks, the mark, and the rest of the
line. -/
structure Cut where
  name : List Char
  blanks : Nat
  mark : Char
  rest : List Char
deriving DecidableEq

namespace Cut

/-- The characters of the line that is cut. -/
def chars (cut : Cut) : List Char :=
  cut.name ++ (List.replicate cut.blanks ' ' ++ cut.mark :: cut.rest)

/-- A cut that makes a label: the mark is a colon or an equals sign behind a name and blanks, and the
name with the colon does not start a URL. -/
structure IsLabel (cut : Cut) : Prop where
  name_ne : cut.name ≠ []
  name_chars : ∀ c ∈ cut.name, isNameChar c = true
  mark : cut.mark = ':' ∨ cut.mark = '='
  not_url : ¬ (cut.blanks = 0 ∧ cut.mark = ':' ∧ ['/', '/'] <+: cut.rest)

/-- The blank behind the mark, if there is one. -/
def gap (cut : Cut) : List Char :=
  if cut.rest.head? = some ' ' then [' '] else []

/-- The blanks and the mark, with the blank behind it. -/
def separator (cut : Cut) : List Char :=
  List.replicate cut.blanks ' ' ++ cut.mark :: cut.gap

/-- What is left behind the separator, up to the first newline. -/
def value (cut : Cut) : List Char :=
  (cut.rest.drop cut.gap.length).takeWhile (· != '\n')

/-- The label with these parts. -/
def label (cut : Cut) : Label :=
  ⟨String.ofList cut.name, String.ofList cut.separator, String.ofList cut.value⟩

variable {cut cut' : Cut}

instance : DecidablePred IsLabel := fun cut =>
  decidable_of_iff (cut.name ≠ [] ∧ cut.name.all isNameChar = true ∧ (cut.mark = ':' ∨ cut.mark = '=') ∧
      ¬ (cut.blanks = 0 ∧ cut.mark = ':' ∧ ['/', '/'].isPrefixOf cut.rest = true))
    ⟨fun ⟨hne, hchars, hmark, hurl⟩ =>
      ⟨hne, List.all_eq_true.1 hchars, hmark, by rwa [List.isPrefixOf_iff_prefix] at hurl⟩,
    fun ⟨hne, hchars, hmark, hurl⟩ =>
      ⟨hne, List.all_eq_true.2 hchars, hmark, by rwa [List.isPrefixOf_iff_prefix]⟩⟩

/-- The blank behind the mark belongs to the separator, if there is one. -/
theorem gap_cases (cut : Cut) :
    cut.gap = [] ∧ cut.rest.head? ≠ some ' ' ∨ cut.gap = [' '] ∧ ∃ rest, cut.rest = ' ' :: rest := by
  rw [gap]
  split
  · rename_i hhead
    exact .inr ⟨rfl, List.head?_eq_some_iff.1 hhead⟩
  · rename_i hhead
    exact .inl ⟨rfl, hhead⟩

theorem takeBlank_rest (cut : Cut) : takeBlank cut.rest = (cut.gap, cut.rest.drop cut.gap.length) := by
  rcases cut.gap_cases with ⟨hgap, hhead⟩ | ⟨hgap, rest, hrest⟩
  · rw [hgap, takeBlank.eq_2 _ fun rest hrest => hhead (by rw [hrest]; rfl)]
    rfl
  · rw [hgap, hrest]
    rfl

theorem gap_append (cut : Cut) : cut.gap ++ cut.rest.drop cut.gap.length = cut.rest := by
  rcases cut.gap_cases with ⟨hgap, -⟩ | ⟨hgap, rest, hrest⟩
  · rw [hgap]
    rfl
  · rw [hgap, hrest]
    rfl

namespace IsLabel

theorem forall_mark {p : Char → Prop} (h : cut.IsLabel) (hcolon : p ':') (hequals : p '=') : p cut.mark := by
  rcases h.mark with heq | heq <;> rw [heq] <;> assumption

theorem mark_ne (h : cut.IsLabel) : cut.mark ≠ ' ' :=
  h.forall_mark (p := (· ≠ ' ')) (by decide) (by decide)

theorem isMark (h : cut.IsLabel) : isMark cut.mark = true :=
  h.forall_mark (p := (Label.isMark · = true)) rfl rfl

/-- Neither a blank nor a mark is a character of a name, so that the name ends in front of them. -/
theorem name_stops (h : cut.IsLabel) :
    ∀ c ∈ (List.replicate cut.blanks ' ' ++ cut.mark :: cut.rest).head?, isNameChar c = false := by
  intro c hc
  cases hblanks : cut.blanks with
  | zero =>
    rw [hblanks] at hc
    cases hc
    exact h.forall_mark (p := (isNameChar · = false)) rfl rfl
  | succ k =>
    rw [hblanks] at hc
    cases hc
    rfl

theorem takeWhile_name (h : cut.IsLabel) : cut.chars.takeWhile isNameChar = cut.name :=
  Text.takeWhile_append_stop h.name_chars h.name_stops

theorem dropWhile_name (h : cut.IsLabel) :
    cut.chars.dropWhile isNameChar = List.replicate cut.blanks ' ' ++ cut.mark :: cut.rest :=
  Text.dropWhile_append_stop h.name_chars h.name_stops

theorem takeWhile_blanks (h : cut.IsLabel) :
    (List.replicate cut.blanks ' ' ++ cut.mark :: cut.rest).takeWhile (· == ' ')
      = List.replicate cut.blanks ' ' :=
  Text.takeWhile_append_stop (by simp) (by simp [h.mark_ne])

theorem dropWhile_blanks (h : cut.IsLabel) :
    (List.replicate cut.blanks ' ' ++ cut.mark :: cut.rest).dropWhile (· == ' ') = cut.mark :: cut.rest :=
  Text.dropWhile_append_stop (by simp) (by simp [h.mark_ne])

end IsLabel

/-- **A line is cut in one way at most.** -/
theorem chars_injective (h : cut.IsLabel) (h' : cut'.IsLabel) (heq : cut.chars = cut'.chars) :
    cut = cut' := by
  have hname : cut.name = cut'.name := by
    rw [← h.takeWhile_name, heq, h'.takeWhile_name]
  have hbehind : List.replicate cut.blanks ' ' ++ cut.mark :: cut.rest
      = List.replicate cut'.blanks ' ' ++ cut'.mark :: cut'.rest := by
    rw [← h.dropWhile_name, heq, h'.dropWhile_name]
  have hblanks : cut.blanks = cut'.blanks := by
    have hrun := congrArg (fun cs => (cs.takeWhile (· == ' ')).length) hbehind
    simpa only [h.takeWhile_blanks, h'.takeWhile_blanks, List.length_replicate] using hrun
  have hmark : cut.mark :: cut.rest = cut'.mark :: cut'.rest := by
    rw [← h.dropWhile_blanks, hbehind, h'.dropWhile_blanks]
  obtain ⟨name, blanks, mark, rest⟩ := cut
  cases hname
  cases hblanks
  cases hmark
  rfl

/-! ### The label of a cut line -/

theorem parts?_chars (h : cut.IsLabel) : parts? cut.chars = some (cut.name, cut.separator, cut.value) := by
  have hurl : ((List.replicate cut.blanks ' ').isEmpty && cut.mark == ':' && ['/', '/'].isPrefixOf cut.rest)
      = false := by
    rw [Bool.eq_false_iff]
    intro hall
    simp only [Bool.and_eq_true, List.isEmpty_iff, List.replicate_eq_nil_iff, beq_iff_eq,
      List.isPrefixOf_iff_prefix]
      at hall
    exact h.not_url ⟨hall.1.1, hall.1.2, hall.2⟩
  have hname : cut.name.isEmpty = false := by
    rw [List.isEmpty_eq_false_iff]
    exact h.name_ne
  simp only [parts?, h.takeWhile_name, h.dropWhile_name, h.takeWhile_blanks, h.dropWhile_blanks, hname,
    h.isMark, Bool.not_true, Bool.or_self, Bool.false_eq_true, if_false, hurl, takeBlank_rest]
  rfl

/-- **A line with a cut that makes a label** is the label with the parts of the cut. -/
theorem parse?_of_chars {line : String} (hline : cut.chars = line.toList) (h : cut.IsLabel) :
    parse? line = some cut.label := by
  rw [parse?, ← hline, parts?_chars h]
  rfl

theorem newline_not_mem_front (h : cut.IsLabel) : '\n' ∉ cut.name ++ cut.separator := by
  have hname : '\n' ∉ cut.name := by
    intro hmem
    exact absurd (h.name_chars _ hmem) (by decide)
  have hmark : '\n' ≠ cut.mark := h.forall_mark (by decide) (by decide)
  have hgap : '\n' ∉ cut.gap := by
    rcases cut.gap_cases with ⟨hgap, -⟩ | ⟨hgap, -⟩ <;> rw [hgap] <;> decide
  simp only [separator, List.mem_append, List.mem_cons, List.mem_replicate, not_or]
  exact ⟨hname, fun hblank => absurd hblank.2 (by decide), hmark, hgap⟩

/-- The parts of a label, written in a row, are the line up to its first newline. -/
theorem text_label {line : String} (hline : cut.chars = line.toList) (h : cut.IsLabel) :
    cut.label.name ++ cut.label.separator ++ cut.label.value = Text.firstLine line := by
  have hchars : cut.chars = (cut.name ++ cut.separator) ++ cut.rest.drop cut.gap.length := by
    rw [chars, separator, List.append_assoc, List.append_assoc, List.cons_append, gap_append]
  rw [Text.firstLine, ← hline, hchars,
    List.takeWhile_append_of_pos (Text.bne_of_not_mem (newline_not_mem_front h)), String.ofList_append,
    String.ofList_append]
  rfl

end Cut

theorem takeWhile_blank_eq (cs : List Char) :
    cs.takeWhile (· == ' ') = List.replicate (cs.takeWhile (· == ' ')).length ' ' := by
  refine List.eq_replicate_of_mem fun c hc => ?_
  simpa using List.mem_takeWhile_imp hc

/-- **Every label line has a cut.** -/
theorem exists_cut_of_parse? {line : String} (h : (parse? line).isSome = true) :
    ∃ cut : Cut, cut.chars = line.toList ∧ cut.IsLabel := by
  rw [parse?, Option.isSome_map, parts?] at h
  split at h
  · rename_i mark rest hbehind
    split at h
    · cases h
    · rename_i hfront
      split at h
      · cases h
      · rename_i hurl
        simp only [Bool.or_eq_true, List.isEmpty_iff, Bool.not_eq_true', not_or, Bool.not_eq_false, isMark,
          beq_iff_eq] at hfront
        have hblanks := takeWhile_blank_eq (line.toList.dropWhile isNameChar)
        refine ⟨⟨line.toList.takeWhile isNameChar,
            ((line.toList.dropWhile isNameChar).takeWhile (· == ' ')).length, mark, rest⟩,
          ?_, hfront.1, fun c hc => List.mem_takeWhile_imp hc, hfront.2, ?_⟩
        · rw [Cut.chars, ← hblanks, ← hbehind, List.takeWhile_append_dropWhile,
            List.takeWhile_append_dropWhile]
        · rintro ⟨hnone, hcolon, hslashes⟩
          apply hurl
          rw [List.isEmpty_iff.2 (List.length_eq_zero_iff.1 hnone), beq_iff_eq.2 hcolon,
            List.isPrefixOf_iff_prefix.2 hslashes]
          rfl
  · cases h

/-! ### Labels that are read back -/

/-- The labels that are read back from their texts. The separator takes the blank behind its mark, and
the value ends at no newline. -/
structure IsWellFormed (l : Label) : Prop where
  name_ne : l.name ≠ ""
  name_chars : ∀ c ∈ l.name.toList, isNameChar c = true
  separator : ∃ blanks mark gap, l.separator.toList = List.replicate blanks ' ' ++ mark :: gap ∧
    (mark = ':' ∨ mark = '=') ∧ (gap = [] ∨ gap = [' '])
  newline_not_mem : '\n' ∉ l.value.toList
  blank_taken : l.separator.toList.getLast? = some ' ' ∨ l.value.toList.head? ≠ some ' '
  not_url : ¬ (l.separator = ":" ∧ ['/', '/'] <+: l.value.toList)

theorem Cut.isWellFormed_label {cut : Cut} (h : cut.IsLabel) : cut.label.IsWellFormed := by
  have hvalue : cut.value <+: cut.rest.drop cut.gap.length := List.takeWhile_prefix _
  constructor
  · intro hempty
    exact h.name_ne (String.ofList_injective hempty)
  · simpa only [label, String.toList_ofList] using h.name_chars
  · refine ⟨cut.blanks, cut.mark, cut.gap, String.toList_ofList, h.mark, ?_⟩
    rcases cut.gap_cases with ⟨hgap, -⟩ | ⟨hgap, -⟩
    · exact .inl hgap
    · exact .inr hgap
  · rw [label, String.toList_ofList]
    exact Text.not_mem_takeWhile_bne _ _
  · rw [label, String.toList_ofList, String.toList_ofList, separator]
    rcases cut.gap_cases with ⟨hgap, hhead⟩ | ⟨hgap, -⟩
    · -- the value is the head of the rest, which does not begin with a blank
      rw [hgap, List.length_nil, List.drop_zero] at hvalue
      obtain ⟨left, heq⟩ := hvalue
      refine .inr fun hblank => hhead ?_
      rw [← heq, List.head?_append, hblank]
      rfl
    · rw [hgap]
      exact .inl (List.getLast?_append_of_ne_nil _ (List.cons_ne_nil _ _))
  · rintro ⟨hcolon, hslashes⟩
    have hchars : List.replicate cut.blanks ' ' ++ cut.mark :: cut.gap = [':'] := by
      rw [← separator, ← String.toList_ofList (l := cut.separator)]
      exact congrArg String.toList hcolon
    obtain ⟨hblanks, hmark, hgap⟩ : cut.blanks = 0 ∧ cut.mark = ':' ∧ cut.gap = [] := by
      cases hblanks : cut.blanks <;> simp_all [List.replicate_succ]
    rw [hgap, List.length_nil, List.drop_zero] at hvalue
    rw [label, String.toList_ofList] at hslashes
    exact h.not_url ⟨hblanks, hmark, hslashes.trans hvalue⟩

/-- **A well-formed label is read back.** -/
theorem parse?_text {l : Label} (h : l.IsWellFormed) :
    parse? (l.name ++ l.separator ++ l.value) = some l := by
  obtain ⟨hname, hchars, ⟨blanks, mark, gap, hseparator, hmark, hgap⟩, hnewline, hblank, hurl⟩ := h
  let cut : Cut := ⟨l.name.toList, blanks, mark, gap ++ l.value.toList⟩
  have hline : cut.chars = (l.name ++ l.separator ++ l.value).toList := by
    simp [cut, Cut.chars, hseparator]
  have hcut : cut.IsLabel := by
    refine ⟨fun hnil => hname (String.toList_eq_nil_iff.1 hnil), hchars, hmark, ?_⟩
    rintro ⟨rfl, rfl, hslashes⟩
    rcases hgap with rfl | rfl
    · exact hurl ⟨String.toList_inj.1 hseparator, hslashes⟩
    · exact absurd (List.cons_prefix_cons.1 hslashes).1 (by decide)
  have hgap' : cut.gap = gap := by
    rcases hgap with rfl | rfl
    · have hlast : l.separator.toList.getLast? = some cut.mark := by
        rw [hseparator, List.getLast?_concat]
      rw [hlast, Option.some_inj] at hblank
      exact if_neg (hblank.resolve_left hcut.mark_ne)
    · rfl
  have hvalue : cut.value = l.value.toList := by
    rw [Cut.value, hgap', List.drop_left]
    exact List.takeWhile_eq_self_iff.2 (Text.bne_of_not_mem hnewline)
  rw [Cut.parse?_of_chars hline hcut, Cut.label, Cut.separator, hgap', hvalue, ← hseparator,
    String.ofList_toList, String.ofList_toList, String.ofList_toList]

theorem parse?_text_iff {l : Label} :
    parse? (l.name ++ l.separator ++ l.value) = some l ↔ l.IsWellFormed := by
  refine ⟨fun hread => ?_, parse?_text⟩
  obtain ⟨cut, hline, hcut⟩ := exists_cut_of_parse? (Option.isSome_of_eq_some hread)
  rw [Cut.parse?_of_chars hline hcut, Option.some_inj] at hread
  rw [← hread]
  exact cut.isWellFormed_label hcut

theorem parse_eq_error_iff {line : String} : parse line = .error (.notALabel line) ↔ parse? line = none := by
  rw [parse]
  cases parse? line <;> simp

/-- **The grammar of label lines.** A line is a label if and only if there is a cut of it that makes a
label, and there is one such cut at most. Its name is the longest run of name characters at the head of
the line; the label has this name, as separator the blanks and the mark with the blank behind it, and as
value what is left up to the first newline, so that the parts in a row are the line up to there. A line
without such a cut has no parts: asking for them is a fault. A label is read back from its parts in a
row if and only if it is well-formed. -/
theorem line_grammar :
    (∀ line : String,
      ((parse? line).isSome = true ↔ ∃! cut : Cut, cut.chars = line.toList ∧ cut.IsLabel) ∧
      (∀ cut : Cut, cut.chars = line.toList → cut.IsLabel →
        cut.name = line.toList.takeWhile isNameChar ∧
        parse line = .ok cut.label ∧
        (parse? line).map pair = some (cut.label.name, cut.label.value) ∧
        cut.label.name ++ cut.label.separator ++ cut.label.value = Text.firstLine line) ∧
      ((∀ cut : Cut, cut.chars = line.toList → ¬ cut.IsLabel) →
        (parse? line).map pair = none ∧ parse line = .error (.notALabel line))) ∧
    ∀ l : Label, parse? (l.name ++ l.separator ++ l.value) = some l ↔ l.IsWellFormed := by
  refine ⟨fun line => ⟨⟨fun h => ?_, ?_⟩, fun cut hline hcut => ?_, fun hnone => ?_⟩,
    fun l => parse?_text_iff⟩
  · obtain ⟨cut, hline, hcut⟩ := exists_cut_of_parse? h
    refine ⟨cut, ⟨hline, hcut⟩, ?_⟩
    rintro other ⟨hother, hlabel⟩
    exact Cut.chars_injective hlabel hcut (hother.trans hline.symm)
  · rintro ⟨cut, ⟨hline, hcut⟩, -⟩
    rw [Cut.parse?_of_chars hline hcut, Option.isSome_some]
  · have hread := Cut.parse?_of_chars hline hcut
    refine ⟨?_, ?_, ?_, Cut.text_label hline hcut⟩
    · rw [← hline, hcut.takeWhile_name]
    · rw [parse, hread]
    · rw [hread]
      rfl
  · have hread : parse? line = none := by
      rw [← Option.not_isSome_iff_eq_none]
      intro h
      obtain ⟨cut, hline, hcut⟩ := exists_cut_of_parse? h
      exact hnone cut hline hcut
    exact ⟨by rw [hread]; rfl, parse_eq_error_iff.2 hread⟩

/-- A blank in front of the colon makes a label of what would be the start of a URL, and its value ends at the
newline; two blanks behind a mark are one of the separator and one of the value. -/
theorem line_grammar_of_spacedColon :
    parse "http ://a\nb: c" = .ok ⟨"http", " :", "//a"⟩ ∧
    parse "http://a" = .error (.notALabel "http://a") ∧
    parse? ("a" ++ "= " ++ " //b") = some ⟨"a", "= ", " //b"⟩ := by
  obtain ⟨hlines, htexts⟩ := line_grammar
  refine ⟨?_, ?_, ?_⟩
  · exact ((hlines "http ://a\nb: c").2.1 ⟨['h', 't', 't', 'p'], 1, ':', "//a\nb: c".toList⟩ (by decide)
      (by decide)).2.1
  · refine ((hlines "http://a").2.2 fun cut hline hcut => ?_).2
    have hread := ((hlines "http://a").2.1 cut hline hcut).2.2.1
    rw [show parse? "http://a" = none by decide] at hread
    cases hread
  · exact (htexts ⟨"a", "= ", " //b"⟩).2 ⟨by decide, List.all_eq_true.1 (by decide),
      ⟨0, '=', [' '], by decide, .inr rfl, .inr rfl⟩, by decide, by decide, by decide⟩

end MigrationBench.Label
