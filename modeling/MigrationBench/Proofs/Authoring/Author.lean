import MigrationBench.Authoring.Policy
import MigrationBench.Proofs.Text.Cuts

/-!
# The texts of authors

A text denotes an author if it has the form `name<address>` between blanks. Blanks around the text, the name
and the address do not count, and the text of an author that was read denotes that author.

* `Author.parse?_eq_some_iff` — **the texts that denote an author**.
* `Author.IsReadable` — the authors that texts denote: `Author.isReadable_of_parse?`,
  `Author.parse?_render`.
* `Author.TextsAlike` — texts that differ only in blanks: `Author.parse?_of_alike`.
* `Author.Spells`, `Author.text_grammar` — **the texts of authors**: which texts are read, which authors they
  denote, and which authors are read back from their own text.
-/

namespace MigrationBench.Author

open Text

variable {cs name email : List Char} {s s' text : String} {a : Author}

/-- The parts of an author are told apart by the first `<` and by the `>` at the end. -/
theorem parts?_eq_some_iff :
    parts? cs = some (name, email) ↔
      cs = name ++ '<' :: (email ++ ['>']) ∧ name ≠ [] ∧ '<' ∉ name ∧ '>' ∉ email := by
  constructor
  · intro h
    rw [parts?] at h
    split at h
    · rename_i rest hrest
      split at h
      · rename_i hcond
        obtain ⟨hname, hclose⟩ := (Bool.and_eq_true_iff).1 hcond
        cases h
        refine ⟨?_, by simpa using hname, not_mem_takeWhile_bne _ _, not_mem_takeWhile_bne _ _⟩
        have hemail : rest.takeWhile (· != '>') ++ ['>'] = rest := by
          rw [← beq_iff_eq.1 hclose, List.takeWhile_append_dropWhile]
        rw [hemail, ← hrest, List.takeWhile_append_dropWhile]
      · cases h
    · cases h
  · rintro ⟨rfl, hne, hopen, hclose⟩
    have hemail := takeWhile_append_cut hclose []
    have hend := dropWhile_append_cut hclose []
    simp [parts?, takeWhile_append_cut hopen, dropWhile_append_cut hopen, hemail, hend, hne]

/-- **The texts that denote an author.** -/
theorem parse?_eq_some_iff :
    parse? text = some a ↔ ∃ name email, trimChars text.toList = name ++ '<' :: (email ++ ['>']) ∧
      name ≠ [] ∧ '<' ∉ name ∧ '>' ∉ email ∧
      a = ⟨String.ofList (trimChars name), String.ofList (trimChars email)⟩ := by
  rw [parse?, Option.map_eq_some_iff]
  constructor
  · rintro ⟨⟨name, email⟩, hparts, rfl⟩
    obtain ⟨hcs, hne, hopen, hclose⟩ := parts?_eq_some_iff.1 hparts
    exact ⟨name, email, hcs, hne, hopen, hclose, rfl⟩
  · rintro ⟨name, email, hcs, hne, hopen, hclose, rfl⟩
    exact ⟨(name, email), parts?_eq_some_iff.2 ⟨hcs, hne, hopen, hclose⟩, rfl⟩

theorem parse_eq_ok_iff : parse text = .ok a ↔ parse? text = some a := by
  rw [parse]
  cases parse? text <;> simp

/-- A text that denotes an author is not blank. -/
theorem not_isBlankText_of_parse? (h : parse? text = some a) : isBlankText text = false := by
  obtain ⟨name, email, hcs, -⟩ := parse?_eq_some_iff.1 h
  rw [isBlankText, Bool.eq_false_iff, Ne, List.all_eq_true]
  intro hall
  rw [trimChars_eq_nil_iff.2 hall] at hcs
  simp at hcs

/-! ### Reading the text of an author -/

/-- The authors that texts denote: the name is not empty, neither part has blanks at its ends, and neither
holds the mark that ends it. -/
structure IsReadable (a : Author) : Prop where
  name_ne : a.name ≠ ""
  name_trimmed : trim a.name = a.name
  name_open : '<' ∉ a.name.toList
  email_trimmed : trim a.email = a.email
  email_close : '>' ∉ a.email.toList

theorem isReadable_of_parse? (h : parse? text = some a) : a.IsReadable := by
  obtain ⟨name, email, hcs, hne, hopen, hclose, rfl⟩ := parse?_eq_some_iff.1 h
  -- the trimmed text begins with the name, so that the name begins with no blank
  have hends := trimChars_eq_self_iff.1 (trimChars_trimChars text.toList)
  have hname : trimChars name ≠ [] := by
    obtain ⟨c, rest, rfl⟩ := List.exists_cons_of_ne_nil hne
    have hc : isBlank c = false := hends.1 c (by rw [hcs]; rfl)
    exact List.ne_nil_of_mem (mem_trimChars hc (List.mem_cons_self ..))
  constructor
  · intro hempty
    exact hname (String.ofList_injective hempty)
  · simp only [trim, String.toList_ofList, trimChars_trimChars]
  · rw [String.toList_ofList]
    exact fun hmem => hopen (mem_of_mem_trimChars hmem)
  · simp only [trim, String.toList_ofList, trimChars_trimChars]
  · rw [String.toList_ofList]
    exact fun hmem => hclose (mem_of_mem_trimChars hmem)

theorem toList_render (a : Author) :
    a.render.toList = (a.name.toList ++ [' ']) ++ '<' :: (a.email.toList ++ ['>']) := by
  simp [render]

/-- **The text of a readable author** denotes that author. -/
theorem parse?_render (h : a.IsReadable) : parse? a.render = some a := by
  have hname : a.name.toList ≠ [] := fun hnil => h.name_ne (String.toList_eq_nil_iff.1 hnil)
  have hnameChars : trimChars a.name.toList = a.name.toList := by
    rw [← toList_trim, h.name_trimmed]
  have hemailChars : trimChars a.email.toList = a.email.toList := by
    rw [← toList_trim, h.email_trimmed]
  have hwhole : trimChars a.render.toList = a.render.toList := by
    rw [trimChars_eq_self_iff]
    constructor
    · intro c hc
      rw [toList_render, List.append_assoc, List.head?_append_of_ne_nil _ hname] at hc
      exact (trimChars_eq_self_iff.1 hnameChars).1 c hc
    · intro c hc
      rw [toList_render, ← List.cons_append, ← List.append_assoc, List.getLast?_concat] at hc
      cases hc
      decide
  rw [parse?_eq_some_iff]
  refine ⟨a.name.toList ++ [' '], a.email.toList, ?_, ?_, ?_, h.email_close, ?_⟩
  · rw [hwhole, toList_render]
  · exact List.append_ne_nil_of_left_ne_nil hname _
  · simpa using h.name_open
  · rw [trimChars_concat (by decide), hnameChars, hemailChars, String.ofList_toList, String.ofList_toList]

/-! ### Blanks that do not count -/

/-- Two texts of authors differ only in blanks around them or between `<` and the `>` at the end. -/
inductive TextsAlike (s s' : String) : Prop where
  | around (h : trim s = trim s')
  | inside (name email email' : List Char) (hopen : '<' ∉ name)
      (hs : trimChars s.toList = name ++ '<' :: (email ++ ['>']))
      (hs' : trimChars s'.toList = name ++ '<' :: (email' ++ ['>']))
      (hemail : trimChars email = trimChars email')

theorem parse?_of_alike (h : TextsAlike s s') (hs : parse? s = some a) : parse? s' = some a := by
  obtain ⟨name, email, hcs, hne, hopen, hclose, rfl⟩ := parse?_eq_some_iff.1 hs
  cases h with
  | around h =>
    rw [← toList_trim, h, toList_trim] at hcs
    exact parse?_eq_some_iff.2 ⟨name, email, hcs, hne, hopen, hclose, rfl⟩
  | inside name₁ email₁ email₂ hopen₁ hs hs' hemail =>
    obtain ⟨rfl, hrest⟩ := append_cut_inj hopen hopen₁ (hcs.symm.trans hs)
    obtain rfl : email = email₁ := List.append_cancel_right hrest
    have hclose₂ : '>' ∉ email₂ := by
      intro hmem
      have htrimmed := mem_trimChars (by decide) hmem
      rw [← hemail] at htrimmed
      exact hclose (mem_of_mem_trimChars htrimmed)
    refine parse?_eq_some_iff.2 ⟨name, email₂, hs', hne, hopen, hclose₂, ?_⟩
    rw [hemail]

/-! ### The grammar -/

/-- Without the blanks around it, a text is a name, the mark `<`, an address and the mark `>`. The name is not
empty, and neither part holds the mark that ends it. -/
structure Spells (text name email : String) : Prop where
  form : trim text = name ++ "<" ++ email ++ ">"
  name_ne : name ≠ ""
  name_open : '<' ∉ name.toList
  email_close : '>' ∉ email.toList

theorem trim_eq_form_iff {name email : String} :
    trim text = name ++ "<" ++ email ++ ">" ↔
      trimChars text.toList = name.toList ++ '<' :: (email.toList ++ ['>']) := by
  rw [← String.toList_inj, toList_trim]
  simp

/-- **The author that a text denotes** is told by its parts, without the blanks at their ends. -/
theorem parse_eq_ok_iff_spells :
    parse text = .ok a ↔ ∃ name email, Spells text name email ∧ a = ⟨trim name, trim email⟩ := by
  rw [parse_eq_ok_iff, parse?_eq_some_iff]
  constructor
  · rintro ⟨name, email, hcs, hne, hopen, hclose, rfl⟩
    refine ⟨String.ofList name, String.ofList email, ⟨?_, ?_, ?_, ?_⟩, ?_⟩
    · rw [trim_eq_form_iff, String.toList_ofList, String.toList_ofList]
      exact hcs
    · exact fun hempty => hne (String.ofList_injective hempty)
    · rwa [String.toList_ofList]
    · rwa [String.toList_ofList]
    · rw [trim, trim, String.toList_ofList, String.toList_ofList]
  · rintro ⟨name, email, ⟨hform, hne, hopen, hclose⟩, rfl⟩
    exact ⟨name.toList, email.toList, trim_eq_form_iff.1 hform,
      fun hnil => hne (String.toList_eq_nil_iff.1 hnil), hopen, hclose, rfl⟩

theorem parse_eq_error_iff {fault : ArgumentFault} :
    parse text = .error fault ↔ (∀ name email, ¬ Spells text name email) ∧ fault = .badAuthor text := by
  rw [parse]
  cases hread : parse? text with
  | none =>
    have hnone : ∀ name email, ¬ Spells text name email := by
      intro name email hspells
      have hok := parse_eq_ok_iff.1 (parse_eq_ok_iff_spells.2 ⟨name, email, hspells, rfl⟩)
      rw [hread] at hok
      cases hok
    simp [hnone, eq_comm]
  | some a =>
    obtain ⟨name, email, hspells, -⟩ := parse_eq_ok_iff_spells.1 (parse_eq_ok_iff.2 hread)
    exact iff_of_false (fun h => by cases h) fun h => h.1 name email hspells

/-- **The grammar of authors.** A text denotes an author if and only if it has the form `name<address>`
between blanks, and then the author has the two parts without the blanks at their ends; the name is
never empty. An author is read back from its own text if and only if its name is not empty, neither part
has blanks at its ends, and neither holds the mark that ends it. These are the authors that texts
denote, so that reading the text of an author that was read gives that author again. -/
theorem text_grammar :
    (∀ text : String, ((∃ a, parse text = .ok a) ↔ ∃ name email, Spells text name email) ∧
      (∀ name email, Spells text name email → parse text = .ok ⟨trim name, trim email⟩) ∧
      ∀ fault, parse text = .error fault ↔
        (∀ name email, ¬ Spells text name email) ∧ fault = .badAuthor text) ∧
    (∀ a : Author, (parse a.render = .ok a ↔ a.IsReadable) ∧ (a.IsReadable ↔ ∃ text, parse text = .ok a)) ∧
    ∀ text a, parse text = .ok a → a.name ≠ "" ∧ parse a.render = .ok a := by
  have hreadable : ∀ {text a}, parse text = .ok a → a.IsReadable :=
    fun h => isReadable_of_parse? (parse_eq_ok_iff.1 h)
  have hback : ∀ {a : Author}, a.IsReadable → parse a.render = .ok a :=
    fun h => parse_eq_ok_iff.2 (parse?_render h)
  refine ⟨fun text => ⟨?_, fun name email hspells => ?_, fun fault => parse_eq_error_iff⟩,
    fun a => ⟨⟨hreadable, hback⟩, fun h => ⟨a.render, hback h⟩, fun ⟨text, h⟩ => hreadable h⟩,
    fun text a h => ⟨(hreadable h).name_ne, hback (hreadable h)⟩⟩
  · constructor
    · rintro ⟨a, ha⟩
      obtain ⟨name, email, hspells, -⟩ := parse_eq_ok_iff_spells.1 ha
      exact ⟨name, email, hspells⟩
    · rintro ⟨name, email, hspells⟩
      exact ⟨_, parse_eq_ok_iff_spells.2 ⟨name, email, hspells, rfl⟩⟩
  · exact parse_eq_ok_iff_spells.2 ⟨name, email, hspells, rfl⟩

/-- A name may hold `>` and an address `<` and a newline; blanks of all kinds stand around both. -/
theorem text_grammar_of_nestedMarks :
    parse "\u3000a> b\t<\n x<\ny\u00a0>\n" = .ok ⟨"a> b", "x<\ny"⟩ ∧
      parse (Author.mk "a> b" "x<\ny").render = .ok ⟨"a> b", "x<\ny"⟩ := by
  obtain ⟨hgrammar, -, hback⟩ := text_grammar
  have hread : parse "\u3000a> b\t<\n x<\ny\u00a0>\n" = .ok ⟨"a> b", "x<\ny"⟩ :=
    (hgrammar _).2.1 "a> b\t" "\n x<\ny\u00a0" ⟨by decide, by decide, by decide, by decide⟩
  exact ⟨hread, (hback _ _ hread).2⟩

end MigrationBench.Author
