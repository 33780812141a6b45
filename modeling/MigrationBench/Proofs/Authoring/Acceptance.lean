import MigrationBench.Proofs.Authoring.Config
import MigrationBench.Proofs.Fixture.Fields

/-!
# The configurations that are accepted

A configuration is accepted if it tells a default author, a mode and a list of addresses that goes with
the mode. Otherwise the first of these that is not as it should be decides the fault, which is always
one in a configuration.

* `Mode.lower_eq_word_iff` — the texts that are a mode: its word up to the case of ASCII letters.
* `Value.lower_ne_word` — no value but a text is a mode.
* `Authoring.Tells` — what the table of a configuration tells: `Authoring.configures_iff_tells`.
* `Authoring.Refuses` — why a table is refused: `Authoring.ofEntries_eq_error_iff`.
* `Authoring.accepted_configs` — **the configurations that are accepted**, and their policies.
-/

namespace MigrationBench

open Text

variable {s : String} {c : Char} {v : Value} {mode : Mode}

/-! ### Words -/

theorem Mode.isPlain_of_mem_word : ∀ d ∈ mode.word.toList, Unicode.IsPlain d := by
  cases mode <;> simp [word, Unicode.IsPlain]

/-- **The texts that are a mode**: its word up to the case of ASCII letters. -/
theorem Mode.lower_eq_word_iff : Unicode.lower s = mode.word ↔ s.toLower = mode.word :=
  Unicode.lower_eq_iff_of_plain isPlain_of_mem_word

/-- A character that stands neither in a word nor around one: no letter, no underscore and no blank. -/
def IsForeign (c : Char) : Prop :=
  isBlank c = false ∧ c.isAlpha = false ∧ c ≠ '_'

instance (c : Char) : Decidable (IsForeign c) :=
  inferInstanceAs (Decidable (_ ∧ _))

theorem IsForeign.of_isDigit (h : c.isDigit = true) : IsForeign c := by
  have hdigits : ∀ n < 58, 48 ≤ n → IsForeign (Char.ofNat n) := by decide
  have hrange : 48 ≤ c.toNat ∧ c.toNat ≤ 57 := by
    rw [Char.isDigit, Bool.and_eq_true, decide_eq_true_eq, decide_eq_true_eq] at h
    exact h
  have hforeign := hdigits c.toNat (by omega) hrange.1
  rwa [Char.ofNat_toNat] at hforeign

/-- A text with such a character is no mode. -/
theorem IsForeign.lower_ne_word (hc : IsForeign c) (hmem : c ∈ s.toList) :
    Unicode.lower (trim s) ≠ mode.word := by
  intro hword
  rw [Mode.lower_eq_word_iff] at hword
  obtain ⟨hblank, halpha, hunderscore⟩ := hc
  have htoList : (trim s).toLower.toList = (trimChars s.toList).map Char.toLower := by
    rw [← toList_trim]
    exact String.toList_map
  have hlower : c.toLower ∈ mode.word.toList := by
    rw [← hword, htoList]
    exact List.mem_map_of_mem (mem_trimChars hblank hmem)
  have hletters : ∀ d ∈ mode.word.toList, (d.isAlpha || d == '_') = true := by
    cases mode <;> simp [Mode.word]
  have hcase := Unicode.apply_toLower (fun d => d.isAlpha || d == '_') (by decide) c
  have hletter : (c.isAlpha || c == '_') = true := hcase ▸ hletters _ hlower
  rw [halpha, Bool.false_or, beq_iff_eq] at hletter
  exact hunderscore hletter

/-! ### The texts of values that are no words -/

theorem foreign_of_int (i : Int) : ∃ c ∈ (toString i).toList, IsForeign c := by
  cases i with
  | ofNat n =>
    have htext : toString (Int.ofNat n) = n.repr := rfl
    obtain ⟨c, hc⟩ := List.exists_mem_of_ne_nil (Nat.toDigits 10 n) Nat.toDigits_ne_nil
    rw [htext, Nat.toList_repr]
    exact ⟨c, hc, .of_isDigit (Nat.isDigit_of_mem_toDigits (by decide) (by decide) hc)⟩
  | negSucc n =>
    have htext : toString (Int.negSucc n) = "-" ++ n.succ.repr := rfl
    exact ⟨'-', by simp [htext], by decide⟩

/-- A number that is written in full has a point, or the sign of an exponent. -/
theorem foreign_of_layout (layout : NumberLayout) (d : DecimalDigits) :
    ∃ c ∈ Binary64.NumberLayout.chars layout d, IsForeign c := by
  rw [Binary64.NumberLayout.chars]
  dsimp only
  split
  · split
    · exact ⟨'.', by simp, by decide⟩
    · exact ⟨'.', by simp, by decide⟩
  · refine ⟨if d.point - 1 < 0 then '-' else '+', by simp, ?_⟩
    split <;> decide

theorem foreign_of_finite (negative : Bool) (m : Nat) (e : Int) :
    ∃ c ∈ (Binary64.finite negative m e).render.toList, IsForeign c := by
  have hbody : ∃ c ∈ (if m = 0 then ['0', '.', '0']
      else Binary64.NumberLayout.chars Binary64.layout (Binary64.shortest m e)), IsForeign c := by
    split
    · exact ⟨'.', by decide, by decide⟩
    · exact foreign_of_layout _ _
  obtain ⟨c, hc, hforeign⟩ := hbody
  refine ⟨c, ?_, hforeign⟩
  rw [Binary64.render, String.toList_ofList]
  split
  · exact List.mem_cons_of_mem _ hc
  · exact hc

theorem hyphen_mem_dateChars (d : Date) : '-' ∈ Stamp.dateChars d := by
  simp [Stamp.dateChars]

/-- The text of a value that is no text holds a character that stands in no word, or is one of five words. -/
theorem Value.foreign_of_render (h : v.isText = false) :
    (∃ c ∈ v.render.toList, IsForeign c) ∨ v.render ∈ ["None", "True", "False", "nan", "inf"] := by
  cases v with
  | text _ | brokenText _ => cases h
  | null => exact .inr (by decide)
  | bool b => cases b <;> exact .inr (by decide)
  | int i => exact .inl (foreign_of_int i)
  | float x =>
    cases x with
    | nan => exact .inr (by decide)
    | infinite negative =>
      cases negative with
      | true => exact .inl ⟨'-', by decide, by decide⟩
      | false => exact .inr (by decide)
    | finite negative m e => exact .inl (foreign_of_finite negative m e)
  | date d => exact .inl ⟨'-', by simp [render, Stamp.renderDate, hyphen_mem_dateChars], by decide⟩
  | clock t => exact .inl ⟨':', by simp [render, Stamp.renderClock, Stamp.clockChars], by decide⟩
  | stamp t =>
    exact .inl ⟨'-', by simp [render, Stamp.renderSpaced, Stamp.chars, hyphen_mem_dateChars], by decide⟩
  | list items => exact .inl ⟨'[', by simp [render, inner], by decide⟩
  | map pairs => exact .inl ⟨'\x7b', by simp [render, inner], by decide⟩

/-- **No value but a text is a mode.** -/
theorem Value.lower_ne_word (h : v.isText = false) : Unicode.lower (trim v.render) ≠ mode.word := by
  rcases foreign_of_render h with ⟨c, hc, hforeign⟩ | hword
  · exact hforeign.lower_ne_word hc
  · have hwords : ∀ s ∈ ["None", "True", "False", "nan", "inf"], ∀ m ∈ Mode.all,
        Unicode.lower (trim s) ≠ m.word := by decide
    exact hwords _ hword mode mode.mem_all

namespace Authoring

/-! ### What a table tells -/

/-- The text for the default author: one that is not blank. -/
def GivesDefault (v : Option Value) (text : String) : Prop :=
  v = some (.text text) ∧ isBlankText text = false

/-- The mode that a value names: a text that is its word, up to blanks around it and the case of ASCII
letters. Without a value every author is kept. -/
def NamesMode (v : Option Value) (mode : Mode) : Prop :=
  v = none ∧ mode = .passThru ∨ ∃ text, v = some (.text text) ∧ (trim text).toLower = mode.word

/-- The addresses that a value lists: those of a list of texts. Without a value there are none. -/
def ListsEmails (v : Option Value) (emails : List String) : Prop :=
  v = none ∧ emails = [] ∨ v = some (.list (emails.map .text))

/-- What a table tells: a default author, a mode, and addresses that go with it. -/
structure Tells (table : List (Value × Value)) (author : Author) (mode : Mode)
    (emails : List String) : Prop where
  default_text : ∃ text, Value.get? table "default" = some (.text text) ∧ Author.parse text = .ok author
  mode_text : NamesMode (Value.get? table "mode") mode
  email_texts : ListsEmails (Value.get? table "allowlist") emails
  listed : emails ≠ [] ↔ mode = .allowed

/-- The value for the mode can be written, and is no text in which half a surrogate pair stands alone.
The values of a configuration file are of this kind, as long as their whole numbers can be written. -/
def HasPlainMode (table : List (Value × Value)) : Prop :=
  ∀ v, Value.get? table "mode" = some v → v.isWritable = true ∧ ∀ codes, v ≠ .brokenText codes

variable {table entries : List (Value × Value)} {author : Author} {emails : List String} {text : String}
  {fault : Fault} {cause : ConfigFault}

theorem isText_eq_false_iff : v.isText = false ↔ (∀ text, v ≠ .text text) ∧
    ∀ codes, v ≠ .brokenText codes := by
  cases v <;> simp [Value.isText]

/-- The word of a mode is read from its names, and from nothing else. -/
theorem modeWord_eq_ok_iff_namesMode (hmode : HasPlainMode table) :
    modeWord (Value.get? table "mode") = .ok mode.word ↔ NamesMode (Value.get? table "mode") mode := by
  rw [modeWord_eq_ok_iff, NamesMode]
  refine or_congr_right ⟨?_, ?_⟩
  · rintro ⟨v, word, hv, hwritten, hword⟩
    obtain ⟨-, rfl⟩ := Value.written_eq_ok_iff.1 hwritten
    by_cases htext : ∃ text, v = .text text
    · obtain ⟨text, rfl⟩ := htext
      exact ⟨text, hv, Mode.lower_eq_word_iff.1 hword⟩
    · have hnot := isText_eq_false_iff.2 ⟨not_exists.1 htext, (hmode v hv).2⟩
      exact absurd hword (Value.lower_ne_word hnot)
  · rintro ⟨text, hv, hword⟩
    exact ⟨.text text, text, hv, rfl, Mode.lower_eq_word_iff.2 hword⟩

/-- The word is that of no mode, where no mode is named. -/
theorem modeWord_of_no_mode (hmode : HasPlainMode table) (hv : Value.get? table "mode" = some v)
    (hnone : ∀ mode, ¬ NamesMode (some v) mode) :
    modeWord (some v) = .ok (Unicode.lower (trim v.render)) ∧
      Mode.ofWord? (Unicode.lower (trim v.render)) = none := by
  have hword : modeWord (some v) = .ok (Unicode.lower (trim v.render)) := by
    rw [modeWord, Value.written, if_pos (hmode v hv).1]
    rfl
  refine ⟨hword, ?_⟩
  rw [Option.eq_none_iff_forall_ne_some]
  intro mode hmode'
  rw [Mode.ofWord?_eq_some_iff.1 hmode', ← hv, modeWord_eq_ok_iff_namesMode hmode, hv] at hword
  exact hnone mode hword

/-- **What a configuration names** is what its table tells. -/
theorem configures_iff_tells (hmode : HasPlainMode (tableOf entries)) :
    Configures entries author mode emails ↔ Tells (tableOf entries) author mode emails := by
  constructor
  · rintro ⟨⟨text, htext, hauthor⟩, hword, hemails, hlisted⟩
    rw [← modeWord_eq_ok_iff, modeWord_eq_ok_iff_namesMode hmode] at hword
    exact ⟨⟨text, htext, Author.parse_eq_ok_iff.2 hauthor⟩, hword, hemails, hlisted⟩
  · rintro ⟨⟨text, htext, hauthor⟩, hword, hemails, hlisted⟩
    rw [← modeWord_eq_ok_iff_namesMode hmode, modeWord_eq_ok_iff] at hword
    exact ⟨⟨text, htext, Author.parse_eq_ok_iff.1 hauthor⟩, hword, hemails, hlisted⟩

theorem tableOf_eq (h : Value.get? entries "authoring" = some (.map table)) : tableOf entries = table := by
  rw [tableOf, h, entriesOf]

/-- A configuration that tells something has a table. -/
theorem tells_tableOf_iff :
    Tells (tableOf entries) author mode emails ↔
      ∃ table, Value.get? entries "authoring" = some (.map table) ∧ Tells table author mode emails := by
  constructor
  · intro h
    obtain ⟨text, htext, -⟩ := h.default_text
    by_cases htable : ∃ table, Value.get? entries "authoring" = some (.map table)
    · obtain ⟨table, htable⟩ := htable
      exact ⟨table, htable, tableOf_eq htable ▸ h⟩
    · -- without a table nothing is given for the default author
      have hempty : tableOf entries = [] := by
        rw [tableOf, entriesOf]
        intro table hmap
        exact htable ⟨table, hmap⟩
      rw [hempty] at htext
      cases htext
  · rintro ⟨table, htable, h⟩
    exact tableOf_eq htable ▸ h

/-- There is a policy with a mode and addresses that go with it. -/
theorem exists_policy (author : Author) (hlisted : emails ≠ [] ↔ mode = .allowed) :
    ∃ a : Authoring, a.fallback = author ∧ a.mode = mode ∧ a.allowlist = emails := by
  cases mode with
  | passThru => exact ⟨⟨author, .passThru⟩, rfl, rfl, (by_contra fun hne => by cases hlisted.1 (Ne.symm hne))⟩
  | overwrite => exact ⟨⟨author, .overwrite⟩, rfl, rfl,
      (by_contra fun hne => by cases hlisted.1 (Ne.symm hne))⟩
  | allowed => exact ⟨⟨author, .allowed emails (hlisted.2 rfl)⟩, rfl, rfl, rfl⟩

/-- **The policy of a configuration** that tells what it should. -/
theorem exists_ofEntries (hmode : HasPlainMode (tableOf entries))
    (h : Tells (tableOf entries) author mode emails) :
    ∃ a, ofEntries entries = .ok a ∧ a.fallback = author ∧ a.mode = mode ∧ a.allowlist = emails.map trim := by
  have hlisted : emails.map trim ≠ [] ↔ mode = .allowed := by
    rw [Ne, List.map_eq_nil_iff]
    exact h.listed
  obtain ⟨a, rfl, rfl, hlist⟩ := exists_policy author hlisted
  exact ⟨a, ofEntries_eq_ok_iff.2 ⟨emails, (configures_iff_tells hmode).2 h, hlist⟩, rfl, rfl, hlist⟩

/-! ### Why a table is refused -/

/-- Why a table is refused: what is told first is in order, and what is told next is not. -/
inductive Refuses (table : List (Value × Value)) : ConfigFault → Prop where
  | noDefault (h : ∀ text, ¬ GivesDefault (Value.get? table "default") text) : Refuses table .noDefault
  | unknownMode (text : String) (v : Value) (hdefault : GivesDefault (Value.get? table "default") text)
      (hv : Value.get? table "mode" = some v) (h : ∀ mode, ¬ NamesMode (some v) mode) :
    Refuses table (.unknownMode (Unicode.lower (trim v.render)))
  | badAllowlist (text : String) (mode : Mode) (hdefault : GivesDefault (Value.get? table "default") text)
      (hmode : NamesMode (Value.get? table "mode") mode)
      (h : ∀ emails, ¬ ListsEmails (Value.get? table "allowlist") emails) : Refuses table .badAllowlist
  | badAuthor (text : String) (mode : Mode) (emails : List String)
      (hdefault : GivesDefault (Value.get? table "default") text)
      (hmode : NamesMode (Value.get? table "mode") mode)
      (hemails : ListsEmails (Value.get? table "allowlist") emails)
      (h : ∀ author, Author.parse text ≠ .ok author) :
    Refuses table (.argument (.badAuthor text))
  | emptyAllowlist (text : String) (author : Author)
      (hdefault : Value.get? table "default" = some (.text text))
      (hauthor : Author.parse text = .ok author) (hmode : NamesMode (Value.get? table "mode") .allowed)
      (hemails : ListsEmails (Value.get? table "allowlist") []) : Refuses table (.argument .emptyAllowlist)
  | uselessAllowlist (text : String) (author : Author) (mode : Mode) (emails : List String)
      (hdefault : Value.get? table "default" = some (.text text)) (hauthor : Author.parse text = .ok author)
      (hmode : NamesMode (Value.get? table "mode") mode)
      (hemails : ListsEmails (Value.get? table "allowlist") emails)
      (hother : mode ≠ .allowed) (h : emails ≠ []) : Refuses table (.argument (.uselessAllowlist mode))

/-- A list that does not go with the mode is told by one of two faults. -/
theorem make_eq_error_iff {cause : ArgumentFault} :
    Rule.make mode emails = .error cause ↔ mode = .allowed ∧ emails = [] ∧ cause = .emptyAllowlist ∨
      mode ≠ .allowed ∧ emails ≠ [] ∧ cause = .uselessAllowlist mode := by
  cases mode <;> rw [Rule.make] <;> by_cases hempty : emails = [] <;> simp [hempty, eq_comm]

theorem defaultText?_eq_none_iff {v : Option Value} :
    defaultText? v = none ↔ ∀ text, ¬ GivesDefault v text := by
  simp only [Option.eq_none_iff_forall_ne_some, Ne, defaultText?_eq_some_iff, GivesDefault]

theorem emails?_eq_none_iff {v : Option Value} : emails? v = none ↔ ∀ emails, ¬ ListsEmails v emails := by
  simp only [Option.eq_none_iff_forall_ne_some, Ne, emails?_eq_some_iff, ListsEmails]

/-- A text that denotes an author is given for the default author. -/
theorem givesDefault_of_parse {v : Option Value} (hv : v = some (.text text))
    (hauthor : Author.parse text = .ok author) : GivesDefault v text :=
  ⟨hv, Author.not_isBlankText_of_parse? (Author.parse_eq_ok_iff.1 hauthor)⟩

/-- A table is refused or tells what it should. -/
theorem refuses_or_tells (table : List (Value × Value)) :
    (∃ cause, Refuses table cause) ∨ ∃ author mode emails, Tells table author mode emails := by
  by_cases hdefault : ∃ text, GivesDefault (Value.get? table "default") text
  swap
  · exact .inl ⟨_, .noDefault (not_exists.1 hdefault)⟩
  obtain ⟨text, hdefault⟩ := hdefault
  by_cases hmode : ∃ mode, NamesMode (Value.get? table "mode") mode
  swap
  · cases hv : Value.get? table "mode" with
    | none => exact absurd ⟨.passThru, .inl ⟨hv, rfl⟩⟩ hmode
    | some v =>
      rw [hv] at hmode
      exact .inl ⟨_, .unknownMode text v hdefault hv (not_exists.1 hmode)⟩
  obtain ⟨mode, hmode⟩ := hmode
  by_cases hemails : ∃ emails, ListsEmails (Value.get? table "allowlist") emails
  swap
  · exact .inl ⟨_, .badAllowlist text mode hdefault hmode (not_exists.1 hemails)⟩
  obtain ⟨emails, hemails⟩ := hemails
  by_cases hauthor : ∃ author, Author.parse text = .ok author
  swap
  · exact .inl ⟨_, .badAuthor text mode emails hdefault hmode hemails (not_exists.1 hauthor)⟩
  obtain ⟨author, hauthor⟩ := hauthor
  by_cases hlisted : emails ≠ [] ↔ mode = .allowed
  · exact .inr ⟨author, mode, emails, ⟨text, hdefault.1, hauthor⟩, hmode, hemails, hlisted⟩
  · left
    by_cases hallowed : mode = .allowed
    · have hempty : emails = [] := by simpa [hallowed] using hlisted
      exact ⟨_, .emptyAllowlist text author hdefault.1 hauthor (hallowed ▸ hmode) (hempty ▸ hemails)⟩
    · have hne : emails ≠ [] := by simpa [hallowed] using hlisted
      exact ⟨_, .uselessAllowlist text author mode emails hdefault.1 hauthor hmode hemails hallowed hne⟩

/-- With a default author, a mode and addresses in order, their texts are read. -/
theorem ofEntries_of_given (hmode : HasPlainMode (tableOf entries))
    (hdefault : GivesDefault (Value.get? (tableOf entries) "default") text)
    (hnames : NamesMode (Value.get? (tableOf entries) "mode") mode)
    (hemails : ListsEmails (Value.get? (tableOf entries) "allowlist") emails) :
    ofEntries entries = (do
      let author ← (Author.parse text).mapError argumentFault
      let rule ← (Rule.make mode (emails.map trim)).mapError argumentFault
      return ⟨author, rule⟩) := by
  have hword := (modeWord_eq_ok_iff_namesMode hmode).2 hnames
  rw [ofEntries, ← tableOf]
  simp only [defaultText?_eq_some_iff.2 hdefault, hword, Mode.ofWord?_word, emails?_eq_some_iff.2 hemails,
    bind, Except.bind]

/-- **A table that is refused** leads to that fault. -/
theorem ofEntries_of_refuses (hmode : HasPlainMode (tableOf entries)) (h : Refuses (tableOf entries) cause) :
    ofEntries entries = .error (.config cause) := by
  cases h with
  | noDefault hnone =>
    rw [ofEntries, ← tableOf]
    simp only [defaultText?_eq_none_iff.2 hnone]
    rfl
  | unknownMode text v hdefault hv hnone =>
    obtain ⟨hword, hunknown⟩ := modeWord_of_no_mode hmode hv hnone
    rw [ofEntries, ← tableOf]
    simp only [defaultText?_eq_some_iff.2 hdefault, hv, hword, hunknown, bind, Except.bind]
    rfl
  | badAllowlist text mode hdefault hnames hnone =>
    have hword := (modeWord_eq_ok_iff_namesMode hmode).2 hnames
    rw [ofEntries, ← tableOf]
    simp only [defaultText?_eq_some_iff.2 hdefault, hword, Mode.ofWord?_word, emails?_eq_none_iff.2 hnone,
      bind, Except.bind]
    rfl
  | badAuthor text mode emails hdefault hnames hemails hnone =>
    have hfault : Author.parse text = .error (.badAuthor text) := by
      cases hparse : Author.parse text with
      | ok author => exact absurd hparse (hnone author)
      | error fault => rw [(Author.parse_eq_error_iff.1 hparse).2]
    rw [ofEntries_of_given hmode hdefault hnames hemails, hfault]
    rfl
  | emptyAllowlist text author hdefault hauthor hnames hemails =>
    rw [ofEntries_of_given hmode (givesDefault_of_parse hdefault hauthor) hnames hemails, hauthor]
    rfl
  | uselessAllowlist text author mode emails hdefault hauthor hnames hemails hother hne =>
    have hrule : Rule.make mode (emails.map trim) = .error (.uselessAllowlist mode) :=
      make_eq_error_iff.2 (.inr ⟨hother, by rwa [Ne, List.map_eq_nil_iff], rfl⟩)
    rw [ofEntries_of_given hmode (givesDefault_of_parse hdefault hauthor) hnames hemails, hauthor, hrule]
    rfl

/-- **Why a configuration is refused**: the first thing that is not in order decides. -/
theorem ofEntries_eq_error_iff (hmode : HasPlainMode (tableOf entries)) :
    ofEntries entries = .error fault ↔ ∃ cause, Refuses (tableOf entries) cause ∧ fault = .config cause := by
  constructor
  · intro h
    rcases refuses_or_tells (tableOf entries) with ⟨cause, hrefuses⟩ | ⟨author, mode, emails, htells⟩
    · rw [ofEntries_of_refuses hmode hrefuses, Except.error.injEq] at h
      exact ⟨cause, hrefuses, h.symm⟩
    · obtain ⟨a, ha⟩ := exists_ofEntries hmode htells
      rw [ha.1] at h
      cases h
  · rintro ⟨cause, hrefuses, rfl⟩
    exact ofEntries_of_refuses hmode hrefuses

/-- **The configurations that are accepted.** A configuration has a policy if and only if its table
gives a text that denotes an author as the default, no mode or a text that is the word of one, up to
blanks around it and the case of ASCII letters, and no list or one of texts only, which is not empty if
and only if the mode is `allowed`. The word of a mode is the lower case of texts of ASCII alone. The
policy has this author, this mode and the addresses without the blanks around them, and it keeps every
author or those with such an address. Every other configuration is refused by a fault in a
configuration, and the first thing that is not in order decides which: the default is no text or blank,
the mode is unknown, the list holds something else than texts, the default denotes no author, or the
list does not go with the mode. -/
theorem accepted_configs (hmode : HasPlainMode (tableOf entries)) :
    ((∃ a, ofEntries entries = .ok a) ↔ ∃ table author mode emails,
      Value.get? entries "authoring" = some (.map table) ∧ Tells table author mode emails) ∧
    (∀ text (mode : Mode), Unicode.lower text = mode.word →
      text.toLower = mode.word ∧ ∀ c ∈ text.toList, c.toNat < 0x80) ∧
    (∀ table author mode emails, Value.get? entries "authoring" = some (.map table) →
      Tells table author mode emails → ∃ a, ofEntries entries = .ok a ∧ a.fallback = author ∧ a.mode = mode ∧
        (∀ email, email ∈ a.allowlist ↔ email ∈ emails.map trim) ∧
        ∀ email, a.keeps email = true ↔ mode = .passThru ∨ email ∈ emails.map trim) ∧
    ∀ fault, ofEntries entries = .error fault ↔ ∃ cause, Refuses (tableOf entries) cause ∧
      fault = .config cause := by
  refine ⟨?_, fun text mode hword => ⟨Mode.lower_eq_word_iff.1 hword, ?_⟩, ?_,
    fun _ => ofEntries_eq_error_iff hmode⟩
  · constructor
    · rintro ⟨a, ha⟩
      obtain ⟨emails, hconfigures, -⟩ := ofEntries_eq_ok_iff.1 ha
      obtain ⟨table, htable, htells⟩ := tells_tableOf_iff.1 ((configures_iff_tells hmode).1 hconfigures)
      exact ⟨table, a.fallback, a.mode, emails, htable, htells⟩
    · rintro ⟨table, author, mode, emails, htable, htells⟩
      obtain ⟨a, ha, -⟩ := exists_ofEntries hmode (tells_tableOf_iff.2 ⟨table, htable, htells⟩)
      exact ⟨a, ha⟩
  · exact Unicode.ascii_of_plain_lower (hword ▸ Mode.isPlain_of_mem_word)
  · intro table author mode emails htable htells
    obtain ⟨a, ha, hauthor, hkind, hlist⟩ := exists_ofEntries hmode
      (tells_tableOf_iff.2 ⟨table, htable, htells⟩)
    refine ⟨a, ha, hauthor, hkind, fun email => by rw [hlist], fun email => ?_⟩
    rw [keeps_iff, hkind, hlist]
    refine or_congr_right (and_iff_right_of_imp fun hmem => ?_)
    exact htells.listed.1 fun hempty => by
      rw [hempty] at hmem
      cases hmem

/-- A configuration with a list, and with blanks and capital letters where they do not count. -/
def spacedList : List (Value × Value) :=
  [(.text "authoring", .map [(.text "allowlist", .list [.text " a@x ", .text "b@x\n"]),
    (.text "mode", .text "\tAllowed "), (.text "default", .text " Bot <bot@x>")])]

/-- Its policy keeps the authors on the list, with the addresses as they are trimmed, and no others. -/
theorem accepted_configs_of_spacedList :
    ∃ a, ofEntries spacedList = .ok a ∧ a.fallback = ⟨"Bot", "bot@x"⟩ ∧ a.mode = .allowed ∧
      a.keeps "a@x" = true ∧ a.keeps " a@x " = false := by
  have hget : Value.get? (tableOf spacedList) "mode" = some (.text "\tAllowed ") := by cbv
  have hmode : HasPlainMode (tableOf spacedList) := by
    intro v hv
    rw [hget] at hv
    cases hv
    exact ⟨rfl, fun codes h => by cases h⟩
  obtain ⟨-, -, hpolicy, -⟩ := accepted_configs hmode
  obtain ⟨a, ha, hauthor, hkind, -, hkeeps⟩ := hpolicy _ ⟨"Bot", "bot@x"⟩ .allowed [" a@x ", "b@x\n"] rfl
    ⟨⟨" Bot <bot@x>", rfl, by cbv⟩, .inr ⟨"\tAllowed ", rfl, by cbv⟩, .inr rfl, by simp⟩
  refine ⟨a, ha, hauthor, hkind, (hkeeps _).2 (.inr (by decide)), ?_⟩
  rw [Bool.eq_false_iff, Ne, hkeeps]
  decide

end Authoring

end MigrationBench
