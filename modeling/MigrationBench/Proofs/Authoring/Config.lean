import MigrationBench.Authoring.Config
import MigrationBench.Proofs.Authoring.Author
import MigrationBench.Proofs.Steps
import MigrationBench.Proofs.Unicode.Lower

/-!
# Configured policies

A configuration is accepted if it names a default author, a mode and a list of addresses that goes with the
mode. Blanks around its texts and the case of the mode do not count.

* `Authoring.Configures` — what a configuration names: `Authoring.ofEntries_eq_ok_iff`.
* `Authoring.keeps_iff` — the authors that a policy keeps.
* `Authoring.ConfigsAlike` — configurations that differ only in what does not count:
  `Authoring.ofEntries_of_alike`.
-/

namespace MigrationBench

theorem Mode.ofWord?_eq_some_iff {s : String} {m : Mode} : Mode.ofWord? s = some m ↔ s = m.word := by
  constructor
  · intro h
    exact (Mode.word_of_ofWord? h).symm
  · rintro rfl
    exact Mode.ofWord?_word m

/-- Two optional values are the same, or texts that are related. -/
inductive Value.Alike (related : String → String → Prop) : Option Value → Option Value → Prop where
  | same (v : Option Value) : Value.Alike related v v
  | text (s s' : String) (h : related s s') : Value.Alike related (some (.text s)) (some (.text s'))

namespace Authoring

open Text

/-! ### Policies -/

/-- A list goes with the mode `allowed` and with no other. -/
theorem make_eq_ok_iff {mode : Mode} {emails : List String} (fallback : Author) {rule : Rule} :
    Rule.make mode emails = .ok rule ↔ (emails ≠ [] ↔ mode = .allowed) ∧
      (⟨fallback, rule⟩ : Authoring).mode = mode ∧ (⟨fallback, rule⟩ : Authoring).allowlist = emails := by
  cases mode with
  | passThru | overwrite =>
    rw [Rule.make]
    by_cases hempty : emails = []
    · rw [if_pos hempty]
      cases rule <;> simp [hempty, Authoring.mode, allowlist]
    · rw [if_neg hempty]
      exact iff_of_false (fun h => by cases h) fun h => by cases h.1.1 hempty
  | allowed =>
    rw [Rule.make]
    by_cases hempty : emails = []
    · rw [dif_pos hempty]
      exact iff_of_false (fun h => by cases h) fun h => h.1.2 rfl hempty
    · rw [dif_neg hempty]
      cases rule <;> simp [hempty, Authoring.mode, allowlist, eq_comm]

/-- **The authors that a policy keeps.** -/
theorem keeps_iff {a : Authoring} {email : String} :
    a.keeps email = true ↔ a.mode = .passThru ∨ a.mode = .allowed ∧ email ∈ a.allowlist := by
  obtain ⟨fallback, rule⟩ := a
  cases rule <;> simp [keeps, Authoring.mode, allowlist]

/-! ### What a configuration names -/

/-- The `authoring` table of a configuration. -/
def tableOf (entries : List (Value × Value)) : List (Value × Value) :=
  entriesOf (Value.get? entries "authoring")

/-- The default author, the mode and the addresses that a configuration names. -/
structure Configures (entries : List (Value × Value)) (fallback : Author) (mode : Mode)
    (emails : List String) : Prop where
  default_text : ∃ text, Value.get? (tableOf entries) "default" = some (.text text) ∧
    Author.parse? text = some fallback
  mode_text : Value.get? (tableOf entries) "mode" = none ∧ mode = .passThru ∨
    ∃ v word, Value.get? (tableOf entries) "mode" = some v ∧ v.written = .ok word ∧
      Unicode.lower (trim word) = mode.word
  email_texts : Value.get? (tableOf entries) "allowlist" = none ∧ emails = [] ∨
    Value.get? (tableOf entries) "allowlist" = some (.list (emails.map .text))
  listed : emails ≠ [] ↔ mode = .allowed

theorem texts?_eq_some_iff {items : List Value} {texts : List String} :
    texts? items = some texts ↔ items = texts.map .text := by
  induction items generalizing texts with
  | nil => cases texts <;> simp [texts?]
  | cons v rest ih =>
    cases v with
    | text s =>
      rw [texts?, Option.map_eq_some_iff]
      constructor
      · rintro ⟨others, hothers, rfl⟩
        rw [ih.1 hothers, List.map_cons]
      · intro h
        cases texts with
        | nil => cases h
        | cons s' others =>
          rw [List.map_cons, List.cons.injEq, Value.text.injEq] at h
          obtain ⟨rfl, hothers⟩ := h
          exact ⟨others, ih.2 hothers, rfl⟩
    | _ => cases texts <;> simp [texts?]

theorem emails?_eq_some_iff {v : Option Value} {emails : List String} :
    emails? v = some emails ↔ v = none ∧ emails = [] ∨ v = some (.list (emails.map .text)) := by
  rcases v with _ | v
  · simp [emails?, eq_comm]
  · cases v <;> simp [emails?, texts?_eq_some_iff]

theorem modeWord_eq_ok_iff {v : Option Value} {mode : Mode} :
    modeWord v = .ok mode.word ↔ v = none ∧ mode = .passThru ∨
      ∃ given word, v = some given ∧ given.written = .ok word ∧
        Unicode.lower (trim word) = mode.word := by
  rcases v with _ | given
  · rw [modeWord]
    cases mode <;> simp [Mode.word]
  · rw [modeWord]
    cases hwritten : given.written <;> simp [Except.map, hwritten]

theorem defaultText?_eq_some_iff {v : Option Value} {text : String} :
    defaultText? v = some text ↔ v = some (.text text) ∧ isBlankText text = false := by
  rcases v with _ | v
  · simp [defaultText?]
  · cases v with
    | text s =>
      rw [defaultText?]
      cases hblank : isBlankText s with
      | true =>
        refine iff_of_false (fun h => by cases h) ?_
        rintro ⟨h, hnot⟩
        cases h
        rw [hblank] at hnot
        cases hnot
      | false =>
        constructor
        · intro h
          cases h
          exact ⟨rfl, hblank⟩
        · rintro ⟨h, -⟩
          cases h
          rfl
    | _ => simp [defaultText?]

/-- A configuration names one default author, one mode and one list. -/
theorem Configures.unique {entries : List (Value × Value)} {fallback fallback' : Author}
    {mode mode' : Mode} {emails emails' : List String} (h : Configures entries fallback mode emails)
    (h' : Configures entries fallback' mode' emails') :
    fallback = fallback' ∧ mode = mode' ∧ emails = emails' := by
  obtain ⟨⟨text, htext, hauthor⟩, hmode, hemails, -⟩ := h
  obtain ⟨⟨text', htext', hauthor'⟩, hmode', hemails', -⟩ := h'
  refine ⟨?_, ?_, ?_⟩
  · rw [htext] at htext'
    cases htext'
    rw [hauthor] at hauthor'
    exact Option.some.inj hauthor'
  · rw [← modeWord_eq_ok_iff] at hmode hmode'
    rw [hmode, Except.ok.injEq] at hmode'
    have hread := Mode.ofWord?_word mode
    rw [hmode', Mode.ofWord?_word] at hread
    exact (Option.some.inj hread).symm
  · rw [← emails?_eq_some_iff] at hemails hemails'
    rw [hemails] at hemails'
    exact Option.some.inj hemails'

variable {entries entries' : List (Value × Value)} {a : Authoring}

/-- **The configurations that are accepted**, and their policies. -/
theorem ofEntries_eq_ok_iff :
    ofEntries entries = .ok a ↔
      ∃ emails, Configures entries a.fallback a.mode emails ∧ a.allowlist = emails.map trim := by
  rw [ofEntries]
  constructor
  · intro h
    split at h
    · cases h
    · rename_i text htext
      obtain ⟨word, hword, h⟩ := Steps.bind_eq_ok_iff.1 h
      split at h
      · cases h
      · rename_i mode hmode
        split at h
        · cases h
        · rename_i emails hemails
          obtain ⟨author, hauthor, h⟩ := Steps.bind_eq_ok_iff.1 h
          obtain ⟨rule, hrule, h⟩ := Steps.bind_eq_ok_iff.1 h
          cases h
          rw [Mode.ofWord?_eq_some_iff] at hmode
          rw [hmode] at hword
          rw [Steps.mapError_eq_ok_iff, Author.parse_eq_ok_iff] at hauthor
          rw [Steps.mapError_eq_ok_iff, make_eq_ok_iff author] at hrule
          obtain ⟨hlisted, hrulemode, hlist⟩ := hrule
          refine ⟨emails, ⟨⟨text, (defaultText?_eq_some_iff.1 htext).1, hauthor⟩, ?_,
            emails?_eq_some_iff.1 hemails, ?_⟩, hlist⟩
          · rw [hrulemode]
            exact modeWord_eq_ok_iff.1 hword
          · rw [hrulemode, ← hlisted, Ne, Ne, List.map_eq_nil_iff]
  · rintro ⟨emails, ⟨⟨text, htext, hauthor⟩, hmode, hemails, hlisted⟩, hlist⟩
    have hdefault := defaultText?_eq_some_iff.2 ⟨htext, Author.not_isBlankText_of_parse? hauthor⟩
    have hrule : Rule.make a.mode (emails.map trim) = .ok a.rule := by
      rw [make_eq_ok_iff a.fallback, Ne, List.map_eq_nil_iff]
      exact ⟨hlisted, rfl, hlist⟩
    rw [tableOf] at *
    simp only [hdefault, modeWord_eq_ok_iff.2 hmode, Mode.ofWord?_word, emails?_eq_some_iff.2 hemails,
      Author.parse_eq_ok_iff.2 hauthor, hrule, bind, Except.bind, Except.mapError]
    rfl

/-! ### What does not count -/

/-- Two lists of addresses are the same, or differ only in blanks around the addresses. -/
inductive ListsAlike : Option Value → Option Value → Prop where
  | same (v : Option Value) : ListsAlike v v
  | texts (emails emails' : List String) (h : emails.map trim = emails'.map trim) :
    ListsAlike (some (.list (emails.map .text))) (some (.list (emails'.map .text)))

/-- Two configurations differ only in blanks around their texts or inside the default author, and in the
case of the letters of the mode. -/
structure ConfigsAlike (entries entries' : List (Value × Value)) : Prop where
  default_text : Value.Alike Author.TextsAlike (Value.get? (tableOf entries) "default")
    (Value.get? (tableOf entries') "default")
  mode_text : Value.Alike (fun s s' => (trim s).toLower = (trim s').toLower)
    (Value.get? (tableOf entries) "mode") (Value.get? (tableOf entries') "mode")
  email_texts : ListsAlike (Value.get? (tableOf entries) "allowlist")
    (Value.get? (tableOf entries') "allowlist")

theorem configures_of_alike (halike : ConfigsAlike entries entries') {fallback : Author} {mode : Mode}
    {emails : List String} (h : Configures entries fallback mode emails) :
    ∃ emails', Configures entries' fallback mode emails' ∧ emails'.map trim = emails.map trim := by
  obtain ⟨hdefault, hmode, hlist⟩ := halike
  obtain ⟨⟨text, htext, hauthor⟩, hword, hemails, hlisted⟩ := h
  have hdefault' : ∃ text', Value.get? (tableOf entries') "default" = some (.text text') ∧
      Author.parse? text' = some fallback := by
    rw [htext] at hdefault
    generalize Value.get? (tableOf entries') "default" = given at hdefault ⊢
    cases hdefault with
    | same => exact ⟨text, rfl, hauthor⟩
    | text _ text' htexts => exact ⟨text', rfl, Author.parse?_of_alike htexts hauthor⟩
  have hmode' : Value.get? (tableOf entries') "mode" = none ∧ mode = .passThru ∨
      ∃ v word, Value.get? (tableOf entries') "mode" = some v ∧ v.written = .ok word ∧
        Unicode.lower (trim word) = mode.word := by
    generalize Value.get? (tableOf entries') "mode" = given' at hmode ⊢
    generalize Value.get? (tableOf entries) "mode" = given at hmode hword
    cases hmode with
    | same => exact hword
    | text s s' hcase =>
      rcases hword with ⟨hnone, -⟩ | ⟨v, word, hv, hwritten, hword⟩
      · cases hnone
      · cases hv
        cases hwritten
        refine .inr ⟨_, s', rfl, rfl, ?_⟩
        rw [← Unicode.lower_congr hcase]
        exact hword
  generalize hgiven : Value.get? (tableOf entries') "allowlist" = given' at hlist
  generalize Value.get? (tableOf entries) "allowlist" = given at hlist hemails
  cases hlist with
  | same =>
    refine ⟨emails, ⟨hdefault', hmode', ?_, hlisted⟩, rfl⟩
    rw [hgiven]
    exact hemails
  | texts shown shown' htrim =>
    rcases hemails with ⟨hnone, -⟩ | hsome
    · cases hnone
    · have hshown : shown = emails := by
        rw [Option.some_inj, Value.list.injEq] at hsome
        exact List.map_injective_iff.2 (fun _ _ h => Value.text.inj h) hsome
      rw [hshown] at htrim
      refine ⟨shown', ⟨hdefault', hmode', .inr hgiven, ?_⟩, htrim.symm⟩
      rw [← hlisted, Ne, Ne, ← List.map_eq_nil_iff (f := trim), ← htrim, List.map_eq_nil_iff]

/-- **What does not count**: a configuration that is alike has the same policy. -/
theorem ofEntries_of_alike (halike : ConfigsAlike entries entries') (h : ofEntries entries = .ok a) :
    ofEntries entries' = .ok a := by
  obtain ⟨emails, hconfigures, hlist⟩ := ofEntries_eq_ok_iff.1 h
  obtain ⟨emails', hconfigures', hemails⟩ := configures_of_alike halike hconfigures
  exact ofEntries_eq_ok_iff.2 ⟨emails', hconfigures', hlist.trans hemails.symm⟩

end Authoring

end MigrationBench
