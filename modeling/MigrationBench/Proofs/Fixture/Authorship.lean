import MigrationBench.Proofs.Authoring.Config
import MigrationBench.Proofs.Fixture.Fields
import MigrationBench.Proofs.Revision.Projection
import Mathlib

/-!
# From texts to the author of a change

The author of a change is the one that the fixture names or the default author of the configuration. Both
are read from texts, and so are the mode and the addresses that decide between them.

* `Fixture.Names` — the author that a fixture names: `Fixture.names_of_revision`.
* `Fixture.PostsAlike` — fixtures that differ only in blanks in the text of the author:
  `Fixture.revision_of_alike`.
* `Fixture.change_author` — **the author of a change**, from text to text.
-/

namespace MigrationBench.Fixture

open Text

variable {entries entries' : List (Value × Value)} {content : String} {r : Revision} {a : Authoring}

/-- The author that a fixture names: that of the text of a value that is not empty, or else the
placeholder. -/
inductive Names (entries : List (Value × Value)) : Author → Prop where
  | absent (h : given? entries "author" = none) : Names entries Author.placeholder
  | written (v : Value) (author : Author) (h : given? entries "author" = some v)
      (hparse : Author.parse? v.render = some author) : Names entries author

theorem names_of_revision (h : revision entries content = .ok r) : Names entries r.author := by
  rcases author_eq_ok_iff.1 (revision_eq_ok_iff.1 h).author with ⟨hnone, hauthor⟩ | ⟨v, hv, -, hparse⟩
  · rw [hauthor]
    exact .absent hnone
  · exact .written v r.author hv hparse

/-- A fixture names one author. -/
theorem Names.unique {author author' : Author} (h : Names entries author) (h' : Names entries author') :
    author = author' := by
  cases h with
  | absent hnone =>
    cases h' with
    | absent => rfl
    | written v _ hv =>
      rw [hnone] at hv
      cases hv
  | written v _ hv hparse =>
    cases h' with
    | absent hnone =>
      rw [hnone] at hv
      cases hv
    | written v' _ hv' hparse' =>
      rw [hv] at hv'
      cases hv'
      rw [hparse] at hparse'
      exact Option.some.inj hparse'

theorem Names.isReadable {author : Author} (h : Names entries author) : author.IsReadable := by
  cases h with
  | absent =>
    have hplaceholder : Author.parse? Author.placeholder.render = some Author.placeholder := by decide
    exact Author.isReadable_of_parse? hplaceholder
  | written v _ _ hparse => exact Author.isReadable_of_parse? hparse

/-- The mode and the list of a configuration keep an author. -/
def KeepsAuthor (mode : Mode) (emails : List String) (author : Author) : Prop :=
  mode = .passThru ∨ mode = .allowed ∧ ∃ email ∈ emails, trim email = trim author.email

theorem keeps_iff_keepsAuthor {emails : List String} {author : Author} (hauthor : author.IsReadable)
    (hlist : a.allowlist = emails.map trim) :
    a.keeps author.email = true ↔ KeepsAuthor a.mode emails author := by
  rw [Authoring.keeps_iff, hlist, List.mem_map, KeepsAuthor, hauthor.email_trimmed]

/-! ### Fixtures that name an author in the same way -/

/-- Two fixtures differ only in blanks in the text of the author. -/
structure PostsAlike (entries entries' : List (Value × Value)) : Prop where
  author : Value.Alike Author.TextsAlike (Value.get? entries "author") (Value.get? entries' "author")
  others : ∀ key ≠ "author", Value.get? entries' key = Value.get? entries key

/-- A fixture that says the same about all other parts describes the same revision if it names the same
author. -/
theorem describes_of_others (hothers : ∀ key ≠ "author", Value.get? entries' key = Value.get? entries key)
    (hauthor : Fixture.author entries' = .ok r.author) (h : Describes entries content r) :
    Describes entries' content r := by
  have htimestamp : Fixture.timestamp (timestampValue entries') = .ok r.timestamp := by
    rw [timestampValue, hothers _ (by decide)]
    exact h.timestamp
  exact h.with_others (fun key hkey _ => hothers key hkey) hauthor htimestamp

/-- The author that a text stands for: an empty text stands for none. -/
theorem author_of_text {s : String} {author : Author} (h : Value.get? entries "author" = some (.text s)) :
    Fixture.author entries = .ok author ↔
      s = "" ∧ author = Author.placeholder ∨ s ≠ "" ∧ Author.parse? s = some author := by
  rw [author_eq_ok_iff, given?, h]
  by_cases hempty : s = "" <;> simp [Option.filter, Value.truthy, hempty, Value.isWritable, Value.render]

/-- A text that differs from an empty one only in blanks is blank. -/
theorem isBlankText_of_alike {s : String} (h : Author.TextsAlike "" s) : isBlankText s = true := by
  cases h with
  | around htrim =>
    have hchars : trimChars s.toList = [] := by
      rw [← toList_trim, ← htrim]
      rfl
    exact List.all_eq_true.2 (trimChars_eq_nil_iff.1 hchars)
  | inside name email email' _ hs =>
    have hnil : trimChars "".toList = [] := rfl
    rw [hnil] at hs
    simp at hs

/-- Blanks around an empty text make it one that names no author. -/
def BlankAuthor (entries entries' : List (Value × Value)) : Prop :=
  Value.get? entries "author" = some (.text "") ∧
    ∃ s, Value.get? entries' "author" = some (.text s) ∧ s ≠ "" ∧ isBlankText s = true

theorem author_of_alike {author : Author} (halike : PostsAlike entries entries')
    (h : Fixture.author entries = .ok author) :
    Fixture.author entries' = .ok author ∨ BlankAuthor entries entries' := by
  have hauthor := halike.author
  generalize hv : Value.get? entries "author" = v at hauthor
  generalize hv' : Value.get? entries' "author" = v' at hauthor
  cases hauthor with
  | same =>
    refine .inl ?_
    rw [← h, Fixture.author, Fixture.author, given?, given?, hv, hv']
  | text s s' hs =>
    -- an empty text counts as absent, and only there do blanks make a difference
    rcases (author_of_text hv).1 h with ⟨rfl, rfl⟩ | ⟨hne, hparse⟩
    · by_cases hempty : s' = ""
      · exact .inl ((author_of_text hv').2 (.inl ⟨hempty, rfl⟩))
      · exact .inr ⟨hv, s', hv', hempty, isBlankText_of_alike hs⟩
    · have hparse' := Author.parse?_of_alike hs hparse
      have hne' : s' ≠ "" := by
        rintro rfl
        cases Author.not_isBlankText_of_parse? hparse'
      exact .inl ((author_of_text hv').2 (.inr ⟨hne', hparse'⟩))

/-- A fixture that is alike describes the same revision, unless its text for the author is blank and the
other one is empty; then it describes none. -/
theorem revision_of_alike (halike : PostsAlike entries entries') (h : revision entries content = .ok r) :
    revision entries' content = .ok r ∨
      BlankAuthor entries entries' ∧ ∀ r', revision entries' content ≠ .ok r' := by
  have hdescribes := revision_eq_ok_iff.1 h
  rcases author_of_alike halike hdescribes.author with hauthor | hblank
  · exact .inl (revision_eq_ok_iff.2 (describes_of_others halike.others hauthor hdescribes))
  · refine .inr ⟨hblank, fun r' hr' => ?_⟩
    obtain ⟨-, s, hs, hne, hblank⟩ := hblank
    rcases (author_of_text hs).1 (revision_eq_ok_iff.1 hr').author with ⟨rfl, -⟩ | ⟨-, hparse⟩
    · exact hne rfl
    · rw [Author.not_isBlankText_of_parse? hparse] at hblank
      cases hblank

/-! ### The author of a change -/

/-- **The author of a change, from text to text.** For a configuration and a fixture that are accepted, with
a timestamp that has a date-time at the offset, the change has the author that the fixture names if the mode
is `pass_thru`, or if it is `allowed` and the trimmed address is among the trimmed entries of the list;
otherwise it has the configured default author. The text of that author denotes that author. Blanks around
the texts and inside the address, and the case of the mode, do not count: a configuration that is alike has
the same policy, and a fixture that is alike leads to the same change. It is accepted as well, unless its
text for the author is blank where the other one is empty. -/
theorem change_author :
    (∀ config a entries content r zone timestamp dateTime, Authoring.ofEntries config = .ok a →
      revision entries content = .ok r → r.timestamp = some timestamp →
      timestamp.inZone? zone = some dateTime →
      ∃ c given fallback mode emails, r.toChange a.policy zone = .ok c ∧ Names entries given ∧
        Authoring.Configures config fallback mode emails ∧
        (KeepsAuthor mode emails given → c.author = given) ∧
        (¬ KeepsAuthor mode emails given → c.author = fallback) ∧
        Author.parse? c.author.render = some c.author) ∧
    ∀ config config' a entries entries' content r zone c, Authoring.ConfigsAlike config config' →
      PostsAlike entries entries' → Authoring.ofEntries config = .ok a →
      revision entries content = .ok r → r.toChange a.policy zone = .ok c →
      Authoring.ofEntries config' = .ok a ∧
        (∀ r', revision entries' content = .ok r' → r'.toChange a.policy zone = .ok c) ∧
        ((∃ r', revision entries' content = .ok r') ∨ BlankAuthor entries entries') := by
  refine ⟨?_, ?_⟩
  · intro config a entries content r zone timestamp dateTime hconfig hpost htimestamp hzone
    obtain ⟨emails, hconfigures, hlist⟩ := Authoring.ofEntries_eq_ok_iff.1 hconfig
    have hnames := names_of_revision hpost
    have hkeeps := keeps_iff_keepsAuthor hnames.isReadable hlist
    obtain ⟨text, -, hfallback⟩ := hconfigures.default_text
    have hauthor : (r.changeAt a.policy dateTime).author
        = if a.keeps r.author.email then r.author else a.fallback := rfl
    refine ⟨r.changeAt a.policy dateTime, r.author, a.fallback, a.mode, emails,
      Revision.toChange_eq_ok_iff.2 ⟨timestamp, dateTime, htimestamp, hzone, rfl⟩, hnames, hconfigures,
      fun h => ?_, fun h => ?_, ?_⟩
    · rw [hauthor, if_pos (hkeeps.2 h)]
    · rw [hauthor, if_neg (fun hkept => h (hkeeps.1 hkept))]
    · rw [hauthor]
      split
      · exact Author.parse?_render hnames.isReadable
      · exact Author.parse?_render (Author.isReadable_of_parse? hfallback)
  · intro config config' a entries entries' content r zone c hconfigs hposts hconfig hpost hchange
    refine ⟨Authoring.ofEntries_of_alike hconfigs hconfig, ?_⟩
    rcases revision_of_alike hposts hpost with hpost' | ⟨hblank, hnone⟩
    · refine ⟨fun r' hr' => ?_, .inl ⟨r, hpost'⟩⟩
      rw [hpost'] at hr'
      cases hr'
      exact hchange
    · exact ⟨fun r' hr' => absurd hr' (hnone r'), .inr hblank⟩

/-- A configuration with blanks and upper case, and a list. -/
def spacedConfig : List (Value × Value) :=
  [(.text "authoring", .map [(.text "default", .text " Bot <bot@x.org>"), (.text "mode", .text "Allowed "),
    (.text "allowlist", .list [.text "other@x.org", .text " jane@x.org "])])]

/-- The same configuration without them. -/
def plainConfig : List (Value × Value) :=
  [(.text "authoring", .map [(.text "default", .text "Bot <bot@x.org>"), (.text "mode", .text "allowed"),
    (.text "allowlist", .list [.text "other@x.org", .text "jane@x.org"])])]

/-- The leap day of 2000. -/
def leapDay : Date := ⟨2000, 2, 29, by decide, by decide, by decide⟩

/-- A fixture with a text for the author, and a date. -/
def postBy (author : String) : List (Value × Value) :=
  [(.text "reference", .text "r"), (.text "author", .text author), (.text "timestamp", .date leapDay)]

/-- The revision of such a fixture. -/
def revisionBy (author : Author) : Revision where
  reference := "r"
  message := "m"
  author
  changesBase := Revision.baseDirectory.below "r"
  timestamp := some (Stamp.ofDate leapDay)
  contextReference := none
  referenceLabels := LabelMap.empty
  matchesGlob := some true
  descriptionLabels := LabelMap.empty
  reference_ne := by decide
  labels_eq := by decide

theorem revision_postBy {s : String} {author : Author} (h : Author.parse? s = some author) :
    revision (postBy s) "m" = .ok (revisionBy author) := by
  have hne : s ≠ "" := by
    rintro rfl
    cases h
  refine revision_eq_ok_iff.2 ⟨rfl, ⟨[], rfl, rfl⟩, ⟨true, rfl, rfl⟩, ⟨.derived, rfl, ?_⟩, ?_, rfl, rfl, rfl⟩
  · simp only [Revision.basePath?, revisionBy]
  · exact (author_of_text (s := s) rfl).2 (.inr ⟨hne, h⟩)

theorem postsAlike_postBy {s s' : String} (h : Author.TextsAlike s s') :
    PostsAlike (postBy s) (postBy s') where
  author := .text s s' h
  others key hkey := by
    have hauthor : ("author" == key) = false := beq_false_of_ne hkey.symm
    simp [Value.get?, postBy, List.find?_cons, Value.sameKey, hauthor]

/-- The policy of the configuration. -/
def listedPolicy : Authoring :=
  ⟨⟨"Bot", "bot@x.org"⟩, .allowed ["other@x.org", "jane@x.org"] (by decide)⟩

theorem configures_spacedConfig : Authoring.Configures spacedConfig ⟨"Bot", "bot@x.org"⟩ .allowed
    ["other@x.org", " jane@x.org "] where
  default_text := ⟨" Bot <bot@x.org>", by cbv, by cbv⟩
  mode_text := .inr ⟨.text "Allowed ", "Allowed ", by cbv, rfl, by cbv⟩
  email_texts := .inr (by cbv)
  listed := iff_of_true (by decide) rfl

theorem configsAlike_spacedConfig : Authoring.ConfigsAlike spacedConfig plainConfig where
  default_text := .text " Bot <bot@x.org>" "Bot <bot@x.org>" (.around (by cbv))
  mode_text := .text "Allowed " "allowed" (by cbv)
  email_texts := .texts ["other@x.org", " jane@x.org "] ["other@x.org", "jane@x.org"] (by cbv)

/-- Jane is on the list and stays the author, and so she does without the blanks. -/
theorem change_author_of_spacedConfig :
    Authoring.ofEntries spacedConfig = .ok listedPolicy ∧
      Authoring.ofEntries plainConfig = .ok listedPolicy ∧
      ∃ r c, revision (postBy " Jane <jane@x.org >") "m" = .ok r ∧
        r.toChange listedPolicy.policy Offset.utc = .ok c ∧ c.author = ⟨"Jane", "jane@x.org"⟩ ∧
        ∃ r', revision (postBy "Jane < jane@x.org>") "m" = .ok r' ∧
          r'.toChange listedPolicy.policy Offset.utc = .ok c := by
  obtain ⟨hauthor, hcongr⟩ := change_author
  have hconfig : Authoring.ofEntries spacedConfig = .ok listedPolicy :=
    Authoring.ofEntries_eq_ok_iff.2 ⟨_, configures_spacedConfig, by cbv⟩
  have hjane : Author.parse? " Jane <jane@x.org >" = some ⟨"Jane", "jane@x.org"⟩ := by decide
  have halike : Author.TextsAlike " Jane <jane@x.org >" "Jane < jane@x.org>" :=
    .inside "Jane ".toList "jane@x.org ".toList " jane@x.org".toList (by decide) (by decide) (by decide)
      (by decide)
  have hpost := revision_postBy hjane
  obtain ⟨dateTime, hzone⟩ : ∃ d, (Stamp.ofDate leapDay).inZone? Offset.utc = some d := ⟨_, by cbv⟩
  obtain ⟨c, given, fallback, mode, emails, hchange, hnames, hconfigures, hkept, -, -⟩ :=
    hauthor spacedConfig listedPolicy _ "m" _ Offset.utc _ dateTime hconfig hpost rfl hzone
  obtain rfl := hnames.unique (names_of_revision hpost)
  obtain ⟨rfl, rfl, rfl⟩ := hconfigures.unique configures_spacedConfig
  obtain ⟨hconfig', hsame, hok | hblank⟩ := hcongr spacedConfig plainConfig listedPolicy _ _ "m" _ _ c
    configsAlike_spacedConfig (postsAlike_postBy halike) hconfig hpost hchange
  · obtain ⟨r', hr'⟩ := hok
    refine ⟨hconfig, hconfig', _, c, hpost, hchange, ?_, r', hr', hsame r' hr'⟩
    exact hkept (.inr ⟨rfl, " jane@x.org ", by decide, by cbv⟩)
  · have hempty : some (Value.text " Jane <jane@x.org >") = some (.text "") := hblank.1
    exact absurd (Value.text.inj (Option.some.inj hempty)) (by decide)

end MigrationBench.Fixture
