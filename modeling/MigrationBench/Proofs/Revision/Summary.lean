import MigrationBench.Proofs.Authoring.Author
import MigrationBench.Proofs.Revision.Equality
import MigrationBench.Proofs.Time.Reading

/-!
# Summaries

A summary puts the reference, the author, the date and the first line of the message one behind another.
The date and the first line have no newlines. The reference and the author are taken as they are: every
newline in them starts a new line of the summary.

* `Change.heading`, `Change.newlines_summary` — a summary without its first line, and the newlines of a
  summary.
* `Revision.summary_lines` — **the lines of a summary**; `Revision.summary_broken`: summaries of more
  than one.
-/

namespace MigrationBench

open Text

/-- The newlines of an author are those of the name and of the address. -/
theorem Author.newlines_render (a : Author) : newlines a.render = newlines a.name + newlines a.email := by
  have hopen : newlines " <" = 0 := rfl
  have hclose : newlines ">" = 0 := rfl
  rw [Author.render, newlines_append, newlines_append, newlines_append, hopen, hclose, Nat.add_zero,
    Nat.add_zero]

namespace Change

/-- What stands in front of the first line of the message in a summary. -/
def heading (c : Change) : String :=
  c.ref ++ " " ++ c.author.render ++ " " ++ c.dateTime.render ++ " "

theorem summary_eq (c : Change) : c.summary = c.heading ++ c.firstLine := rfl

/-- **The newlines of a summary** are those of the reference and of the author. -/
theorem newlines_summary (c : Change) :
    newlines c.summary = newlines c.ref + newlines c.author.name + newlines c.author.email := by
  have hblank : newlines " " = 0 := rfl
  have hdate : newlines c.dateTime.render = 0 := newlines_eq_zero_iff.2 (Stamp.newline_not_mem_render _)
  have hfirst : newlines c.firstLine = 0 := newlines_eq_zero_iff.2 (newline_not_mem_firstLine _)
  simp only [summary_eq, heading, newlines_append, Author.newlines_render, hblank, hdate, hfirst]
  omega

end Change

namespace Revision

variable {r r' : Revision} {p : Policy} {zone : Offset} {c : Change}

/-- With another message there still is a change, and its summary has another first line at its end only. -/
theorem exists_change_of_message {message : String} (hr : r.override (.message (some message)) = .ok r')
    (hc : r.toChange p zone = .ok c) :
    ∃ c', r'.toChange p zone = .ok c' ∧ c'.summary = c.heading ++ firstLine message := by
  obtain ⟨t, dateTime, ht, hzone, rfl⟩ := toChange_eq_ok_iff.1 hc
  have hdraft := (override_eq_ok_iff.1 hr).2
  have hreference : r'.reference = r.reference := Option.some_inj.1 (congrArg Draft.reference hdraft)
  have hauthor : r'.author = r.author := Option.some_inj.1 (congrArg Draft.author hdraft)
  have hmessage : r'.message = message := Option.some_inj.1 (congrArg Draft.message hdraft)
  have htimestamp : r'.timestamp = some t := (congrArg Draft.timestamp hdraft).trans ht
  refine ⟨r'.changeAt p dateTime, toChange_eq_ok_iff.2 ⟨t, dateTime, htimestamp, hzone, rfl⟩, ?_⟩
  simp only [Change.summary_eq, Change.heading, Change.ref, Change.firstLine, changeAt, info, hreference,
    hauthor, hmessage]

/-- **The lines of a summary.** The summary of a change has one line, and one more for each newline in
the reference of the revision and in the name and the address of the author, who is the author of the
revision or the default author of the policy. So it is one line if and only if none of these holds a
newline. Of the message it has the first line, at its end, and nothing else: with any other message
there is a change whose summary ends with the first line of that message and is the same in front of
it. -/
theorem summary_lines (hc : r.toChange p zone = .ok c) :
    c.author = (if p.keeps r.author.email then r.author else p.fallback) ∧
    (lines c.summary).length = newlines r.reference + newlines c.author.name + newlines c.author.email + 1 ∧
    ('\n' ∉ c.summary.toList ↔
      '\n' ∉ r.reference.toList ∧ '\n' ∉ c.author.name.toList ∧ '\n' ∉ c.author.email.toList) ∧
    ∃ heading, c.summary = heading ++ firstLine r.message ∧
      ∀ message r', r.override (.message (some message)) = .ok r' →
        ∃ c', r'.toChange p zone = .ok c' ∧ c'.summary = heading ++ firstLine message := by
  have hnewlines := c.newlines_summary
  rw [ref_of_toChange hc] at hnewlines
  refine ⟨?_, ?_, ?_, c.heading, ?_, fun message r' hr => exists_change_of_message hr hc⟩
  · obtain ⟨t, dateTime, -, -, rfl⟩ := toChange_eq_ok_iff.1 hc
    rfl
  · rw [length_lines, hnewlines]
  · rw [← newlines_eq_zero_iff, ← newlines_eq_zero_iff, ← newlines_eq_zero_iff, ← newlines_eq_zero_iff,
      hnewlines]
    omega
  · obtain ⟨t, dateTime, -, -, rfl⟩ := toChange_eq_ok_iff.1 hc
    rfl

/-- A revision with a message of three lines. -/
def longRevision : Revision :=
  { midnightRevision with
    message := "one\ntwo\nthree"
    labels_eq := by cbv }

/-- Its summary is one line. -/
theorem summary_lines_of_longRevision : ∃ c,
    longRevision.toChange ⟨fun _ => true, Author.placeholder⟩ .utc = .ok c ∧
      lines c.summary = [c.summary] := by
  obtain ⟨c, hc⟩ : ∃ c, longRevision.toChange ⟨fun _ => true, Author.placeholder⟩ .utc = .ok c := ⟨_, rfl⟩
  obtain ⟨hauthor, -, hone, -⟩ := summary_lines hc
  refine ⟨c, hc, lines_of_not_mem (hone.2 ?_)⟩
  rw [hauthor]
  decide

/-- A revision with a reference of two lines. -/
def brokenRevision : Revision :=
  { midnightRevision with
    reference := "a\nb"
    reference_ne := by decide }

/-- A reference may have newlines, and so may an author that is read from a text; then the summary is
more than one line. -/
theorem summary_broken :
    (∃ c, brokenRevision.toChange ⟨fun _ => true, Author.placeholder⟩ .utc = .ok c ∧
      '\n' ∈ c.summary.toList) ∧
    ∃ author c, Author.parse "Jane\nDoe <jane@example.com>" = .ok author ∧
      Revision.toChange { midnightRevision with author } ⟨fun _ => true, Author.placeholder⟩ .utc = .ok c ∧
      '\n' ∈ c.summary.toList := by
  constructor
  · exact ⟨_, rfl, by decide⟩
  · exact ⟨_, _, rfl, rfl, by decide⟩

end Revision

end MigrationBench
