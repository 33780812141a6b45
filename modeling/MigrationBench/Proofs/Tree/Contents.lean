import MigrationBench.Proofs.Text.Utf8
import MigrationBench.Proofs.Tree.Findings

/-!
# Contents of files

A check of contents compares what the bytes of a file read as, not the bytes: broken parts read as
replacement characters, and so do those characters themselves.

* `Inspection.adds_contents` — a check of contents that are there.
* `Inspection.contents_compared` — which contents are accepted, and what is told of the others.
* `Inspection.broken_contents_accepted` — two files with other bytes than the text that both are said to
  have.
-/

namespace MigrationBench.Inspection

variable {i : Inspection}

/-- A check of the contents of a file that is there compares the text that its bytes read as. -/
theorem adds_contents {name : String} {bytes : List UInt8}
    (h : i.files.bytesAt? (i.root.below name) = some bytes) (text : String) :
    i.Adds (.file name text) (if Utf8.decodeLossy bytes = text then []
      else [.contents name (Utf8.decodeLossy bytes) text]) := by
  have hthere : i.files.exists? (i.root.below name) = .ok true :=
    FileSystem.exists?_eq_true_iff.2 (FileSystem.isThere_of_bytesAt? h)
  have hrecords := records_contents_of_ok text hthere fun _ => by rw [h]; exact Option.some_ne_none _
  rw [FileSystem.mismatch, h] at hrecords
  apply adds_of_records
  rw [acts_file, verifyActs_of_there hthere]
  exact (Records.remember _).append hrecords

variable (i)

/-- **Contents are compared as they read.** A check of the contents of a regular file completes. It finds
nothing exactly if the bytes of the file are those of the text, up to broken parts that stand for
replacement characters of the text; otherwise it finds one thing, which tells the text that the bytes
read as. If nothing in the file is broken, or the text has no replacement character, then it finds nothing
exactly if the bytes are those of the text. So two files with different bytes are accepted for one text
only if the text has a replacement character and one of the files holds broken bytes. -/
theorem contents_compared {name : String} {bytes : List UInt8}
    (h : i.files.bytesAt? (i.root.below name) = some bytes) (text : String) :
    (i.Adds (.file name text) [] ↔ Utf8.Reads bytes text.toList) ∧
    (¬ Utf8.Reads bytes text.toList →
      i.Adds (.file name text) [.contents name (Utf8.decodeLossy bytes) text]) ∧
    (Utf8.IsText bytes ∨ Utf8.replacement ∉ text.toList →
      (i.Adds (.file name text) [] ↔ bytes = Utf8.encode text)) ∧
    ∀ name' bytes', i.files.bytesAt? (i.root.below name') = some bytes' → bytes ≠ bytes' →
      i.Adds (.file name text) [] → i.Adds (.file name' text) [] →
      Utf8.replacement ∈ text.toList ∧ ¬ (Utf8.IsText bytes ∧ Utf8.IsText bytes') := by
  have haccepts : ∀ {name : String} {bytes : List UInt8},
      i.files.bytesAt? (i.root.below name) = some bytes →
      (i.Adds (.file name text) [] ↔ Utf8.decodeLossy bytes = text) := by
    intro name bytes h
    have hadds := adds_contents h text
    constructor
    · intro hnone
      by_contra htext
      rw [if_neg htext] at hadds
      cases hadds.unique hnone
    · intro htext
      rwa [if_pos htext] at hadds
  refine ⟨?_, ?_, ?_, ?_⟩
  · rw [haccepts h, Utf8.decodeLossy_eq_iff]
  · intro hother
    have hadds := adds_contents h text
    rwa [if_neg fun htext => hother (Utf8.decodeLossy_eq_iff.1 htext)] at hadds
  · intro hwhole
    rw [haccepts h, Utf8.decodeLossy_eq_iff_encode hwhole]
  · intro name' bytes' h' hne hfirst hsecond
    rw [haccepts h] at hfirst
    rw [haccepts h'] at hsecond
    constructor
    · by_contra hnone
      exact hne (((Utf8.decodeLossy_eq_iff_encode (.inr hnone)).1 hfirst).trans
        ((Utf8.decodeLossy_eq_iff_encode (.inr hnone)).1 hsecond).symm)
    · intro htexts
      exact hne (((Utf8.decodeLossy_eq_iff_encode (.inl htexts.1)).1 hfirst).trans
        ((Utf8.decodeLossy_eq_iff_encode (.inl htexts.2)).1 hsecond).symm)

/-- A directory with three files: a character that breaks off before a letter, a byte that begins
nothing, and a replacement character. -/
def brokenTree : FileSystem where
  top := [("bay", .directory [("cut", .file 0), ("raw", .file 1), ("sign", .file 2)])]
  contents := [(0, [0xe2, 0x82, 0x41]), (1, [0xff]), (2, [0xef, 0xbf, 0xbd])]
  fresh := 3
  cwd := ["bay"]
  top_sound := by decide
  cwd_there := by decide

/-- The directory, tested from itself. -/
def brokenInspection : Inspection where
  files := brokenTree
  strategy := .recording
  root := PathName.ofString "."

/-- A character that breaks off reads as one replacement character, and the letter behind it is told. -/
theorem contents_compared_of_cutFile :
    brokenInspection.files.bytesAt? (brokenInspection.root.below "cut") = some [0xe2, 0x82, 0x41] ∧
    brokenInspection.Adds (.file "cut" "\uFFFDA") [] ∧
    brokenInspection.Adds (.file "cut" "A") [.contents "cut" "\uFFFDA" "A"] := by
  have hbytes : brokenInspection.files.bytesAt? (brokenInspection.root.below "cut")
      = some [0xe2, 0x82, 0x41] := by cbv
  have hreads : Utf8.decodeLossy [0xe2, 0x82, 0x41] = "\uFFFDA" := by cbv
  obtain ⟨hsame, -, -, -⟩ := brokenInspection.contents_compared hbytes "\uFFFDA"
  obtain ⟨-, hother, -, -⟩ := brokenInspection.contents_compared hbytes "A"
  refine ⟨hbytes, hsame.2 (Utf8.decodeLossy_eq_iff.1 hreads), ?_⟩
  have hadds := hother fun h => by
    have htext := Utf8.decodeLossy_eq_iff.2 h
    rw [hreads] at htext
    exact absurd htext (by decide)
  rwa [hreads] at hadds

/-- **Broken contents are accepted**: a file with a byte that begins nothing passes for the replacement
character, which has other bytes, and so does the file with that character. -/
theorem broken_contents_accepted :
    brokenInspection.files.bytesAt? (brokenInspection.root.below "raw") = some [0xff] ∧
    brokenInspection.files.bytesAt? (brokenInspection.root.below "sign")
      = some (Utf8.encode "\uFFFD") ∧
    ([0xff] : List UInt8) ≠ Utf8.encode "\uFFFD" ∧
    brokenInspection.Adds (.file "raw" "\uFFFD") [] ∧
    brokenInspection.Adds (.file "sign" "\uFFFD") [] := by
  have hraw : brokenInspection.files.bytesAt? (brokenInspection.root.below "raw") = some [0xff] := by
    cbv
  have hsign : brokenInspection.files.bytesAt? (brokenInspection.root.below "sign")
      = some [0xef, 0xbf, 0xbd] := by cbv
  have hreads : Utf8.decodeLossy [0xff] = "\uFFFD" := by cbv
  have hreads' : Utf8.decodeLossy [0xef, 0xbf, 0xbd] = "\uFFFD" := by cbv
  have hadds := adds_contents hraw "\uFFFD"
  have hadds' := adds_contents hsign "\uFFFD"
  rw [if_pos hreads] at hadds
  rw [if_pos hreads'] at hadds'
  exact ⟨hraw, hsign, by decide, hadds, hadds'⟩

end MigrationBench.Inspection
