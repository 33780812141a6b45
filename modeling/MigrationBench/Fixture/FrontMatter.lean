import MigrationBench.Fault
import MigrationBench.Json.Read
import MigrationBench.Text.Blank
import MigrationBench.Yaml.Document

/-!
# Front matter

A document may begin with metadata, in YAML between two lines of hyphens or in JSON between lines of
one brace; the rest is its content.

* `FrontMatter.Form` — the two forms.
* `FrontMatter.split` — a text cut into the text of the metadata and the content.
* `FrontMatter.read` — the metadata and the content of a text.
-/

namespace MigrationBench.FrontMatter

/-- The forms of metadata. -/
inductive Form where
  | yaml
  | json
deriving DecidableEq, Repr

/-! ### Boundaries -/

/-- The length of the text up to its last newline. -/
def lengthToLastNewline (cs : List Char) : Option Nat :=
  let tail := cs.reverse.takeWhile (· != '\n')
  if tail.length = cs.length then none else some (cs.length - tail.length - 1)

/-- The length of a line of at least three hyphens at the head of a text. Blanks after the hyphens
belong to it, blank lines too, up to the last newline in front of other characters. -/
def hyphenLine? (cs : List Char) : Option Nat :=
  let hyphens := (cs.takeWhile (· == '-')).length
  let rest := cs.drop hyphens
  let blanks := rest.takeWhile Text.isBlank
  if hyphens < 3 then none
  else if blanks.length = rest.length then some cs.length
  else (lengthToLastNewline blanks).map (hyphens + ·)

/-- The length of a line of one brace at the head of a text. -/
def braceLine? : List Char → Option Nat
  | c :: rest =>
    if (c == '{' || c == '}') && rest.head?.all (· == '\n') then some 1 else none
  | [] => none

/-- The length of a boundary of a form at the head of a text, which is at the start of a line. -/
def boundary? : Form → List Char → Option Nat
  | .yaml => hyphenLine?
  | .json => braceLine?

/-- The form of the metadata that a text begins with. -/
def formOf? (cs : List Char) : Option Form :=
  [Form.yaml, Form.json].find? fun form => (boundary? form cs).isSome

/-- The text in front of the first boundary, and what follows that. The text is at the start of a
line if `atStart` is set. -/
def cutAtBoundary (form : Form) : (atStart : Bool) → List Char → Option (List Char × List Char)
  | atStart, cs =>
    match if atStart then boundary? form cs else none, cs with
    | some n, _ => some ([], cs.drop n)
    | none, [] => none
    | none, c :: rest =>
      (cutAtBoundary form (c == '\n') rest).map fun (front, after) => (c :: front, after)
termination_by _ cs => cs.length

/-- The text of the metadata and the content of a text that begins with a boundary, if a second one
follows. -/
def split (form : Form) (cs : List Char) : Option (List Char × List Char) := do
  let start ← boundary? form cs
  cutAtBoundary form false (cs.drop start)

/-! ### Metadata -/

/-- The fault of metadata in YAML, in a file. -/
def yamlFault (path : String) : Yaml.Fault → Fault
  | .malformed => .config (.badFrontMatter path)
  | .badDate => .badDate
  | .badNumber => .badNumber
  | .wideNumber => .wideNumber

/-- The fault of metadata in JSON. -/
def jsonFault : Json.Fault → Fault
  | .malformed => .badJson
  | .longNumber => .longNumber

/-- The value of the text of metadata. Braces are boundaries and part of the metadata as well. -/
def value (path : String) : Form → List Char → Except Fault Value
  | .yaml, text => (Yaml.read text).mapError (yamlFault path)
  | .json, text => (Json.read ('{' :: text ++ ['}'])).mapError jsonFault

/-- The keys that metadata cannot have. -/
def reservedKeys : List String := ["self", "content", "handler"]

/-- Whether metadata can have a key. -/
def isUsableKey : Value → Bool
  | .text key => !reservedKeys.contains key
  | key => key.isText

/-- The entries of metadata. Metadata that is no mapping has none. -/
def entries : Value → Except Fault (List (Value × Value))
  | .map es => if es.all (isUsableKey ·.1) then .ok es else .error .badMetadataKey
  | _ => .ok []

/-- The metadata and the content of a text, without blanks around it. A text that does not begin
with metadata, or whose metadata does not end, is all content. -/
def read (path : String) (text : List Char) :
    Except Fault (List (Value × Value) × String) := do
  let text := Text.trimChars text
  match (formOf? text).bind fun form => (split form text).map fun parts => (form, parts) with
  | some (form, metadata, content) =>
    let entries ← entries (← value path form metadata)
    return (entries, String.ofList (Text.trimChars content))
  | none => return ([], String.ofList text)

end MigrationBench.FrontMatter
