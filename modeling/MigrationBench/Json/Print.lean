import MigrationBench.Text.Quoted

/-!
# Writing JSON

Documents of texts, lists and objects, written over several lines with an indentation of two blanks
and in ASCII alone.

* `Json.Document` — the documents.
* `Json.Document.render` — the text.
-/

namespace MigrationBench.Json

/-- A document to be written. The members of an object are in order. -/
inductive Document where
  | null
  | text (s : String)
  | list (items : List Document)
  | object (members : List (String × Document))

/-- An escape of a code unit. -/
def unitEscape (unit : Nat) : List Char :=
  '\\' :: 'u' :: Text.hexDigits 4 unit

/-- A character by its code units: one, or a surrogate pair. -/
def charEscape (c : Char) : List Char :=
  let n := c.toNat
  if n < 0x10000 then unitEscape n
  else
    let rest := n - 0x10000
    unitEscape (0xd800 + rest / 0x400) ++ unitEscape (0xdc00 + rest % 0x400)

/-- The written form of a character in a string. -/
def writeChar (c : Char) : List Char :=
  if c = '"' then ['\\', '"']
  else if c = '\\' then ['\\', '\\']
  else if c = '\n' then ['\\', 'n']
  else if c = '\r' then ['\\', 'r']
  else if c = '\t' then ['\\', 't']
  else if c = '\x08' then ['\\', 'b']
  else if c = '\x0c' then ['\\', 'f']
  else if ' ' ≤ c ∧ c ≤ '~' then [c]
  else charEscape c

/-- The written form of a text. -/
def writeText (s : String) : String :=
  String.ofList ('"' :: s.toList.flatMap writeChar ++ ['"'])

/-- A new line at a depth. -/
def newLine (depth : Nat) : String :=
  String.ofList ('\n' :: List.replicate (2 * depth) ' ')

/-- Parts between two marks, one part a line; without parts the marks stand together. -/
def enclosed (opening closing : String) (depth : Nat) (parts : List String) : String :=
  if parts = [] then opening ++ closing
  else
    opening ++ newLine (depth + 1) ++ String.intercalate ("," ++ newLine (depth + 1)) parts ++
      newLine depth ++ closing

namespace Document

mutual

/-- The text of a document at a depth. -/
def renderAt (depth : Nat) : Document → String
  | null => "null"
  | text s => writeText s
  | list items => enclosed "[" "]" depth (renderItems (depth + 1) items)
  | object members => enclosed "\x7b" "\x7d" depth (renderMembers (depth + 1) members)

/-- The texts of the items of a list. -/
def renderItems (depth : Nat) : List Document → List String
  | [] => []
  | item :: rest => renderAt depth item :: renderItems depth rest

/-- The texts of the members of an object. -/
def renderMembers (depth : Nat) : List (String × Document) → List String
  | [] => []
  | (name, value) :: rest =>
    (writeText name ++ ": " ++ renderAt depth value) :: renderMembers depth rest

end

/-- The text of a document. -/
def render (d : Document) : String :=
  renderAt 0 d

/-- An object of texts. -/
def ofPairs (pairs : List (String × String)) : Document :=
  object (pairs.map fun p => (p.1, text p.2))

end Document

end MigrationBench.Json
