import MigrationBench.Text.Blank

/-!
# Authors

The author of a change, a display name and an e-mail address, and its text `Name <address>`.

* `Author.render` — the text.
* `Author.parse?` — the author that a text denotes.
-/

namespace MigrationBench

/-- An author of a change. -/
structure Author where
  name : String
  email : String
deriving DecidableEq, Repr

namespace Author

/-- The text of an author. -/
def render (a : Author) : String :=
  a.name ++ " <" ++ a.email ++ ">"

/-- The two parts of `name<email>`: a name that is not empty up to the first `<`, and an address
up to a `>` that ends the text. -/
def parts? (cs : List Char) : Option (List Char × List Char) :=
  let name := cs.takeWhile (· != '<')
  match cs.dropWhile (· != '<') with
  | '<' :: rest =>
    let email := rest.takeWhile (· != '>')
    if !name.isEmpty && rest.dropWhile (· != '>') == ['>'] then some (name, email) else none
  | _ => none

/-- The author that a text denotes. Blanks around the text, the name and the address do not
count. -/
def parse? (text : String) : Option Author :=
  (parts? (Text.trimChars text.toList)).map fun (name, email) =>
    ⟨String.ofList (Text.trimChars name), String.ofList (Text.trimChars email)⟩

end Author

end MigrationBench
