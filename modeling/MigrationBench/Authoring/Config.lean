import MigrationBench.Authoring.Policy
import MigrationBench.Unicode.Casing
import MigrationBench.Value.Written

/-!
# Configured policies

The policy that the `authoring` table of a configuration describes:

    [authoring]
    default = "Bot <bot@example.com>"
    mode = "allowed"
    allowlist = ["dev@example.com"]

* `Authoring.ofEntries` — the policy of a configuration.
-/

namespace MigrationBench.Authoring

/-- The entries of a mapping; any other value has none. -/
def entriesOf : Option Value → List (Value × Value)
  | some (.map entries) => entries
  | _ => []

/-- The text of the default author: a text that is not blank. -/
def defaultText? : Option Value → Option String
  | some (.text s) => if Text.isBlankText s then none else some s
  | _ => none

/-- The word for the mode: the text of the value, trimmed and in lower case. -/
def modeWord : Option Value → Except Fault String
  | some v => v.written.map fun word => Unicode.lower (Text.trim word)
  | none => .ok Mode.passThru.word

/-- The texts of a list of texts. -/
def texts? : List Value → Option (List String)
  | [] => some []
  | .text s :: rest => (texts? rest).map (s :: ·)
  | _ :: _ => none

/-- The entries of the list of addresses; without a list there are none. -/
def emails? : Option Value → Option (List String)
  | none => some []
  | some (.list items) => texts? items
  | some _ => none

/-- A malformed argument in a configuration, as a fault. -/
def argumentFault (cause : ArgumentFault) : Fault :=
  .config (.argument cause)

/-- The policy of a configuration. The default author has to be given first, then a known mode, then
a list of texts. -/
def ofEntries (entries : List (Value × Value)) : Except Fault Authoring := do
  let table := entriesOf (Value.get? entries "authoring")
  match defaultText? (Value.get? table "default") with
  | none => throw (.config .noDefault)
  | some default =>
    let word ← modeWord (Value.get? table "mode")
    match Mode.ofWord? word with
    | none => throw (.config (.unknownMode word))
    | some mode =>
      match emails? (Value.get? table "allowlist") with
      | none => throw (.config .badAllowlist)
      | some emails =>
        let author ← (Author.parse default).mapError argumentFault
        let rule ← (Rule.make mode (emails.map Text.trim)).mapError argumentFault
        return ⟨author, rule⟩

end MigrationBench.Authoring
