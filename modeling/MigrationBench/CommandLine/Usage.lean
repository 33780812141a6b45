import MigrationBench.Text.Controls
import MigrationBench.Text.Order
import MigrationBench.Text.Quoted
import MigrationBench.Text.Similarity

/-!
# Usage errors

What can be wrong with a command line.

* `UsageFault` — the causes.
* `UsageFault.wording` — what is said about a cause.
* `UsageFault.message` — the same as it is shown, without control sequences.
-/

namespace MigrationBench

/-- What a path on the command line has to lead to. -/
inductive PathKind where
  | directory
  | file
deriving DecidableEq, Repr

/-- The word for a kind of path. -/
def PathKind.word : PathKind → String
  | directory => "Directory"
  | file => "File"

/-- What is wrong with a path on the command line. -/
inductive PathFault where
  /-- The path leads nowhere. -/
  | missing
  /-- The path leads to something of the other kind. -/
  | otherKind
  /-- What the path leads to may not be read. -/
  | unreadable
deriving DecidableEq, Repr

/-- What is wrong with a command line. -/
inductive UsageFault where
  | missingCommand
  | unknownCommand (name : String) (known : List String)
  | unknownOption (name : String) (known : List String)
  | missingValue (option : String)
  | uselessValue (option : String)
  | missingArgument (name : String)
  | extraArguments (words : List String)
  | badChoice (option value : String) (choices : List String)
  | badPath (parameter : String) (kind : PathKind) (text : String) (cause : PathFault)
  | badValue (complaint : String)
deriving DecidableEq, Repr

namespace UsageFault

/-- Quoted words, separated by commas. -/
def quotedList (words : List String) : String :=
  String.intercalate ", " (words.map Text.quote)

/-- Suggestions in place of a name that is not known. -/
def suggestion (name : String) (known : List String) : String :=
  match Text.sortTexts (Text.closeMatches name known) with
  | [] => ""
  | [one] => " Did you mean " ++ Text.quote one ++ "?"
  | several => " (Did you mean one of: " ++ quotedList several ++ "?)"

/-- What is wrong with a path. -/
def pathComplaint (kind : PathKind) (text : String) (cause : PathFault) : String :=
  kind.word ++ " " ++ Text.quote text ++
    match cause, kind with
    | .missing, _ => " does not exist."
    | .otherKind, .directory => " is a file."
    | .otherKind, .file => " is a directory."
    | .unreadable, _ => " is not readable."

/-- What is said about a usage error. Words of the command line stand in it as they were given. -/
def wording : UsageFault → String
  | missingCommand => "Missing command."
  | unknownCommand name known =>
    "No such command " ++ Text.quote name ++ "." ++ suggestion name known
  | unknownOption name known =>
    "No such option " ++ Text.quote name ++ "." ++ suggestion name known
  | missingValue option => "Option " ++ Text.quote option ++ " requires an argument."
  | uselessValue option => "Option " ++ Text.quote option ++ " does not take a value."
  | missingArgument name => "Missing argument '" ++ name ++ "'."
  | extraArguments words =>
    "Got unexpected extra argument" ++ (if words.length = 1 then "" else "s") ++ " (" ++
      String.intercalate " " words ++ ")"
  | badChoice option value choices =>
    "Invalid value for " ++ Text.quote option ++ ": " ++ Text.quote value ++ " is not one of " ++
      quotedList choices ++ "."
  | badPath parameter kind text cause =>
    "Invalid value for '" ++ parameter ++ "': " ++ pathComplaint kind text cause
  | badValue complaint => "Invalid value: " ++ complaint

/-- The text of a usage error. Words of the command line cannot colour it or move the cursor. -/
def message (f : UsageFault) : String :=
  Text.withoutControls f.wording

end UsageFault

end MigrationBench
