import MigrationBench.Json.Print

/-!
# Output of commands

* `Console.Item` — what a command shows: a line of text or a table.
* `Console` — what shows it.
* `LogEntry` — what a command logs.
* `Output` — the exit status, the text on standard output and what is shown; `Output.shown`.
-/

namespace MigrationBench

/-- The styles of lines that are shown. -/
inductive Console.Style where
  | good
  | bad
deriving DecidableEq, Repr

/-- The words for a style. -/
def Console.Style.words : Console.Style → String
  | good => "green"
  | bad => "bold red"

/-- What a command shows. The header of a table may be hidden. -/
inductive Console.Item where
  | line (text : String) (style : Console.Style)
  | table (title : String) (header : Option (List String)) (rows : List (List String))
deriving DecidableEq, Repr

/-- What shows the items of a command one by one. It may refuse one: texts are markup to it, and not
every text is well-formed markup. -/
def Console (ε : Type) : Type :=
  Console.Item → Except ε Unit

/-- The parts of the program that log. -/
inductive LogSource where
  | tree
  | revision
deriving DecidableEq, Repr

/-- What a command logs; all entries are for debugging. -/
structure LogEntry where
  source : LogSource
  message : String
deriving DecidableEq, Repr

/-- What a command leaves: its exit status, the text on standard output and what is shown. -/
structure Output where
  exit : Nat
  stdout : String := ""
  console : List Console.Item := []
deriving DecidableEq, Repr

namespace Output

/-- The mark in front of good news. -/
def goodMark : String := String.ofList [Char.ofNat 0x2713, ' ']

/-- The mark in front of bad news. -/
def badMark : String := String.ofList [Char.ofNat 0x2717, ' ']

/-- The exit status of a command once everything is shown; the first item that is refused ends it. -/
def shown {ε : Type} (out : Output) (console : Console ε) : Except ε Nat := do
  out.console.forM console
  return out.exit

/-- A document as the text on standard output. -/
def ofDocument (exit : Nat) (d : Json.Document) : Output where
  exit := exit
  stdout := d.render ++ "\n"

end Output

end MigrationBench
