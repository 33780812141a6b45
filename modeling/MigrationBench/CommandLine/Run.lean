import MigrationBench.Command.Revision
import MigrationBench.Command.Tree
import MigrationBench.CommandLine.Words

/-!
# The command line

    ferry-testing [--log-level LEVEL] tree ROOT [options]
    ferry-testing [--log-level LEVEL] revision FIXTURE [options]

* `Ending` — how a run of the program ends.
* `CommandLine.run` — the run for the words of a command line.
-/

namespace MigrationBench

/-- How a run of the program ends. -/
inductive Ending where
  /-- A command has run. -/
  | output (out : Output)
  /-- The version is shown. -/
  | version
  /-- A page of help is asked for. -/
  | help
  /-- Without any words a page of help is shown as an error. -/
  | noWords
  /-- The command line is wrong. -/
  | usage (cause : UsageFault)
  /-- A command stops at a fault that is not the program's own. -/
  | fault (cause : Fault)
  /-- A run of checks stops. -/
  | halt (cause : Halt)

namespace CommandLine

/-- The name and the version of the program. -/
def versionText : String := "ferry-testing, version 0.1.0\n"

/-- The levels of logging, from the most talkative one on. -/
def logLevels : List String := ["debug", "info", "warning", "error"]

/-- The level of logging at which entries are kept. -/
def debugLevel : String := "debug"

/-- The options in front of a command. -/
def groupOptions : List OptionSpec :=
  [⟨"--version", false⟩, ⟨"--log-level", true⟩, ⟨"--help", false⟩]

/-- The options of the tree command. -/
def treeOptions : List OptionSpec :=
  [⟨"--file", true⟩, ⟨"--content", true⟩, ⟨"--symlink", true⟩, ⟨"--absent", true⟩,
    ⟨"--exact", false⟩, ⟨"--json", false⟩, ⟨"--help", false⟩]

/-- The options of the revision command. -/
def revisionOptions : List OptionSpec :=
  [⟨"--authoring", true⟩, ⟨"--json", false⟩, ⟨"--help", false⟩]

/-- The names of the commands. -/
def commands : List String := ["tree", "revision"]

/-- A part of a run that may end it. -/
abbrev Step (α : Type) : Type := Except Ending α

/-- Ends the run at a usage error. -/
def orUsage {α : Type} : Except UsageFault α → Step α
  | .ok a => .ok a
  | .error cause => .error (.usage cause)

/-! ### Arguments -/

/-- What a path text leads to, and where; an empty one leads nowhere. -/
def locateText (fs : FileSystem) (text : String) : Except FileFault (List String × Node) :=
  if text = "" then .error .missing else fs.locate (.ofText text)

/-- Whether a node is of the other kind than asked for. A pipe passes as either. -/
def isOtherKind : PathKind → Node → Bool
  | .directory, .file _ => true
  | .file, .directory _ => true
  | _, _ => false

/-- The path of a parameter, which has to lead to something of a kind that may be read. -/
def pathOf (fs : FileSystem) (parameter : String) (kind : PathKind) (text : String) :
    Step PathName :=
  match locateText fs text with
  | .ok (location, node) =>
    if isOtherKind kind node then .error (.usage (.badPath parameter kind text .otherKind))
    else if fs.allows .read (FileSystem.identity location node) then .ok (PathName.ofString text)
    else .error (.usage (.badPath parameter kind text .unreadable))
  | .error .badName => .error (.fault (.file .badName))
  | .error _ => .error (.usage (.badPath parameter kind text .missing))

/-- The path of the one argument of a command. -/
def onlyPath (fs : FileSystem) (parameter : String) (kind : PathKind) :
    List String → Step PathName
  | [] => .error (.usage (.missingArgument parameter))
  | text :: rest => do
    let path ← pathOf fs parameter kind text
    if rest = [] then return path else .error (.usage (.extraArguments rest))

/-- The words of a command; a page of help ends the run. -/
def commandWords (specs : List OptionSpec) (words : List String) : Step Words := do
  let w ← orUsage (Words.ofList specs true words)
  if w.has "--help" then .error .help else return w

/-! ### Commands -/

/-- What the words of the tree command ask for. -/
def treeRequest (fs : FileSystem) (words : List String) : Step TreeRequest := do
  let w ← commandWords treeOptions words
  let root ← onlyPath fs "ROOT" .directory w.arguments
  return {
    root
    files := w.values "--file"
    contents := w.values "--content"
    symlinks := w.values "--symlink"
    absent := w.values "--absent"
    exact := w.has "--exact"
    asJson := w.has "--json" }

/-- What the words of the revision command ask for. The file of the policy is looked for first. -/
def revisionRequest (fs : FileSystem) (words : List String) : Step RevisionRequest := do
  let w ← commandWords revisionOptions words
  let authoring ← (w.values "--authoring").getLast?.mapM (pathOf fs "--authoring" .file)
  let fixture ← onlyPath fs "FIXTURE" .file w.arguments
  return { fixture, authoring, asJson := w.has "--json" }

/-- How a run of the tree command ends. Every fault that lies in a value is shown as a usage error. -/
def treeEnding : Except TreeFault Output → Ending
  | .ok out => .output out
  | .error (.notPair option text) => .usage (.badValue (option.complaint text))
  | .error (.halt (.file cause)) =>
    if cause.isBadValue then .usage (.badValue cause.message) else .halt (.file cause)
  | .error (.halt (.finding cause)) => .halt (.finding cause)

/-- How a run of the revision command ends. -/
def revisionEnding : Except Fault Output → Ending
  | .ok out => .output out
  | .error cause => .fault cause

/-- A command with the words behind it, and what it logs. -/
def runCommand (fs : FileSystem) (zone : Offset) (name : String) (words : List String) :
    Ending × List LogEntry :=
  if name = "tree" then
    match treeRequest fs words with
    | .error ending => (ending, [])
    | .ok request =>
      let (result, log) := request.run fs
      (treeEnding result, log)
  else
    match revisionRequest fs words with
    | .error ending => (ending, [])
    | .ok request =>
      let (result, log) := request.run fs zone
      (revisionEnding result, log)

/-! ### The whole line -/

/-- The first option that ends the run before anything else is looked at. -/
def firstEnding (w : Words) : Option Ending :=
  w.options.findSome? fun (name, _) =>
    if name = "--version" then some .version
    else if name = "--help" then some .help
    else none

/-- The level of logging that is asked for last, and the words from the command on. -/
def groupWords (words : List String) : Step (Option String × List String) := do
  let w ← orUsage (Words.ofList groupOptions false words)
  match firstEnding w with
  | some ending => .error ending
  | none =>
    let level := (w.values "--log-level").getLast?
    match level.filter (!logLevels.contains ·) with
    | some bad => .error (.usage (.badChoice "--log-level" bad logLevels))
    | none => return (level, w.arguments)

/-- Whether a word looks like an option where a command is expected. -/
def looksLikeOption (word : String) : Bool :=
  word.toList.head?.any fun c => !Unicode.isAlphanumeric c

/-- How a run with an unknown command ends. A word that looks like an option is read as one. -/
def unknownCommand (name : String) (words : List String) : Ending :=
  let unknown := Ending.usage (.unknownCommand name commands)
  if looksLikeOption name then
    match groupWords words with
    | .error ending => ending
    | .ok _ => unknown
  else unknown

/-- The run for the words of a command line behind the name of the program, and what is logged. -/
def run (fs : FileSystem) (zone : Offset) (words : List String) : Ending × List LogEntry :=
  if words = [] then (.noWords, [])
  else
    match groupWords words with
    | .error ending => (ending, [])
    | .ok (_, []) => (.usage .missingCommand, [])
    | .ok (level, name :: rest) =>
      if commands.contains name then
        let (ending, log) := runCommand fs zone name rest
        (ending, if level = some debugLevel then log else [])
      else (unknownCommand name (name :: rest), [])

end CommandLine

end MigrationBench
