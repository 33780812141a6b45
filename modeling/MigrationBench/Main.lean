import MigrationBench.CommandLine.Run
import MigrationBench.Files.Listing

/-!
# The program

The words of the command line say what to do; standard input holds a listing of the files, whose
relative paths start at the current directory. A run so depends on nothing but what it is given.

* `Program.reportOf` — what the program prints for the ending of a run.
* `Program.run` — what a run prints, given the listing and the words.
* `main` — reads the listing, runs the command and prints.
-/

namespace MigrationBench.Program

/-- The environment variable with the offset of the local zone, in minutes east of UTC. -/
def zoneVariable : String := "UTC_OFFSET_MINUTES"

/-- The page of help. -/
def helpText : String :=
  "Usage: ferry-testing [--version] [--log-level LEVEL] COMMAND ...\n\n" ++
  "  tree ROOT [--file NAME] [--content NAME=TEXT] [--symlink LINK=TARGET]\n" ++
  "            [--absent NAME] [--exact] [--json]\n" ++
  "  revision FIXTURE [--authoring FILE] [--json]\n"

/-- The lines of a shown item: a table has a title, perhaps a header, and rows. -/
def itemLines : Console.Item → List String
  | .line text _ => [text]
  | .table title header rows =>
    title :: (header.toList ++ rows).map fun cells => String.intercalate "  " cells

/-- What a program prints, and its exit status. -/
structure Report where
  status : UInt32
  stdout : String := ""
  stderr : String := ""

/-- A report of something that went wrong. -/
def failure (status : UInt32) (message : String) : Report :=
  { status, stderr := "Error: " ++ message ++ "\n" }

/-- The text of the reason why checks stop. -/
def haltMessage : Halt → String
  | .finding cause => cause.description ++ ": " ++ cause.actual
  | .file cause => cause.message

/-- What the program prints for the ending of a run. -/
def reportOf : Ending → Report
  | .output out =>
    { status := UInt32.ofNat out.exit
      stdout := out.stdout ++ String.join ((out.console.flatMap itemLines).map (· ++ "\n")) }
  | .version => { status := 0, stdout := CommandLine.versionText }
  | .help => { status := 0, stdout := helpText }
  | .noWords => { status := 2, stderr := helpText }
  | .usage cause => failure 2 cause.message
  | .fault cause => failure 1 cause.message
  | .halt cause => failure 1 (haltMessage cause)

/-- The offset in a text of minutes; anything else means UTC. -/
def zoneOf (text : Option String) : Offset :=
  ((text.bind String.toInt?).bind Offset.ofMinutes?).getD Offset.utc

/-- A file system without files, with the directory that a text names as the current one. -/
def startAt (directory : String) : FileSystem :=
  let names := (PathName.ofString directory).parts
  if h : names.all Node.isEntryName = true then FileSystem.empty names h
  else FileSystem.empty [] rfl

/-- What a run with a listing of the files prints, with the lines of its log in front. -/
def run (directory listing : String) (zone : Offset) (words : List String) : Report :=
  match (startAt directory).addListing listing with
  | .error cause => failure 2 cause.message
  | .ok fs =>
    let (ending, log) := CommandLine.run fs zone words
    let report := reportOf ending
    { report with stderr := String.join (log.map (·.message ++ "\n")) ++ report.stderr }

/-- The text of a stream up to its end, behind a text that was read before. -/
partial def readRest (stream : IO.FS.Stream) (before : String) : IO String := do
  let line ← stream.getLine
  if line.isEmpty then return before else readRest stream (before ++ line)

end MigrationBench.Program

open MigrationBench in
/-- Reads the listing, runs the command and prints. -/
def main (words : List String) : IO UInt32 := do
  let listing ← Program.readRest (← IO.getStdin) ""
  let zone := Program.zoneOf (← IO.getEnv Program.zoneVariable)
  let directory := (← IO.currentDir).toString
  let report := Program.run directory listing zone words
  IO.print report.stdout
  IO.eprint report.stderr
  return report.status
