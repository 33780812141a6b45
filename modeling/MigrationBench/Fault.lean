import MigrationBench.Authoring.Mode
import MigrationBench.Label.Map

/-!
# Faults

Everything that can go wrong outside the checks of a tree, by cause, and the wording.

* `ArgumentFault` — a required argument is missing or malformed.
* `ConfigFault` — a configuration or a revision fixture cannot be used.
* `FileFault` — a file cannot be reached or read.
* `Fault` — all of them, with `Fault.message`.
-/

namespace MigrationBench

/-- The fields of a revision that have to be there. -/
inductive RevisionField where
  | reference
  | message
  | author
  | changesBase
  | referenceLabels
deriving DecidableEq, Repr

/-- The word for a field. -/
def RevisionField.word : RevisionField → String
  | reference => "reference"
  | message => "message"
  | author => "author"
  | changesBase => "changes_base"
  | referenceLabels => "reference_labels"

/-- A required argument is missing or malformed. -/
inductive ArgumentFault where
  | badAuthor (text : String)
  | noDefaultAuthor
  | unknownMode (text : String)
  | emptyAllowlist
  | uselessAllowlist (mode : Mode)
  | missingField (field : RevisionField)
  | emptyReference
  | noContextReference
deriving DecidableEq, Repr

/-- The text of an argument fault. -/
def ArgumentFault.message : ArgumentFault → String
  | badAuthor text =>
    "Author '" ++ text ++ "' doesn't match the expected format 'name <mail@example.com>'"
  | noDefaultAuthor => "default_author is required"
  | unknownMode text => "Unknown authoring mode '" ++ text ++ "'"
  | emptyAllowlist => "'allowed' authoring mode requires a non-empty allowlist"
  | uselessAllowlist mode =>
    "An allowlist can only be used with 'allowed' mode, not '" ++ mode.word ++ "'"
  | missingField field => "DummyRevision." ++ field.word ++ " is required"
  | emptyReference => "DummyRevision.reference must be non-empty"
  | noContextReference => "context_reference is required"

/-- The text about a label that is declared twice. -/
def LabelMap.Repeated.message (r : LabelMap.Repeated) : String :=
  "Label '" ++ r.name ++ "' is declared more than once in the message: '" ++ r.first ++
    "' and '" ++ r.second ++ "'"

/-- Why a revision cannot be built. -/
inductive RevisionFault where
  | argument (cause : ArgumentFault)
  | repeatedLabel (cause : LabelMap.Repeated)
deriving DecidableEq, Repr

/-- The text of a revision fault. -/
def RevisionFault.message : RevisionFault → String
  | argument cause => cause.message
  | repeatedLabel cause => cause.message

/-- A configuration or a revision fixture cannot be used. -/
inductive ConfigFault where
  | noDefault
  | unknownMode (text : String)
  | badAllowlist
  | argument (cause : ArgumentFault)
  | noReference
  | badLabels
  | badGlobFlag (text : String)
  | badTimestamp (text : String)
  | badRevision (cause : RevisionFault)
  | badToml (path : String)
  | badFrontMatter (path : String)
  | inFile (path : String) (cause : ConfigFault)
deriving DecidableEq, Repr

/-- The text of a configuration fault. -/
def ConfigFault.message : ConfigFault → String
  | noDefault => "authoring.default is required"
  | unknownMode text =>
    "Unknown authoring.mode '" ++ text ++ "' (expected one of: " ++
      String.intercalate ", " (Mode.all.map Mode.word) ++ ")"
  | badAllowlist => "authoring.allowlist must be a list of emails"
  | argument cause => cause.message
  | noReference => "Revision fixture requires a 'reference'"
  | badLabels => "'labels' must be a mapping"
  | badGlobFlag text => "'matches_glob' must be true or false, got '" ++ text ++ "'"
  | badTimestamp text => "Invalid timestamp '" ++ text ++ "'"
  | badRevision cause => "Invalid revision fixture: " ++ cause.message
  | badToml path => "Invalid TOML in " ++ path
  | badFrontMatter path => "Invalid frontmatter in " ++ path
  | inFile path cause => path ++ ": " ++ cause.message

/-- A file cannot be reached or read. -/
inductive FileFault where
  | missing
  | notDirectory
  | isDirectory
  | nameTooLong
  | linkLoop
  | badName
  | notText
  | denied
deriving DecidableEq, Repr

/-- The text of a file fault. -/
def FileFault.message : FileFault → String
  | missing => "no such file or directory"
  | notDirectory => "not a directory"
  | isDirectory => "is a directory"
  | nameTooLong => "file name too long"
  | linkLoop => "too many levels of symbolic links"
  | badName => "a file name cannot hold a NUL"
  | notText => "not UTF-8 text"
  | denied => "permission denied"

/-- Whether a fault lies in a value and not in the files: in a name that no file can have, or in bytes
that are no text. -/
def FileFault.isBadValue : FileFault → Bool
  | badName | notText => true
  | missing | notDirectory | isDirectory | nameTooLong | linkLoop | denied => false

/-- Whether a fault leaves open whether a path leads to anything: its names are too long to be looked
up, or a directory on the way may not be searched. -/
def FileFault.leavesOpen : FileFault → Bool
  | nameTooLong | denied => true
  | missing | notDirectory | isDirectory | linkLoop | badName | notText => false

/-- Why a count of seconds is no date-time. -/
inductive SecondsFault where
  /-- The value is not a number. -/
  | notANumber
  /-- The year is not one of 1 to 9999. -/
  | year
  /-- The year does not fit into 32 bits. -/
  | wideYear
  /-- The count does not fit into 64 bits. -/
  | wideCount
deriving DecidableEq, Repr

/-- The text of a fault in a count of seconds. -/
def SecondsFault.message : SecondsFault → String
  | notANumber => "not a number"
  | year => "year out of range"
  | wideYear => "year too large"
  | wideCount => "timestamp too large"

/-- Everything that can go wrong outside the checks of a tree. -/
inductive Fault where
  | notALabel (line : String)
  | argument (cause : ArgumentFault)
  | repeatedLabel (cause : LabelMap.Repeated)
  | config (cause : ConfigFault)
  | noTimestamp (reference : String)
  | noRevisions
  | unknownReference (reference : String)
  | timeRange
  | seconds (cause : SecondsFault)
  | notPath
  | badMetadataKey
  | badDate
  | badNumber
  | longNumber
  | wideNumber
  | badJson
  | file (cause : FileFault)
deriving DecidableEq, Repr

/-- The text of a fault. -/
def Fault.message : Fault → String
  | notALabel line => "Not a label: '" ++ line ++ "'"
  | argument cause => cause.message
  | repeatedLabel cause => cause.message
  | config cause => cause.message
  | noTimestamp reference =>
    "Revision '" ++ reference ++ "' has no timestamp; call with_timestamp() first"
  | noRevisions => "DummyOrigin has no revisions"
  | unknownReference reference => "Cannot find reference '" ++ reference ++ "'"
  | timeRange => "date value out of range"
  | seconds cause => cause.message
  | notPath => "a path has to be a text"
  | badMetadataKey => "a metadata key cannot be used"
  | badDate => "no such date"
  | badNumber => "no such number"
  | longNumber => "a whole number has too many digits"
  | wideNumber => "a whole number is too large for a float"
  | badJson => "malformed JSON"
  | file cause => cause.message

/-- A reason not to build a revision, as a fault. -/
def RevisionFault.toFault : RevisionFault → Fault
  | argument cause => .argument cause
  | repeatedLabel cause => .repeatedLabel cause

end MigrationBench
