import MigrationBench.Files.Edit
import MigrationBench.Json.Read
import MigrationBench.Text.Lines
import MigrationBench.Text.Utf8

/-!
# Listings of files

A listing describes files one after another, each in one line of JSON: an object with the path and
what is there, such as `{"path": "a/b.txt", "text": "hello"}`.

* `FileEntry` — what a line says.
* `FileEntry.ofValue?` — the entry that a value describes.
* `FileSystem.apply` — a file system with one more entry.
* `FileSystem.addListing` — a file system with the entries of a listing.
-/

namespace MigrationBench

/-- An entry of a listing. -/
inductive FileEntry where
  | file (path : PathName) (bytes : List UInt8)
  | link (path : PathName) (target : String)
  | share (path old : PathName)
  | directory (path : PathName)
  | pipe (path : PathName)
  | removed (path : PathName)
  | denied (path : PathName) (right : Right)

/-- The word for a right. -/
def Right.word : Right → String
  | read => "read"
  | search => "search"

namespace FileEntry

/-- The text of a field. -/
def textField? (fields : List (Value × Value)) (key : String) : Option String :=
  match Value.get? fields key with
  | some (.text s) => some s
  | _ => none

/-- Whether a field is set. -/
def isSet (fields : List (Value × Value)) (key : String) : Bool :=
  (Value.get? fields key).any Value.truthy

/-- What the fields of an object say about a path: the text of a file, the target of a symbolic
link, another name of the same file, a right that the process lacks, or the kind of something else. -/
def ofFields? (path : PathName) (fields : List (Value × Value)) : Option FileEntry :=
  match textField? fields "text", textField? fields "link", textField? fields "hard" with
  | some text, _, _ => some (.file path (Utf8.encode text))
  | _, some target, _ => some (.link path target)
  | _, _, some old => some (.share path (PathName.ofString old))
  | none, none, none =>
    if isSet fields "dir" then some (.directory path)
    else if isSet fields "fifo" then some (.pipe path)
    else if isSet fields "remove" then some (.removed path)
    else
      ([Right.read, .search].find? fun right => textField? fields "deny" == some right.word).map
        (.denied path)

/-- The entry that a value describes. -/
def ofValue? : Value → Option FileEntry
  | .map fields => do ofFields? (PathName.ofString (← textField? fields "path")) fields
  | _ => none

end FileEntry

/-- Why a listing cannot be used. -/
inductive ListingFault where
  | malformed (line : String)
  | file (line : String) (cause : FileFault)
deriving DecidableEq, Repr

/-- The text of a fault in a listing. -/
def ListingFault.message : ListingFault → String
  | malformed line => "no entry of a listing: " ++ line
  | file line cause => cause.message ++ ": " ++ line

namespace FileSystem

/-- The file system with one more entry. -/
def apply (fs : FileSystem) : FileEntry → Except FileFault FileSystem
  | .file path bytes => fs.write path bytes
  | .link path target => fs.makeLink path target
  | .share path old => fs.share path old
  | .directory path => fs.makeDirectory path
  | .pipe path => fs.makePipe path
  | .removed path => fs.remove path
  | .denied path right => fs.deny path right

/-- The file system with the entry in a line. -/
def addLine (fs : FileSystem) (line : String) : Except ListingFault FileSystem :=
  match (Json.read line.toList).toOption.bind FileEntry.ofValue? with
  | some entry => (fs.apply entry).mapError (.file line)
  | none => .error (.malformed line)

/-- The file system with the entries of a listing; empty lines do not count. -/
def addListing (fs : FileSystem) (listing : String) : Except ListingFault FileSystem :=
  ((Text.lines listing).filter (· != "")).foldlM addLine fs

end FileSystem

end MigrationBench
