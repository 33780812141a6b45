import MigrationBench.Files.Query

/-!
# Changes to files

Each change takes a path; the directories above the last part are made as needed.

* `FileSystem.makeDirectory` — a directory, which may be there.
* `FileSystem.write` — a file with given bytes; a file that is there is overwritten.
* `FileSystem.makeLink`, `FileSystem.makePipe` — a symbolic link, a named pipe.
* `FileSystem.share` — one more name for a file.
* `FileSystem.remove` — takes away a file, a link or a whole directory.
* `FileSystem.deny` — takes away a right to a file or a directory.
-/

namespace MigrationBench

/-- Whether something is at a location or below it. -/
def Identity.isBelow (location : List String) : Identity → Bool
  | .location names => location.isPrefixOf names
  | .serial _ => false

namespace FileSystem

/-- The file system with a node at a location. -/
def put (fs : FileSystem) (location : List String) (node : Node) : Except FileFault FileSystem :=
  if h : location.all Node.isEntryName = true ∧ node.sound = true then
    fs.withTree (Node.put node fs.tree location) (Node.sound_put h.2 fs.top_sound h.1)
  else .error .badName

/-- Makes a directory at a route whose parts before the last are there. -/
def makeOneDirectory (fs : FileSystem) (r : Route) : Except FileFault FileSystem := do
  let p ← fs.place true r
  match p.node with
  | some (.directory _) => pure fs
  | some _ => throw .notDirectory
  | none => fs.put p.location (.directory [])

/-- Makes the directories along a route, from the top down. -/
def makeRoute (fs : FileSystem) (r : Route) : Except FileFault FileSystem :=
  (List.range r.parts.length).foldlM
    (fun fs n => fs.makeOneDirectory { r with parts := r.parts.take (n + 1) }) fs

/-- Makes a directory. -/
def makeDirectory (fs : FileSystem) (p : PathName) : Except FileFault FileSystem :=
  fs.makeRoute (.ofPath p)

/-- Puts a node at a path where nothing is yet. -/
def create (fs : FileSystem) (p : PathName) (node : Node) : Except FileFault FileSystem := do
  let fs ← fs.makeDirectory p.parent
  let place ← fs.place false (.ofPath p)
  match place.node with
  | none => fs.put place.location node
  | some _ => throw .badName

/-- The file system in which the next number is taken. -/
def takeSerial (fs : FileSystem) : FileSystem :=
  { fs with fresh := fs.fresh + 1 }

/-- The file system in which the file with a number has given bytes. -/
def setBytes (fs : FileSystem) (serial : Nat) (bytes : List UInt8) : FileSystem :=
  { fs with contents := (serial, bytes) :: fs.contents.filter (·.1 != serial) }

/-- Writes a file. -/
def write (fs : FileSystem) (p : PathName) (bytes : List UInt8) : Except FileFault FileSystem := do
  let fs ← fs.makeDirectory p.parent
  let place ← fs.place true (.ofPath p)
  match place.node with
  | some (.file serial) => pure (fs.setBytes serial bytes)
  | some (.directory _) => throw .isDirectory
  | some _ => pure fs
  | none => (fs.takeSerial.setBytes fs.fresh bytes).put place.location (.file fs.fresh)

/-- Makes a symbolic link. -/
def makeLink (fs : FileSystem) (p : PathName) (target : String) : Except FileFault FileSystem :=
  fs.create p (.link target)

/-- Makes a named pipe. -/
def makePipe (fs : FileSystem) (p : PathName) : Except FileFault FileSystem :=
  fs.takeSerial.create p (.pipe fs.fresh)

/-- Makes `p` one more name for the file or the link that `old` names. -/
def share (fs : FileSystem) (p old : PathName) : Except FileFault FileSystem := do
  match ← fs.locateEntry (.ofPath old) with
  | (_, .directory _) => throw .isDirectory
  | (_, node) => fs.create p node

/-- Takes away what a path names, with what is said about rights below it. -/
def remove (fs : FileSystem) (p : PathName) : Except FileFault FileSystem := do
  let (location, _) ← fs.locateEntry (.ofPath p)
  let rest ← fs.withTree (Node.erase fs.tree location) (Node.sound_erase fs.top_sound)
  pure { rest with denied := rest.denied.filter fun entry => !entry.2.isBelow location }

/-- Takes away a right to what a path leads to. -/
def deny (fs : FileSystem) (p : PathName) (right : Right) : Except FileFault FileSystem := do
  let (location, node) ← fs.locate (.ofPath p)
  pure { fs with denied := (right, identity location node) :: fs.denied }

end FileSystem

end MigrationBench
