import MigrationBench.Files.Text
import MigrationBench.Fixture.FrontMatter
import MigrationBench.Fixture.Revision

/-!
# Fixture files

* `Fixture.load` — the revision of a file.
* `Fixture.loadAll` — the revisions of the files of a directory.
-/

namespace MigrationBench.Fixture

/-- A fault in what a file says, with the path of the file. -/
def inFile (path : PathName) : Fault → Fault
  | .config cause => .config (.inFile path.render cause)
  | fault => fault

/-- The revision of a file. -/
def load (fs : FileSystem) (path : PathName) : Except Fault Revision := do
  let text ← (fs.readText path).mapError .file
  let (entries, content) ← FrontMatter.read path.render text
  (revision entries content).mapError (inFile path)

/-- The end of the names of fixture files. -/
def fileEnding : String := ".md"

/-- Whether a name is one of a fixture file. -/
def isFixtureName (name : String) : Bool :=
  fileEnding.toList.isSuffixOf name.toList

/-- The revisions of the fixture files in a directory, in the order of their names. -/
def loadAll (fs : FileSystem) (directory : PathName) : Except Fault (List Revision) := do
  let names ← (fs.names directory).mapError .file
  (names.filter isFixtureName).mapM fun name => load fs (directory.below name)

end MigrationBench.Fixture
