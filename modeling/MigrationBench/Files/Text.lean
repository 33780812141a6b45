import MigrationBench.Files.Query
import MigrationBench.Text.Utf8

/-!
# Text files

* `FileSystem.readText` — the characters of a text file: UTF-8, with every line end read as a
  newline.
-/

namespace MigrationBench.FileSystem

/-- The characters of the text file that a path leads to. -/
def readText (fs : FileSystem) (p : PathName) : Except FileFault (List Char) := do
  match Utf8.decode? (← fs.read p) with
  | some text => pure (Text.unifyNewlines text.toList)
  | none => throw .notText

end MigrationBench.FileSystem
