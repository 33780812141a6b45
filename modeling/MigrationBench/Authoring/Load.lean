import MigrationBench.Authoring.Config
import MigrationBench.Files.Text
import MigrationBench.Toml.Document

/-!
# Authoring files

* `Authoring.load` — the policy of a configuration file in TOML.
-/

namespace MigrationBench.Authoring

/-- The fault of a file whose text is no document. -/
def tomlFault (path : PathName) : Toml.Fault → Fault
  | .malformed => .config (.badToml path.render)
  | .longNumber => .longNumber

/-- The policy of a configuration file. -/
def load (fs : FileSystem) (path : PathName) : Except Fault Authoring := do
  let text ← (fs.readText path).mapError .file
  let table ← (Toml.read text).mapError (tomlFault path)
  ofEntries table

end MigrationBench.Authoring
