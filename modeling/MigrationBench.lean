import MigrationBench.Label.Read
import MigrationBench.Revision.History
import MigrationBench.Main
import MigrationBench.Proofs.Tree.Acts
import MigrationBench.Proofs.Tree.Strategies
import MigrationBench.Proofs.Tree.Verified
import MigrationBench.Proofs.Files.Leaves
import MigrationBench.Proofs.Files.Resolution
import MigrationBench.Proofs.Path.Lexical
import MigrationBench.Proofs.Files.Answers
import MigrationBench.Proofs.Files.Walk
import MigrationBench.Proofs.Command.Request
import MigrationBench.Proofs.Command.Verdict
import MigrationBench.Proofs.Files.Straight
import MigrationBench.Proofs.Command.Exact
import MigrationBench.Proofs.Files.Met
import MigrationBench.Proofs.Tree.Strays
import MigrationBench.Proofs.Tree.Reordering
import MigrationBench.Proofs.Tree.Entries
import MigrationBench.Proofs.Tree.Completion
import MigrationBench.Proofs.Command.Usage
import MigrationBench.Proofs.Label.Message
import MigrationBench.Proofs.Label.Grammar
import MigrationBench.Proofs.Label.Composition
import MigrationBench.Proofs.Steps
import MigrationBench.Proofs.Revision.Override
import MigrationBench.Proofs.Revision.Declared
import MigrationBench.Proofs.Revision.Range
import MigrationBench.Proofs.Revision.Growth
import MigrationBench.Proofs.Revision.Simple
import MigrationBench.Proofs.Revision.Runs
import MigrationBench.Proofs.Revision.Newest
import MigrationBench.Proofs.Revision.Batch
import MigrationBench.Proofs.Text.Cuts
import MigrationBench.Proofs.Authoring.Author
import MigrationBench.Proofs.Unicode.Lower
import MigrationBench.Proofs.Authoring.Config
import MigrationBench.Proofs.Time.Calendar
import MigrationBench.Proofs.Revision.Projection
import MigrationBench.Proofs.Fixture.Fields
import MigrationBench.Proofs.Fixture.Faults
import MigrationBench.Proofs.Fixture.Authorship
import MigrationBench.Proofs.Time.Instant
import MigrationBench.Proofs.Revision.Zone
import MigrationBench.Proofs.Revision.Equality
import MigrationBench.Proofs.Revision.Base
import MigrationBench.Proofs.Revision.Summary
import MigrationBench.Proofs.Revision.Asking
import MigrationBench.Proofs.Fixture.Instants
import MigrationBench.Proofs.Time.Reading
import MigrationBench.Proofs.Command.Unreadable
import MigrationBench.Proofs.Authoring.Acceptance
import MigrationBench.Proofs.Fixture.RoundTrip
import MigrationBench.Proofs.Label.Map
import MigrationBench.Proofs.Fixture.Acceptance
import MigrationBench.Proofs.Text.Utf8
import MigrationBench.Proofs.Tree.Contents
import MigrationBench.Proofs.Tree.Confinement
import MigrationBench.Proofs.Path.Texts
import MigrationBench.Proofs.Tree.Spellings
import MigrationBench.Proofs.Files.Hops
import MigrationBench.Proofs.Tree.Links
import MigrationBench.Proofs.Files.Search
