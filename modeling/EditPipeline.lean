import EditPipeline.Breaking.Marker
import EditPipeline.Command
import EditPipeline.Host.Check
import EditPipeline.Host.Edit
import EditPipeline.Main
import EditPipeline.Manifest
import EditPipeline.Pipeline
import EditPipeline.Program.Decode
import EditPipeline.Program.Encode
import EditPipeline.Program.Listing
import EditPipeline.Snapshot
import EditPipeline.Proofs.Completion
import EditPipeline.Proofs.Blame
import EditPipeline.Proofs.Cancellation
import EditPipeline.Proofs.LateRequest
import EditPipeline.Proofs.Diagnostics
import EditPipeline.Proofs.Trace
import EditPipeline.Proofs.Observation
import EditPipeline.Proofs.Preview
import EditPipeline.Proofs.Breaking.Marking
import EditPipeline.Proofs.Resolution
import EditPipeline.Proofs.Validation
import EditPipeline.Proofs.Registration
import EditPipeline.Proofs.Growth
import EditPipeline.Proofs.Breaking.Run
import EditPipeline.Proofs.Breaking.Union
import EditPipeline.Proofs.Breaking.Report
import EditPipeline.Proofs.Breaking.Effect
import EditPipeline.Proofs.Json.Literals
import EditPipeline.Proofs.Json.OneLine
import EditPipeline.Proofs.Json.Grammar
import EditPipeline.Proofs.Json.Layouts
import EditPipeline.Proofs.Json.Values
import EditPipeline.Proofs.Json.Reading
import EditPipeline.Proofs.Json.Records
import EditPipeline.Proofs.Json.Shapes
import EditPipeline.Proofs.Program.Shapes
import EditPipeline.Proofs.Program.Spelling
import EditPipeline.Proofs.Program.RoundTrip
import EditPipeline.Proofs.Files.Written
import EditPipeline.Proofs.Rerun
import EditPipeline.Proofs.Files.Components
import EditPipeline.Proofs.Files.FileNames
import EditPipeline.Proofs.Overwriting
import EditPipeline.Proofs.Program.Subtypes
import EditPipeline.Proofs.Program.Bases
import EditPipeline.Proofs.Program.Equality
import EditPipeline.Proofs.Files.Landing
import EditPipeline.Proofs.Files.Tasks
import EditPipeline.Proofs.Recording
import EditPipeline.Proofs.Delivery
import EditPipeline.Proofs.Collision
import EditPipeline.Proofs.Program.Traversal
import EditPipeline.Proofs.Program.ListedTypes
import EditPipeline.Proofs.Program.Insertion
import EditPipeline.Proofs.Program.Lines
import EditPipeline.Proofs.Program.Looks
import EditPipeline.Proofs.Manifest.KeyLines
import EditPipeline.Proofs.Stages
import EditPipeline.Proofs.AbortedStages
import EditPipeline.Proofs.Snapshots
import EditPipeline.Proofs.Files.Directories
import EditPipeline.Proofs.Deferral
import EditPipeline.Proofs.Toml.Scalars
import EditPipeline.Proofs.Toml.Tokens
import EditPipeline.Proofs.Toml.Lines
import EditPipeline.Proofs.Toml.Entries
import EditPipeline.Proofs.Toml.Words
import EditPipeline.Proofs.Manifest.Labels
