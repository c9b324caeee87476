import BlockProgram.Catalog
import BlockProgram.Code.Field
import BlockProgram.Code.Generation
import BlockProgram.Code.Program
import BlockProgram.Code.Script
import BlockProgram.Decimal.Layout
import BlockProgram.Decimal.Scaled
import BlockProgram.Decimal.Shortest
import BlockProgram.Failure
import BlockProgram.Instance.Index
import BlockProgram.Instance.Naming
import BlockProgram.Instance.Options
import BlockProgram.Instance.Reference
import BlockProgram.Instance.Selection
import BlockProgram.Json.Basic
import BlockProgram.Json.Fault
import BlockProgram.Json.Reader
import BlockProgram.Json.Scalar
import BlockProgram.Json.Skip
import BlockProgram.Json.Writer
import BlockProgram.Library.Definition
import BlockProgram.Library.Node
import BlockProgram.Library.Path
import BlockProgram.Library.Reading
import BlockProgram.Library.Refusal
import BlockProgram.Library.Shape
import BlockProgram.Library.Slots
import BlockProgram.Palette
import BlockProgram.Precedence
import BlockProgram.Proofs.Editing
import BlockProgram.Reachability
import BlockProgram.Session
import BlockProgram.Settings
import BlockProgram.Table
import BlockProgram.Template
import BlockProgram.Text.Blank
import BlockProgram.Text.Indent
import BlockProgram.Text.Lower
import BlockProgram.Text.Marker
import BlockProgram.Text.Natural
import BlockProgram.Text.Printable
import BlockProgram.Trail
import BlockProgram.Vocabulary
import BlockProgram.Workspace.Basic
import BlockProgram.Workspace.Edit
import BlockProgram.Workspace.Mark
import BlockProgram.Proofs.Indexing
import BlockProgram.Proofs.Naming
import BlockProgram.Proofs.NamingRuns
import BlockProgram.Proofs.Generating
import BlockProgram.Proofs.Compiling
import BlockProgram.Proofs.Divisors
import BlockProgram.Proofs.Arithmetic
import BlockProgram.Proofs.Linking
import BlockProgram.Proofs.Trails
import BlockProgram.Proofs.Stacks
import BlockProgram.Proofs.Reading
import BlockProgram.Proofs.Registering
import BlockProgram.Proofs.Agreeing
import BlockProgram.Proofs.DeadCode
import BlockProgram.Proofs.Merging
import BlockProgram.Proofs.Nesting
import BlockProgram.Proofs.Selecting
import BlockProgram.Proofs.Looping
import BlockProgram.Proofs.Refreshing
import BlockProgram.Proofs.Checking
import BlockProgram.Proofs.Settling
import BlockProgram.Proofs.Loading
import BlockProgram.Proofs.Wording
import BlockProgram.Proofs.LoadOrder
import BlockProgram.Proofs.Localizing
import BlockProgram.Proofs.Showing
import BlockProgram.Proofs.Translating
import BlockProgram.Proofs.Ordering
import BlockProgram.Proofs.References
import BlockProgram.Proofs.Framing
import BlockProgram.Proofs.Offering
import BlockProgram.Proofs.Listing
import BlockProgram.Proofs.Accepting
import BlockProgram.Proofs.Refusing
import BlockProgram.Proofs.Marking
import BlockProgram.Proofs.Renaming
import BlockProgram.Proofs.Sweeping
import BlockProgram.Proofs.Indenting
import BlockProgram.Proofs.Keeping
import BlockProgram.Proofs.Chaining
import BlockProgram.Proofs.Silencing
import BlockProgram.Proofs.Expanding
import BlockProgram.Proofs.Gathering
import BlockProgram.Proofs.Ranking
import BlockProgram.Proofs.Slotting
import BlockProgram.Proofs.Connecting
import BlockProgram.Proofs.DigitRuns
import BlockProgram.Proofs.Resolving
import BlockProgram.Proofs.Dangling
import BlockProgram.Proofs.Importing
import BlockProgram.Proofs.Assigning
import BlockProgram.Proofs.Issuing
import BlockProgram.Proofs.Taking
import BlockProgram.Proofs.Caching
