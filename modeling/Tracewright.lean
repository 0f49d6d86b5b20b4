import Tracewright.Main
import Tracewright.Cli.Arguments
import Tracewright.Cli.Generate
import Tracewright.Cli.Listing
import Tracewright.Cli.Options
import Tracewright.Cli.Program
import Tracewright.Cli.Session
import Tracewright.Cli.Words
import Tracewright.Log.Record
import Tracewright.Log.Setup
import Tracewright.Host.Process
import Tracewright.Output.Console
import Tracewright.Output.Export
import Tracewright.Output.Size
import Tracewright.Program.Assembly
import Tracewright.Program.Attach
import Tracewright.Program.Handler
import Tracewright.Program.Sink
import Tracewright.Settings.Basic
import Tracewright.Settings.Load
import Tracewright.Capture.Mode
import Tracewright.Capture.Policy
import Tracewright.Capture.Selection
import Tracewright.Syscall.Builtin
import Tracewright.Syscall.Catalog
import Tracewright.Syscall.Descriptor
import Tracewright.Syscall.Listing
import Tracewright.Syscall.Mask
import Tracewright.Fragment.Buffer
import Tracewright.Fragment.Index
import Tracewright.Fragment.Marker
import Tracewright.Fragment.Packaged
import Tracewright.Fragment.Source
import Tracewright.Fragment.Store
import Tracewright.Yaml.Cursor
import Tracewright.Yaml.Document
import Tracewright.Yaml.Fault
import Tracewright.Yaml.Graph
import Tracewright.Yaml.Intake
import Tracewright.Yaml.Moment
import Tracewright.Yaml.Node
import Tracewright.Yaml.Platform
import Tracewright.Yaml.Scalar
import Tracewright.Yaml.Token
import Tracewright.Value.Basic
import Tracewright.Value.Mapping
import Tracewright.Value.Memory
import Tracewright.Value.Moment
import Tracewright.Files.Path
import Tracewright.Files.Tree
import Tracewright.Number.Double
import Tracewright.Number.Fixed
import Tracewright.Number.Numeral
import Tracewright.Number.Shortest
import Tracewright.Text.Basic
import Tracewright.Text.Blank
import Tracewright.Text.Case
import Tracewright.Text.CaseTable
import Tracewright.Text.Digit
import Tracewright.Text.Printable
import Tracewright.Text.Quoted
import Tracewright.Text.Search
import Tracewright.Text.Utf8
import Tracewright.Failure
import Tracewright.Run
import Tracewright.Sorting
import Tracewright.Proofs.Cli.Arguments
import Tracewright.Proofs.Cli.Generate
import Tracewright.Proofs.Cli.Precedence
import Tracewright.Proofs.Cli.Program
import Tracewright.Proofs.Cli.Session
import Tracewright.Proofs.Cli.Settings
import Tracewright.Proofs.Log.Handling
import Tracewright.Proofs.Log.Told
import Tracewright.Proofs.Output.Atomic
import Tracewright.Proofs.Output.Delivery
import Tracewright.Proofs.Output.Size
import Tracewright.Proofs.Output.Steps
import Tracewright.Proofs.Program.Alike
import Tracewright.Proofs.Program.Assembly
import Tracewright.Proofs.Program.Attach
import Tracewright.Proofs.Program.Conservation
import Tracewright.Proofs.Program.Faults
import Tracewright.Proofs.Program.Handler
import Tracewright.Proofs.Program.Listing
import Tracewright.Proofs.Program.Names
import Tracewright.Proofs.Program.Outline
import Tracewright.Proofs.Program.Pieces
import Tracewright.Proofs.Program.Selected
import Tracewright.Proofs.Program.Simulation
import Tracewright.Proofs.Program.Stream
import Tracewright.Proofs.Program.Told
import Tracewright.Proofs.Program.Traced
import Tracewright.Proofs.Settings.Closed
import Tracewright.Proofs.Settings.InPlace
import Tracewright.Proofs.Settings.Layers
import Tracewright.Proofs.Settings.Load
import Tracewright.Proofs.Settings.Merge
import Tracewright.Proofs.Settings.Mode
import Tracewright.Proofs.Settings.Numbers
import Tracewright.Proofs.Settings.Overlay
import Tracewright.Proofs.Settings.Own
import Tracewright.Proofs.Settings.Walk
import Tracewright.Proofs.Capture.Selection
import Tracewright.Proofs.Capture.Spelling
import Tracewright.Proofs.Syscall.Adding
import Tracewright.Proofs.Syscall.Catalog
import Tracewright.Proofs.Syscall.Entries
import Tracewright.Proofs.Syscall.Filter
import Tracewright.Proofs.Syscall.Listing
import Tracewright.Proofs.Syscall.Mask
import Tracewright.Proofs.Fragment.Check
import Tracewright.Proofs.Fragment.Forms
import Tracewright.Proofs.Fragment.InPlace
import Tracewright.Proofs.Fragment.Layout
import Tracewright.Proofs.Fragment.Loading
import Tracewright.Proofs.Fragment.RoundTrip
import Tracewright.Proofs.Value.Alike
import Tracewright.Proofs.Value.Copies
import Tracewright.Proofs.Value.Key
import Tracewright.Proofs.Value.Mapping
import Tracewright.Proofs.Value.Memory
import Tracewright.Proofs.Value.Ways
import Tracewright.Proofs.Files.Directories
import Tracewright.Proofs.Files.Making
import Tracewright.Proofs.Files.Tree
import Tracewright.Proofs.Number.Exact
import Tracewright.Proofs.Number.Numeral
import Tracewright.Proofs.Text.Case
import Tracewright.Proofs.Text.Count
import Tracewright.Proofs.Text.Decoding
import Tracewright.Proofs.Text.Pieces
import Tracewright.Proofs.Text.Places
import Tracewright.Proofs.Text.Seam
import Tracewright.Proofs.Text.Utf8
import Tracewright.Proofs.Run
