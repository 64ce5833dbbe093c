import Spreadsheet.CommandLine.Arguments
import Spreadsheet.CommandLine.Program
import Spreadsheet.Formula.Cursor
import Spreadsheet.Formula.Evaluation
import Spreadsheet.Formula.Expr
import Spreadsheet.Formula.Mention
import Spreadsheet.Formula.Operator
import Spreadsheet.Formula.Relocation
import Spreadsheet.Formula.Token
import Spreadsheet.Grid.Basic
import Spreadsheet.Grid.Cell
import Spreadsheet.Grid.Dependency
import Spreadsheet.Grid.Edit
import Spreadsheet.Grid.Event
import Spreadsheet.Grid.InPlace
import Spreadsheet.Grid.Input
import Spreadsheet.Grid.Recomputation
import Spreadsheet.Grid.Tiling
import Spreadsheet.Json.Basic
import Spreadsheet.Json.Reader
import Spreadsheet.Json.Writer
import Spreadsheet.Main
import Spreadsheet.Number.Binary
import Spreadsheet.Number.Decimal
import Spreadsheet.Number.Shortest
import Spreadsheet.Proofs.Cycles
import Spreadsheet.Proofs.Formula.Blank
import Spreadsheet.Proofs.Formula.Block
import Spreadsheet.Proofs.Formula.Carrying
import Spreadsheet.Proofs.Formula.Copying
import Spreadsheet.Proofs.Formula.Cursor
import Spreadsheet.Proofs.Formula.Departing
import Spreadsheet.Proofs.Formula.Dependence
import Spreadsheet.Proofs.Formula.Filling
import Spreadsheet.Proofs.Formula.Grammar
import Spreadsheet.Proofs.Formula.Leaves
import Spreadsheet.Proofs.Formula.Lexing
import Spreadsheet.Proofs.Formula.Literal
import Spreadsheet.Proofs.Formula.Lookup
import Spreadsheet.Proofs.Formula.Printing
import Spreadsheet.Proofs.Formula.Reading
import Spreadsheet.Proofs.Formula.Recopying
import Spreadsheet.Proofs.Formula.Rendering
import Spreadsheet.Proofs.Formula.Reproduction
import Spreadsheet.Proofs.Formula.Retargeting
import Spreadsheet.Proofs.Formula.Rows
import Spreadsheet.Proofs.Formula.Spans
import Spreadsheet.Proofs.Formula.Splicing
import Spreadsheet.Proofs.Formula.Substitution
import Spreadsheet.Proofs.Grid.Acceptance
import Spreadsheet.Proofs.Grid.Addition
import Spreadsheet.Proofs.Grid.Anchoring
import Spreadsheet.Proofs.Grid.Atomicity
import Spreadsheet.Proofs.Grid.Batches
import Spreadsheet.Proofs.Grid.Containment
import Spreadsheet.Proofs.Grid.Copies
import Spreadsheet.Proofs.Grid.Currency
import Spreadsheet.Proofs.Grid.Deletion
import Spreadsheet.Proofs.Grid.Detachment
import Spreadsheet.Proofs.Grid.Displacement
import Spreadsheet.Proofs.Grid.Editing
import Spreadsheet.Proofs.Grid.History
import Spreadsheet.Proofs.Grid.Insertion
import Spreadsheet.Proofs.Grid.LineEdits
import Spreadsheet.Proofs.Grid.Lines
import Spreadsheet.Proofs.Grid.Listing
import Spreadsheet.Proofs.Grid.Literals
import Spreadsheet.Proofs.Grid.Marking
import Spreadsheet.Proofs.Grid.Marks
import Spreadsheet.Proofs.Grid.Moving
import Spreadsheet.Proofs.Grid.NameTable
import Spreadsheet.Proofs.Grid.OneByOne
import Spreadsheet.Proofs.Grid.OutputBlock
import Spreadsheet.Proofs.Grid.Pass
import Spreadsheet.Proofs.Grid.Placement
import Spreadsheet.Proofs.Grid.Preservation
import Spreadsheet.Proofs.Grid.Progress
import Spreadsheet.Proofs.Grid.Refinement
import Spreadsheet.Proofs.Grid.Removal
import Spreadsheet.Proofs.Grid.Reporting
import Spreadsheet.Proofs.Grid.Resumption
import Spreadsheet.Proofs.Grid.Rewiring
import Spreadsheet.Proofs.Grid.Scheduling
import Spreadsheet.Proofs.Grid.Sorting
import Spreadsheet.Proofs.Grid.SurplusEdges
import Spreadsheet.Proofs.Grid.Tracing
import Spreadsheet.Proofs.Grid.Transport
import Spreadsheet.Proofs.Grid.Typing
import Spreadsheet.Proofs.Grid.Valuation
import Spreadsheet.Proofs.Grid.Viewing
import Spreadsheet.Proofs.Grid.Visiting
import Spreadsheet.Proofs.Grid.Waiting
import Spreadsheet.Proofs.Grid.Wiring
import Spreadsheet.Proofs.Grid.Writing
import Spreadsheet.Proofs.Json.RoundTrip
import Spreadsheet.Proofs.Json.Scalar
import Spreadsheet.Proofs.Number.Bits
import Spreadsheet.Proofs.Number.Shortest
import Spreadsheet.Proofs.Number.Whole
import Spreadsheet.Proofs.Reference.Clamping
import Spreadsheet.Proofs.Reference.Columns
import Spreadsheet.Proofs.Reference.RoundTrip
import Spreadsheet.Proofs.Reference.Spelling
import Spreadsheet.Proofs.Regression.Layout
import Spreadsheet.Proofs.Script.Dialogue
import Spreadsheet.Proofs.Snapshot.Loading
import Spreadsheet.Proofs.Snapshot.RoundTrip
import Spreadsheet.Proofs.Value.Order
import Spreadsheet.Proofs.Value.Same
import Spreadsheet.Reference.Basic
import Spreadsheet.Reference.Column
import Spreadsheet.Reference.Shift
import Spreadsheet.Reference.Text
import Spreadsheet.Regression.LeastSquares
import Spreadsheet.Regression.Matrix
import Spreadsheet.Script.Command
import Spreadsheet.Script.Encoding
import Spreadsheet.Script.Session
import Spreadsheet.Settings
import Spreadsheet.Sheet
import Spreadsheet.Snapshot.Basic
import Spreadsheet.Snapshot.Encoding
import Spreadsheet.Storage
import Spreadsheet.Storage.Disk
import Spreadsheet.Text.Bytes
import Spreadsheet.Text.Character
import Spreadsheet.Text.Extending
import Spreadsheet.Text.Ignorable
import Spreadsheet.Text.Invisible
import Spreadsheet.Text.Quoted
import Spreadsheet.Toml.Basic
import Spreadsheet.Toml.Moment
import Spreadsheet.Toml.Number
import Spreadsheet.Toml.Reader
import Spreadsheet.Toml.Text
import Spreadsheet.Value.Basic
import Spreadsheet.Value.Function
import Spreadsheet.Value.Term
