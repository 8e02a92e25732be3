import Formula.Artifact
import Formula.Artifact.Slug
import Formula.Artifact.Stored
import Formula.Command
import Formula.Command.Arguments
import Formula.Command.Override
import Formula.Compilation
import Formula.Decimal.Binary64
import Formula.Decimal.Fixed
import Formula.Decimal.Layout
import Formula.Decimal.Reading
import Formula.Decimal.Rounding
import Formula.Decimal.Shortest
import Formula.Definition
import Formula.Diagnostic
import Formula.Digest.Sha256
import Formula.Evaluator
import Formula.Fault
import Formula.Json.Number
import Formula.Json.Reading
import Formula.Json.Record
import Formula.Json.Text
import Formula.Json.Tree
import Formula.Json.Writing
import Formula.Machine.Exec
import Formula.Machine.Execution
import Formula.Machine.Operation
import Formula.Machine.State
import Formula.Main
import Formula.Package
import Formula.Package.Call
import Formula.Package.Format
import Formula.Package.Search
import Formula.Program
import Formula.Program.Cursor
import Formula.Program.Grammar
import Formula.Proofs.Artifact.Directory
import Formula.Proofs.Artifact.FileName
import Formula.Proofs.Artifact.Honest
import Formula.Proofs.Artifact.Sharing
import Formula.Proofs.Artifact.Slug
import Formula.Proofs.Budget.Bound
import Formula.Proofs.Budget.Cut
import Formula.Proofs.Budget.Deadline
import Formula.Proofs.Budget.Meter
import Formula.Proofs.Budget.Threshold
import Formula.Proofs.Command.Override
import Formula.Proofs.Constants.Computing
import Formula.Proofs.Constants.Covering
import Formula.Proofs.Constants.Floats
import Formula.Proofs.Constants.Marking
import Formula.Proofs.Constants.Slots
import Formula.Proofs.Constants.Value
import Formula.Proofs.Decimal.Bits
import Formula.Proofs.Decimal.Numeral
import Formula.Proofs.Decimal.Reading
import Formula.Proofs.Decimal.Rounding
import Formula.Proofs.Decimal.Shortest
import Formula.Proofs.Decimal.Sign
import Formula.Proofs.Evaluator.Binding
import Formula.Proofs.Evaluator.Ending
import Formula.Proofs.Evaluator.Lifecycle
import Formula.Proofs.Flow.Accepted
import Formula.Proofs.Flow.Exits
import Formula.Proofs.Flow.Returning
import Formula.Proofs.Format.Directive
import Formula.Proofs.Format.Integer
import Formula.Proofs.Format.Parts
import Formula.Proofs.Format.Plain
import Formula.Proofs.Format.Size
import Formula.Proofs.Frames.Agreement
import Formula.Proofs.Frames.Capture
import Formula.Proofs.Frames.Discipline
import Formula.Proofs.Frames.Running
import Formula.Proofs.Frames.Stacked
import Formula.Proofs.Json.Definition
import Formula.Proofs.Json.Number
import Formula.Proofs.Json.Text
import Formula.Proofs.Json.Writing
import Formula.Proofs.Machine.Alike
import Formula.Proofs.Machine.Equations
import Formula.Proofs.Machine.Passing
import Formula.Proofs.Machine.Plain
import Formula.Proofs.Package.Limit
import Formula.Proofs.Program.Depth
import Formula.Proofs.Program.Following
import Formula.Proofs.Program.Identity
import Formula.Proofs.Program.Indexed
import Formula.Proofs.Program.Induction
import Formula.Proofs.Program.Layout
import Formula.Proofs.Program.Mirroring
import Formula.Proofs.Program.Nesting
import Formula.Proofs.Program.Node
import Formula.Proofs.Program.Precedence
import Formula.Proofs.Program.Reading
import Formula.Proofs.Program.Spans
import Formula.Proofs.Program.Term
import Formula.Proofs.Program.Within
import Formula.Proofs.Registry.Declaring
import Formula.Proofs.Registry.Entry
import Formula.Proofs.Registry.Extending
import Formula.Proofs.Registry.Inputs
import Formula.Proofs.Registry.Label
import Formula.Proofs.Registry.Lines
import Formula.Proofs.Registry.Overriding
import Formula.Proofs.Registry.Parsing
import Formula.Proofs.Registry.Recording
import Formula.Proofs.Registry.Returning
import Formula.Proofs.Registry.Running
import Formula.Proofs.Resolution.Checked
import Formula.Proofs.Resolution.Declaration
import Formula.Proofs.Resolution.Filling
import Formula.Proofs.Resolution.Follow
import Formula.Proofs.Resolution.Outcome
import Formula.Proofs.Resolution.Package
import Formula.Proofs.Resolution.Reach
import Formula.Proofs.Resolution.Trace
import Formula.Proofs.Shift.Below
import Formula.Proofs.Shift.Carry
import Formula.Proofs.Shift.Checking
import Formula.Proofs.Shift.Reading
import Formula.Proofs.Shift.Running
import Formula.Proofs.Shift.Scanning
import Formula.Proofs.Shift.Trees
import Formula.Proofs.Shift.Values
import Formula.Proofs.Source.Bytes
import Formula.Proofs.Source.Lines
import Formula.Proofs.Source.Marker
import Formula.Proofs.Source.Table
import Formula.Proofs.Store.Changes
import Formula.Proofs.Store.Keeping
import Formula.Proofs.Store.Leading
import Formula.Proofs.Text.Blank
import Formula.Proofs.Text.Size
import Formula.Proofs.Token.Gap
import Formula.Proofs.Token.Lexing
import Formula.Proofs.Token.Literals
import Formula.Proofs.Token.Places
import Formula.Proofs.Token.Respacing
import Formula.Proofs.Token.Row
import Formula.Proofs.Ty.Reading
import Formula.Proofs.Ty.Tokens
import Formula.Proofs.Typing.Bodies
import Formula.Proofs.Typing.Constant
import Formula.Proofs.Typing.Derivation
import Formula.Proofs.Typing.Effects
import Formula.Proofs.Typing.Forms
import Formula.Proofs.Typing.Names
import Formula.Proofs.Typing.Operations
import Formula.Proofs.Typing.Outcome
import Formula.Proofs.Typing.Places
import Formula.Proofs.Typing.Proper
import Formula.Proofs.Typing.Rules
import Formula.Proofs.Typing.Safety
import Formula.Proofs.Typing.Soundness
import Formula.Proofs.Typing.Statements
import Formula.Proofs.Typing.Values
import Formula.Proofs.Variation.Checking
import Formula.Proofs.Variation.Early
import Formula.Proofs.Variation.Functions
import Formula.Proofs.Variation.Reordering
import Formula.Proofs.Variation.Running
import Formula.Proofs.Variation.Trees
import Formula.Proofs.Variation.Typed
import Formula.Proofs.Variation.Unused
import Formula.Proofs.Variation.WrittenOut
import Formula.Registry
import Formula.Registry.Assembly
import Formula.Registry.Validation
import Formula.Scalar
import Formula.Scoped
import Formula.Source.File
import Formula.Source.Position
import Formula.Store
import Formula.Store.Failure
import Formula.Store.Route
import Formula.Store.Task
import Formula.Text.Alphanumeric
import Formula.Text.Backspace
import Formula.Text.Blank
import Formula.Text.Grapheme
import Formula.Text.GraphemeClass
import Formula.Text.LetterCase
import Formula.Text.Printable
import Formula.Text.Quoted
import Formula.Text.Ranges
import Formula.Token
import Formula.Token.Place
import Formula.Token.Scan
import Formula.Ty
import Formula.Ty.Resolve
import Formula.Typing.Check
import Formula.Typing.Constant
import Formula.Typing.Error
import Formula.Typing.Flow
import Formula.Typing.Program
import Formula.Value
