import PredicateLang.Bytecode.Listing
import PredicateLang.Bytecode.Opcode
import PredicateLang.Bytecode.Program
import PredicateLang.CommandLine.Arguments
import PredicateLang.CommandLine.Binding
import PredicateLang.CommandLine.Command
import PredicateLang.Compilation
import PredicateLang.Engine
import PredicateLang.Evaluation
import PredicateLang.Fields
import PredicateLang.Host.Bindings
import PredicateLang.Host.Conversion
import PredicateLang.Host.Fault
import PredicateLang.Host.Producer
import PredicateLang.Json.Document
import PredicateLang.Json.Number
import PredicateLang.Json.Parts
import PredicateLang.Json.Position
import PredicateLang.Json.Reading
import PredicateLang.Json.Spelling
import PredicateLang.Json.Written
import PredicateLang.Machine.Fault
import PredicateLang.Machine.Operation
import PredicateLang.Machine.Run
import PredicateLang.Main
import PredicateLang.Number.Count
import PredicateLang.Number.Double
import PredicateLang.Number.Numeral
import PredicateLang.Number.Shortest
import PredicateLang.Number.Single
import PredicateLang.Number.Written
import PredicateLang.Operator
import PredicateLang.Source.Feed
import PredicateLang.Source.Utf8
import PredicateLang.Source.Window
import PredicateLang.Syntax.Cursor
import PredicateLang.Syntax.Document
import PredicateLang.Syntax.Fault
import PredicateLang.Syntax.Grammar
import PredicateLang.Syntax.Parser
import PredicateLang.Syntax.Tree
import PredicateLang.Text.CharClass
import PredicateLang.Text.Columns
import PredicateLang.Text.HiddenRanges
import PredicateLang.Text.LetterRanges
import PredicateLang.Text.Position
import PredicateLang.Text.Quoted
import PredicateLang.Token.Basic
import PredicateLang.Token.Document
import PredicateLang.Token.Progress
import PredicateLang.Token.Rules
import PredicateLang.Token.Scanner
import PredicateLang.Token.Supply
import PredicateLang.Value.Basic
import PredicateLang.Value.Comparison
import PredicateLang.Value.Document
import PredicateLang.Value.Equality
import PredicateLang.Value.Reading
import PredicateLang.Value.Written
import PredicateLang.Proofs.Bytecode.Segments
import PredicateLang.Proofs.Machine.Segments
import PredicateLang.Proofs.Compilation.Layout
import PredicateLang.Proofs.Compilation.Refinement
import PredicateLang.Proofs.Machine.Validation
import PredicateLang.Proofs.Source.Runes
import PredicateLang.Proofs.Token.Accounting
import PredicateLang.Proofs.Token.Texts
import PredicateLang.Proofs.Token.Coverage
import PredicateLang.Proofs.Syntax.Unambiguity
import PredicateLang.Proofs.Syntax.Lookahead
import PredicateLang.Proofs.Syntax.Primitives
import PredicateLang.Proofs.Syntax.Levels
import PredicateLang.Proofs.Syntax.Programs
import PredicateLang.Proofs.Token.Reading
import PredicateLang.Proofs.Token.Steps
import PredicateLang.Proofs.Token.Rules
import PredicateLang.Proofs.Token.Numerals
import PredicateLang.Proofs.Token.Streams
import PredicateLang.Proofs.Syntax.Shapes
import PredicateLang.Proofs.Compilation.Parts
import PredicateLang.Proofs.Compilation.Totality
import PredicateLang.Proofs.Compilation.Relocation
import PredicateLang.Proofs.Compilation.Kinds
import PredicateLang.Proofs.Compilation.Isolation
import PredicateLang.Proofs.Machine.Effects
import PredicateLang.Proofs.Machine.Limits
import PredicateLang.Proofs.Machine.Heights
import PredicateLang.Proofs.Token.Words
import PredicateLang.Proofs.Syntax.Names
import PredicateLang.Proofs.Compilation.Stages
import PredicateLang.Proofs.Compilation.Heights
import PredicateLang.Proofs.Compilation.Safety
import PredicateLang.Proofs.Compilation.Depth
import PredicateLang.Proofs.Host.Calls
import PredicateLang.Proofs.Compilation.References
import PredicateLang.Proofs.Host.Sessions
import PredicateLang.Proofs.Syntax.Spacing
import PredicateLang.Proofs.Compilation.Spacing
import PredicateLang.Proofs.Token.Letters
import PredicateLang.Proofs.CommandLine.Names
import PredicateLang.Proofs.Fields
import PredicateLang.Proofs.Number.Singles
import PredicateLang.Proofs.Host.Bridges
import PredicateLang.Proofs.Syntax.Simulation
import PredicateLang.Proofs.Token.Supplies
import PredicateLang.Proofs.Syntax.Pulls
import PredicateLang.Proofs.Token.Places
import PredicateLang.Proofs.Syntax.Faults
import PredicateLang.Proofs.Source.Decoding
import PredicateLang.Proofs.Source.Tapes
import PredicateLang.Proofs.Syntax.Walks
import PredicateLang.Proofs.Syntax.Prefixes
import PredicateLang.Proofs.Syntax.Reports
import PredicateLang.Proofs.Source.Arrivals
import PredicateLang.Proofs.Token.Arrivals
import PredicateLang.Proofs.Token.Outcomes
import PredicateLang.Proofs.Token.Boundaries
import PredicateLang.Proofs.Syntax.Writing
import PredicateLang.Proofs.Compilation.Pools
import PredicateLang.Proofs.Compilation.Sinks
import PredicateLang.Proofs.Compilation.Mending
import PredicateLang.Proofs.Bytecode.Decoding
import PredicateLang.Proofs.Number.Order
import PredicateLang.Proofs.Number.Rounding
import PredicateLang.Proofs.Number.Integers
import PredicateLang.Proofs.Machine.Comparisons
import PredicateLang.Proofs.Value.Equality
import PredicateLang.Proofs.Value.Order
import PredicateLang.Proofs.Machine.Integers
import PredicateLang.Proofs.Syntax.Lexemes
import PredicateLang.Proofs.Syntax.Operators
import PredicateLang.Proofs.Syntax.Positions
import PredicateLang.Proofs.Syntax.Display
import PredicateLang.Proofs.Text.Lines
import PredicateLang.Proofs.Bytecode.Listing
import PredicateLang.Proofs.Compilation.Listings
import PredicateLang.Proofs.Json.Orders
import PredicateLang.Proofs.Json.Reading
import PredicateLang.Proofs.Json.Texts
import PredicateLang.Proofs.Syntax.Documents
