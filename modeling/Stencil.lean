import Stencil.CommandLine.Arguments
import Stencil.CommandLine.Run
import Stencil.Data.Display
import Stencil.Data.Member
import Stencil.Data.Number
import Stencil.Data.Reader.Basic
import Stencil.Data.Reader.Number
import Stencil.Data.Reader.Text
import Stencil.Data.Reader.Value
import Stencil.Data.Value
import Stencil.Data.Writer
import Stencil.Decimal.Binary
import Stencil.Decimal.Format
import Stencil.Decimal.Reading
import Stencil.Decimal.Remainder
import Stencil.Decimal.Shortest
import Stencil.Directive.Each
import Stencil.Directive.Finalize
import Stencil.Directive.Names
import Stencil.Directive.Passes
import Stencil.Expr.Basic
import Stencil.Expr.Error
import Stencil.Expr.Eval
import Stencil.Expr.Lexer
import Stencil.Expr.Operand
import Stencil.Expr.Parser
import Stencil.Expr.Token
import Stencil.Files
import Stencil.Html.Attributes
import Stencil.Html.Builder
import Stencil.Html.CharacterNames
import Stencil.Html.Document.Basic
import Stencil.Html.Document.Subtree
import Stencil.Html.Document.Text
import Stencil.Html.Element
import Stencil.Html.Parse
import Stencil.Html.Reference
import Stencil.Html.Serializer
import Stencil.Html.Tag
import Stencil.Html.Token
import Stencil.Html.Tokenizer.Basic
import Stencil.Html.Tokenizer.Markup
import Stencil.Html.Tokenizer.Step
import Stencil.Html.Tokenizer.Text
import Stencil.Main
import Stencil.Options
import Stencil.Path
import Stencil.Proofs.CommandLine.Jobs
import Stencil.Proofs.CommandLine.OutputFolder
import Stencil.Proofs.CommandLine.SharedResults
import Stencil.Proofs.Data.Display
import Stencil.Proofs.Data.DistinctKeys
import Stencil.Proofs.Data.Sameness
import Stencil.Proofs.Decimal.Whole
import Stencil.Proofs.Directive.Calls
import Stencil.Proofs.Directive.Conditions
import Stencil.Proofs.Directive.Finalized
import Stencil.Proofs.Directive.Growth
import Stencil.Proofs.Directive.Histories
import Stencil.Proofs.Directive.LoopText
import Stencil.Proofs.Directive.LoopVariable
import Stencil.Proofs.Directive.Marks
import Stencil.Proofs.Directive.NewElements
import Stencil.Proofs.Directive.OwnScope
import Stencil.Proofs.Directive.Pruned
import Stencil.Proofs.Directive.Refinement
import Stencil.Proofs.Directive.Renaming
import Stencil.Proofs.Directive.RenderedTree
import Stencil.Proofs.Directive.Settled
import Stencil.Proofs.Directive.Simulation
import Stencil.Proofs.Directive.TreePasses
import Stencil.Proofs.Document.Copy
import Stencil.Proofs.Document.Edits
import Stencil.Proofs.Document.ElementHeight
import Stencil.Proofs.Document.Extension
import Stencil.Proofs.Document.Forest
import Stencil.Proofs.Document.Placed
import Stencil.Proofs.Document.Related
import Stencil.Proofs.Document.Renumbering
import Stencil.Proofs.Document.Rewriting
import Stencil.Proofs.Document.Splicing
import Stencil.Proofs.Document.TextChanges
import Stencil.Proofs.Document.TextContent
import Stencil.Proofs.Document.TextEdits
import Stencil.Proofs.Document.Visits
import Stencil.Proofs.Document.Walk
import Stencil.Proofs.Document.WellFormed
import Stencil.Proofs.Expr.Comparison
import Stencil.Proofs.Expr.Coverage
import Stencil.Proofs.Expr.DistinctKeys
import Stencil.Proofs.Expr.Failures
import Stencil.Proofs.Expr.Grammar
import Stencil.Proofs.Expr.Indexing
import Stencil.Proofs.Expr.Lexing
import Stencil.Proofs.Expr.Located
import Stencil.Proofs.Expr.Members
import Stencil.Proofs.Expr.Parsing
import Stencil.Proofs.Expr.Printing
import Stencil.Proofs.Expr.Reads
import Stencil.Proofs.Expr.Spans
import Stencil.Proofs.Files
import Stencil.Proofs.Html.Attributes
import Stencil.Proofs.Html.Built
import Stencil.Proofs.Html.ClassEdits
import Stencil.Proofs.Html.Classes
import Stencil.Proofs.Html.Escaping
import Stencil.Proofs.Html.Events
import Stencil.Proofs.Html.Growing
import Stencil.Proofs.Html.LastBranch
import Stencil.Proofs.Html.Merged
import Stencil.Proofs.Html.NormalForm
import Stencil.Proofs.Html.ParsedTree
import Stencil.Proofs.Html.Pieces
import Stencil.Proofs.Html.References
import Stencil.Proofs.Html.Regular
import Stencil.Proofs.Html.Rereading
import Stencil.Proofs.Html.RoundTrip
import Stencil.Proofs.Html.Spelling
import Stencil.Proofs.Html.TextContent
import Stencil.Proofs.Html.TokenOrder
import Stencil.Proofs.Html.Tokens
import Stencil.Proofs.Html.TreeBuilder
import Stencil.Proofs.Path
import Stencil.Proofs.Script
import Stencil.Proofs.Tree
import Stencil.Render
import Stencil.Scope
import Stencil.Script
import Stencil.Text.Blank
import Stencil.Text.Case
import Stencil.Text.Digit
import Stencil.Text.Lowercase
import Stencil.Text.Newline
import Stencil.Text.Rest
import Stencil.Text.Units
