import TerseMarkup.Block
import TerseMarkup.Clause
import TerseMarkup.CommandLine
import TerseMarkup.CommandLine.Arguments
import TerseMarkup.CommandLine.FileTree
import TerseMarkup.Compile
import TerseMarkup.Cursor
import TerseMarkup.Delimiters
import TerseMarkup.Diagnostic
import TerseMarkup.Diagnostic.Report
import TerseMarkup.Element
import TerseMarkup.Element.Attribute
import TerseMarkup.Filter
import TerseMarkup.Headline
import TerseMarkup.Headline.Opening
import TerseMarkup.Html
import TerseMarkup.Json
import TerseMarkup.Json.Read
import TerseMarkup.Line
import TerseMarkup.Main
import TerseMarkup.Markdown
import TerseMarkup.Markdown.Container
import TerseMarkup.Markdown.Document
import TerseMarkup.Markdown.Inline
import TerseMarkup.Markdown.Line
import TerseMarkup.Markdown.Marks
import TerseMarkup.Markdown.Punctuation
import TerseMarkup.Markdown.Reference
import TerseMarkup.Markdown.Row
import TerseMarkup.Markdown.Tag
import TerseMarkup.Outline
import TerseMarkup.Profile
import TerseMarkup.Proofs.AddedRule
import TerseMarkup.Proofs.Arguments
import TerseMarkup.Proofs.Attribute
import TerseMarkup.Proofs.AttributeLayout
import TerseMarkup.Proofs.Balance
import TerseMarkup.Proofs.Caret
import TerseMarkup.Proofs.Chain
import TerseMarkup.Proofs.ClauseOrder
import TerseMarkup.Proofs.Comparison
import TerseMarkup.Proofs.Conditional
import TerseMarkup.Proofs.Contract
import TerseMarkup.Proofs.Decline
import TerseMarkup.Proofs.Embedding
import TerseMarkup.Proofs.Expression
import TerseMarkup.Proofs.Extension
import TerseMarkup.Proofs.Fault
import TerseMarkup.Proofs.FaultLine
import TerseMarkup.Proofs.FilePath
import TerseMarkup.Proofs.FolderOutcome
import TerseMarkup.Proofs.FolderRun
import TerseMarkup.Proofs.Forest
import TerseMarkup.Proofs.Headline
import TerseMarkup.Proofs.InlineContent
import TerseMarkup.Proofs.Inlining
import TerseMarkup.Proofs.KeywordLine
import TerseMarkup.Proofs.Layout
import TerseMarkup.Proofs.LayoutHeadline
import TerseMarkup.Proofs.Length
import TerseMarkup.Proofs.Loop
import TerseMarkup.Proofs.Margin
import TerseMarkup.Proofs.Moves
import TerseMarkup.Proofs.Negation
import TerseMarkup.Proofs.Offside
import TerseMarkup.Proofs.Parallel
import TerseMarkup.Proofs.Passes
import TerseMarkup.Proofs.Piecewise
import TerseMarkup.Proofs.Place
import TerseMarkup.Proofs.Quotation
import TerseMarkup.Proofs.Reading
import TerseMarkup.Proofs.Recognition
import TerseMarkup.Proofs.Relayout
import TerseMarkup.Proofs.Rule
import TerseMarkup.Proofs.SecondId
import TerseMarkup.Proofs.Settling
import TerseMarkup.Proofs.SpanFault
import TerseMarkup.Proofs.Spans
import TerseMarkup.Proofs.Tag
import TerseMarkup.Proofs.Termination
import TerseMarkup.Proofs.Tidy
import TerseMarkup.Proofs.Token
import TerseMarkup.Proofs.Tracking
import TerseMarkup.Proofs.Trimming
import TerseMarkup.Proofs.Verbatim
import TerseMarkup.Proofs.Wrapper
import TerseMarkup.Proofs.Yield
import TerseMarkup.Rule
import TerseMarkup.Rule.Standard
import TerseMarkup.Scan
import TerseMarkup.Scan.Expression
import TerseMarkup.Scan.Group
import TerseMarkup.Scan.Token
import TerseMarkup.Setting
import TerseMarkup.Span
import TerseMarkup.Text
import TerseMarkup.Text.Blank
import TerseMarkup.Text.Escape
import TerseMarkup.Text.Quoted
import TerseMarkup.Proofs.FilterList
import TerseMarkup.Proofs.Literal
