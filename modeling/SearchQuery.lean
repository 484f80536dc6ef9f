import SearchQuery.Diagnostic.QueryError
import SearchQuery.Diagnostic.SyntaxError
import SearchQuery.Dialect.Filter
import SearchQuery.Dialect.OperandCount
import SearchQuery.Dialect.Template
import SearchQuery.Json.DecodeError
import SearchQuery.Json.Number
import SearchQuery.Json.Value
import SearchQuery.Number.Binary64
import SearchQuery.Number.Decimal
import SearchQuery.Number.Shortest
import SearchQuery.Query.Basic
import SearchQuery.Query.Flatten
import SearchQuery.Query.Json
import SearchQuery.Query.Outline
import SearchQuery.Query.Parse
import SearchQuery.Query.Render
import SearchQuery.Query.Stack
import SearchQuery.Semantics.Basic
import SearchQuery.Syntax.Attempt
import SearchQuery.Syntax.Failure
import SearchQuery.Syntax.Grammar
import SearchQuery.Syntax.Production
import SearchQuery.Syntax.Progress
import SearchQuery.Syntax.Recognition
import SearchQuery.Syntax.Rule
import SearchQuery.Syntax.Tree
import SearchQuery.Text.Alphabetic
import SearchQuery.Text.Bytes
import SearchQuery.Text.Class
import SearchQuery.Text.CodeRange
import SearchQuery.Text.Cursor
import SearchQuery.Text.GraphemeExtend
import SearchQuery.Text.Line
import SearchQuery.Text.Quoted
import SearchQuery.Text.Unprintable
import SearchQuery.Proofs.Reading.Correspondence
import SearchQuery.Proofs.Reading.Lawful
import SearchQuery.Proofs.Reading.SameText
import SearchQuery.Proofs.Reading.Place
import SearchQuery.Proofs.Reading.Report
import SearchQuery.Proofs.Reading.Memory
import SearchQuery.Proofs.Reading.Log
import SearchQuery.Proofs.Reading.Course
import SearchQuery.Proofs.Diagnostic.Explanation
import SearchQuery.Proofs.Diagnostic.Furthest
import SearchQuery.Proofs.Query.RoundTrip
import SearchQuery.Proofs.Reading.OrderedChoice
import SearchQuery.Proofs.Query.Chain
import SearchQuery.Proofs.Query.Subtree
import SearchQuery.Proofs.Query.WellFormed
import SearchQuery.Proofs.Tree.Lossless
import SearchQuery.Proofs.Query.Total
import SearchQuery.Proofs.Query.Terms
import SearchQuery.Proofs.Query.Unmerged
import SearchQuery.Proofs.Query.Joined
import SearchQuery.Proofs.Query.Nesting
import SearchQuery.Proofs.Query.Words
import SearchQuery.Proofs.Text.Collapse
import SearchQuery.Proofs.Reading.Respaced
import SearchQuery.Proofs.Query.Spacing
import SearchQuery.Proofs.Query.Quoted
import SearchQuery.Proofs.Tree.Delimiter
import SearchQuery.Proofs.Diagnostic.Colon
import SearchQuery.Proofs.Diagnostic.Hint
import SearchQuery.Proofs.Query.Precedence
import SearchQuery.Proofs.Text.Line
import SearchQuery.Proofs.Query.StandsFor
import SearchQuery.Proofs.Diagnostic.Excerpt
import SearchQuery.Proofs.Text.Quoted
import SearchQuery.Proofs.Query.Outline
import SearchQuery.Proofs.Semantics.Walk
