import DocQuery.Text.Alphanumeric
import DocQuery.Text.Lowercase
import DocQuery.Text.Quoted
import DocQuery.Text.Folding
import DocQuery.Text.Category
import DocQuery.Text.Script
import DocQuery.Text.Word
import DocQuery.Number.Shortest
import DocQuery.Number.Numeral
import DocQuery.Number.Decimal128
import DocQuery.Calendar.Instant
import DocQuery.Json.Reader
import DocQuery.Json.Writer
import DocQuery.Value.Order
import DocQuery.Value.Display
import DocQuery.Path
import DocQuery.Pattern.Reader
import DocQuery.Selection.Reader
import DocQuery.Catalog.Reader
import DocQuery.Request
import DocQuery.Condition
import DocQuery.SortOrder
import DocQuery.Query.Compile
import DocQuery.Store.Match
import DocQuery.StableSort
import DocQuery.Store.Projection
import DocQuery.Store.Execution
import DocQuery.Source.Recorded
import DocQuery.Answer.Basic
import DocQuery.Extended.Writer
import DocQuery.CommandLine.Run
import DocQuery.Main
import DocQuery.Proofs.Filter.Reading
import DocQuery.Proofs.Filter.Rendering
import DocQuery.Proofs.Answer.Joined
import DocQuery.Proofs.Answer.Protection
import DocQuery.Proofs.Filter.Acceptance
import DocQuery.Proofs.Filter.SemiJoin
import DocQuery.Proofs.Filter.FreeText
import DocQuery.Proofs.Answer.Paging
import DocQuery.Proofs.Path.Filled
import DocQuery.Proofs.Value.Ids
import DocQuery.Proofs.Answer.Resolved
import DocQuery.Proofs.Answer.Exact
import DocQuery.Proofs.Answer.Pointwise
import DocQuery.Proofs.Query.Asked
import DocQuery.Proofs.Selection.Spelling
import DocQuery.Proofs.Query.Respelled
import DocQuery.Proofs.Value.Order
import DocQuery.Proofs.Answer.Failures
import DocQuery.Proofs.Answer.Revealed
import DocQuery.Proofs.Answer.ForeignOrder
import DocQuery.Proofs.CommandLine.Loaded
import DocQuery.Proofs.Answer.Reordered
import DocQuery.Proofs.Answer.Relevance
import DocQuery.Proofs.Store.Unwinding
import DocQuery.Proofs.Filter.Chained
import DocQuery.Proofs.Selection.Canonical
import DocQuery.Proofs.Selection.Grammar
import DocQuery.Proofs.Selection.Printed
import DocQuery.Proofs.Store.Named
import DocQuery.Proofs.Selection.Union
import DocQuery.Proofs.Query.Fetched
import DocQuery.Proofs.Query.SortKeys
import DocQuery.Proofs.Query.Ownership
import DocQuery.Proofs.Answer.JoinOrder
import DocQuery.Proofs.Store.Sorting
import DocQuery.Proofs.Filter.Cutting
import DocQuery.Proofs.Filter.Includes
import DocQuery.Proofs.Filter.NormalForms
import DocQuery.Proofs.Selection.Built
import DocQuery.Proofs.Json.Written
import DocQuery.Proofs.Catalog.Records
import DocQuery.Proofs.Catalog.Defaults
import DocQuery.Proofs.Catalog.Restored
import DocQuery.Proofs.Path.Retold
import DocQuery.Proofs.CommandLine.Conversion
import DocQuery.Proofs.CommandLine.Flags
import DocQuery.Proofs.Path.Laws
import DocQuery.Proofs.Query.References
import DocQuery.Proofs.Number.Spacing
import DocQuery.Proofs.Number.Shortest
import DocQuery.Proofs.Number.Texts
import DocQuery.Proofs.Number.Whole
import DocQuery.Proofs.Calendar
import DocQuery.Proofs.Text.Bytes
import DocQuery.Proofs.Value.Displayed
import DocQuery.Proofs.Value.Legible
import DocQuery.Proofs.Value.Sameness
import DocQuery.Proofs.Value.IdTexts
