import TextSearch.Decimal.Binary
import TextSearch.Decimal.Reading
import TextSearch.Decimal.Shortest
import TextSearch.Dictionary
import TextSearch.Fault
import TextSearch.Index.Builder
import TextSearch.Index.Segment
import TextSearch.Index.Snapshot
import TextSearch.Json.Reader
import TextSearch.Json.Value
import TextSearch.Mapping.Basic
import TextSearch.Mapping.FieldWeights
import TextSearch.Mark
import TextSearch.Match.Matcher
import TextSearch.Match.Stepper
import TextSearch.Plan.Basic
import TextSearch.Plan.Rule
import TextSearch.Plan.Traversal
import TextSearch.Posting.Basic
import TextSearch.Posting.Cursor
import TextSearch.Proofs.Cursor.Alignment
import TextSearch.Proofs.Cursor.Alike
import TextSearch.Proofs.Cursor.ClauseOrder
import TextSearch.Proofs.Cursor.Comparison
import TextSearch.Proofs.Cursor.Documents
import TextSearch.Proofs.Cursor.Gaps
import TextSearch.Proofs.Cursor.Listing
import TextSearch.Proofs.Cursor.Meeting
import TextSearch.Proofs.Cursor.PayloadFilters
import TextSearch.Proofs.Cursor.Posting
import TextSearch.Proofs.Cursor.PostingRuns
import TextSearch.Proofs.Cursor.Proximity
import TextSearch.Proofs.Cursor.Runs
import TextSearch.Proofs.Cursor.SpanRuns
import TextSearch.Proofs.Cursor.SpanTree
import TextSearch.Proofs.Cursor.SpanUnion
import TextSearch.Proofs.Cursor.SpansShown
import TextSearch.Proofs.Cursor.Spent
import TextSearch.Proofs.Cursor.SpentTree
import TextSearch.Proofs.Cursor.Trail
import TextSearch.Proofs.Cursor.Union
import TextSearch.Proofs.Cursor.Walk
import TextSearch.Proofs.Dictionary
import TextSearch.Proofs.Index.Contents
import TextSearch.Proofs.Index.DistinctPostings
import TextSearch.Proofs.Index.FieldTotals
import TextSearch.Proofs.Index.Fields
import TextSearch.Proofs.Index.Lookup
import TextSearch.Proofs.Index.Originals
import TextSearch.Proofs.Index.Runs
import TextSearch.Proofs.Index.Snapshots
import TextSearch.Proofs.Index.Statistics
import TextSearch.Proofs.Index.Tokens
import TextSearch.Proofs.Mapping.Merging
import TextSearch.Proofs.Mapping.Resolving
import TextSearch.Proofs.Match.Exclusion
import TextSearch.Proofs.Match.Intersection
import TextSearch.Proofs.Match.Merit
import TextSearch.Proofs.Match.Preference
import TextSearch.Proofs.Match.Runs
import TextSearch.Proofs.Match.Tree
import TextSearch.Proofs.Match.Union
import TextSearch.Proofs.Match.Walk
import TextSearch.Proofs.Outcome
import TextSearch.Proofs.Plan.Alongside
import TextSearch.Proofs.Plan.Beside
import TextSearch.Proofs.Plan.Depth
import TextSearch.Proofs.Plan.Divergence
import TextSearch.Proofs.Plan.Exactness
import TextSearch.Proofs.Plan.Keeping
import TextSearch.Proofs.Plan.Narrowing
import TextSearch.Proofs.Plan.Rewriting
import TextSearch.Proofs.Plan.RuleOrder
import TextSearch.Proofs.Plan.Settling
import TextSearch.Proofs.Query.Equality
import TextSearch.Proofs.Query.Nodes
import TextSearch.Proofs.Query.Satisfaction
import TextSearch.Proofs.Score.Exact
import TextSearch.Proofs.Score.One
import TextSearch.Proofs.Score.Ordered
import TextSearch.Proofs.Search.Answers
import TextSearch.Proofs.Search.Binding
import TextSearch.Proofs.Search.Boosting
import TextSearch.Proofs.Search.Caching
import TextSearch.Proofs.Search.Collecting
import TextSearch.Proofs.Search.CollectorRuns
import TextSearch.Proofs.Search.ConcurrentLookups
import TextSearch.Proofs.Search.Convergence
import TextSearch.Proofs.Search.Counting
import TextSearch.Proofs.Search.DistinctHits
import TextSearch.Proofs.Search.DocumentScores
import TextSearch.Proofs.Search.ExactPlaces
import TextSearch.Proofs.Search.Exactness
import TextSearch.Proofs.Search.Explaining
import TextSearch.Proofs.Search.GroundSteps
import TextSearch.Proofs.Search.Grounding
import TextSearch.Proofs.Search.Matching
import TextSearch.Proofs.Search.Narrowing
import TextSearch.Proofs.Search.OpenedCursors
import TextSearch.Proofs.Search.Opening
import TextSearch.Proofs.Search.Openings
import TextSearch.Proofs.Search.PayloadChecks
import TextSearch.Proofs.Search.PayloadDistribution
import TextSearch.Proofs.Search.Places
import TextSearch.Proofs.Search.PlainQueries
import TextSearch.Proofs.Search.Positions
import TextSearch.Proofs.Search.Raising
import TextSearch.Proofs.Search.Results
import TextSearch.Proofs.Search.SameDocuments
import TextSearch.Proofs.Search.Scores
import TextSearch.Proofs.Search.ScreenedGrounding
import TextSearch.Proofs.Search.ScreenedVisits
import TextSearch.Proofs.Search.Screening
import TextSearch.Proofs.Search.SpanOpening
import TextSearch.Proofs.Search.Splitting
import TextSearch.Proofs.Search.Stepping
import TextSearch.Proofs.Search.Succeeding
import TextSearch.Proofs.Search.ThresholdOfOne
import TextSearch.Proofs.Search.Transparency
import TextSearch.Proofs.Search.Weights
import TextSearch.Proofs.Search.Wrapping
import TextSearch.Proofs.Search.Yields
import TextSearch.Proofs.Span.Bare
import TextSearch.Proofs.Span.Combinations
import TextSearch.Proofs.Span.Coverage
import TextSearch.Proofs.Span.GapArithmetic
import TextSearch.Proofs.Text.Patterns
import TextSearch.Query.Basic
import TextSearch.Query.Build
import TextSearch.Query.Change
import TextSearch.Query.Equality
import TextSearch.Query.MultiTerm
import TextSearch.Score.BM25
import TextSearch.Score.Explanation
import TextSearch.Score.Number
import TextSearch.Search.Execution
import TextSearch.Search.Grounding
import TextSearch.Search.LookupCache
import TextSearch.Search.SpanWeight
import TextSearch.Search.Weighing
import TextSearch.Search.Weight
import TextSearch.Settings
import TextSearch.Span.Basic
import TextSearch.Span.Cursor
import TextSearch.Span.Near
import TextSearch.Span.Stepper
import TextSearch.Term
import TextSearch.Text.Alphanumeric
import TextSearch.Text.Glob
import TextSearch.Text.Lowercase
import TextSearch.Text.Ranges
import TextSearch.Text.WordBreak
import TextSearch.Text.Words
import TextSearch.Threshold
import TextSearch.TopHits
import TextSearch.Total
