import TypedSearch.Calendar
import TypedSearch.Calendar.Stamp
import TypedSearch.Clause.Basic
import TypedSearch.Clause.Formation
import TypedSearch.Clause.Operator
import TypedSearch.Clause.Phrase
import TypedSearch.Context.Basic
import TypedSearch.Context.Documents
import TypedSearch.Context.Index
import TypedSearch.Context.Search
import TypedSearch.Document.Prepare
import TypedSearch.Document.Rename
import TypedSearch.Document.Restore
import TypedSearch.Engine.Call
import TypedSearch.Engine.Memory
import TypedSearch.Engine.Reply
import TypedSearch.Fault
import TypedSearch.Field.Chain
import TypedSearch.Field.Resolver
import TypedSearch.Field.Source
import TypedSearch.Log
import TypedSearch.Naming
import TypedSearch.Number.Decimal
import TypedSearch.Number.Double
import TypedSearch.Number.Numeral
import TypedSearch.Number.Shortest
import TypedSearch.Outcome.Basic
import TypedSearch.Outcome.Hits
import TypedSearch.Outcome.Reading
import TypedSearch.Proofs.ArrayLayers
import TypedSearch.Proofs.AssignedIds
import TypedSearch.Proofs.BulkStores
import TypedSearch.Proofs.CamelFields
import TypedSearch.Proofs.CamelNames
import TypedSearch.Proofs.ClauseFormation
import TypedSearch.Proofs.ComparedForms
import TypedSearch.Proofs.Comparison
import TypedSearch.Proofs.Conditions
import TypedSearch.Proofs.DocumentRuns
import TypedSearch.Proofs.DraftHistory
import TypedSearch.Proofs.Entries
import TypedSearch.Proofs.ExactEntities
import TypedSearch.Proofs.Execution
import TypedSearch.Proofs.FieldScopes
import TypedSearch.Proofs.Fields
import TypedSearch.Proofs.FilledIds
import TypedSearch.Proofs.Fits
import TypedSearch.Proofs.HitNames
import TypedSearch.Proofs.HitRows
import TypedSearch.Proofs.InnerResults
import TypedSearch.Proofs.ListedFields
import TypedSearch.Proofs.MadeAttributes
import TypedSearch.Proofs.MappingDepth
import TypedSearch.Proofs.MappingPaths
import TypedSearch.Proofs.MemberChains
import TypedSearch.Proofs.MemoryStore
import TypedSearch.Proofs.ModelObstacles
import TypedSearch.Proofs.NestedFields
import TypedSearch.Proofs.OutcomeAnswers
import TypedSearch.Proofs.Phrases
import TypedSearch.Proofs.PreparedForms
import TypedSearch.Proofs.ReadableReplies
import TypedSearch.Proofs.RecordObstacles
import TypedSearch.Proofs.Renaming
import TypedSearch.Proofs.RenamingBack
import TypedSearch.Proofs.RenamingLosses
import TypedSearch.Proofs.ReplyReading
import TypedSearch.Proofs.Reports
import TypedSearch.Proofs.RequestNames
import TypedSearch.Proofs.Results
import TypedSearch.Proofs.RoundTrip
import TypedSearch.Proofs.ScopedClauses
import TypedSearch.Proofs.SpelledModels
import TypedSearch.Proofs.Spellings
import TypedSearch.Proofs.StoredEntities
import TypedSearch.Proofs.StoredForm
import TypedSearch.Proofs.StoredKeys
import TypedSearch.Proofs.StoredPaths
import TypedSearch.Proofs.UnionForms
import TypedSearch.Proofs.Walks
import TypedSearch.Proofs.WorkCalls
import TypedSearch.Proofs.WorkSteps
import TypedSearch.Proofs.WrapperStacks
import TypedSearch.Proofs.WrittenStacks
import TypedSearch.Proofs.Wrappers
import TypedSearch.Query.Draft
import TypedSearch.Query.InnerHits
import TypedSearch.Query.Request
import TypedSearch.Schema.Completeness
import TypedSearch.Schema.Construction
import TypedSearch.Schema.Conversion
import TypedSearch.Schema.Declaration
import TypedSearch.Schema.Enumeration
import TypedSearch.Schema.Kind
import TypedSearch.Schema.Mapping
import TypedSearch.Schema.ModelRef
import TypedSearch.Schema.Path
import TypedSearch.Schema.TypeExpr
import TypedSearch.Schema.Validation
import TypedSearch.Schema.Wrapper
import TypedSearch.Text.Blank
import TypedSearch.Text.Case
import TypedSearch.Text.CaseTable
import TypedSearch.Text.Digit
import TypedSearch.Text.Printable
import TypedSearch.Text.Quoted
import TypedSearch.Text.Segments
import TypedSearch.Value.Basic
import TypedSearch.Value.Demand
import TypedSearch.Value.Display
import TypedSearch.Value.Equality
import TypedSearch.Value.Json
