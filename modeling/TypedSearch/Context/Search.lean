import TypedSearch.Context.Basic

/-!
# Searches in a context

A search is sent to the engine and its answer becomes an outcome. Refusals and faults of the
transport are outcomes too.

* `SearchContext.search`: the outcome of a request.
* `SearchContext.query`: a draft that is bound to the context.
* `execute`: the outcome of a draft.
-/

namespace TypedSearch

variable {σ : Type}

namespace SearchContext

/-- The outcome of a request. A time that is given goes before that of the request; where neither
counts as a time, the engine's own holds. -/
def search (ctx : SearchContext) (engine : Engine σ) (logger : Logger) (request : SearchRequest)
    (model : ModelRef) (seconds : Value) : Work σ SearchOutcome := do
  let allowed := if seconds.isTruthy then seconds else request.timeout
  if allowed.isTruthy then Work.record (.allow allowed)
  match ← Work.ask engine (.search request.index request.bodyEntries) with
  | .error failure => Work.ofLogged (ResultReader.ofFailure request failure logger)
  | .ok reply => Work.ofLogged ((ctx.reader model).ofReply request reply logger)

/-- The settings and the first state of a draft that is bound to the context. -/
def query (ctx : SearchContext) (model : ModelRef) (index : Value) :
    Work σ (QuerySettings × QueryDraft) := do
  match QuerySettings.create ctx.schema model (some ctx.defaults) none none none with
  | .ok set => return (set, ← Work.ofExcept (QueryDraft.start set index))
  | .error e =>
    for line in (sourceLine? e).toList do Work.ofLogged (Logged.note line)
    throw e

end SearchContext

/-- The outcome of a draft in the context that it is bound to. Without a logger the lines go to
the library's own, which keeps warnings and errors. -/
def execute (s : Schema) (engine : Engine σ) (logger : Option Logger) (model : ModelRef)
    (set : QuerySettings) (d : QueryDraft) : Work σ SearchOutcome := do
  match set.bound with
  | none => throw .unbound
  | some defaults =>
    let request ← Work.ofExcept (d.build set)
    SearchContext.search ⟨s, defaults⟩ engine (logger.getD .terse) request model .null

end TypedSearch
