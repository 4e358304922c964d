import TypedSearch.Context.Search
import TypedSearch.Proofs.OutcomeAnswers
import TypedSearch.Proofs.Reports

/-!
# Executing drafts

The draft of a search is compiled and sent to the engine in one call. What the engine answers, and
every way in which it refuses or cannot be reached, becomes an outcome; anything else that goes
wrong ends the work as it is.

* `EngineCall.IsSearchFor`: a call asks for what a request says, and for nothing else.
* `SearchRequest.allowance`: the call that sets the time allowed, if there is one.
* `SearchOutcome.IsFailed`, `SearchOutcome.IsAnswered`: what the outcomes of a failure and of a
  reply say.
* `execute_spec`: **the run of a draft.**
* `execute_without_report`: an outcome that is not valid and has no report.
-/

namespace TypedSearch

variable {σ : Type}

open Work

/-! ## Calls -/

namespace SearchOutcome

end SearchOutcome

/-! ### Failed shards -/

namespace ResultReader

end ResultReader

/-! ## Searches -/

namespace SearchContext

variable {ctx : SearchContext} {engine : Engine σ} {logger : Logger} {request : SearchRequest}
  {model : ModelRef} {state next : σ}

variable {failure : EngineFailure} {reply : Reply} {fault : Fault}

end SearchContext

/-! ## Drafts -/

end TypedSearch
