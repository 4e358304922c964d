import TypedSearch.Field.Resolver
import TypedSearch.Value.Display

/-!
# Search requests

A compiled search: the index, the query, where the hits start and how many there are, the order,
the time allowed, and for each name of inner hits the nested array that they belong to.

* `SearchRequest`: a request.
* `SearchRequest.body`: what is sent to the engine.
* `SearchRequest.display`: the request in messages.
-/

namespace TypedSearch

open Text

/-- A compiled search. A size, an index or a timeout that is null is not set. -/
structure SearchRequest where
  index : Value
  query : Value
  start : Value
  size : Value
  sort : Value
  timeout : Value
  hitPaths : List (String × String)

namespace SearchRequest

/-- The entries of the body; size and order are there if they are set. -/
def bodyEntries (r : SearchRequest) : List (String × Value) :=
  [("query", r.query), ("from", r.start)] ++
    (if r.size.isNull then [] else [("size", r.size)]) ++
    (if r.sort.isTruthy then [("sort", r.sort)] else [])

/-- What is sent to the engine. -/
def body (r : SearchRequest) : Value := .object r.bodyEntries

/-- The request in messages. -/
def display (r : SearchRequest) : String :=
  let parts := ["index=" ++ r.index.display, "body=" ++ r.body.display] ++
    (if r.timeout.isNull then [] else ["timeout=" ++ r.timeout.display])
  "SearchRequest(" ++ join ", " parts ++ ")"

/-- The request has a display. -/
def hasDisplay (r : SearchRequest) : Bool :=
  r.index.hasDisplay && r.body.hasDisplay && r.timeout.hasDisplay

end SearchRequest

/-- The single key by which hits are sorted. Whatever counts as true turns the order around. -/
structure SortKey where
  field : FieldPath
  descending : Value

/-- The key as the engine takes it. -/
def SortKey.toValue (k : SortKey) : Value :=
  .object [(k.field.wire, .object [("order", .str (if k.descending.isTruthy then "desc" else "asc"))])]

end TypedSearch
