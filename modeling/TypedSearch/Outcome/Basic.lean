import TypedSearch.Engine.Reply
import TypedSearch.Query.Request

/-!
# Outcomes of searches

What a caller gets for a search: the documents, the hits inside their nested arrays, how many hits
there are in all, and whether the engine answered and answered completely.

* `SearchOutcome`: an outcome.
* `SearchOutcome.display`: an outcome in messages.
* `SearchRequest.locator`: where a search goes.
-/

namespace TypedSearch

open Text

/-- The sources of inner hits, collected under the nested arrays that they belong to. -/
abbrev InnerSources := List (Value × List Value)

/-- Adds sources under an array, behind those that are there. -/
def InnerSources.add (found : InnerSources) (path : Value) (sources : List Value) : InnerSources :=
  if found.any fun e => e.1.equals path then
    found.map fun e => if e.1.equals path then (e.1, e.2 ++ sources) else e
  else found ++ [(path, sources)]

/-- An outcome. `success` tells that the engine answered, `isValid` that its answer is complete;
the report and the failure are there if something went wrong. -/
structure SearchOutcome where
  success : Bool
  isValid : Bool
  documents : List Value
  total : Value
  timedOut : Bool
  innerHits : List InnerSources
  locator : String
  report : Option String
  failure : Option EngineFailure

/-- Where a search goes: the path of its index, at the node that answered if one is known. -/
def SearchRequest.locator (r : SearchRequest) (info : Option ReplyInfo) : String :=
  let path := if r.index.isTruthy then "/" ++ r.index.plainText ++ "/_search" else "/_search"
  let node := (info.bind (·.node)).map EngineNode.locator
  node.getD "" ++ path

namespace SearchOutcome

/-- An outcome in messages. -/
def display (o : SearchOutcome) : String :=
  let parts := ["success=" ++ truthWord o.success, "is_valid=" ++ truthWord o.isValid,
      "documents=" ++ Nat.repr o.documents.length, "total=" ++ o.total.display] ++
    (if o.timedOut then ["timed_out=True"] else []) ++
    (if o.locator = "" then [] else ["request_uri=" ++ quoted o.locator]) ++
    (o.failure.map fun f => "original_exception=<" ++ f.name ++ ">").toList
  "SearchOutcome(" ++ join ", " parts ++ ")"

end SearchOutcome

end TypedSearch
