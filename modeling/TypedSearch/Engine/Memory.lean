import TypedSearch.Engine.Call
import TypedSearch.Value.Demand

/-!
# An engine in memory

Documents in the order in which they came in. A document that is stored again keeps its place. A
document without an id gets one from a counter. A search finds all documents of its index.

* `Memory`: the state.
* `Memory.answer`: the engine.
* `Memory.listing`: the documents in the order of their indices and ids.
-/

namespace TypedSearch

/-- A document with its place. -/
structure StoredDocument where
  index : String
  id : String
  document : Value

/-- The state: the documents, how many ids have been chosen, and the indices that are set up. -/
structure Memory where
  documents : List StoredDocument
  chosen : Nat
  indices : List String

namespace Memory

/-- Nothing stored. -/
def empty : Memory := ⟨[], 0, []⟩

/-- The stored document stands under the index and the id. -/
def isAt (index id : String) (d : StoredDocument) : Bool := d.index == index && d.id == id

/-- The document under an index and an id. -/
def find? (m : Memory) (index id : String) : Option Value :=
  (m.documents.find? (isAt index id)).map (·.document)

/-- Stores a document, in its place if it is there and at the end otherwise. -/
def put (m : Memory) (index id : String) (document : Value) : Memory :=
  if m.documents.any (isAt index id) then
    { m with documents := m.documents.map fun d =>
        if isAt index id d then { d with document } else d }
  else { m with documents := m.documents ++ [⟨index, id, document⟩] }

/-- The id under which a document is stored, and the state behind the choice of it. -/
def idFor (m : Memory) (id : Option String) : String × Memory :=
  match id.filter (· != "") with
  | some id => (id, m)
  | none => ("auto-" ++ Nat.repr (m.chosen + 1), { m with chosen := m.chosen + 1 })

/-- Stores a document under an id or a chosen one. -/
def store (m : Memory) (index : String) (id : Option String) (document : Value) :
    String × Memory :=
  let (id, m) := m.idFor id
  (id, m.put index id document)

/-- Stores documents in order. -/
def storeAll (m : Memory) : List BulkItem → List (String × String) × Memory
  | [] => ([], m)
  | b :: bs =>
    let (id, m) := m.store b.index b.id b.document
    let (places, m) := storeAll m bs
    ((b.index, id) :: places, m)

/-- The entries of an object changed by those of another. -/
def mergeEntries (es changes : Entries) : Entries :=
  changes.foldl (fun es c => es.insert c.1 c.2) es

/-- A document with changes. -/
def merge (document changes : Value) : Value :=
  .dict (mergeEntries (document.asEntries?.getD []) (changes.asEntries?.getD []))

/-- Whether changes leave a document as it is: they name no key that is not there, and no value
differs. The values are compared in the order of the document. -/
def changesNothing (changes : Entries) (document : Entries) : Except Fault Bool :=
  if changes.all fun c => document.any fun e => e.1.equals c.1 then
    Value.comparedEntries (document.filterMap fun e => changes.find? fun c => c.1.equals e.1)
      document
  else .ok false

/-! ## Replies -/

/-- The place of a document in a reply. -/
def placeEntries (index id : String) : List (String × Value) :=
  [("_id", .str id), ("_index", .str index)]

/-- A document as a hit. -/
def hit (d : StoredDocument) : Value :=
  .object (placeEntries d.index d.id ++
    [("_score", .double (Double.ofInt 1)), ("_source", d.document)])

/-- The body of a search: the hits of one index. -/
def searchBody (hits : List Value) : Value :=
  .object [
    ("_shards", .object [("failed", .int 0), ("skipped", .int 0), ("successful", .int 5),
      ("total", .int 5)]),
    ("hits", .object [("hits", .list hits),
      ("total", .object [("relation", .str "eq"), ("value", .int hits.length)])]),
    ("timed_out", .bool false),
    ("took", .int 3)]

/-- The refusal of a call about a document that is not there. -/
def missing (body : List (String × Value)) : EngineFailure :=
  .refusal .notFound "HTTP 404" (some ⟨some 404, none⟩) (.object body)

/-- The reply to a change of an index. -/
def acknowledged : EngineAnswer := .ok (.ofBody (.object [("acknowledged", .bool true)]))

/-- The reply about a document that was written. -/
def written (index id result : String) : EngineAnswer :=
  .ok (.ofBody (.object (placeEntries index id ++ [("result", .str result)])))

/-! ## The engine -/

/-- The answer to a call. -/
def answer : Engine Memory := fun call m =>
  match call with
  | .allow _ => (.ok (.ofBody .null), m)
  | .search index _ =>
    let found := m.documents.filter fun d => index.asText? == some d.index
    (.ok (.ofBody (searchBody (found.map hit))), m)
  | .get index id =>
    match m.find? index id with
    | some document =>
      (.ok (.ofBody (.object (placeEntries index id ++
        [("_source", document), ("found", .bool true)]))), m)
    | none => (.error (missing (placeEntries index id ++ [("found", .bool false)])), m)
  | .store index id document =>
    let (given, next) := m.store index id document
    let result := if (m.find? index given).isSome then "updated" else "created"
    (written index given result, next)
  | .storeAll documents =>
    let (places, next) := m.storeAll documents
    let item (p : String × String) : Value :=
      .object [("index", .object (placeEntries p.1 p.2 ++ [("status", .int 201)]))]
    (.ok (.ofBody (.object [("errors", .bool false), ("items", .list (places.map item)),
      ("took", .int 1)])), next)
  | .update index id changes =>
    match m.find? index id with
    | some document =>
      match changesNothing (changes.asEntries?.getD []) (document.asEntries?.getD []) with
      | .error fault => (.error (.other fault), m)
      | .ok same =>
        let result := if same then "noop" else "updated"
        (written index id result, m.put index id (merge document changes))
    | none => (.error (missing [("error", .str "document_missing_exception")]), m)
  | .indexExists index => (.ok (.ofBody (.bool (m.indices.contains index))), m)
  | .createIndex index _ _ => (acknowledged, { m with indices := index :: m.indices })
  | .putSettings _ _ => (acknowledged, m)
  | .putMapping _ _ => (acknowledged, m)

/-- The one stored document comes before the other: by index, then by id. -/
def precedes (a b : StoredDocument) : Bool :=
  if a.index = b.index then decide (a.id ≤ b.id) else decide (a.index < b.index)

/-- The documents in the order of their indices and ids. -/
def listing (m : Memory) : List StoredDocument := m.documents.mergeSort precedes

end Memory

end TypedSearch
