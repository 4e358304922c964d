import TypedSearch.Engine.Reply
import TypedSearch.Query.Request

/-!
# Calls of an engine

The calls that a context makes of its engine, and engines as such: an engine answers a call in a
state and passes into the next state.

* `EngineCall`: a call, with its name and its arguments.
* `Engine`: an engine.
* `Engine.overriding`: an engine some of whose answers are fixed.
-/

namespace TypedSearch

/-- A document to store in bulk, under an id or under one that the engine chooses. -/
structure BulkItem where
  index : String
  id : Option String
  document : Value

/-- A call. -/
inductive EngineCall where
  | allow (seconds : Value)
  | search (index : Value) (body : List (String × Value))
  | get (index id : String)
  | store (index : String) (id : Option String) (document : Value)
  | storeAll (documents : List BulkItem)
  | update (index id : String) (changes : Value)
  | indexExists (index : String)
  | createIndex (index : String) (settings mapping : Value)
  | putSettings (index : String) (settings : Value)
  | putMapping (index : String) (properties : Value)

/-- The two operations of a document in a bulk call: where it goes, and the document. -/
def BulkItem.operations (b : BulkItem) : List Value :=
  let target := ("_index", Value.str b.index) :: (b.id.map fun id => ("_id", .str id)).toList
  [.object [("index", .object target)], b.document]

namespace EngineCall

/-- The name of a call. -/
def name : EngineCall → String
  | .allow _ => "options"
  | .search _ _ => "search"
  | .get _ _ => "get"
  | .store _ _ _ => "index"
  | .storeAll _ => "bulk"
  | .update _ _ _ => "update"
  | .indexExists _ => "indices.exists"
  | .createIndex _ _ _ => "indices.create"
  | .putSettings _ _ => "indices.put_settings"
  | .putMapping _ _ => "indices.put_mapping"

/-- The name of an argument for an entry of a search body. -/
def searchArgument (key : String) : String := if key = "from" then "from_" else key

/-- The arguments of a call by name. -/
def arguments : EngineCall → List (String × Value)
  | .allow seconds => [("request_timeout", seconds)]
  | .search index body => ("index", index) :: body.map fun e => (searchArgument e.1, e.2)
  | .get index id => [("index", .str index), ("id", .str id)]
  | .store index id document =>
    ("index", .str index) :: (id.map fun id => ("id", .str id)).toList ++ [("document", document)]
  | .storeAll documents => [("operations", .list (documents.flatMap BulkItem.operations))]
  | .update index id changes => [("index", .str index), ("id", .str id), ("doc", changes)]
  | .indexExists index => [("index", .str index)]
  | .createIndex index settings mapping =>
    [("index", .str index), ("settings", settings), ("mappings", mapping)]
  | .putSettings index settings => [("index", .str index), ("settings", settings)]
  | .putMapping index properties => [("index", .str index), ("properties", properties)]

end EngineCall

/-- How a call ends. -/
abbrev EngineAnswer := Except EngineFailure Reply

/-- An engine with states of a type. -/
abbrev Engine (σ : Type) := EngineCall → σ → EngineAnswer × σ

/-- The engine whose calls of some names have fixed answers, which change nothing. -/
def Engine.overriding {σ : Type} (engine : Engine σ) (fixed : String → Option EngineAnswer) :
    Engine σ := fun call state =>
  match fixed call.name with
  | some answer => (answer, state)
  | none => engine call state

end TypedSearch
