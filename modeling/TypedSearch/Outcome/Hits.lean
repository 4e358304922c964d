import TypedSearch.Document.Restore
import TypedSearch.Log
import TypedSearch.Outcome.Basic
import TypedSearch.Query.InnerHits

/-!
# Hits of a reply

The hits of a reply, read one after the other. A hit whose source cannot be made an entity is
left out, with a line that says why; the others give a document and the sources of their inner
hits.

* `ResultReader`: how sources become documents.
* `ResultReader.collect`: the documents of hits and their inner hits.
* `hitsOf`, `totalOf`: the hits of a reply and their number in all.
-/

namespace TypedSearch

/-- How sources become documents: entities of a model, or plain objects where no model is
given. -/
structure ResultReader where
  schema : Schema
  model : ModelRef
  appId : String
  naming : Option Naming

/-! ## Inner hits -/

/-- The entries of an object, asked for one by one. -/
def Value.demandEntries : Value → Except Fault Entries
  | .dict es => .ok es
  | .field _ => .error .wrongType
  | _ => .error .missingAttribute

/-- The elements of a row, where what counts as false is an empty row. -/
def Value.elementsOrNone (v : Value) : Except Fault (List Value) :=
  if v.isTruthy then v.elements else .ok []

/-- The hits inside the `hits` object of an object. -/
def hitsWithin (v : Value) : Except Fault (List Value) := do
  let outer ← v.orObject.lookup "hits" .null
  (← outer.orObject.lookup "hits" .null).elementsOrNone

/-- The nested array that a name of inner hits stands for; a name that is not known stands for
itself. -/
def HitPaths.pathOf (paths : HitPaths) (name : Value) : Value :=
  ((name.asText?.bind fun n => List.lookup n paths).map .str).getD name

/-- The sources of hits, where a hit without one has an empty object. -/
def sourcesOf : List Value → Except Fault (List Value)
  | [] => .ok []
  | hit :: hits => do
    let source ← hit.lookup "_source" (.dict [])
    return source :: (← sourcesOf hits)

/-- The sources of named inner hits, behind those that are found so far. -/
def gather (paths : HitPaths) (found : InnerSources) : Entries → Except Fault InnerSources
  | [] => .ok found
  | (name, payload) :: es => do
    let sources ← sourcesOf (← hitsWithin payload)
    gather paths (found.add (paths.pathOf name) sources) es

/-- The sources of the inner hits of a hit. -/
def innerSources (paths : HitPaths) (hit : Value) : Except Fault InnerSources := do
  let inner ← hit.lookup "inner_hits" .null
  gather paths [] (← inner.orObject.demandEntries)

/-! ## Hits -/

/-- The hits of a body. -/
def hitsOf (body : Entries) : Except Fault (List Value) := hitsWithin (.dict body)

/-- The number of all hits. What is neither a number nor an object with one counts as none. -/
def totalOf (body : Entries) : Except Fault Value := do
  match ← (Entries.getD "hits" body).orObject.lookup "total" .null with
  | .dict es => return .int (← ((Entries.get? "value" es).getD (.int 0)).toInteger)
  | v => return if v.asInt?.isSome then v else .int 0

namespace ResultReader

/-- The name of the model in messages. -/
def modelName (r : ResultReader) : String :=
  if r.model.isAbsent then "dict" else r.model.className?.toOption.getD "dict"

/-- The document of a source with the engine's id. -/
def document (r : ResultReader) (source id : Value) : Except Fault Value :=
  if r.model.isAbsent then source.orObject.toEntries.map .dict
  else r.schema.restore r.naming r.appId r.model source id

/-- The line about a hit that is left out. -/
def skipText (r : ResultReader) (id : Value) (cause : Fault) : String :=
  s!"Skipping hit '{id.plainText}': cannot deserialize into {r.modelName}: {cause.describe}"

/-- The documents of hits and their inner hits. -/
def collect (r : ResultReader) (paths : HitPaths) (logger : Logger) :
    List Value → Logged (List (Value × InnerSources))
  | [] => pure []
  | hit :: hits => do
    let source ← Logged.ofExcept (hit.lookup "_source" .null)
    let id ← Logged.ofExcept (hit.lookup "_id" .null)
    match r.document source id with
    | .error cause =>
      Logged.write logger .error (r.skipText id cause)
      collect r paths logger hits
    | .ok document =>
      let inner ← Logged.ofExcept (innerSources paths hit)
      return (document, inner) :: (← collect r paths logger hits)

end ResultReader

end TypedSearch
