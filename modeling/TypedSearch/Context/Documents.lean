import TypedSearch.Context.Basic
import TypedSearch.Document.Prepare

/-!
# Documents in a context

Entities are stored, changed and read back by id. The id of an entity is the text of its
application id; an entity without one gets an id from the engine.

* `SearchContext.get`: the entity with an id.
* `SearchContext.store`, `SearchContext.storeMany`: entities become documents.
* `SearchContext.update`: an entity changes its document.
-/

namespace TypedSearch

variable {σ : Type}

/-! ## Entities -/

namespace Value

/-- The class of a value. -/
def classOf : Value → TypeExpr
  | .entity _ cls _ => .named cls
  | .member enumeration _ _ _ => .named enumeration
  | .dict _ => .basic .dict
  | .field _ => .basic .field
  | .condition _ _ _ => .basic .condition
  | _ => .basic .object

end Value

/-- The reply says that a document was written, with one of the given results. A field passes for
any of them, as it makes a condition with whatever it is compared to. -/
def Reply.hasResult (r : Reply) (results : List String) : Bool :=
  match Entries.getD "result" r.entries with
  | .field _ => true
  | v => v.asText?.any results.contains

namespace SearchContext

/-- The id of an entity. -/
def documentId (ctx : SearchContext) (entity : Value) : Option String :=
  match entity.getAttribute? ctx.defaults.appId with
  | none | some .null => none
  | some id => some id.plainText

/-- The document of an entity: its stored form under the names that the engine indexes. -/
def document (ctx : SearchContext) (entity : Value) : Except Fault Value :=
  match ctx.schema.prepare entity with
  | .error fault => .error fault
  | .ok (.dict es) =>
    ctx.schema.rename ctx.defaults.naming .toWire (.type entity.classOf) (.dict es)
  | .ok _ => .error (.notStorable entity.typeName)

/-- Ends an activity that the engine or the transport has failed. -/
def giveUp {α : Type} (failure : EngineFailure) (activity : String) : Work σ α := do
  let cause ← Work.ofExcept failure.text
  let text := s!"Elasticsearch error during {activity}: {cause}"
  Work.ofLogged (Logged.note ⟨.error, text⟩)
  throw (.engineFailed activity)

/-! ## Reading -/

/-- The entity with an id. -/
def get (ctx : SearchContext) (engine : Engine σ) (logger : Logger) (id : String)
    (model : ModelRef) (index : Option String) : Work σ Value := do
  let target ← Work.ofExcept (ctx.resolveIndex index)
  let name ← Work.ofExcept model.className?
  match ← Work.ask engine (.get target id) with
  | .error (.refusal .notFound _ _ _) =>
    Work.write logger .warning s!"{name} with ID '{id}' not found in '{target}'."
    throw (.documentMissing name id)
  | .error failure => giveUp failure s!"getting document ID {id}"
  | .ok reply =>
    let body := reply.entries
    let entity ← Work.ofExcept (ctx.schema.restore ctx.defaults.naming ctx.defaults.appId model
      (Entries.getD "_source" body) (Entries.getD "_id" body))
    Work.write logger .info s!"Retrieved {name} with ID '{id}' from '{target}'"
    return entity

/-! ## Writing -/

/-- Stores an entity. The answer tells whether the engine did. -/
def store (ctx : SearchContext) (engine : Engine σ) (logger : Logger) (entity : Value)
    (index : Option String) : Work σ Bool := do
  let target ← Work.ofExcept (ctx.resolveIndex index)
  let id := ctx.documentId entity
  let shownId := Value.ofText? id
  let document ← Work.ofExcept (ctx.document entity)
  match ← Work.ask engine (.store target id document) with
  | .error failure =>
    let cause ← Work.ofExcept failure.text
    Work.write logger .error
      s!"Failed to index document '{shownId.plainText}' into '{target}': {cause}"
    return false
  | .ok reply =>
    let success := reply.hasResult ["created", "updated"]
    let given := (Entries.get? "_id" reply.entries).getD shownId
    Work.write logger .info (s!"[Success:{truthWord success}]\tIndexed {entity.typeName} " ++
      s!"'{given.plainText}' into '{target}'")
    return success

/-- The documents of entities. The first entity without a document ends the work. -/
def bulkItems (ctx : SearchContext) (target : String) :
    List Value → Except Fault (List BulkItem)
  | [] => .ok []
  | e :: es => do
    let document ← ctx.document e
    return ⟨target, ctx.documentId e, document⟩ :: (← bulkItems ctx target es)

/-- What the engine says about the documents that it has not stored. -/
def failedItems : List Value → Except Fault (List Value)
  | [] => .ok []
  | item :: items => do
    let outcome ← item.lookup "index" (.dict [])
    let error ← outcome.lookup "error" .null
    let rest ← failedItems items
    return if error.isTruthy then outcome :: rest else rest

/-- Stores entities in one call. -/
def storeMany (ctx : SearchContext) (engine : Engine σ) (logger : Logger) (entities : Value)
    (index : Option String) : Work σ Bool := do
  let target ← Work.ofExcept (ctx.resolveIndex index)
  let items ← Work.ofExcept (entities.elements.bind (ctx.bulkItems target))
  if items.isEmpty then
    Work.write logger .info "store_many called with no entities; nothing to index."
    return true
  match ← Work.ask engine (.storeAll items) with
  | .error failure =>
    let cause ← Work.ofExcept failure.text
    Work.write logger .error s!"Bulk request to '{target}' failed: {cause}"
    return false
  | .ok reply =>
    let body := reply.entries
    if (Entries.getD "errors" body).isTruthy then
      let answers ← Work.ofExcept ((Entries.get? "items" body).getD (.list [])).elements
      let failed ← Work.ofExcept (failedItems answers)
      for item in failed do
        let es := item.asEntries?.getD []
        let (id, error) := (Entries.getD "_id" es, Entries.getD "error" es)
        Work.write logger .error s!"Bulk item '{id.plainText}' failed: {error.plainText}"
      let stored : Int := items.length - failed.length
      Work.write logger .info
        s!"[Success:False]\tBulk indexed {stored}/{items.length} into '{target}'"
      return false
    else
      Work.write logger .info
        s!"[Success:True]\tBulk indexed {items.length} documents into '{target}'"
      return true

/-- Changes the document of an entity. The answer tells whether the engine did. -/
def update (ctx : SearchContext) (engine : Engine σ) (logger : Logger) (entity : Value)
    (index : Option String) : Work σ Bool := do
  let target ← Work.ofExcept (ctx.resolveIndex index)
  match ctx.documentId entity with
  | none => throw (.missingId entity.typeName ctx.defaults.appId)
  | some id =>
    let document ← Work.ofExcept (ctx.document entity)
    match ← Work.ask engine (.update target id document) with
    | .error (.refusal .notFound _ _ _) =>
      Work.write logger .warning s!"Cannot update '{id}': not found in '{target}'."
      return false
    | .error failure =>
      let cause ← Work.ofExcept failure.text
      Work.write logger .error s!"Failed to update document '{id}' in '{target}': {cause}"
      return false
    | .ok reply =>
      let success := reply.hasResult ["updated", "noop"]
      Work.write logger .info s!"[Success:{truthWord success}]\tUpdated '{id}' in '{target}'"
      return success

end SearchContext

end TypedSearch
