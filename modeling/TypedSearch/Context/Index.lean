import TypedSearch.Context.Documents
import TypedSearch.Schema.Mapping

/-!
# Indices in a context

An index is set up for a model: it is created with the model's mapping, or the settings and the
mapping of the one that is there are brought up to date.

* `SearchContext.ensureIndex`: sets an index up.
-/

namespace TypedSearch

variable {σ : Type}

namespace SearchContext

/-- The settings of a new index. -/
def newSettings (window : Value) : Value :=
  .object [("number_of_shards", .int 5), ("number_of_replicas", .int 1),
    ("max_result_window", window)]

/-- The settings that are brought up to date. -/
def changedSettings (window : Value) : Value :=
  .object [("index", .object [("max_result_window", window)])]

/-- Makes a call whose failure ends the setting up of an index. -/
def demand (engine : Engine σ) (target : String) (call : EngineCall) : Work σ Reply := do
  match ← Work.ask engine call with
  | .ok reply => return reply
  | .error failure => giveUp failure s!"ensuring index '{target}'"

/-- Sets an index up for a model; `window` is how many hits a search may reach. -/
def ensureIndex (ctx : SearchContext) (engine : Engine σ) (logger : Logger) (model : ModelRef)
    (index : Option String) (window : Value) : Work σ Unit := do
  let target ← Work.ofExcept (ctx.resolveIndex index)
  let mapping ← Work.ofExcept do ctx.schema.mapping ctx.defaults.naming (← model.class?)
  let name ← Work.ofExcept model.className?
  Work.write logger .info s!"Ensuring index '{target}' for {name}..."
  let found ← demand engine target (.indexExists target)
  if found.isTruthy then
    let _ ← demand engine target (.putSettings target (changedSettings window))
    let properties := Entries.getD "properties" (mapping.asEntries?.getD [])
    let _ ← demand engine target (.putMapping target properties)
    Work.write logger .info s!"[{target}]\tIndex updated."
  else
    let _ ← demand engine target (.createIndex target (newSettings window) mapping)
    Work.write logger .info s!"[{target}]\tIndex created."

end SearchContext

end TypedSearch
