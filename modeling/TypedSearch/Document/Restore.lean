import TypedSearch.Document.Rename
import TypedSearch.Schema.Construction
import TypedSearch.Value.Demand

/-!
# Restoring of entities

An entity is made again from the document that the engine returns. The keys are renamed back,
and the engine's id fills the application's id where the document lacks it. A model validates
the document; any other class is constructed from the entries that its annotations name.

* `Schema.restore`: the entity of a document.
-/

namespace TypedSearch

namespace Schema

/-- The names that a class annotates. While a reference of it does not resolve, only its own
annotations count and not those of the classes it extends. -/
def annotatedNames (s : Schema) (cls : String) : List String :=
  match s.resolvedAnnotations cls with
  | .ok fs => fs.map (·.name)
  | .error _ => (((s.class? cls).map (·.fields)).getD []).map (·.name)

/-- The entries with the given names, as named arguments. -/
def namedArguments (names : List String) (es : Entries) : List (String × Value) :=
  es.filterMap fun e => e.1.asText?.bind fun key => if key ∈ names then some (key, e.2) else none

/-- The value that a basic class makes of no arguments, if it makes one. -/
def basicDefault? : BasicType → Option Value
  | .text => some (.str "")
  | .integer => some (.int 0)
  | .double => some (.double (Double.zero false))
  | .boolean => some (.bool false)
  | .bytes => some (.bytes [])
  | .decimal => some (.decimal (.finite false 0 0))
  | .object => some .featureless
  | .list => some (.list [])
  | .tuple => some (.tuple [])
  | .set => some (.set [])
  | .dict => some (.dict [])
  | .frozenset => some (.frozenset [])
  | _ => none

/-- The type of what a type makes when it is used as a constructor: markers add nothing, and a
collection type spelled by its class makes an empty collection. -/
def constructedType : TypeExpr → TypeExpr
  | .annotated t _ => constructedType t
  | .apply .plainList _ => .basic .list
  | .apply .plainDict _ => .basic .dict
  | t => t

/-- The model that is given, by its class or by an entity of it. -/
def modelGiven? (s : Schema) : ModelRef → Option String
  | .type t =>
    match constructedType t with
    | .named cls => if s.isModel cls then some cls else none
    | _ => none
  | .value (.entity .model cls _) => some cls
  | _ => none

/-- The entity that a class makes of the entries of an object. -/
def instantiate (s : Schema) (model : ModelRef) (es : Entries) : Except Fault Value :=
  let refused : Except Fault Value := model.className?.bind fun name => .error (.notRestorable name)
  match s.modelGiven? model, model with
  | some cls, _ => s.validated cls es
  | none, .type (.named cls) =>
    match s.construct cls (namedArguments (s.annotatedNames cls) es) with
    | .ok v => .ok v
    | .error _ => refused
  | none, .type t =>
    match constructedType t with
    | .basic b =>
      match basicDefault? b with
      | some v => .ok v
      | none => refused
    | .null => .ok .null
    | _ => refused
  | none, .value (.field _) => .error .wrongType
  | none, _ => refused

/-- Fills the application's id with the engine's where it is missing. -/
def fillId (appId : String) (id : Value) (es : Entries) : Entries :=
  if id.isNull || Entries.has appId es then es else Entries.put appId id es

/-- The entity of a document with the engine's id. -/
def restore (s : Schema) (naming : Option Naming) (appId : String) (model : ModelRef)
    (source id : Value) : Except Fault Value :=
  if source.isNull then .error .noSource
  else do
    let renamed ← s.rename naming .fromWire model source
    let es ← renamed.toEntries
    s.instantiate model (fillId appId id es)

end Schema

end TypedSearch
