import TypedSearch.Schema.Completeness
import TypedSearch.Schema.Validation

/-!
# Construction of entities

Entities are made from named arguments. A model validates them. A record takes an argument for
each of its fields, a plain class for the fields of the classes it extends, then its own, then
the arguments that are no fields; what is not given has a fallback or is missing. A name that is
not asked for is refused.

* `Schema.validated`: an entity of a model.
* `Schema.construct`: an entity of a declared class.
-/

namespace TypedSearch

namespace Schema

/-- Sets an attribute, in its place if it is there and at the end otherwise. -/
def setAttribute (as : List (String × Value)) (name : String) (v : Value) :
    List (String × Value) :=
  if as.any (·.1 == name) then as.map fun a => if a.1 == name then (name, v) else a
  else as ++ [(name, v)]

/-- The attributes for named arguments; `wanted` lists the names with their fallbacks. -/
def bindArguments (args : List (String × Value)) :
    List (String × Option Value) → List (String × Value) → Except Fault (List (String × Value))
  | [], as => .ok as
  | (name, fallback) :: wanted, as =>
    match args.lookup name <|> fallback with
    | some v => bindArguments args wanted (setAttribute as name v)
    | none => .error .wrongType

/-- The arguments of the constructor of a plain class, in order. -/
def plainArguments (s : Schema) (cls : String) : List (String × Option Value) :=
  (s.lineage cls).flatMap fun c => c.fields.map (fun f => (f.name, f.fallback)) ++ c.initOnly

/-- The attributes that a constructor with the wanted arguments sets. -/
def bindAll (wanted : List (String × Option Value)) (args : List (String × Value)) :
    Except Fault (List (String × Value)) :=
  if args.all fun a => wanted.any (·.1 == a.1) then bindArguments args wanted []
  else .error .wrongType

/-- The entity that a model makes of the entries of an object. -/
def validated (s : Schema) (cls : String) (es : Entries) : Except Fault Value :=
  if s.isComplete cls then
    match s.acceptModel cls es with
    | some v => .ok v
    | none => .error .invalidData
  else .error .incompleteModel

/-- An entity of a declared class from named arguments. -/
def construct (s : Schema) (cls : String) (args : List (String × Value)) : Except Fault Value :=
  if s.isModel cls then s.validated cls (args.map fun a => (.str a.1, a.2))
  else
    match s.class? cls with
    | some c =>
      if c.kind = .record then
        let wanted := (s.recordFields cls).map fun f => (f.name, f.fallback)
        (bindAll wanted args).map (.entity .record cls)
      else (bindAll (s.plainArguments cls) args).map (.entity .plain cls)
    | none => .error .wrongType

end Schema

end TypedSearch
