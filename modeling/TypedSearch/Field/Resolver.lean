import TypedSearch.Field.Chain
import TypedSearch.Schema.ModelRef
import TypedSearch.Text.Blank

/-!
# Resolution of fields

A descriptor denotes a field by a member chain; it is a field or a text. Resolving it gives the
name under which the engine has the field and the field's kind. With a model every segment is
checked; without one a path is taken as it stands and its kind is not known.

A field may be scoped by an ancestor, which must be a nested array. The field then is a member of
one element of the array, and its path may be given from the root or from the element.

* `descriptorPath`: the path that a descriptor denotes.
* `Resolver.resolve`: the field, as the engine has it.
-/

namespace TypedSearch

open Text

/-- A field as the engine has it, with the nested array that scopes it. -/
structure FieldPath where
  wire : String
  kind : FieldKind
  nested : Option String
  deriving DecidableEq, Repr

namespace FieldPath

/-- The field is scoped by a nested array. -/
def isNested (f : FieldPath) : Bool := f.nested.isSome

end FieldPath

/-- A path that is a member chain. -/
def checkedChain (path : String) : Except Fault String :=
  if isChain path then .ok path else .error (.notAChain path)

/-- The path that a descriptor denotes. Blanks around a text do not count. -/
def descriptorPath (v : Value) : Except Fault String :=
  match v with
  | .field path => checkedChain path
  | v =>
    match v.asText? with
    | some text => checkedChain (trim text)
    | none => .error ((Fault.notADescriptor v).showing v)

/-- What fields are resolved with. -/
structure Resolver where
  schema : Schema
  naming : Option Naming
  model : Option TypeExpr

namespace Resolver

/-- The resolver for what is given as a model. -/
def ofModel (s : Schema) (naming : Option Naming) (model : ModelRef) : Except Fault Resolver :=
  if model.isGiven then model.class?.map fun t => ⟨s, naming, some t⟩ else .ok ⟨s, naming, none⟩

/-- Names for all segments. -/
def nameAll (f : Naming) : List String → Except Fault (List String)
  | [] => .ok []
  | n :: ns =>
    match f n with
    | .error e => .error e
    | .ok wire => (nameAll f ns).map (wire :: ·)

/-- The path of stored names. -/
def wire (r : Resolver) (path : String) : Except Fault String :=
  match r.model, r.naming with
  | some t, _ => r.schema.wirePath r.naming t path
  | none, some f => (nameAll f (split '.' path)).map (join ".")
  | none, none => .ok path

/-- The kind of the field at a path. -/
def kind (r : Resolver) (path : String) : Except Fault FieldKind :=
  match r.model with
  | some t => r.schema.kindAt r.naming t path
  | none => .ok .unknown

/-- The ancestor can scope a field. -/
def checkScope (r : Resolver) (ancestor : String) : Except Fault Unit :=
  match r.model with
  | none => .ok ()
  | some t =>
    match r.schema.isNestedArray r.naming t ancestor with
    | .error e => .error e
    | .ok true => .ok ()
    | .ok false => .error (.notNestedArray ancestor t.name)

/-- The path of a member of an ancestor, from the root. -/
def underAncestor (ancestor path : String) : String :=
  if startsWith (ancestor ++ ".") path then path else ancestor ++ "." ++ path

/-- The field that a descriptor denotes, scoped by an ancestor if one is given. -/
def resolve (r : Resolver) (field : Value) (nested : Option Value) : Except Fault FieldPath := do
  let path ← descriptorPath field
  match nested with
  | none =>
    let wire ← r.wire path
    let kind ← r.kind path
    return { wire, kind, nested := none }
  | some scope =>
    let ancestor ← descriptorPath scope
    if path = ancestor then throw (.scopeItself path)
    r.checkScope ancestor
    let whole := underAncestor ancestor path
    let wire ← r.wire whole
    let kind ← r.kind whole
    let scopeWire ← r.wire ancestor
    return { wire, kind, nested := some scopeWire }

end Resolver

end TypedSearch
