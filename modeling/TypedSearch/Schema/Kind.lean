import TypedSearch.Schema.Declaration
import TypedSearch.Schema.Wrapper

/-!
# Kinds of fields

How the engine indexes a field, as it follows from the field's type. An array is indexed as its
elements are, except that an array of structured elements is nested: its elements can be matched
one by one.

* `FieldKind`: the kinds.
* `Schema.classify`: the kind of a type.
-/

namespace TypedSearch

/-- How a field is indexed. -/
inductive FieldKind where
  | keyword
  | text
  | long
  | number
  | date
  | boolean
  | object
  | nested
  | unknown
  deriving DecidableEq, Repr

/-- The engine's word for a kind. -/
def FieldKind.name : FieldKind → String
  | .keyword => "keyword"
  | .text => "text"
  | .long => "long"
  | .number => "double"
  | .date => "date"
  | .boolean => "boolean"
  | .object => "object"
  | .nested => "nested"
  | .unknown => "unknown"

/-- All kinds. -/
def FieldKind.all : List FieldKind :=
  [.keyword, .text, .long, .number, .date, .boolean, .object, .nested, .unknown]

/-- The kind with a given word. -/
def FieldKind.ofName? (name : String) : Option FieldKind :=
  FieldKind.all.find? (·.name == name)

/-- The kind of a basic class. -/
def BasicType.kind : BasicType → FieldKind
  | .boolean => .boolean
  | .integer => .long
  | .double | .decimal => .number
  | .datetime | .date => .date
  | .text | .uuid => .keyword
  | .dict => .object
  | _ => .unknown

namespace Schema

/-- The kind of a type without wrappers, by markers first. -/
def kindOf (s : Schema) (markers : List Marker) (t : TypeExpr) : FieldKind :=
  if markers.contains .text then .text
  else if markers.contains .keyword then .keyword
  else if t.isDict then .object
  else
    match t with
    | .basic b => b.kind
    | .named _ =>
      if s.isEnumeration t then .keyword else if s.isStructured t then .object else .unknown
    | _ => .unknown

/-- The kind of a type. -/
def classify (s : Schema) (t : TypeExpr) : FieldKind :=
  let (bare, markers) := t.unwrap
  match bare.item? with
  | some item =>
    let (inner, innerMarkers) := item.unwrap
    if s.isStructured inner then .nested else s.kindOf (markers ++ innerMarkers) inner
  | none => s.kindOf markers bare

end Schema

end TypedSearch
