import TypedSearch.Value.Equality
import TypedSearch.Value.Display

/-!
# Types of fields

The types that annotate the fields of classes. A type is written as a `TypeSyntax`; writing it
out normalizes it to a `TypeExpr`: unions are flat and without repetition, a union of one type
is that type, and markers of nested annotations are in one list. A name that is not declared yet
stays a forward reference.

There are two spellings of unions. `TypeExpr.union` is the written-out one; `TypeExpr.pipe` is
the one of plain classes joined by a bar, which becomes a written-out union as soon as one of
its members is not a plain class. Two unions are the same type when they have the same members,
in any order and either spelling.

A type in a generic spelling is coined once: made again of the same types, it is the type that
was made first, with the order and the spelling of the unions inside it.

* `TypeSyntax.elaborate`: the normal form of a type.
* `TypeExpr.resolve`: forward references become classes.
* `TypeExpr.name`, `TypeExpr.display`: the texts of a type.
-/

namespace TypedSearch

open Text

/-! ## Vocabulary -/

/-- The classes that need no declaration; `field` and `condition` are those of the parts of
queries. -/
inductive BasicType where
  | text
  | integer
  | double
  | boolean
  | bytes
  | datetime
  | date
  | time
  | decimal
  | uuid
  | object
  | url
  | list
  | tuple
  | set
  | dict
  | frozenset
  | field
  | condition
  deriving DecidableEq, Repr

/-- Collection types without their element types, in their generic spelling. -/
inductive BareAlias where
  | list
  | tuple
  | set
  | dict
  deriving DecidableEq, Repr

/-- Collection types with element types. `plainList` and `plainDict` are the spellings by the
class itself. An `openTuple` has any number of elements of one type. -/
inductive Container where
  | list
  | plainList
  | set
  | frozenset
  | sequence
  | tuple
  | openTuple
  | dict
  | plainDict
  | mapping
  deriving DecidableEq, Repr

/-- What an annotation adds to a type. The class of the text marker and a free note have no
effect. -/
inductive Marker where
  | text
  | keyword
  | textClass
  | note
  deriving DecidableEq, Repr

/-! ## Types -/

/-- A type as it is written. -/
inductive TypeSyntax where
  | basic (b : BasicType)
  | null
  | any
  | variable
  | bare (a : BareAlias)
  | bareConstant
  | reference (cls : String)
  | apply (c : Container) (args : List TypeSyntax)
  | optional (t : TypeSyntax)
  | union (members : List TypeSyntax)
  | pipe (members : List TypeSyntax)
  | annotated (t : TypeSyntax) (markers : List Marker)
  | literal (choices : List Value)
  | constant (t : TypeSyntax)
  | generic (cls : String) (arg : TypeSyntax)
  deriving Inhabited

/-- A type in normal form. -/
inductive TypeExpr where
  | basic (b : BasicType)
  | null
  | any
  | variable
  | bare (a : BareAlias)
  | bareConstant
  | named (cls : String)
  | forward (cls : String)
  | apply (c : Container) (args : List TypeExpr)
  | union (members : List TypeExpr)
  | pipe (members : List TypeExpr)
  | annotated (t : TypeExpr) (markers : List Marker)
  | literal (choices : List Value)
  | constant (t : TypeExpr)
  | generic (cls : String) (arg : TypeExpr)
  deriving Inhabited

/-! ## Equality of types -/

/-- The choices of two literal types are the same. -/
def sameChoices (xs ys : List Value) : Bool :=
  let within (as bs : List Value) :=
    as.all fun a => bs.any fun b => a.typeName == b.typeName && a.equals b
  within xs ys && within ys xs

namespace TypeExpr

mutual

/-- The two types are the same; order and spelling of a union do not matter. -/
def same : TypeExpr → TypeExpr → Bool
  | .basic a, .basic b => a == b
  | .null, .null => true
  | .any, .any => true
  | .variable, .variable => true
  | .bare a, .bare b => a == b
  | .bareConstant, .bareConstant => true
  | .named a, .named b => a == b
  | .forward a, .forward b => a == b
  | .apply c as, .apply d bs => c == d && sameLists as bs
  | .union as, .union bs | .union as, .pipe bs | .pipe as, .union bs | .pipe as, .pipe bs =>
    as.length == bs.length && sameWithin as bs
  | .annotated s ms, .annotated t ns => s.same t && ms == ns
  | .literal xs, .literal ys => sameChoices xs ys
  | .constant s, .constant t => s.same t
  | .generic a s, .generic b t => a == b && s.same t
  | _, _ => false
termination_by structural t => t

/-- The two lists hold the same types in the same places. -/
def sameLists : List TypeExpr → List TypeExpr → Bool
  | [], [] => true
  | a :: as, b :: bs => a.same b && sameLists as bs
  | _, _ => false
termination_by structural ts => ts

/-- Every type of the first list is in the second. -/
def sameWithin : List TypeExpr → List TypeExpr → Bool
  | [], _ => true
  | a :: as, bs => (bs.any fun b => a.same b) && sameWithin as bs
termination_by structural ts => ts

end

/-! ## Unions -/

/-- The type is the type of null. -/
def isNull : TypeExpr → Bool
  | .null => true
  | _ => false

/-- The members of a union, or the type itself. -/
def members : TypeExpr → List TypeExpr
  | .union ts | .pipe ts => ts
  | t => [t]

/-- The types of a list, each once. -/
def distinct (ts : List TypeExpr) : List TypeExpr :=
  ts.foldl (fun kept t => if kept.any fun s => s.same t then kept else kept ++ [t]) []

/-- The union of types. -/
def unionOf (ts : List TypeExpr) : TypeExpr :=
  match distinct (ts.flatMap members) with
  | [t] => t
  | ts => .union ts

/-- A bar joins the type to another one without writing out a union. -/
def isPlain : TypeExpr → Bool
  | .basic _ | .null | .any | .named _ | .pipe _ => true
  | .apply .plainList _ | .apply .plainDict _ => true
  | _ => false

/-- Two types joined by a bar. -/
def orElse (s t : TypeExpr) : TypeExpr :=
  if s.isPlain && t.isPlain then
    match distinct (s.members ++ t.members) with
    | [u] => u
    | us => .pipe us
  else unionOf [s, t]

/-- Types joined by bars. -/
def pipeOf : List TypeExpr → TypeExpr
  | [] => .null
  | t :: ts => ts.foldl orElse t

/-- A type with markers. -/
def annotate (t : TypeExpr) (ms : List Marker) : TypeExpr :=
  match t with
  | .annotated s ns => .annotated s (ns ++ ms)
  | t => .annotated t ms

/-- A type of one of the given values, each once. -/
def literalOf (choices : List Value) : TypeExpr :=
  .literal (choices.foldl
    (fun kept v => if kept.any fun u => u.typeName == v.typeName && u.equals v then kept
      else kept ++ [v]) [])

end TypeExpr

/-! ## Coined types -/

/-- How a type is made of other types. -/
inductive Maker where
  | apply (c : Container)
  | union
  | annotated (markers : List Marker)
  | constant
  | generic (cls : String)
  deriving DecidableEq, Repr

/-- A type that was made, with what it was made of. -/
structure Coined where
  maker : Maker
  parts : List TypeExpr
  type : TypeExpr

/-- A computation that coins types behind those that are there. -/
abbrev Coinage := StateM (List Coined)

/-- The type that was made first of the same parts, or else the given one, which is coined. -/
def coin (maker : Maker) (parts : List TypeExpr) (type : TypeExpr) : Coinage TypeExpr := do
  let coined ← get
  match coined.find? fun c => c.maker == maker && TypeExpr.sameLists c.parts parts with
  | some c => return c.type
  | none =>
    set (coined ++ [⟨maker, parts, type⟩])
    return type

/-- The collection is spelled by its class; such a type is made anew each time. -/
def Container.isOwnClass : Container → Bool
  | .plainList | .plainDict => true
  | _ => false

/-- Types joined by bars. A union that is written out is coined. -/
def joinAll (t : TypeExpr) : List TypeExpr → Coinage TypeExpr
  | [] => pure t
  | u :: us => do
    let joined ←
      if t.isPlain && u.isPlain then pure (t.orElse u) else coin .union [t, u] (t.orElse u)
    joinAll joined us

/-! ## Elaboration -/

mutual

/-- The normal form of a type, given which classes are declared. -/
def TypeSyntax.elaborate (declared : String → Bool) : TypeSyntax → Coinage TypeExpr
  | .basic b => pure (.basic b)
  | .null => pure .null
  | .any => pure .any
  | .variable => pure .variable
  | .bare a => pure (.bare a)
  | .bareConstant => pure .bareConstant
  | .reference cls => pure (if declared cls then .named cls else .forward cls)
  | .apply c args => do
    let args ← elaborateAll declared args
    if c.isOwnClass then pure (.apply c args) else coin (.apply c) args (.apply c args)
  | .optional t => do
    let t ← t.elaborate declared
    coin .union [t, .null] (.unionOf [t, .null])
  | .union ts => do
    let ts ← elaborateAll declared ts
    coin .union ts (.unionOf ts)
  | .pipe ts => do
    match ← elaborateAll declared ts with
    | [] => pure .null
    | t :: ts => joinAll t ts
  | .annotated t ms => do
    let t ← t.elaborate declared
    coin (.annotated ms) [t] (.annotate t ms)
  | .literal vs => pure (.literalOf vs)
  | .constant t => do
    let t ← t.elaborate declared
    coin .constant [t] (.constant t)
  | .generic cls t => do
    let t ← t.elaborate declared
    coin (.generic cls) [t] (.generic cls t)
termination_by structural t => t

/-- The normal forms of types, made in order. -/
def elaborateAll (declared : String → Bool) : List TypeSyntax → Coinage (List TypeExpr)
  | [] => pure []
  | t :: ts => do
    let t ← t.elaborate declared
    return t :: (← elaborateAll declared ts)
termination_by structural ts => ts

end

/-! ## Resolution -/

mutual

/-- The type with its forward references resolved, or the first name that is not declared. -/
def TypeExpr.resolve (declared : String → Bool) : TypeExpr → Except String TypeExpr
  | .forward cls => if declared cls then .ok (.named cls) else .error cls
  | .apply c args => do return .apply c (← resolveAll declared args)
  | .union ts => do return .unionOf (← resolveAll declared ts)
  | .pipe ts => do return .pipeOf (← resolveAll declared ts)
  | .annotated t ms => do return .annotate (← t.resolve declared) ms
  | .constant t => do return .constant (← t.resolve declared)
  | .generic cls t => do return .generic cls (← t.resolve declared)
  | t => .ok t
termination_by structural t => t

/-- The types with their forward references resolved. -/
def resolveAll (declared : String → Bool) : List TypeExpr → Except String (List TypeExpr)
  | [] => .ok []
  | t :: ts => do
    let t ← t.resolve declared
    return t :: (← resolveAll declared ts)
termination_by structural ts => ts

end

/-! ## Texts -/

/-- The name of a basic class. -/
def BasicType.name : BasicType → String
  | .text => "str"
  | .integer => "int"
  | .double => "float"
  | .boolean => "bool"
  | .bytes => "bytes"
  | .datetime => "datetime"
  | .date => "date"
  | .time => "time"
  | .decimal => "Decimal"
  | .uuid => "UUID"
  | .object => "object"
  | .url => "AnyUrl"
  | .list => "list"
  | .tuple => "tuple"
  | .set => "set"
  | .dict => "dict"
  | .frozenset => "frozenset"
  | .field => "Field"
  | .condition => "FilterCondition"

/-- The name of a basic class with the module that holds it. -/
def BasicType.qualifiedName : BasicType → String
  | .datetime => "datetime.datetime"
  | .date => "datetime.date"
  | .time => "datetime.time"
  | .decimal => "decimal.Decimal"
  | .uuid => "uuid.UUID"
  | .url => "pydantic.networks.AnyUrl"
  | .field => "async_es_query.base.fields.Field"
  | .condition => "async_es_query.base.fields.FilterCondition"
  | b => b.name

/-- The name of a bare collection type. -/
def BareAlias.name : BareAlias → String
  | .list => "List"
  | .tuple => "Tuple"
  | .set => "Set"
  | .dict => "Dict"

/-- The name of a collection type, and whether it is in the generic spelling. -/
def Container.spelling : Container → String × Bool
  | .list => ("List", true)
  | .plainList => ("list", false)
  | .set => ("Set", true)
  | .frozenset => ("FrozenSet", true)
  | .sequence => ("Sequence", true)
  | .tuple | .openTuple => ("Tuple", true)
  | .dict => ("Dict", true)
  | .plainDict => ("dict", false)
  | .mapping => ("Mapping", true)

/-- The display of a marker. -/
def Marker.display : Marker → String
  | .text => "Text()"
  | .keyword => "Keyword()"
  | .textClass => "<class 'async_es_query.base.types.Text'>"
  | .note => "'note'"

/-- The name of a declared class with the module that holds it. -/
def qualified (cls : String) : String := "models." ++ cls

/-- The mark in front of generic spellings. -/
def genericMark : String := "typing."

namespace TypeExpr

mutual

/-- The text of a type inside other types. -/
def render : TypeExpr → String
  | .basic b => b.qualifiedName
  | .null => "NoneType"
  | .any => genericMark ++ "Any"
  | .variable => "~T"
  | .bare a => genericMark ++ a.name
  | .bareConstant => genericMark ++ "ClassVar"
  | .named cls => qualified cls
  | .forward cls => "ForwardRef(" ++ quoted cls ++ ")"
  | .apply c args =>
    let (name, isGeneric) := c.spelling
    let texts := renderAll args ++ (if c = .openTuple then ["..."] else [])
    (if isGeneric then genericMark ++ name else name) ++ "[" ++
      (if texts.isEmpty then "()" else join ", " texts) ++ "]"
  | .union ts =>
    match ts, renderAll ts with
    | [_, .null], [s, _] => genericMark ++ "Optional[" ++ s ++ "]"
    | [.null, _], [_, s] => genericMark ++ "Optional[" ++ s ++ "]"
    | _, ss => genericMark ++ "Union[" ++ join ", " ss ++ "]"
  | .pipe ts => join " | " (renderPiped ts)
  | .annotated t ms =>
    genericMark ++ "Annotated[" ++ join ", " (t.render :: ms.map Marker.display) ++ "]"
  | .literal vs => genericMark ++ "Literal[" ++ join ", " (vs.map Value.display) ++ "]"
  | .constant t => genericMark ++ "ClassVar[" ++ t.render ++ "]"
  | .generic cls t => qualified cls ++ "[" ++ t.render ++ "]"
termination_by structural t => t

/-- The texts of types inside another type. -/
def renderAll : List TypeExpr → List String
  | [] => []
  | t :: ts => t.render :: renderAll ts
termination_by structural ts => ts

/-- The texts of types between bars, where the type of null is written shorter. -/
def renderPiped : List TypeExpr → List String
  | [] => []
  | t :: ts => (if t.isNull then "None" else t.render) :: renderPiped ts
termination_by structural ts => ts

end

/-- The name of a type: of a class its bare name, of any other type its text. The mark is taken
out of the whole text, also where it stands inside a literal. -/
def name : TypeExpr → String
  | .basic b => b.name
  | .variable => "T"
  | .named cls => cls
  | t => without genericMark t.render

/-- The display of a type, with the mark of a class and of generic spellings. -/
def display : TypeExpr → String
  | .basic b => "<class '" ++ b.qualifiedName ++ "'>"
  | .null => "<class 'NoneType'>"
  | .named cls => "<class '" ++ qualified cls ++ "'>"
  | t => t.render

end TypeExpr

end TypedSearch
