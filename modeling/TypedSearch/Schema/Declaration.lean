import TypedSearch.Schema.Enumeration
import TypedSearch.Schema.TypeExpr

/-!
# Declared classes

The classes that describe documents: validated models, records with named arguments, plain
annotated classes, and enumerations. A class may extend an earlier one. The type of a field may
name a class that is declared later, which is settled when the types are read.

A model settles its types all at once: as long as one of its fields names a class that is not
declared, every field keeps the type that it had when the model was declared. The annotations of
other classes are read along the whole lineage, those that are overridden further down included.

* `Schema`: the declared classes, the latest first.
* `Schema.declare`: one more class.
* `Schema.hints`: the fields of a class with their types.
* `Schema.isStructured`: the type is a class that describes documents.
-/

namespace TypedSearch

/-! ## Declarations -/

/-- A field of a class, with types in the form `τ`. -/
structure FieldDecl (τ : Type) where
  name : String
  type : τ
  fallback : Option Value
  commonAlias : Option String
  storedAlias : Option String
  readAlias : Option String

/-- A declared class, with types in the form `τ`. `initOnly` are arguments of the constructor
that are no fields. `readsNames` says that data may use attribute names beside aliases. -/
structure ClassDecl (τ : Type) where
  name : String
  kind : EntityKind
  parent : Option String
  fields : List (FieldDecl τ)
  initOnly : List (String × Option Value)
  readsNames : Bool

/-- The conversions of validation: what a type makes of a value that it does not take otherwise, and
how many fields of models it reads on the way, if it comes through a model. -/
abbrev Conversion := TypeExpr → Value → Option (Value × Option Nat)

/-- Nothing is converted. -/
def Conversion.strict : Conversion := fun _ _ => none

/-- The declared classes and enumerations, the latest first, the types coined for them, and the
conversions that data go through. -/
structure Schema where
  classes : List (ClassDecl TypeExpr)
  enumerations : List Enumeration
  coined : List Coined
  conversion : Conversion

namespace FieldDecl

variable {τ : Type}

/-- The name under which a model writes the field. -/
def storedName (f : FieldDecl τ) : String := (f.storedAlias <|> f.commonAlias).getD f.name

/-- The name under which a model reads the field. -/
def readName (f : FieldDecl τ) : String := (f.readAlias <|> f.commonAlias).getD f.name

/-- The alias that replaces the name given by a naming; an empty one or the name itself counts
as none. -/
def wireAlias? (f : FieldDecl τ) : Option String :=
  let nonEmpty (a : Option String) := a.filter (· != "")
  (nonEmpty f.storedAlias <|> nonEmpty f.commonAlias).filter (· != f.name)

end FieldDecl

namespace Schema

/-- No classes. -/
def empty : Schema := ⟨[], [], [], .strict⟩

/-! ## Lookup -/

/-- A class by its name. -/
def class? (s : Schema) (name : String) : Option (ClassDecl TypeExpr) :=
  s.classes.find? (·.name == name)

/-- An enumeration by its name. -/
def enumeration? (s : Schema) (name : String) : Option Enumeration :=
  s.enumerations.find? (·.name == name)

/-- The name is declared. -/
def isDeclared (s : Schema) (name : String) : Bool :=
  (s.class? name).isSome || (s.enumeration? name).isSome

/-! ## Declaring -/

/-- The normal form of a type, and the types coined up to it. -/
def elaborate (s : Schema) (t : TypeSyntax) : TypeExpr × List Coined :=
  (t.elaborate s.isDeclared).run s.coined

/-- The schema behind one more type that is read. -/
def remember (s : Schema) (t : TypeSyntax) : Schema := { s with coined := (s.elaborate t).2 }

/-- The type with its references resolved, if all names are known. -/
def resolved (known : String → Bool) (t : TypeExpr) : TypeExpr :=
  (t.resolve known).toOption.getD t

/-- The fields of a class in normal form, and the types coined up to them. -/
def elaborateFields (s : Schema) (fs : List (FieldDecl TypeSyntax)) :
    List (FieldDecl TypeExpr) × List Coined :=
  let field (f : FieldDecl TypeSyntax) : Coinage (FieldDecl TypeExpr) := do
    return { f with type := ← f.type.elaborate s.isDeclared }
  (fs.mapM field).run s.coined

/-- One more class. Its types may name the classes before it, and those of a model the model
itself. -/
def declare (s : Schema) (c : ClassDecl TypeSyntax) : Schema :=
  let (fields, coined) := s.elaborateFields c.fields
  let known (name : String) : Bool := c.kind == .model && name == c.name
  let settled (f : FieldDecl TypeExpr) : FieldDecl TypeExpr :=
    { f with type := resolved (fun n => s.isDeclared n || known n) f.type }
  let fields := if c.kind = .model then fields.map settled else fields
  { s with classes := { c with fields } :: s.classes, coined }

/-- One more enumeration. -/
def declareEnumeration (s : Schema) (e : Enumeration) : Schema :=
  { s with enumerations := e :: s.enumerations }

/-! ## Inheritance -/

/-- A class and the classes it extends, the first of them in front. -/
def lineageIn : List (ClassDecl TypeExpr) → String → List (ClassDecl TypeExpr)
  | [], _ => []
  | c :: earlier, name =>
    if c.name = name then
      match c.parent with
      | some parent => lineageIn earlier parent ++ [c]
      | none => [c]
    else lineageIn earlier name

/-- A class and the classes it extends, the first of them in front. -/
def lineage (s : Schema) (name : String) : List (ClassDecl TypeExpr) := lineageIn s.classes name

/-- Adds a field behind the others; one of the same name is replaced in its place. -/
def overriding (fs : List (FieldDecl TypeExpr)) (f : FieldDecl TypeExpr) :
    List (FieldDecl TypeExpr) :=
  if fs.any (·.name == f.name) then fs.map fun g => if g.name == f.name then f else g
  else fs ++ [f]

/-- All annotated names of a class: those of the classes it extends come first. -/
def annotations (s : Schema) (name : String) : List (FieldDecl TypeExpr) :=
  ((s.lineage name).flatMap (·.fields)).foldl overriding []

/-- The class is a model, by itself or by a class it extends. -/
def isModel (s : Schema) (name : String) : Bool := (s.lineage name).any (·.kind == .model)

/-- The class is a record, by itself or by a class it extends. -/
def isRecord (s : Schema) (name : String) : Bool := (s.lineage name).any (·.kind == .record)

/-! ## Fields -/

/-- The type annotates something that belongs to the class and not to its entities. -/
def isConstant : TypeExpr → Bool
  | .constant _ => true
  | _ => false

/-- The name is private to its class. -/
def isPrivate (name : String) : Bool := name.toList.head? == some '_'

/-- The fields that a model validates and writes. -/
def modelFields (s : Schema) (name : String) : List (FieldDecl TypeExpr) :=
  (s.annotations name).filter fun f =>
    !isPrivate f.name && !isConstant f.type && !(f.type matches .bareConstant)

/-- The fields of a record: what the records of the lineage annotate. -/
def recordFields (s : Schema) (name : String) : List (FieldDecl TypeExpr) :=
  let own := ((s.lineage name).filter (·.kind == .record)).flatMap (·.fields)
  (own.foldl overriding []).filter fun f =>
    !isConstant f.type && !(f.type matches .bareConstant)

/-- The fields with their references resolved, or the first name that is not declared. -/
def resolveFields (s : Schema) : List (FieldDecl TypeExpr) →
    Except String (List (FieldDecl TypeExpr))
  | [] => .ok []
  | f :: fs => do
    let type ← f.type.resolve s.isDeclared
    return { f with type } :: (← resolveFields s fs)

/-- The fields of a model with all references resolved, or as they were declared if one of them
does not resolve. -/
def settledFields (s : Schema) (name : String) : List (FieldDecl TypeExpr) :=
  (resolveFields s (s.modelFields name)).toOption.getD (s.modelFields name)

/-- The fields of a record, each with its references resolved as far as the names are known. -/
def settledRecordFields (s : Schema) (name : String) : List (FieldDecl TypeExpr) :=
  (s.recordFields name).map fun f => { f with type := resolved s.isDeclared f.type }

/-- The annotations of a class and of the classes it extends, with their references resolved. -/
def resolvedAnnotations (s : Schema) (name : String) : Except String (List (FieldDecl TypeExpr)) :=
  (resolveFields s ((s.lineage name).flatMap (·.fields))).map (·.foldl overriding [])

/-- The fields of a class with their types. Private names and constants of a class are no
fields, and neither is anything in an enumeration. -/
def hints (s : Schema) (name : String) : Except Fault (List (String × TypeExpr)) :=
  let typed (fs : List (FieldDecl TypeExpr)) := fs.map fun f => (f.name, f.type)
  if s.isModel name then .ok (typed (s.settledFields name))
  else
    match s.resolvedAnnotations name with
    | .ok fs => .ok (typed (fs.filter fun f => !isPrivate f.name && !isConstant f.type))
    | .error missing => .error (.unresolvedReference name missing)

/-- The fields of a condition. -/
def conditionHints : List (String × TypeExpr) :=
  [("field_path", .basic .text), ("operator", .basic .text), ("value", .any)]

/-- The types as they are read for a target that may be any type. Parametrized collections
and most basic classes have no fields; a union or a reference cannot be read. -/
def hintsOf (s : Schema) : TypeExpr → Except Fault (List (String × TypeExpr))
  | .named cls | .generic cls _ => s.hints cls
  | .basic .condition => .ok conditionHints
  | .union _ => .error (.noHints "typing.Union")
  | .literal _ => .error (.noHints "typing.Literal")
  | .constant _ | .bareConstant => .error (.noHints "typing.ClassVar")
  | .variable => .error (.noHints "~T")
  | .forward cls => .error (.noHints (TypeExpr.forward cls).display)
  | _ => .ok []

/-- The alias of a field in stored documents; only models have aliases. -/
def alias? (s : Schema) (cls name : String) : Option String :=
  if s.isModel cls then
    ((s.modelFields cls).find? (·.name == name)).bind (·.wireAlias?)
  else none

/-! ## Tests on types -/

/-- The class behind a type that is a class by name or by name and argument. -/
def classOf? : TypeExpr → Option String
  | .named cls | .generic cls _ => some cls
  | _ => none

/-- The type is a class. -/
def isClass : TypeExpr → Bool
  | .basic _ | .null | .any | .named _ => true
  | _ => false

/-- The type is a class that describes documents: a model, a record, or a plain class with
annotations of its own. -/
def isStructured (s : Schema) : TypeExpr → Bool
  | .named cls =>
    match s.class? cls with
    | some c => s.isModel cls || s.isRecord cls || !c.fields.isEmpty
    | none => false
  | _ => false

/-- The type is an enumeration. -/
def isEnumeration (s : Schema) : TypeExpr → Bool
  | .named cls => (s.enumeration? cls).isSome
  | _ => false

end Schema

end TypedSearch
