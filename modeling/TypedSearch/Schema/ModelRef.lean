import TypedSearch.Schema.Path

/-!
# References to models

What a caller gives as a model: nothing, a type, or some other value by mistake. Only a type
that is a class can be a model.

* `ModelRef.class?`: the class, or a fault that shows what was given instead.
* `ModelRef.className?`: the name for messages, if what was given has one.
-/

namespace TypedSearch

/-- What is given as a model. -/
inductive ModelRef where
  | absent
  | type (t : TypeExpr)
  | value (v : Value)

/-! ## Displays of classes -/

/-- The display of the type of a value. -/
def Value.typeDisplay : Value → String
  | .decimal _ => TypeExpr.display (.basic .decimal)
  | .uuid _ => TypeExpr.display (.basic .uuid)
  | .date _ => TypeExpr.display (.basic .date)
  | .datetime _ => TypeExpr.display (.basic .datetime)
  | .url _ => TypeExpr.display (.basic .url)
  | .member enumeration _ _ _ => "<enum '" ++ enumeration ++ "'>"
  | .entity _ cls _ => TypeExpr.display (.named cls)
  | .field _ => TypeExpr.display (.basic .field)
  | .condition _ _ _ => TypeExpr.display (.basic .condition)
  | v => "<class '" ++ v.typeName ++ "'>"

/-- The display of the type of a type. -/
def TypeExpr.typeDisplay : TypeExpr → String
  | .apply .plainList _ | .apply .plainDict _ => "<class 'types.GenericAlias'>"
  | .apply _ _ | .generic _ _ | .constant _ => "<class 'typing._GenericAlias'>"
  | .union _ => "<class 'typing._UnionGenericAlias'>"
  | .pipe _ => "<class 'types.UnionType'>"
  | .annotated _ _ => "<class 'typing._AnnotatedAlias'>"
  | .literal _ => "<class 'typing._LiteralGenericAlias'>"
  | .bare .tuple => "<class 'typing._TupleType'>"
  | .bare _ => "<class 'typing._SpecialGenericAlias'>"
  | .bareConstant => "<class 'typing._SpecialForm'>"
  | .variable => "<class 'typing.TypeVar'>"
  | .forward _ => "<class 'typing.ForwardRef'>"
  | .any => "<class 'typing._AnyMeta'>"
  | _ => "<class 'type'>"

/-- The name that a type has as an object, if it has one. -/
def TypeExpr.objectName? : TypeExpr → Option String
  | .apply c _ => some c.spelling.1
  | .generic cls _ => some cls
  | .union ts => some (if isOptional ts && ts.length == 2 then "Optional" else "Union")
  | .annotated _ _ => some "Annotated"
  | .literal _ => some "Literal"
  | .constant _ => some "ClassVar"
  | .bare a => some a.name
  | .pipe _ | .forward _ => none
  | t => some t.name

namespace ModelRef

/-- No model is given. -/
def isAbsent : ModelRef → Bool
  | .absent => true
  | .type _ => false
  | .value v => v.isNull

/-- Some model is given: neither nothing nor a value that counts as false. -/
def isGiven : ModelRef → Bool
  | .absent => false
  | .type _ => true
  | .value v => v.isTruthy

/-- What is given can be a key, as every type can. -/
def isKey : ModelRef → Bool
  | .value v => v.isKey
  | _ => true

/-- The class that is given. -/
def class? : ModelRef → Except Fault TypeExpr
  | .type t => if Schema.isClass t then .ok t else .error (.notAClass t.typeDisplay)
  | .value v => .error (.notAClass v.typeDisplay)
  | .absent => .error (.notAClass (Value.typeDisplay .null))

/-- The name of what is given. -/
def className? : ModelRef → Except Fault String
  | .type t =>
    match t.objectName? with
    | some name => .ok name
    | none => .error .missingAttribute
  | .value (.field _) => .error (.fieldAttribute "__name__")
  | _ => .error .missingAttribute

/-- The type whose fields are listed: the one given, or that of the model itself. A value that
is not a type has no fields. -/
def target? (model : TypeExpr) : ModelRef → Except Fault TypeExpr
  | .absent => .ok model
  | .type t => .ok t
  | .value v => if v.isTruthy then .error (.noHints v.display) else .ok model

end ModelRef

end TypedSearch
