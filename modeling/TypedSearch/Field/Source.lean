import TypedSearch.Schema.ModelRef

/-!
# Sources of fields

A query names its fields through a source. The source of a model lists the model's fields; below
each of them every name is a field, since paths are checked when they are resolved. The open
source, for queries without a model, takes every name.

* `FieldSource`: the two kinds of sources.
* `Reached.walk`: where a row of accesses leads.
* `Value.getAttribute?`: an attribute of a value.
* `compare`: the condition between a field and an operand.
-/

namespace TypedSearch

open Text

/-! ## Sources -/

/-- A source of fields. -/
inductive FieldSource where
  | any
  | listed (names : List String)
  deriving DecidableEq, Repr

namespace FieldSource

/-- The source of a model, which lists the fields of the model's class. -/
def ofModel (s : Schema) (model : ModelRef) : Except Fault FieldSource :=
  if model.isKey then
    model.className?.bind fun shown =>
      match model.class?.bind (s.fieldsOf none) with
      | .ok fields => .ok (.listed (fields.map (·.name)))
      | .error _ => .error (.noFieldList shown)
  else .error .wrongType

/-- The names that a source lists. -/
def names : FieldSource → List String
  | .any => []
  | .listed names => names

end FieldSource

/-! ## Accesses -/

/-- One access: by an attribute name or by an item. -/
inductive Access where
  | name (name : String)
  | item (v : Value)

/-- What accesses lead to: a source, a field, another value, which may be an operation of a
field, or an operation of another thing. -/
inductive Reached where
  | source (src : FieldSource)
  | field (path : String)
  | value (v : Value)
  | operation

/-- The operations of a field by their names. -/
def fieldOperations : List String :=
  ["like", "not_like", "in_", "nin", "_op", "__eq__", "__ge__", "__getattr__", "__getitem__",
    "__gt__", "__init__", "__le__", "__lt__", "__ne__", "__repr__", "__setattr__"]

/-- The names of operations that everything has. -/
def commonOperations : List String :=
  ["__class__", "__delattr__", "__dir__", "__eq__", "__format__", "__ge__", "__getattribute__",
    "__getstate__", "__gt__", "__init__", "__init_subclass__", "__le__", "__lt__", "__ne__",
    "__new__", "__reduce__", "__reduce_ex__", "__repr__", "__setattr__", "__sizeof__", "__str__",
    "__subclasshook__"]

namespace Reached

/-- An attribute of a source. -/
def ofSource (src : FieldSource) (name : String) : Except Fault Reached :=
  match src with
  | .any =>
    if name ∈ commonOperations ∨ name = "__getattr__" ∨ name = "__hash__" then .ok .operation
    else if Schema.isPrivate name then .error (.anyFieldAttribute name)
    else .ok (.field name)
  | .listed names =>
    if name ∈ names then .ok (.field name)
    else if name ∈ commonOperations then .ok .operation
    else if name = "__hash__" then .ok (.value .null)
    else if name = "__dict__" then .ok (.value (.object (names.map fun n => (n, .field n))))
    else .error .missingAttribute

/-- An attribute of the field at a path. -/
def ofField (path name : String) : Except Fault Reached :=
  if name = "path" ∨ name = "_path" then .ok (.value (.str path))
  else if name ∈ fieldOperations then .ok (.value (.operation path name))
  else if name ∈ commonOperations ∨ name = "__class_getitem__" then .ok .operation
  else if name = "__hash__" ∨ name = "__weakref__" then .ok (.value .null)
  else if name = "__dict__" then .ok (.value (.object [("_path", .str path)]))
  else if Schema.isPrivate name then .error (.fieldAttribute name)
  else .ok (.field (path ++ "." ++ name))

/-- An item of the field at a path: a field below it, also where its name is that of an
operation. A member that is a text goes by its plain text. -/
def ofItem (path : String) (v : Value) : Except Fault Reached :=
  if v.asText?.any (· != "") then .ok (.field (path ++ "." ++ v.plainText))
  else .error ((Fault.subFieldName v).showing v)

/-- One access. -/
def step : Reached → Access → Except Fault Reached
  | .source src, .name name => ofSource src name
  | .field path, .name name => ofField path name
  | .field path, .item v => ofItem path v
  | _, .name _ => .error .missingAttribute
  | _, .item _ => .error .wrongType

/-- Where a row of accesses leads. -/
def walk : Reached → List Access → Except Fault Reached
  | r, [] => .ok r
  | r, a :: as => (r.step a).bind (walk · as)

/-- Setting an attribute, which nothing that is reached allows. -/
def assign (r : Reached) (name : String) : Fault :=
  match r with
  | .field _ => .fieldReadOnly name
  | _ => .missingAttribute

/-- What is reached as a value, if it is one. -/
def asValue? : Reached → Option Value
  | .field path => some (.field path)
  | .value v => some v
  | _ => none

end Reached

/-! ## Attributes -/

/-- An attribute of a value. -/
def Value.getAttribute? (name : String) : Value → Option Value
  | .entity _ _ as => as.lookup name
  | .member _ own _ v =>
    if name = "name" then some (.str own) else if name = "value" then some v else none
  | .field path =>
    if name = "path" then some (.str path)
    else if Schema.isPrivate name then none
    else some (.field (path ++ "." ++ name))
  | .condition path operator operand =>
    List.lookup name [("field_path", path), ("operator", operator), ("value", operand)]
  | _ => none

/-! ## Conditions -/

/-- A comparison that a field offers: one by an operator, or membership in a collection. -/
inductive Comparison where
  | operator (name : String)
  | within
  | without
  deriving DecidableEq, Repr

/-- The operand in the form that a condition holds: sets and tuples become lists. -/
def conditionOperand : Value → Value
  | .set xs | .tuple xs => .list xs
  | v => v

/-- The value is a collection that membership can be asked for. -/
def isMembershipOperand : Value → Bool
  | .list _ | .set _ | .tuple _ => true
  | _ => false

/-- The condition between the field at a path and an operand. The condition keeps the path as it
is given, also where it is a member that is a text. -/
def compare (path : Value) (c : Comparison) (operand : Value) : Except Fault Value :=
  let condition (operator : String) : Value :=
    .condition path (.str operator) (conditionOperand operand)
  match c with
  | .operator name => .ok (condition name)
  | .within =>
    if isMembershipOperand operand then .ok (condition "like") else .error (.membershipOperand "in")
  | .without =>
    if isMembershipOperand operand then .ok (condition "not_like")
    else .error (.membershipOperand "nin")

end TypedSearch
