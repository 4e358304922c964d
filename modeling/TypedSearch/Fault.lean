import TypedSearch.Value.Display

/-!
# Faults

The causes for which an operation gives up, each with its kind and its text. A fault either
belongs to the library, which then words it, or comes from outside: from a naming function, a
logger, the engine or the reading of foreign data.

* `Fault`: the causes.
* `Fault.kind`, `Fault.message`: the kind of a fault and its text.
* `Fault.describe`: the text in records; a fault from outside is shown by the name of its kind.
-/

namespace TypedSearch

open Text

/-! ## Kinds -/

/-- The kinds of faults that callers tell apart. -/
inductive FaultKind where
  | invalidPath
  | valueType
  | invalidExpression
  | queryArgument
  | objectNotFound
  | typeMismatch
  | valueMismatch
  | runtime
  | attribute
  | key
  | overflow
  | comparison
  | validation
  | incomplete
  | cancelled
  deriving DecidableEq, Repr

/-- The name of a kind in records. -/
def FaultKind.name : FaultKind → String
  | .invalidPath => "InvalidPathError"
  | .valueType => "ValueTypeError"
  | .invalidExpression => "InvalidExpressionError"
  | .queryArgument => "QueryArgumentError"
  | .objectNotFound => "ObjectNotFoundException"
  | .typeMismatch => "TypeError"
  | .valueMismatch => "ValueError"
  | .runtime => "RuntimeError"
  | .attribute => "AttributeError"
  | .key => "KeyError"
  | .overflow => "OverflowError"
  | .comparison => "InvalidOperation"
  | .validation => "ValidationError"
  | .incomplete => "PydanticUserError"
  | .cancelled => "CancelledError"

/-! ## Faults of paths -/

/-- Why a path does not lead through a model. `whole` is the path up to the segment at fault. -/
inductive PathFault where
  | positional (segment whole : String)
  | dictKey (whole keyType : String)
  | plainUnion (segment union : String)
  | notTraversable (segment parent parentType whole : String)
  | unknownField (segment cls whole : String)
  deriving DecidableEq, Repr

/-- The text of a path fault. -/
def PathFault.message : PathFault → String
  | .positional segment whole =>
    s!"Positional index '{segment}' is not addressable in a document path. Path: '{whole}'."
  | .dictKey whole keyType =>
    s!"Cannot traverse Dict path '{whole}' with non-string key type {keyType}."
  | .plainUnion segment union => s!"Cannot access '{segment}' on non-Optional Union {union}"
  | .notTraversable segment parent parentType whole =>
    s!"Cannot access '{segment}'. Parent '{parent}' not traversable (type: {parentType}). " ++
      s!"Path: '{whole}'."
  | .unknownField segment cls whole =>
    s!"Field '{segment}' does not exist in type {cls}. Path: '{whole}'."

/-! ## Faults -/

/-- The causes. -/
inductive Fault where
  /- Classes and paths. -/
  | notAClass (received : String)
  | noHints (shown : String)
  | unresolvedReference (cls name : String)
  | emptyPath
  | path (fault : PathFault) (model : String)
  | unreadableHints (path model : String) (cause : Fault)
  | unexpectedWalk (path : String) (cause : Fault)
  /- Fields and descriptors. -/
  | notADescriptor (v : Value)
  | notAChain (path : String)
  | scopeItself (path : String)
  | notNestedArray (path model : String)
  | subFieldName (v : Value)
  | fieldAttribute (name : String)
  | anyFieldAttribute (name : String)
  | fieldReadOnly (name : String)
  | membershipOperand (operator : String)
  | noFieldList (cls : String)
  /- Clauses. -/
  | unsupportedOperator (shown : String)
  | equalityWithNull (wire : String)
  | equalityWithCollection (wire typeName : String)
  | undefinedOrdering (operator wire typeName : String)
  | outOfRange (shown wire : String)
  | notMatchable (wire typeName : String)
  /- Query builders. -/
  | blankIndex
  | notAClause (call typeName : String)
  | notACondition (v : Value)
  | conditionOperator (shown : String)
  | negativeSkip
  | negativeTake
  | negativeTimeout
  | unbound
  /- Documents and contexts. -/
  | noSource
  | notRestorable (cls : String)
  | blankDefaultIndex
  | noIndex
  | documentMissing (cls id : String)
  | notStorable (typeName : String)
  | missingId (typeName field : String)
  | engineFailed (activity : String)
  /- Everything from outside. -/
  | foreign (kind : FaultKind) (text : String)

namespace Fault

/-- The kind of a fault. -/
def kind : Fault → FaultKind
  | .notAClass _ | .noHints _ | .unresolvedReference _ _ | .unreadableHints _ _ _ => .typeMismatch
  | .emptyPath => .valueMismatch
  | .path _ _ => .invalidPath
  | .unexpectedWalk _ _ => .runtime
  | .notADescriptor _ | .notAChain _ | .scopeItself _ | .notNestedArray _ _ => .invalidExpression
  | .subFieldName _ | .membershipOperand _ | .noFieldList _ => .typeMismatch
  | .fieldAttribute _ | .anyFieldAttribute _ | .fieldReadOnly _ => .attribute
  | .unsupportedOperator _ | .equalityWithNull _ | .equalityWithCollection _ _ => .valueType
  | .undefinedOrdering _ _ _ | .outOfRange _ _ | .notMatchable _ _ => .valueType
  | .blankIndex | .negativeSkip | .negativeTake | .negativeTimeout => .queryArgument
  | .notAClause _ _ => .typeMismatch
  | .notACondition _ | .conditionOperator _ => .invalidExpression
  | .unbound => .runtime
  | .noSource | .notRestorable _ | .blankDefaultIndex | .noIndex => .valueMismatch
  | .documentMissing _ _ => .objectNotFound
  | .notStorable _ => .typeMismatch
  | .missingId _ _ => .valueMismatch
  | .engineFailed _ => .runtime
  | .foreign kind _ => kind

/-- The fault comes from outside the library. -/
def isForeign : Fault → Bool
  | .foreign _ _ => true
  | _ => false

/-- The text up to the first line end. -/
def firstLine (s : String) : String := String.ofList (s.toList.takeWhile (· != '\n'))

/-- The text of a fault. -/
def message : Fault → String
  | .notAClass received => s!"model_type must be a class, received {received}."
  | .noHints shown => s!"Cannot get hints for non-class/type: {shown}"
  | .unresolvedReference cls name =>
    s!"Unresolved forward ref in {cls}? Error: name '{name}' is not defined"
  | .emptyPath => "field_path cannot be empty."
  | .path fault model => s!"{fault.message} in model {model}"
  | .unreadableHints p model cause => s!"Hint error path '{p}' in {model}: {cause.message}"
  | .unexpectedWalk p cause =>
    firstLine s!"Unexpected traverse error path '{p}': {cause.message}"
  | .notADescriptor v =>
    "Expected a field descriptor (Field or dotted member chain), got " ++
      s!"{v.typeName}: {v.display}"
  | .notAChain p => s!"'{p}' is not a plain member access chain."
  | .scopeItself p =>
    s!"Field '{p}' must be a member of nested path '{p}', not the nested path itself."
  | .notNestedArray p model =>
    s!"'{p}' is not an array of sub-documents in {model}; it cannot scope a nested clause."
  | .subFieldName v => s!"Sub-field name must be a non-empty string, got {v.display}"
  | .fieldAttribute name => s!"'Field' object has no attribute '{name}'"
  | .anyFieldAttribute name => s!"No attribute '{name}'"
  | .fieldReadOnly name => s!"Cannot set attribute '{name}' on Field object."
  | .membershipOperand operator => s!"Operator '{operator}' requires a list/set/tuple"
  | .noFieldList cls => s!"Could not generate query fields proxy for {cls}"
  | .unsupportedOperator shown => s!"Unsupported operator: {shown}"
  | .equalityWithNull wire => s!"Equality on '{wire}' needs a value; None cannot be matched."
  | .equalityWithCollection wire typeName =>
    s!"Equality on '{wire}' takes a single value; use like() for membership in {typeName}."
  | .undefinedOrdering operator wire typeName =>
    s!"Ordering comparison '{operator}' on '{wire}' is not defined for {typeName} values."
  | .outOfRange shown wire => s!"Value {shown} for '{wire}' is outside the signed 64-bit range."
  | .notMatchable wire typeName =>
    s!"like/not_like on '{wire}' takes a string or a collection of values, got {typeName}."
  | .blankIndex => "Index name must be a non-blank string."
  | .notAClause call typeName => s!"{call}() requires a Clause, got {typeName}"
  | .notACondition v =>
    "Expected a field condition such as `fields.age >= 20`, got " ++
      s!"{v.typeName}: {v.display}"
  | .conditionOperator shown => s!"Unsupported condition operator '{shown}'"
  | .negativeSkip => "Skip must be a non-negative integer."
  | .negativeTake => "Take must be a non-negative integer."
  | .negativeTimeout => "Timeout must be a non-negative number or None."
  | .unbound =>
    "QueryBuilder is not bound to a search context; create it with context.query(...)"
  | .noSource => "Cannot deserialize a hit without _source."
  | .notRestorable cls => s!"Failed to deserialize document into {cls}"
  | .blankDefaultIndex => "default_index must be a non-blank string or None."
  | .noIndex => "No index given and the context has no default index."
  | .documentMissing cls id => s!"{cls} with ID '{id}' not found."
  | .notStorable typeName => s!"Cannot serialize entity of type {typeName} to a document."
  | .missingId typeName field =>
    s!"Entity {typeName} must have ID field '{field}' set to be updated."
  | .engineFailed activity => s!"An unexpected Elasticsearch error occurred during {activity}"
  | .foreign _ text => text

/-- The text of a fault in records. -/
def describe (f : Fault) : String :=
  if f.isForeign then "<" ++ f.kind.name ++ ">" else f.message

/-! ## Faults from outside -/

/-- An access to an attribute that a value does not have. -/
def missingAttribute : Fault := .foreign .attribute ""

/-- An operation on a value of the wrong type. -/
def wrongType : Fault := .foreign .typeMismatch ""

/-- An operation on a value of the right type that it cannot take. -/
def wrongValue : Fault := .foreign .valueMismatch ""

/-- A fault whose text shows a value. Where the value has no display, that is the fault instead. -/
def showing (v : Value) (f : Fault) : Fault := if v.hasDisplay then f else .wrongValue

/-- A comparison of numbers that cannot be made. -/
def incomparable : Fault := .foreign .comparison ""

/-- Data that does not fit a model. -/
def invalidData : Fault := .foreign .validation ""

/-- Data for a model whose types are not all known. -/
def incompleteModel : Fault := .foreign .incomplete ""

end Fault

end TypedSearch
