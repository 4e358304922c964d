import TypedSearch.Clause.Basic
import TypedSearch.Clause.Operator
import TypedSearch.Clause.Phrase
import TypedSearch.Field.Source
import TypedSearch.Log

/-!
# Formation of clauses

The form of a clause follows from the operator, the type of the value and the kind of the field.
Combinations without a meaning are refused. Each formation is noted with the display of the value
first, so that a value without a display is refused, whatever it is combined with.

* `Clause.form`: the clause of a field, an operator and a value.
* `Clause.build`: the same for whatever is given as an operator.
* `Clause.warning?`: the line written about orderings of texts.
-/

namespace TypedSearch

/-! ## Values in clauses -/

/-- The form in which a value is compared. -/
def scalar : Value → Except Fault Value
  | .member _ _ _ v => scalar v
  | .date d => .ok (.str d.text)
  | .datetime t => .ok (.str t.text)
  | .decimal d =>
    match d.toDouble? with
    | some x => .ok (.double x)
    | none => .error .wrongValue
  | .uuid s => .ok (.str s)
  | v => .ok v

/-- The forms in which the values of a list are compared. -/
def scalars : List Value → Except Fault (List Value)
  | [] => .ok []
  | x :: xs => do
    let x ← scalar x
    return x :: (← scalars xs)

/-- The text of a date or a point in time. -/
def calendarText? : Value → Option String
  | .date d => some d.text
  | .datetime t => some t.text
  | _ => none

/-- The double that a double or a decimal denotes; a signaling decimal has none. -/
def measure? : Value → Option (Option Double)
  | .double x => some (some x)
  | .decimal d => some d.toDouble?
  | _ => none

/-- The integer is one of 64 bits with sign. -/
def isLong (n : Int) : Bool :=
  decide (-0x8000000000000000 ≤ n) && decide (n ≤ 0x7fffffffffffffff)

/-- The kind holds texts, which are ordered character by character. -/
def FieldKind.isTextual : FieldKind → Bool
  | .keyword | .text => true
  | _ => false

/-- The kind may hold points in time, so that a text can be an expression for one. -/
def FieldKind.maybeDate : FieldKind → Bool
  | .date | .unknown => true
  | _ => false

/-- The value has no place in any order. -/
def isUnordered (v : Value) : Bool :=
  v.isNull || v.asBool?.isSome || v.asCollection?.isSome

namespace Clause

/-! ## The three families -/

/-- Equality and its negation. A text on a text field is matched by its words, and as a phrase
inside a nested array. -/
def equality (field : FieldPath) (negated : Bool) (v : Value) : Except Fault Clause :=
  if v.isNull then .error (.equalityWithNull field.wire)
  else if v.asCollection?.isSome then .error (.equalityWithCollection field.wire v.typeName)
  else
    match field.kind, v.asText? with
    | .text, some s =>
      .ok (plain (if negated then .matchingNot else .matching) field
        (if field.isNested then .str (phrase s) else v))
    | _, _ => (scalar v).map (plain (if negated then .termNot else .term) field)

/-- A date or a point in time with the unit to which it is rounded: what the rounding stands for. -/
def anchored (text : String) (rounding : Value) : Except Fault String :=
  match rounding.getAttribute? "value" with
  | none => .error .missingAttribute
  | some unit =>
    if unit.hasPlainText then .ok (text ++ "||/" ++ unit.plainText) else .error .wrongValue

/-- An ordering. Dates and points in time are rounded to a unit; a text on a field of dates is an
expression that the engine reads. -/
def ordering (field : FieldPath) (word : String) (v timeZone rounding : Value) :
    Except Fault Clause :=
  let undefined : Except Fault Clause :=
    .error (.undefinedOrdering word field.wire v.typeName)
  let ranged (kind : ClauseKind) (v : Value) : Clause :=
    { plain kind field v with rangeWord := some word }
  if isUnordered v then undefined
  else
    match calendarText? v, v.asText?, v.asInt?, measure? v with
    | some text, _, _, _ =>
      (anchored text rounding).map fun text =>
        { ranged .dateRange (.str text) with timeZone := timeZone, rounding := rounding }
    | none, some _, _, _ =>
      if field.kind.maybeDate then .ok { ranged .dateRange v with timeZone := timeZone }
      else if field.kind.isTextual then .ok (ranged .range v)
      else undefined
    | none, none, some n, _ =>
      if isLong n then .ok (ranged .longRange v)
      else .error (.outOfRange v.plainText field.wire)
    | none, none, none, some (some x) => .ok (ranged .range (.double x))
    | none, none, none, some none => .error .wrongValue
    | none, none, none, none => undefined

/-- Matching of a text, or membership in a collection, and their negations. -/
def likeness (field : FieldPath) (negated : Bool) (v : Value) : Except Fault Clause :=
  match v.asText?, v.asCollection? with
  | some _, _ =>
    .ok { plain (if negated then .matchingNot else .matching) field v with
      minimumMatch := if field.isNested then none else some 1 }
  | none, some xs =>
    (scalars xs).map fun xs => plain (if negated then .termsNot else .terms) field (.tuple xs)
  | none, none => .error (.notMatchable field.wire v.typeName)

/-! ## All operators -/

/-- The clause of a field, an operator and a value that has a display. -/
def form (field : FieldPath) (op : Operator) (v timeZone rounding : Value) :
    Except Fault Clause :=
  if v.hasDisplay then
    match op with
    | .equal => equality field false v
    | .notEqual => equality field true v
    | .like => likeness field false v
    | .notLike => likeness field true v
    | op => ordering field (op.rangeWord?.getD "") v timeZone rounding
  else .error .wrongValue

/-- The line about an ordering on a field of texts, whatever comes of it. -/
def warning? (field : FieldPath) (op : Operator) (v : Value) : Option LogLine :=
  match op.rangeWord? with
  | none => none
  | some word =>
    if v.hasDisplay && !isUnordered v && field.kind.isTextual then
      some ⟨.warning, s!"Range '{word}' on {field.kind.name} field '{field.wire}' " ++
        "compares lexicographically."⟩
    else none

/-- The clause of a field, what is given as an operator, and a value. -/
def build (field : FieldPath) (operator : OperatorArgument) (v timeZone rounding : Value) :
    Logged Clause := do
  let op ← Logged.ofExcept operator.read
  if let some line := warning? field op v then Logged.note line
  Logged.ofExcept (form field op v timeZone rounding)

end Clause

end TypedSearch
