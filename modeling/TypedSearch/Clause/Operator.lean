import TypedSearch.Fault

/-!
# Operators of clauses

An operator is given as itself or by its name. Anything else that is given is looked up among the
names too, and passes for an operator if its own comparison says that it equals one of them.

* `Operator`: the comparisons that a clause can make.
* `Operator.ofValue?`: the operator that a value denotes, by its name.
* `OperatorArgument`: what is given as an operator.
* `OperatorArgument.read`: the operator that it is taken for.
-/

namespace TypedSearch

/-- A comparison. -/
inductive Operator where
  | equal
  | notEqual
  | greater
  | greaterOrEqual
  | less
  | lessOrEqual
  | like
  | notLike
  deriving DecidableEq, Repr

namespace Operator

/-- The name of an operator. -/
def name : Operator → String
  | .equal => "eq"
  | .notEqual => "ne"
  | .greater => "gt"
  | .greaterOrEqual => "ge"
  | .less => "lt"
  | .lessOrEqual => "le"
  | .like => "like"
  | .notLike => "not_like"

/-- All operators. -/
def all : List Operator :=
  [.equal, .notEqual, .greater, .greaterOrEqual, .less, .lessOrEqual, .like, .notLike]

/-- The operator of a name. -/
def ofName? (name : String) : Option Operator := all.find? (·.name == name)

/-- The operator that a value denotes. A field makes a condition with whatever it is compared to,
so it passes for the first operator. -/
def ofValue? (v : Value) : Option Operator :=
  match v with
  | .field _ => some .equal
  | v => v.asText?.bind ofName?

/-- The engine's word for an ordering. -/
def rangeWord? : Operator → Option String
  | .greater => some "gt"
  | .greaterOrEqual => some "gte"
  | .less => some "lt"
  | .lessOrEqual => some "lte"
  | _ => none

end Operator

/-! ## Operators as arguments -/

/-- What is given as an operator: one of them, a value, or a thing from outside, of which two facts
matter: what its search among the names finds, and how it is displayed. Both can fail. -/
inductive OperatorArgument where
  | operator (op : Operator)
  | value (v : Value)
  | foreign (found : Except Fault (Option Operator)) (display : Except Fault String)

namespace OperatorArgument

/-- The fault about an argument that is no operator. Its text shows the argument, and where there is
no display, that is the fault instead. -/
def unsupported : OperatorArgument → Fault
  | .operator op => .unsupportedOperator op.name
  | .value v => (Fault.unsupportedOperator v.display).showing v
  | .foreign _ (.ok shown) => .unsupportedOperator shown
  | .foreign _ (.error e) => e

/-- What the search among the names finds. -/
def search : OperatorArgument → Except Fault (Option Operator)
  | .operator op => .ok (some op)
  | .value v => .ok (Operator.ofValue? v)
  | .foreign found _ => found

/-- The operator that an argument is taken for. A search that fails on a wrong value counts as one
that finds nothing. -/
def read (a : OperatorArgument) : Except Fault Operator :=
  match a.search with
  | .ok (some op) => .ok op
  | .ok none => .error a.unsupported
  | .error e => .error (if e.kind = .valueMismatch then a.unsupported else e)

end OperatorArgument

end TypedSearch
