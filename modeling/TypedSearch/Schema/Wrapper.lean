import TypedSearch.Schema.TypeExpr

/-!
# Wrappers around types

A field's type may be optional, carry markers, and be an array of its proper type. The wrappers
are taken off here.

* `TypeExpr.unwrap`: the type without optional and markers, and the markers.
* `TypeExpr.item?`: the element type of an array type.
* `TypeExpr.core`: the type below all optionals, markers and arrays.
-/

namespace TypedSearch

/-- The collection is an array in documents. -/
def Container.isArray : Container → Bool
  | .list | .plainList | .set | .tuple | .openTuple => true
  | _ => false

/-- The collection is an object with arbitrary keys in documents. -/
def Container.isDict : Container → Bool
  | .dict | .plainDict => true
  | _ => false

namespace TypeExpr

/-! ## Optional and markers -/

/-- The members form an optional type: null and exactly one other type. -/
def isOptional (ts : List TypeExpr) : Bool :=
  ts.any isNull && (ts.filter fun t => !t.isNull).length == 1

mutual

/-- The type without optional and markers, and the markers from outside in. -/
def unwrap : TypeExpr → TypeExpr × List Marker
  | .annotated t ms => (t.unwrap.1, ms ++ t.unwrap.2)
  | .union ts => if isOptional ts then unwrapPresent ts else (.union ts, [])
  | t => (t, [])
termination_by structural t => t

/-- The first type of a list that is not null, unwrapped. -/
def unwrapPresent : List TypeExpr → TypeExpr × List Marker
  | [] => (.null, [])
  | t :: ts => if t.isNull then unwrapPresent ts else t.unwrap
termination_by structural ts => ts

end

/-- The type without optional and markers. -/
def stripped (t : TypeExpr) : TypeExpr := t.unwrap.1

/-! ## Arrays -/

/-- The basic class is an array in documents. -/
def isBasicArray : BasicType → Bool
  | .list | .tuple | .set => true
  | _ => false

/-- The element type of an array type. Without element types it is any type. -/
def item? : TypeExpr → Option TypeExpr
  | .apply c args => if c.isArray then some (args.head?.getD .any) else none
  | .bare a => if a = .dict then none else some .any
  | .basic b => if isBasicArray b then some .any else none
  | _ => none

mutual

/-- The type below all optionals, markers and arrays. -/
def core : TypeExpr → TypeExpr
  | .annotated t _ => t.core
  | .union ts => if isOptional ts then corePresent ts else .union ts
  | .apply c args => if c.isArray then coreFirst args else .apply c args
  | .bare a => if a = .dict then .bare a else .any
  | .basic b => if isBasicArray b then .any else .basic b
  | t => t
termination_by structural t => t

/-- The core of the first type that is not null. -/
def corePresent : List TypeExpr → TypeExpr
  | [] => .null
  | t :: ts => if t.isNull then corePresent ts else t.core
termination_by structural ts => ts

/-- The core of the first type, or any type if there is none. -/
def coreFirst : List TypeExpr → TypeExpr
  | [] => .any
  | t :: _ => t.core
termination_by structural ts => ts

end

/-! ## Objects -/

/-- The type is an object with arbitrary keys in documents. -/
def isDict : TypeExpr → Bool
  | .apply c _ => c.isDict
  | .bare a => a = .dict
  | .basic b => b = .dict
  | _ => false

/-- Key and value type of an object type that names both. -/
def dictArgs? : TypeExpr → Option (TypeExpr × TypeExpr)
  | .apply _ [k, v] => some (k, v)
  | _ => none

end TypeExpr

end TypedSearch
