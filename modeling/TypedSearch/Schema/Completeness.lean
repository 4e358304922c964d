import TypedSearch.Schema.Declaration

/-!
# Complete models

A model can read data once all types that the data passes through are known: those of its own
fields, and those of the models and records that they lead to. A plain class takes entities as
they are, so its annotations do not count.

* `Schema.isComplete`: the model can read data.
-/

namespace TypedSearch

/-! ## Parts of types -/

namespace TypeExpr

/-- A reference of the type is still open. -/
def isOpen (t : TypeExpr) : Bool := !(t.resolve fun _ => false).isOk

mutual

/-- The classes that a type is made of. -/
def classes : TypeExpr → List String
  | .named cls => [cls]
  | .apply _ ts => classesOf ts
  | .union ts => classesOf ts
  | .pipe ts => classesOf ts
  | .annotated t _ => t.classes
  | _ => []
termination_by structural t => t

/-- The classes that types are made of. -/
def classesOf : List TypeExpr → List String
  | [] => []
  | t :: ts => t.classes ++ classesOf ts
termination_by structural ts => ts

end

end TypeExpr

/-! ## Reach -/

namespace Schema

/-- The types through which data of a class passes. -/
def readTypes (s : Schema) (cls : String) : List TypeExpr :=
  (if s.isModel cls then s.settledFields cls else s.settledRecordFields cls).map (·.type)

/-- The classes that `found` lead to in at most the given number of steps. -/
def reachable (s : Schema) : Nat → List String → List String
  | 0, found => found
  | steps + 1, found =>
    let next := found.flatMap fun cls => (s.readTypes cls).flatMap TypeExpr.classes
    reachable s steps (found ++ next).eraseDups

/-- The model can read data: no type on the way has an open reference. -/
def isComplete (s : Schema) (cls : String) : Bool :=
  (s.reachable s.classes.length [cls]).all fun c => (s.readTypes c).all fun t => !t.isOpen

end Schema

end TypedSearch
