import TypedSearch.Number.Decimal
import TypedSearch.Number.Shortest
import TypedSearch.Calendar

/-!
# Values

The values that documents, queries and entities hold: JSON data, exact and calendar scalars,
several kinds of collections, members of enumerations, entities of declared classes, and the
things a query is written with: fields, their operations and conditions.

* `Value`: the type.
* `Value.asText?`, `Value.asInt?`, …: views. A member of an enumeration over texts is a text,
  and a member of one over integers is an integer.
* `Entries`: the entries of an object, in order, and their access by a text key.
-/

namespace TypedSearch

/-! ## The type -/

/-- What the members of an enumeration are besides members. -/
inductive MemberBase where
  | plain
  | text
  | integer
  deriving DecidableEq, Repr

/-- How the class of an entity is declared: as a validated model, as a record with named
arguments, or as a plain annotated class. -/
inductive EntityKind where
  | model
  | record
  | plain
  deriving DecidableEq, Repr

/-- A value. -/
inductive Value where
  | null
  | bool (b : Bool)
  | int (n : Int)
  | double (x : Double)
  | decimal (d : Decimal)
  | str (s : String)
  | bytes (bs : List UInt8)
  | uuid (s : String)
  | date (d : Date)
  | datetime (t : DateTime)
  | url (s : String)
  | list (xs : List Value)
  | tuple (xs : List Value)
  | set (xs : List Value)
  | frozenset (xs : List Value)
  | dict (entries : List (Value × Value))
  | member (enumeration name : String) (base : MemberBase) (value : Value)
  | entity (kind : EntityKind) (cls : String) (attributes : List (String × Value))
  | field (path : String)
  | operation (path name : String)
  | condition (path operator operand : Value)
  | featureless
  deriving Inhabited

/-- The entries of an object, in order. -/
abbrev Entries := List (Value × Value)

namespace Value

/-! ## Views -/

/-- The text that a value is. -/
def asText? : Value → Option String
  | .str s => some s
  | .member _ _ .text (.str s) => some s
  | _ => none

/-- The truth value that a value is. -/
def asBool? : Value → Option Bool
  | .bool b => some b
  | _ => none

/-- The integer that a value is; the truth values count as one and zero. -/
def asInt? : Value → Option Int
  | .int n => some n
  | .bool b => some (if b then 1 else 0)
  | .member _ _ .integer (.int n) => some n
  | _ => none

/-- The integer that a value is, truth values excepted. -/
def asCount? (v : Value) : Option Int :=
  match v with
  | .bool _ => none
  | _ => v.asInt?

/-- The entries of an object. -/
def asEntries? : Value → Option Entries
  | .dict es => some es
  | _ => none

/-- The elements of a collection: list, tuple, set or frozen set. -/
def asCollection? : Value → Option (List Value)
  | .list xs | .tuple xs | .set xs | .frozenset xs => some xs
  | _ => none

/-- What one gets by going through a value: elements, keys, characters or bytes. -/
def elements? : Value → Option (List Value)
  | .list xs | .tuple xs | .set xs | .frozenset xs => some xs
  | .dict es => some (es.map (·.1))
  | .str s => some (s.toList.map fun c => .str (String.ofList [c]))
  | .member _ _ .text (.str s) => some (s.toList.map fun c => .str (String.ofList [c]))
  | .bytes bs => some (bs.map fun b => .int b.toNat)
  | _ => none

theorem asText?_eq_some {v : Value} {s : String} (h : v.asText? = some s) :
    v = .str s ∨ ∃ enumeration name, v = .member enumeration name .text (.str s) := by
  unfold asText? at h
  split at h <;> cases h
  · exact .inl rfl
  · exact .inr ⟨_, _, rfl⟩

/-- The value counts as true: it is not null, false, zero or empty. -/
def isTruthy : Value → Bool
  | .null => false
  | .bool b => b
  | .int n => n != 0
  | .double x => !x.isZero
  | .decimal d => !d.isZero
  | .str s => s != ""
  | .bytes bs => !bs.isEmpty
  | .list xs | .tuple xs | .set xs | .frozenset xs => !xs.isEmpty
  | .dict es => !es.isEmpty
  | .member _ _ .plain _ => true
  | .member _ _ .text (.str s) => s != ""
  | .member _ _ .integer (.int n) => n != 0
  | _ => true

/-- The null value. -/
def isNull : Value → Bool
  | .null => true
  | _ => false

mutual

/-- The value can be a key or an element of a set: it and its parts never change, and it can be
compared. -/
def isKey : Value → Bool
  | .list _ | .set _ | .dict _ | .field _ => false
  | .decimal d => !d.isSignaling
  | .entity .plain _ _ => true
  | .entity _ _ _ => false
  | .tuple xs => areKeys xs
  | _ => true
termination_by structural v => v

/-- All values of a list can be keys. -/
def areKeys : List Value → Bool
  | [] => true
  | x :: xs => x.isKey && areKeys xs
termination_by structural xs => xs

end

/-- A text, or null for none. -/
def ofText? : Option String → Value
  | some s => .str s
  | none => .null

/-- The name of the type of a value. -/
def typeName : Value → String
  | .null => "NoneType"
  | .bool _ => "bool"
  | .int _ => "int"
  | .double _ => "float"
  | .decimal _ => "Decimal"
  | .str _ => "str"
  | .bytes _ => "bytes"
  | .uuid _ => "UUID"
  | .date _ => "date"
  | .datetime _ => "datetime"
  | .url _ => "AnyUrl"
  | .list _ => "list"
  | .tuple _ => "tuple"
  | .set _ => "set"
  | .frozenset _ => "frozenset"
  | .dict _ => "dict"
  | .member enumeration _ _ _ => enumeration
  | .entity _ cls _ => cls
  | .field _ => "Field"
  | .operation _ _ => "method"
  | .condition _ _ _ => "FilterCondition"
  | .featureless => "Opaque"

/-- An object with text keys. -/
def object (es : List (String × Value)) : Value := .dict (es.map fun e => (.str e.1, e.2))

end Value

/-! ## Entries -/

namespace Entries

/-- The key is the text `name`. -/
def keyIs (name : String) (key : Value) : Bool := key.asText? == some name

/-- The value under a key. -/
def get? (name : String) (es : Entries) : Option Value :=
  (es.find? fun e => keyIs name e.1).map (·.2)

/-- Some entry has the key. -/
def has (name : String) (es : Entries) : Bool := es.any fun e => keyIs name e.1

/-- The entries other than that of a key. -/
def erase (name : String) (es : Entries) : Entries := es.filter fun e => !keyIs name e.1

/-- Sets the value of a key, in its place if it is there and at the end otherwise. -/
def put (name : String) (v : Value) (es : Entries) : Entries :=
  if has name es then es.map fun e => if keyIs name e.1 then (e.1, v) else e
  else es ++ [(.str name, v)]

/-- The value under a key, or null. -/
def getD (name : String) (es : Entries) : Value := (get? name es).getD .null

end Entries

end TypedSearch
