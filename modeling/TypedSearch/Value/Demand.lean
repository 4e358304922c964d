import TypedSearch.Fault
import TypedSearch.Value.Equality
import TypedSearch.Number.Numeral

/-!
# Demands on values

What an operation asks of a value of any type: to go through it, to look a key up in it, to be a
whole number, to be an object, to be compared. A value that cannot do it gives a fault from outside.

* `Value.elements`: the elements.
* `Value.lookup`: the value under a key.
* `Value.toInteger`: the whole number that a number or a numeral denotes.
* `Value.toEntries`: the entries of an object, or of a row of pairs.
* `Value.compared`: whether two values are equal.
-/

namespace TypedSearch

/-- Sets the value of any key, in its place if it is there and at the end otherwise. -/
def Entries.insert (es : Entries) (key v : Value) : Entries :=
  if es.any fun e => e.1.equals key then
    es.map fun e => if e.1.equals key then (e.1, v) else e
  else es ++ [(key, v)]

namespace Value

/-- The elements of a value. A model goes through its attributes; a field takes no number as
the name of a field below it. -/
def elements : Value → Except Fault (List Value)
  | .field _ => .error (.subFieldName (.int 0))
  | .entity .model _ as => .ok (as.map fun a => .tuple [.str a.1, a.2])
  | v =>
    match v.elements? with
    | some xs => .ok xs
    | none => .error .wrongType

/-- The value under a key of an object, or the given one if the key is not there. A field has
every name below it, but none of them is an operation. -/
def lookup (v : Value) (name : String) (other : Value) : Except Fault Value :=
  match v with
  | .dict es => .ok ((Entries.get? name es).getD other)
  | .field _ => .error .wrongType
  | _ => .error .missingAttribute

/-- The value itself, or an empty object in place of what counts as false. -/
def orObject (v : Value) : Value := if v.isTruthy then v else .dict []

/-- The whole part of a number, toward zero. -/
def wholePart (r : Rat) : Int := Int.tdiv r.num r.den

/-- The whole number that was read, or a fault about a value that spells none. -/
def orWrongValue : Option Int → Except Fault Int
  | some n => .ok n
  | none => .error .wrongValue

/-- The whole number that a number, a numeral or an identifier denotes. -/
def toInteger (v : Value) : Except Fault Int :=
  match v.magnitude?, v with
  | some .undefined, _ => .error .wrongValue
  | some (.infinite _), _ => .error (.foreign .overflow "")
  | some (.exact r), _ => .ok (wholePart r)
  | none, .bytes bs => orWrongValue (readIntegerBytes? bs)
  | none, .uuid s => .ok (readHex s)
  | none, v =>
    match v.asText? with
    | some text => orWrongValue (readInteger? text)
    | none => .error .wrongType

/-- Adds the entries of a row of pairs. -/
def addPairs (es : Entries) : List Value → Except Fault Entries
  | [] => .ok es
  | x :: xs =>
    match x.elements with
    | .ok [key, v] => if key.isKey then addPairs (es.insert key v) xs else .error .wrongType
    | .ok _ => .error .wrongValue
    | .error _ => .error .wrongType

/-- The entries of an object, or of a row of pairs. -/
def toEntries (v : Value) : Except Fault Entries :=
  match v with
  | .dict es => .ok es
  | .field _ => .error .wrongType
  | v => v.elements.bind (addPairs [])

/-! ## Comparison -/

/-- One of the values is a signaling decimal and the other one a number, so that they cannot be
compared. -/
def isIncomparable (a b : Value) : Bool :=
  let signals (v : Value) : Bool :=
    match v with
    | .decimal d => d.isSignaling
    | _ => false
  (signals a && b.magnitude?.isSome) || (signals b && a.magnitude?.isSome)

mutual

/-- Whether two values are equal. Their parts are compared from front to back, up to the first
that differs or cannot be compared. -/
def compared : Value → Value → Except Fault Bool
  | .list xs, .list ys => if xs.length = ys.length then comparedLists xs ys else .ok false
  | .dict es, .dict fs => if es.length = fs.length then comparedEntries es fs else .ok false
  | a, b => if a.isIncomparable b then .error .incomparable else .ok (a.equals b)
termination_by structural a => a

/-- Whether two lists of one length have equal elements. -/
def comparedLists : List Value → List Value → Except Fault Bool
  | x :: xs, y :: ys => do
    if ← x.compared y then comparedLists xs ys else return false
  | _, _ => .ok true
termination_by structural xs => xs

/-- Whether every entry of the first object is in the second. -/
def comparedEntries : List (Value × Value) → List (Value × Value) → Except Fault Bool
  | [], _ => .ok true
  | (k, v) :: es, fs =>
    match fs.find? fun f => f.1.equals k with
    | none => .ok false
    | some f => do
      if ← v.compared f.2 then comparedEntries es fs else return false
termination_by structural es => es

end

end Value

end TypedSearch
