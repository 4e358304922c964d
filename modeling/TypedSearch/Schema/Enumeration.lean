import TypedSearch.Value.Demand

/-!
# Enumerations

An enumeration lists named values. Of members with equal values only the first is a member of its
own; the others are further names for it. The members of an enumeration over texts or integers
are texts or integers themselves, whatever their values are written as.

* `Enumeration.ofRows`: the enumeration of names and values.
* `Enumeration.member?`: the member that a name stands for.
* `Enumeration.accept?`: the member that a value stands for.
-/

namespace TypedSearch

/-- A declared enumeration: its members with their values, and the further names of members. -/
structure Enumeration where
  name : String
  base : MemberBase
  members : List (String × Value)
  aliases : List (String × String)

namespace Enumeration

/-! ## Declaration -/

/-- The value of a member of an enumeration over `base`, from the value as it is written. -/
def memberValue (base : MemberBase) (v : Value) : Except Fault Value :=
  match base with
  | .plain => .ok v
  | .text => .ok (.str v.plainText)
  | .integer => v.toInteger.map .int

/-- The first member whose value equals a value; the values have to be comparable. -/
def searched : List (String × Value) → Value → Except Fault (Option (String × Value))
  | [], _ => .ok none
  | m :: ms, v => do
    if ← m.2.compared v then return some m else searched ms v

/-- The member with an equal value. A value that can be a key is looked up among such only. -/
def withValue (members : List (String × Value)) (v : Value) :
    Except Fault (Option (String × Value)) :=
  if v.isKey then .ok (members.find? fun m => m.2.isKey && m.2.equals v) else searched members v

/-- Adds a row: a further name for the member of that value, or else a new member. -/
def addRow (e : Enumeration) (name : String) (v : Value) : Except Fault Enumeration := do
  match ← withValue e.members v with
  | some m => return { e with aliases := e.aliases ++ [(name, m.1)] }
  | none => return { e with members := e.members ++ [(name, v)] }

/-- Adds rows in order. -/
def addRows (e : Enumeration) : List (String × Value) → Except Fault Enumeration
  | [] => .ok e
  | (name, v) :: rows => do
    let v ← memberValue e.base v
    addRows (← e.addRow name v) rows

/-- The enumeration of names and values. -/
def ofRows (name : String) (base : MemberBase) (rows : List (String × Value)) :
    Except Fault Enumeration :=
  addRows ⟨name, base, [], []⟩ rows

/-! ## Members -/

/-- A member as a value. -/
def toValue (e : Enumeration) (m : String × Value) : Value := .member e.name m.1 e.base m.2

/-- The member that a name stands for. -/
def member? (e : Enumeration) (name : String) : Option Value :=
  let own := (e.aliases.lookup name).getD name
  (e.members.lookup own).map fun v => e.toValue (own, v)

/-- The member that a value stands for: a member for itself, any other value for the member whose
value equals it. -/
def accept? (e : Enumeration) (v : Value) : Option Value :=
  match v with
  | .member enumeration _ _ _ =>
    if enumeration = e.name then some v
    else (e.members.find? fun m => m.2.equals v).map e.toValue
  | v => (e.members.find? fun m => m.2.equals v).map e.toValue

end Enumeration

end TypedSearch
