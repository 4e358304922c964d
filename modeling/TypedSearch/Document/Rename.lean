import TypedSearch.Schema.ModelRef

/-!
# Renaming of documents

The keys of a document are its class's stored names; with a naming the engine indexes it under
other ones. Renaming goes from stored names to indexed ones or back. It follows the classes of
the fields, through one layer of arrays; keys that a class does not declare stay, and objects
with arbitrary keys are left alone.

The fields are renamed one after the other in the document at hand: a field whose new key is the
old key of a later one takes part in that one's renaming.

* `Direction`: to the indexed names or back.
* `Schema.rename`: the renamed document.
-/

namespace TypedSearch

/-- The direction of a renaming. -/
inductive Direction where
  | toWire
  | fromWire
  deriving DecidableEq, Repr

mutual

/-- How deep lists and objects are nested in a value. -/
def Value.depth : Value → Nat
  | .list xs => depthOfAll xs + 1
  | .dict es => depthOfEntries es + 1
  | _ => 0
termination_by structural v => v

/-- The greatest depth in a list. -/
def depthOfAll : List Value → Nat
  | [] => 0
  | x :: xs => max x.depth (depthOfAll xs)
termination_by structural xs => xs

/-- The greatest depth of the values of an object. -/
def depthOfEntries : List (Value × Value) → Nat
  | [] => 0
  | (_, v) :: es => max v.depth (depthOfEntries es)
termination_by structural es => es

end

namespace Schema

/-! ## One object -/

/-- The key that a renaming takes a field from, and the key it puts it under. -/
def keysFor (s : Schema) (direction : Direction) (cls : String) (f : FieldEntry) :
    String × String :=
  let stored := (s.alias? cls f.name).getD f.name
  match direction with
  | .toWire => (stored, f.wire)
  | .fromWire => (f.wire, stored)

/-- The values of a list, each renamed. -/
def renameAll (rename : Value → Except Fault Value) : List Value → Except Fault (List Value)
  | [] => .ok []
  | x :: xs => do
    let x ← rename x
    return x :: (← renameAll rename xs)

/-- The value of a field of type `t`, where `rename` renames the objects of a class. -/
def renameValue (s : Schema) (rename : TypeExpr → Value → Except Fault Value) (t : TypeExpr)
    (v : Value) : Except Fault Value :=
  let bare := t.stripped
  match bare.item? with
  | some item =>
    match v with
    | .list xs =>
      if s.isStructured item.stripped then (renameAll (rename item.stripped) xs).map .list
      else .ok v
    | v => .ok v
  | none => if s.isStructured bare then rename bare v else .ok v

/-- The entries of an object with the fields renamed in order. -/
def renameFields (s : Schema) (rename : TypeExpr → Value → Except Fault Value)
    (direction : Direction) (cls : String) : List FieldEntry → Entries → Except Fault Entries
  | [], es => .ok es
  | f :: fs, es =>
    let (source, target) := s.keysFor direction cls f
    match Entries.get? source es with
    | none => renameFields s rename direction cls fs es
    | some v => do
      let v ← s.renameValue rename f.type v
      renameFields s rename direction cls fs (Entries.put target v (Entries.erase source es))

/-! ## Whole documents -/

/-- The document of a class renamed down to a depth. -/
def renameWithin (s : Schema) (naming : Naming) (direction : Direction) :
    Nat → TypeExpr → Value → Except Fault Value
  | depth + 1, t, .dict es => do
    let fields ← s.fieldsOf (some naming) t
    let es ← s.renameFields (renameWithin s naming direction depth) direction
      ((classOf? t).getD "") fields es
    return .dict es
  | _, _, v => .ok v

/-- Renaming leaves the value alone: there is no naming, or the value is no object. -/
def isLeftAlone (naming : Option Naming) (v : Value) : Bool :=
  naming.isNone || v.asEntries?.isNone

/-- The renamed document. -/
def rename (s : Schema) (naming : Option Naming) (direction : Direction) (model : ModelRef)
    (v : Value) : Except Fault Value :=
  match naming, v with
  | some f, .dict es => do
    let t ← model.class?
    s.renameWithin f direction (Value.dict es).depth t (.dict es)
  | _, v => .ok v

end Schema

end TypedSearch
