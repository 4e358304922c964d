import TypedSearch.Schema.Validation

/-!
# Stored form of values

What the engine stores of a value. Entities become objects: a model writes its fields under their
stored names, a record writes its fields, and anything else its public attributes. Members of
enumerations become their values, collections become lists, identifiers and links become texts.
Points in time stay, and so do frozen sets.

Inside a model the declared types decide: a field that is declared to hold entities of a class
writes the fields of that class, also where the entity is of a class that extends it. A field of a
plain class or of any type writes an entity as what it is, and so does everything outside models.

Not every value can be stored. A record is taken apart as a whole, and so is a model: each of its
fields must be there, and what becomes an object can be no key of an object anymore, nor an element
of a set within a model. Whatever is neither a record nor a part of it is copied when the record
around it is taken apart, and the copying fails on an entity that hides it behind an attribute.

* `Schema.prepareAs`: the stored form of a value, if nothing stands in the way.
* `Schema.takeApart`, `Schema.dump`: what stands in the way of taking a record or a model apart.
* `Schema.prepare`: the stored form of a value, or the first fault on the way to it.
-/

namespace TypedSearch

/-- The entries in order; a later one replaces an earlier one of the same name. -/
def Entries.ofNamed (es : List (String × Value)) : Entries :=
  es.foldl (fun kept e => Entries.put e.1 e.2 kept) []

namespace Schema

/-! ## Declared types -/

/-- The class writes its entities by declared types: it is a model or a record. -/
def isWriter (s : Schema) (cls : String) : Bool := s.isModel cls || s.isRecord cls

/-- The type writes entities as what they are. -/
def isUndeclared (s : Schema) : TypeExpr → Bool
  | .any | .variable | .generic _ _ | .basic .object => true
  | .named cls => !s.isWriter cls && (s.enumeration? cls).isNone
  | _ => false

mutual

/-- The value is of the type; entities are of the very class if `exact` is set. -/
def isOfType (s : Schema) (exact : Bool) : Value → TypeExpr → Bool
  | .entity kind own as, t =>
    match t with
    | .named cls =>
      s.isUndeclared t ||
        (s.isWriter cls && if exact then own == cls else s.isInstance cls (.entity kind own as))
    | t => s.isUndeclared t
  | .list xs, t =>
    match t with
    | .apply .list [item] | .apply .plainList [item] | .apply .sequence [item] =>
      s.areOfType exact xs item
    | t => (s.takeWhole t (.list xs)).isSome
  | .tuple xs, t =>
    match t with
    | .apply .openTuple [item] | .apply .sequence [item] => s.areOfType exact xs item
    | t => (s.takeWhole t (.tuple xs)).isSome
  | .set xs, t =>
    match t with
    | .apply .set [item] => s.areOfType exact xs item
    | t => (s.takeWhole t (.set xs)).isSome
  | .dict es, t =>
    match t with
    | .apply .dict [_, item] | .apply .plainDict [_, item] | .apply .mapping [_, item] =>
      s.areEntriesOfType exact es item
    | t => (s.takeWhole t (.dict es)).isSome
  | v, t => (s.takeWhole t v).isSome
termination_by structural v => v

/-- The values are of an alternative of the type each. -/
def areOfType (s : Schema) (exact : Bool) : List Value → TypeExpr → Bool
  | [], _ => true
  | x :: xs, t =>
    (t.alternatives.any fun h => s.isOfType exact x h) && s.areOfType exact xs t
termination_by structural xs => xs

/-- The values of an object are of an alternative of the type each. -/
def areEntriesOfType (s : Schema) (exact : Bool) : List (Value × Value) → TypeExpr → Bool
  | [], _ => true
  | (_, v) :: es, t =>
    (t.alternatives.any fun h => s.isOfType exact v h) && s.areEntriesOfType exact es t
termination_by structural es => es

end

/-- The alternative of a type by which a value is written: the only one there is, or else the
first that the value is of exactly, or else the first that it is of. -/
def writtenAs? (s : Schema) (t : TypeExpr) (v : Value) : Option TypeExpr :=
  match t.alternatives.filter fun h => !h.isNull with
  | [h] => some h
  | hs => hs.find? (s.isOfType true v) <|> hs.find? (s.isOfType false v)

/-! ## Parts -/

/-- The declared types of the elements of a collection. -/
def elementTypes (count : Nat) : Option TypeExpr → List (Option TypeExpr)
  | some (.apply .tuple ts) => ts.map some
  | some (.apply .list [t]) | some (.apply .plainList [t]) | some (.apply .sequence [t])
  | some (.apply .openTuple [t]) | some (.apply .set [t]) => List.replicate count (some t)
  | _ => []

/-- The declared type of the values of an object. -/
def entryType? : Option TypeExpr → Option TypeExpr
  | some (.apply .dict [_, t]) | some (.apply .plainDict [_, t])
  | some (.apply .mapping [_, t]) => some t
  | _ => none

/-- Under which key an attribute is written, and the declared type of its value. -/
abbrev Layout := String → Option (String × Option TypeExpr)

/-- What a model writes. -/
def modelLayout (s : Schema) (cls : String) : Layout := fun name =>
  ((s.settledFields cls).find? (·.name == name)).map fun f => (f.storedName, some f.type)

/-- What a record writes; the declared types count inside a model. -/
def recordLayout (s : Schema) (cls : String) (isDeclared : Bool) : Layout := fun name =>
  ((s.settledRecordFields cls).find? (·.name == name)).map fun f =>
    (name, if isDeclared then some f.type else none)

/-- What a plain class writes. -/
def plainLayout : Layout := fun name => if isPrivate name then none else some (name, none)

/-- What an entity of a class writes where no type is declared. -/
def ownLayout (s : Schema) (own : String) : Layout :=
  if s.isRecord own then s.recordLayout own false
  else if s.isModel own then s.modelLayout own
  else plainLayout

/-- What an entity of a class writes where a type may be declared. -/
def layout (s : Schema) (declared : Option TypeExpr) (own : String) : Layout :=
  match declared with
  | some (.named cls) =>
    if s.isModel cls then s.modelLayout cls
    else if s.isRecord cls && s.isRecord own then s.recordLayout cls true
    else s.ownLayout own
  | _ => s.ownLayout own

/-! ## Stored forms -/

mutual

/-- The stored form of a value, for which a type may be declared. -/
def prepareAs (s : Schema) : Value → Option TypeExpr → Value
  | .uuid text, _ => .str text
  | .url text, _ => .str text
  | .list xs, t =>
    let types := elementTypes xs.length (t.bind (s.writtenAs? · (.list xs)))
    .list (s.prepareEach xs types)
  | .tuple xs, t =>
    let types := elementTypes xs.length (t.bind (s.writtenAs? · (.tuple xs)))
    .list (s.prepareEach xs types)
  | .set xs, t =>
    let types := elementTypes xs.length (t.bind (s.writtenAs? · (.set xs)))
    .list (s.prepareEach xs types)
  | .dict es, t =>
    .dict (s.prepareEntries es (entryType? (t.bind (s.writtenAs? · (.dict es)))))
  | .member _ _ _ v, _ => s.prepareAs v none
  | .entity kind own as, t =>
    let written := t.bind (s.writtenAs? · (.entity kind own as))
    .dict (Entries.ofNamed (s.prepareAttributes as (s.layout written own)))
  | .field _, _ => .dict []
  | .condition path operator operand, _ =>
    .object [("field_path", s.prepareAs path none), ("operator", s.prepareAs operator none),
      ("value", s.prepareAs operand none)]
  | v, _ => v
termination_by structural v => v

/-- The stored forms of the elements of a list, for the first of which types may be declared. -/
def prepareEach (s : Schema) : List Value → List (Option TypeExpr) → List Value
  | [], _ => []
  | x :: xs, [] => s.prepareAs x none :: s.prepareEach xs []
  | x :: xs, t :: ts => s.prepareAs x t :: s.prepareEach xs ts
termination_by structural xs => xs

/-- The entries of an object with the stored forms of their values. -/
def prepareEntries (s : Schema) : List (Value × Value) → Option TypeExpr → List (Value × Value)
  | [], _ => []
  | (k, v) :: es, t => (k, s.prepareAs v t) :: s.prepareEntries es t
termination_by structural es => es

/-- The attributes of an entity that are written, with the stored forms of their values. -/
def prepareAttributes (s : Schema) : List (String × Value) → Layout → List (String × Value)
  | [], _ => []
  | (name, v) :: as, layout =>
    match layout name with
    | some (key, t) => (key, s.prepareAs v t) :: s.prepareAttributes as layout
    | none => s.prepareAttributes as layout
termination_by structural as => as

end

/-! ## What stands in the way -/

/-- How an entity is written where no type is declared: by the fields of a record or by those of a
model, and of which class; not at all if it is a plain one. -/
def ownWriter? (s : Schema) (own : String) : Option (EntityKind × String) :=
  if s.isRecord own then some (.record, own)
  else if s.isModel own then some (.model, own)
  else none

/-- How an entity is written where a type may be declared. -/
def writer? (s : Schema) (declared : Option TypeExpr) (own : String) :
    Option (EntityKind × String) :=
  match declared with
  | some (.named cls) =>
    if s.isModel cls then some (.model, cls)
    else if s.isRecord cls && s.isRecord own then some (.record, cls)
    else s.ownWriter? own
  | _ => s.ownWriter? own

/-- Goes through the outcomes of attributes, those of all fields of a record in their order. A field
without an attribute is a fault, and the attributes of other entities come as they are. -/
def throughFields {α : Type} (s : Schema) (writer : Option (EntityKind × String))
    (outcomes : List (String × Except Fault α)) : Except Fault Unit :=
  match writer with
  | some (.record, cls) =>
    (s.settledRecordFields cls).forM fun f =>
      ((outcomes.lookup f.name).getD (.error .missingAttribute)).map fun _ => ()
  | _ => outcomes.forM fun o => o.2.map fun _ => ()

/-- One of the attributes is taken for the way to copy the entity, and is none. -/
def hidesCopying (attributes : List (String × Value)) : Bool :=
  let given (name : String) : Bool := (attributes.lookup name).any (!·.isNull)
  given "__deepcopy__" || given "__reduce_ex__" || (attributes.lookup "__getstate__").isSome

mutual

/-- The value can be copied with all its parts. A model knows how to copy itself. -/
def isCopied (s : Schema) : Value → Bool
  | .list xs | .tuple xs | .set xs | .frozenset xs => s.areCopied xs
  | .dict es => s.areEntriesCopied es
  | .entity _ own as => (s.isModel own || !hidesCopying as) && s.areAttributesCopied as
  | .condition path operator operand =>
    s.isCopied path && s.isCopied operator && s.isCopied operand
  | _ => true
termination_by structural v => v

/-- All values of a list can be copied. -/
def areCopied (s : Schema) : List Value → Bool
  | [] => true
  | x :: xs => s.isCopied x && s.areCopied xs
termination_by structural xs => xs

/-- All keys and values of an object can be copied. -/
def areEntriesCopied (s : Schema) : List (Value × Value) → Bool
  | [] => true
  | (k, v) :: es => s.isCopied k && s.isCopied v && s.areEntriesCopied es
termination_by structural es => es

/-- All attributes of an entity can be copied. -/
def areAttributesCopied (s : Schema) : List (String × Value) → Bool
  | [] => true
  | (_, v) :: as => s.isCopied v && s.areAttributesCopied as
termination_by structural as => as

end

/-- Copies a value. The copy is no object. -/
def copy (s : Schema) (v : Value) : Except Fault Bool :=
  if s.isCopied v then .ok false else .error .wrongType

mutual

/-- Takes a record apart, with all records in it that stand in fields, lists, tuples and objects.
The answer tells whether the value has become an object, or a tuple of which an element has. -/
def takeApart (s : Schema) : Value → Except Fault Bool
  | .list xs => (s.takeApartEach xs).map fun _ => false
  | .tuple xs => s.takeApartEach xs
  | .dict es => (s.takeApartEntries es).map fun _ => false
  | .entity kind own as =>
    if s.isRecord own then
      (s.throughFields (some (.record, own)) (s.takeApartAttributes as)).map fun _ => true
    else s.copy (.entity kind own as)
  | v => s.copy v
termination_by structural v => v

/-- Takes the elements apart. The answer tells whether one of them has become an object. -/
def takeApartEach (s : Schema) : List Value → Except Fault Bool
  | [] => .ok false
  | x :: xs => do
    let isObject ← s.takeApart x
    let areObjects ← s.takeApartEach xs
    return isObject || areObjects
termination_by structural xs => xs

/-- Takes the keys and the values apart. No key may become an object. -/
def takeApartEntries (s : Schema) : List (Value × Value) → Except Fault Unit
  | [] => .ok ()
  | (k, v) :: es => do
    let isObject ← s.takeApart k
    let _ ← s.takeApart v
    if isObject then .error .wrongType else s.takeApartEntries es
termination_by structural es => es

/-- What comes of each attribute when it is taken apart. -/
def takeApartAttributes (s : Schema) : List (String × Value) → List (String × Except Fault Bool)
  | [] => []
  | (name, v) :: as => (name, s.takeApart v) :: s.takeApartAttributes as
termination_by structural as => as

end

/-- The declared types of the elements of a frozen set. -/
def frozenTypes (count : Nat) : Option TypeExpr → List (Option TypeExpr)
  | some (.apply .frozenset [t]) => List.replicate count (some t)
  | _ => []

/-- The declared type of the keys of an object. Keys of an object that is not declared as one are
left as they are. -/
def keyType? : Option TypeExpr → Option TypeExpr
  | some (.apply .dict [t, _]) | some (.apply .plainDict [t, _])
  | some (.apply .mapping [t, _]) => some t
  | some (.basic .dict) | some (.bare .dict) => some .any
  | _ => none

mutual

/-- Writes a model, with all models and records in it. The answer tells whether the value has become
an object, or a tuple of which an element has. -/
def dump (s : Schema) : Value → Option TypeExpr → Except Fault Bool
  | .list xs, t =>
    (s.dumpEach xs (elementTypes xs.length (t.bind (s.writtenAs? · (.list xs))))).map
      fun _ => false
  | .tuple xs, t => s.dumpEach xs (elementTypes xs.length (t.bind (s.writtenAs? · (.tuple xs))))
  | .set xs, t => do
    let areObjects ← s.dumpEach xs (elementTypes xs.length (t.bind (s.writtenAs? · (.set xs))))
    if areObjects then .error .wrongType else .ok false
  | .frozenset xs, t => do
    let areObjects ← s.dumpEach xs
      (frozenTypes xs.length (t.bind (s.writtenAs? · (.frozenset xs))))
    if areObjects then .error .wrongType else .ok false
  | .dict es, t =>
    let written := t.bind (s.writtenAs? · (.dict es))
    (s.dumpEntries es (keyType? written) (entryType? written)).map fun _ => false
  | .entity kind own as, t =>
    let written := t.bind (s.writtenAs? · (.entity kind own as))
    let writer := s.writer? written own
    if writer.isSome then
      (s.throughFields writer (s.dumpAttributes as (s.layout written own))).map fun _ => true
    else .ok false
  | _, _ => .ok false
termination_by structural v => v

/-- Writes the elements. The answer tells whether one of them has become an object. -/
def dumpEach (s : Schema) : List Value → List (Option TypeExpr) → Except Fault Bool
  | [], _ => .ok false
  | x :: xs, ts => do
    let isObject ← s.dump x (ts.headD none)
    let areObjects ← s.dumpEach xs ts.tail
    return isObject || areObjects
termination_by structural xs => xs

/-- Writes the values, and the keys if a type is declared for them. No key may become an object. -/
def dumpEntries (s : Schema) : List (Value × Value) → Option TypeExpr → Option TypeExpr →
    Except Fault Unit
  | [], _, _ => .ok ()
  | (k, v) :: es, key, item => do
    let isObject ← (if key.isSome then s.dump k key else .ok false)
    let _ ← s.dump v item
    if isObject then .error .wrongType else s.dumpEntries es key item
termination_by structural es => es

/-- What comes of each attribute that is written. -/
def dumpAttributes (s : Schema) : List (String × Value) → Layout →
    List (String × Except Fault Bool)
  | [], _ => []
  | (name, v) :: as, layout =>
    match layout name with
    | some (_, t) => (name, s.dump v t) :: s.dumpAttributes as layout
    | none => s.dumpAttributes as layout
termination_by structural as => as

end

/-- Takes an entity apart that does not stand in a model that has been taken apart already. -/
def enter (s : Schema) (isInModel : Bool) (kind : EntityKind) (own : String)
    (attributes : List (String × Value)) : Except Fault Unit :=
  if isInModel then .ok ()
  else if s.isRecord own then (s.takeApart (.entity kind own attributes)).map fun _ => ()
  else if s.isModel own then (s.dump (.entity kind own attributes) none).map fun _ => ()
  else .ok ()

/-- The attributes of an entity stand in a model: the entity is a model that is taken apart, or it is
written in one. -/
def isWithinModel (s : Schema) (isInModel : Bool) (declared : Option TypeExpr)
    (own : String) : Bool :=
  if isInModel then (s.writer? declared own).isSome else !s.isRecord own && s.isModel own

mutual

/-- Fails with what stands in the way of the stored form of a value, if anything does. A model is
taken apart with the models and records in it; what it leaves as it is, members and plain entities,
stands in no model anymore. -/
def checkAs (s : Schema) : Value → Bool → Option TypeExpr → Except Fault Unit
  | .list xs, isInModel, t =>
    s.checkEach xs isInModel (elementTypes xs.length (t.bind (s.writtenAs? · (.list xs))))
  | .tuple xs, isInModel, t =>
    s.checkEach xs isInModel (elementTypes xs.length (t.bind (s.writtenAs? · (.tuple xs))))
  | .set xs, isInModel, t =>
    s.checkEach xs isInModel (elementTypes xs.length (t.bind (s.writtenAs? · (.set xs))))
  | .dict es, isInModel, t =>
    s.checkEntries es isInModel (entryType? (t.bind (s.writtenAs? · (.dict es))))
  | .member _ _ _ v, _, _ => s.checkAs v false none
  | .entity kind own as, isInModel, t => do
    let written := t.bind (s.writtenAs? · (.entity kind own as))
    s.enter isInModel kind own as
    s.throughFields (s.writer? written own)
      (s.checkAttributes as (s.isWithinModel isInModel written own) (s.layout written own))
  | .condition path operator operand, _, _ => do
    s.checkAs path false none
    s.checkAs operator false none
    s.checkAs operand false none
  | _, _, _ => .ok ()
termination_by structural v => v

/-- The elements of a list one by one. -/
def checkEach (s : Schema) : List Value → Bool → List (Option TypeExpr) → Except Fault Unit
  | [], _, _ => .ok ()
  | x :: xs, isInModel, ts => do
    s.checkAs x isInModel (ts.headD none)
    s.checkEach xs isInModel ts.tail
termination_by structural xs => xs

/-- The values of an object one by one. -/
def checkEntries (s : Schema) : List (Value × Value) → Bool → Option TypeExpr →
    Except Fault Unit
  | [], _, _ => .ok ()
  | (_, v) :: es, isInModel, t => do
    s.checkAs v isInModel t
    s.checkEntries es isInModel t
termination_by structural es => es

/-- What stands in the way of each attribute that is written. -/
def checkAttributes (s : Schema) : List (String × Value) → Bool → Layout →
    List (String × Except Fault Unit)
  | [], _, _ => []
  | (name, v) :: as, isInModel, layout =>
    match layout name with
    | some (_, t) => (name, s.checkAs v isInModel t) :: s.checkAttributes as isInModel layout
    | none => s.checkAttributes as isInModel layout
termination_by structural as => as

end

/-! ## The stored form -/

/-- The stored form of a value, or the first fault on the way to it. -/
def prepare (s : Schema) (v : Value) : Except Fault Value :=
  (s.checkAs v false none).map fun _ => s.prepareAs v none

end Schema

end TypedSearch
