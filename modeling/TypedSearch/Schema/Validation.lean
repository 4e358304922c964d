import TypedSearch.Calendar.Stamp
import TypedSearch.Schema.Declaration

/-!
# Validation of data

A model reads data: it takes each field from its entry, checks it against the field's type, and
fills a missing one with its fallback. Entries that no field reads are ignored. A type accepts a
value by giving the value the field will hold: a whole number becomes a double where a double is
expected, a date text becomes a date, a choice becomes a member, an object becomes an entity. A
value that a type does not take in this way goes through the conversions, which make numbers of
their texts and collections of one kind of those of another.

Of several alternatives the first that takes a value as it is holds. Where there is none, the
one by which the most fields of models are read wins, and among those the one that changes the
value least.

* `Schema.takeWhole`, `Schema.convert`: what a type makes of a value by itself and by conversion.
* `Schema.accept`: what a type makes of a value, if it accepts it.
* `Schema.acceptModel`: the entity that a model makes of the entries of an object.
-/

namespace TypedSearch

/-! ## Fits -/

/-- How a type takes a value: by conversion, as a value of a kindred type, or as it is. -/
inductive Grade where
  | converted
  | kindred
  | exact
  deriving DecidableEq, Repr

namespace Grade

/-- The place of a grade in the order from worse to better. -/
def rank : Grade → Nat
  | .converted => 0
  | .kindred => 1
  | .exact => 2

/-- The worse of two grades. -/
def worse (a b : Grade) : Grade := if a.rank ≤ b.rank then a else b

end Grade

/-- What a type makes of a value, how it takes the value, and how many fields of models it reads on
the way; none if it comes through no model. -/
structure Fit where
  value : Value
  grade : Grade
  fieldsRead : Option Nat

namespace Fit

/-- The value is taken as it is. -/
def exactly (v : Value) : Fit := ⟨v, .exact, none⟩

/-- The value is taken as one of a kindred type. -/
def kindred (v : Value) : Fit := ⟨v, .kindred, none⟩

/-- The value is converted. -/
def converted (v : Value) : Fit := ⟨v, .converted, none⟩

/-- The fit of a whole with one more part; the part's value is not looked at. -/
def withPart (whole part : Fit) : Fit :=
  let fieldsRead :=
    match whole.fieldsRead, part.fieldsRead with
    | some m, some n => some (m + n)
    | m, n => m <|> n
  { whole with grade := whole.grade.worse part.grade, fieldsRead }

/-- The fit of a whole with its parts. -/
def withParts (whole : Fit) (parts : List Fit) : Fit := parts.foldl withPart whole

/-- A whole made of the values of its parts. -/
def ofParts (make : List Value → Value) (parts : List Fit) : Fit :=
  (exactly (make (parts.map (·.value)))).withParts parts

/-- No other alternative needs to be tried. -/
def isFinal (f : Fit) : Bool := f.grade == .exact && f.fieldsRead.isNone

/-- The second fit is better than the first. -/
def isImproved (f g : Fit) : Bool :=
  match f.fieldsRead, g.fieldsRead with
  | some m, some n => if m = n then f.grade.rank < g.grade.rank else m < n
  | _, _ => f.grade.rank < g.grade.rank

/-- The fit that holds among those of several alternatives. -/
def best? (fits : List Fit) : Option Fit :=
  match fits.find? isFinal, fits with
  | some f, _ => some f
  | none, [] => none
  | none, f :: fs => some (fs.foldl (fun f g => if f.isImproved g then g else f) f)

end Fit

/-! ## Alternatives -/

namespace TypeExpr

mutual

/-- The types without wrappers that a type offers. -/
def alternatives : TypeExpr → List TypeExpr
  | .annotated t _ => t.alternatives
  | .union ts => alternativesOf ts
  | .pipe ts => alternativesOf ts
  | t => [t]
termination_by structural t => t

/-- The alternatives of several types. -/
def alternativesOf : List TypeExpr → List TypeExpr
  | [] => []
  | t :: ts => t.alternatives ++ alternativesOf ts
termination_by structural ts => ts

end

end TypeExpr

namespace Schema

/-! ## Scalars -/

/-- A date from a date, a stamp, or a point in time at the start of a day. -/
def acceptDate (v : Value) : Option Fit :=
  match v with
  | .date d => some (.exactly (.date d))
  | .datetime t => if t.clock = .midnight then some (.converted (.date t.date)) else none
  | v => (v.asText?.bind Date.ofStamp?).map fun d => .converted (.date d)

/-- A point in time from a point in time, a date, or a stamp. -/
def acceptDateTime (v : Value) : Option Fit :=
  match v with
  | .datetime t => some (.exactly (.datetime t))
  | .date d => some (.converted (.datetime d.atMidnight))
  | v => (v.asText?.bind DateTime.ofStamp?).map fun t => .converted (.datetime t)

/-- A double from a double or a whole number that is not too great for one. -/
def acceptDouble (v : Value) : Option Fit :=
  match v with
  | .double x => some (.exactly (.double x))
  | v =>
    (v.asCount?.map Double.ofInt).bind fun x =>
      if x.isInfinite then none else some (.kindred (.double x))

/-- What a basic class makes of a value by itself. -/
def takeBasic (b : BasicType) (v : Value) : Option Fit :=
  let same : Option Fit := some (.exactly v)
  match b, v with
  | .text, .str _ => same
  | .text, v => v.asText?.map fun s => .kindred (.str s)
  | .integer, .int _ => same
  | .integer, v => v.asCount?.map fun n => .kindred (.int n)
  | .double, v => acceptDouble v
  | .boolean, .bool _ => same
  | .bytes, .bytes _ => same
  | .datetime, v => acceptDateTime v
  | .date, v => acceptDate v
  | .decimal, .decimal _ => same
  | .uuid, .uuid _ => same
  | .url, .url _ => same
  | .object, v => some (.kindred v)
  | .list, .list _ => same
  | .tuple, .tuple _ => same
  | .set, .set _ => same
  | .frozenset, .frozenset _ => same
  | .dict, .dict _ => same
  | _, _ => none

/-- The entity is of the class or of one that extends it. -/
def isInstance (s : Schema) (cls : String) (v : Value) : Bool :=
  match v with
  | .entity _ own _ => (s.lineage own).any (·.name == cls)
  | _ => false

/-- An entity as it is, if it is of a class. -/
def acceptInstance (s : Schema) (cls : String) (v : Value) : Option Fit :=
  if s.isInstance cls v then some (.exactly v) else none

/-- A member of an enumeration from itself or from what stands for it. -/
def acceptMember (e : Enumeration) (v : Value) : Option Fit :=
  (e.accept? v).map fun m => if v.typeName = e.name then .exactly m else .converted m

/-- What a type without wrappers makes by itself of a value whose parts need no look. -/
def takeWhole (s : Schema) (t : TypeExpr) (v : Value) : Option Fit :=
  match t with
  | .basic b => takeBasic b v
  | .any | .variable => some (.kindred v)
  | .null => if v.isNull then some (.exactly .null) else none
  | .literal vs => (vs.find? fun u => u.typeName == v.typeName && u.equals v).map .exactly
  | .bare .list => takeBasic .list v
  | .bare .tuple => takeBasic .tuple v
  | .bare .set => takeBasic .set v
  | .bare .dict => takeBasic .dict v
  | .named cls =>
    match s.enumeration? cls with
    | some e => acceptMember e v
    | none => s.acceptInstance cls v
  | .generic cls _ => s.acceptInstance cls v
  | _ => none

/-! ## Conversions -/

/-- The type converts values: it does not take any value, nor null alone, and it is no class whose
entities come from objects. -/
def isConverting (s : Schema) : TypeExpr → Bool
  | .any | .variable | .null | .generic _ _ => false
  | .named cls => (s.enumeration? cls).isSome
  | _ => true

/-- What a type makes of a value by conversion. Null is never converted. -/
def convert (s : Schema) (t : TypeExpr) (v : Value) : Option Fit :=
  if s.isConverting t && !v.isNull then
    (s.conversion t v).map fun made => ⟨made.1, .converted, made.2⟩
  else none

/-- What a type without wrappers makes of a value whose parts need no look. -/
def acceptWhole (s : Schema) (t : TypeExpr) (v : Value) : Option Fit :=
  s.takeWhole t v <|> s.convert t v

/-! ## Models -/

/-- The entries of an object with what any type makes of their values. -/
abbrev Readers := List (Value × (TypeExpr → Option Fit))

/-- What makes a value under one of the names, the first that is there. -/
def reader? (readers : Readers) : List String → Option (TypeExpr → Option Fit)
  | [] => none
  | name :: names =>
    match readers.find? fun r => Entries.keyIs name r.1 with
    | some r => some r.2
    | none => reader? readers names

/-- The fields with their values: each from the first of its names that is there, or else its
fallback. What is read comes with its fit. -/
def acceptFields (readers : Readers) (names : FieldDecl TypeExpr → List String) :
    List (FieldDecl TypeExpr) → Option (List (String × Value × Option Fit))
  | [] => some []
  | f :: fs => do
    let entry ←
      match reader? readers (names f) with
      | some read => (read f.type).map fun fit => (f.name, fit.value, some fit)
      | none => f.fallback.map fun v => (f.name, v, none)
    return entry :: (← acceptFields readers names fs)

/-- An entity of the fields with their values, where `whole` is how the object is taken. -/
def entityFit (kind : EntityKind) (cls : String) (whole : Grade)
    (fields : List (String × Value × Option Fit)) : Fit :=
  let parts := fields.filterMap (·.2.2)
  let own : Fit :=
    ⟨.entity kind cls (fields.map fun f => (f.1, f.2.1)), whole, some parts.length⟩
  own.withParts parts

/-- The names under which data may give a field of a model: its alias, and where the model itself
says so its own name. -/
def dataNames (s : Schema) (cls : String) (f : FieldDecl TypeExpr) : List String :=
  f.readName :: (if (s.class? cls).any (·.readsNames) then [f.name] else [])

/-- What a class makes of the readers of an object's entries. A model reads its fields under the
names in data, a record under their own. -/
def acceptReaders (s : Schema) (cls : String) (readers : Readers) : Option Fit :=
  if s.isModel cls then
    (acceptFields readers (s.dataNames cls) (s.settledFields cls)).map
      (entityFit .model cls .converted)
  else if s.isRecord cls then
    (acceptFields readers (fun f => [f.name]) (s.settledRecordFields cls)).map
      (entityFit .record cls .kindred)
  else none

/-- An object as a row of keys and values again. -/
def dictOfFits (es : List (Fit × Fit)) : Fit :=
  (Fit.exactly (.dict (es.map fun e => (e.1.value, e.2.value)))).withParts
    (es.flatMap fun e => [e.1, e.2])

mutual

/-- What a type makes of a value, if it accepts it. -/
def fit (s : Schema) : Value → TypeExpr → Option Fit
  | .list xs, t =>
    Fit.best? (t.alternatives.filterMap fun h =>
      match h with
      | .apply .list [item] | .apply .plainList [item] | .apply .sequence [item] =>
        (s.fitAll xs item).map (.ofParts .list)
      | h => s.acceptWhole h (.list xs))
  | .tuple xs, t =>
    Fit.best? (t.alternatives.filterMap fun h =>
      match h with
      | .apply .openTuple [item] | .apply .sequence [item] =>
        (s.fitAll xs item).map (.ofParts .tuple)
      | .apply .tuple items => (s.fitEach xs items).map (.ofParts .tuple)
      | h => s.acceptWhole h (.tuple xs))
  | .set xs, t =>
    Fit.best? (t.alternatives.filterMap fun h =>
      match h with
      | .apply .set [item] => (s.fitAll xs item).map (.ofParts .set)
      | h => s.acceptWhole h (.set xs))
  | .frozenset xs, t =>
    Fit.best? (t.alternatives.filterMap fun h =>
      match h with
      | .apply .frozenset [item] => (s.fitAll xs item).map (.ofParts .frozenset)
      | h => s.acceptWhole h (.frozenset xs))
  | .dict es, t =>
    Fit.best? (t.alternatives.filterMap fun h =>
      match h with
      | .apply .dict [key, item] | .apply .plainDict [key, item]
      | .apply .mapping [key, item] => (s.fitEntries es key item).map dictOfFits
      | .named cls =>
        s.acceptReaders cls (s.readersOf es) <|> s.acceptWhole (.named cls) (.dict es)
      | h => s.acceptWhole h (.dict es))
  | v, t => Fit.best? (t.alternatives.filterMap fun h => s.acceptWhole h v)
termination_by structural v => v

/-- Every element as one type makes it. -/
def fitAll (s : Schema) : List Value → TypeExpr → Option (List Fit)
  | [], _ => some []
  | x :: xs, t => do
    let x ← s.fit x t
    return x :: (← s.fitAll xs t)
termination_by structural xs => xs

/-- Every element as the type in its place makes it. -/
def fitEach (s : Schema) : List Value → List TypeExpr → Option (List Fit)
  | [], [] => some []
  | x :: xs, t :: ts => do
    let x ← s.fit x t
    return x :: (← s.fitEach xs ts)
  | _, _ => none
termination_by structural xs => xs

/-- Every entry of an object as a type of keys and one of values make it. -/
def fitEntries (s : Schema) : List (Value × Value) → TypeExpr → TypeExpr →
    Option (List (Fit × Fit))
  | [], _, _ => some []
  | (k, v) :: es, key, item => do
    let k ← s.fit k key
    let v ← s.fit v item
    return (k, v) :: (← s.fitEntries es key item)
termination_by structural es => es

/-- The entries of an object with what any type makes of their values. -/
def readersOf (s : Schema) : List (Value × Value) → Readers
  | [] => []
  | (k, v) :: es => (k, fun t => s.fit v t) :: s.readersOf es
termination_by structural es => es

end

/-- The value that a type makes of a value, if it accepts it. -/
def accept (s : Schema) (v : Value) (t : TypeExpr) : Option Value := (s.fit v t).map (·.value)

/-- The entity that a model makes of the entries of an object. -/
def acceptModel (s : Schema) (cls : String) (es : Entries) : Option Value :=
  (s.acceptReaders cls (s.readersOf es)).map (·.value)

end Schema

end TypedSearch
