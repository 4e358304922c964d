import TypedSearch.Schema.Kind
import TypedSearch.Naming
import TypedSearch.Text.Digit

/-!
# Paths through models

A path of attribute names leads from a model to a field. Each step goes into the class behind
the current type; arrays are transparent, an object with arbitrary keys takes any segment, and
below a type that is not known every path is accepted as it stands.

* `Schema.step`: one segment.
* `Schema.walk`: the type at the end of a path and the names of the stored fields on the way.
* `Schema.typeAt`, `Schema.wirePath`, `Schema.kindAt`: the parts of a walk, with faults that
  name the model.
-/

namespace TypedSearch

open Text

namespace Schema

/-- The name of the stored field for an attribute: an alias, or the naming's answer. -/
def wireName (s : Schema) (naming : Option Naming) (cls name : String) : Except Fault String :=
  match s.alias? cls name with
  | some stored => .ok stored
  | none =>
    match naming with
    | some f => f name
    | none => .ok name

/-! ## Steps -/

/-- Where one segment leads: below a type that is not known, to whatever follows, or to a type
under a stored name. -/
inductive Step where
  | anything
  | into (t : TypeExpr) (wire : String)

/-- The segments in front of the current one. -/
def parentText (before : List String) : String :=
  if before.isEmpty then "root" else
    let p := join "." before
    if p = "" then "root" else p

/-- One segment: `before` are the segments in front of it, `t` is the type they lead to. Either
fault of a path or of reading a class may come out. -/
def step (s : Schema) (naming : Option Naming) (before : List String) (t : TypeExpr)
    (segment : String) : Except (PathFault ⊕ Fault) Step :=
  let whole := join "." (before ++ [segment])
  let core := t.core
  if isDigits segment then .error (.inl (.positional segment whole))
  else
    match core with
    | .any | .variable => .ok .anything
    | _ =>
      if core.isDict then
        match core.dictArgs? with
        | some (.basic .text, v) => .ok (.into v segment)
        | some (k, _) => .error (.inl (.dictKey whole k.name))
        | none => .ok (.into .any segment)
      else
        match core with
        | .union _ => .error (.inl (.plainUnion segment core.display))
        | .named cls =>
          if s.isStructured core then
            match s.hints cls with
            | .error e => .error (.inr e)
            | .ok hs =>
              match hs.lookup segment with
              | none => .error (.inl (.unknownField segment cls whole))
              | some next =>
                match s.wireName naming cls segment with
                | .error e => .error (.inr e)
                | .ok wire => .ok (.into next wire)
          else
            .error (.inl (.notTraversable segment (parentText before) core.name whole))
        | _ => .error (.inl (.notTraversable segment (parentText before) core.name whole))

/-- The rest of a walk from the type `t`, to which the segments `before` lead. -/
def walkFrom (s : Schema) (naming : Option Naming) (before : List String) (t : TypeExpr) :
    List String → Except (PathFault ⊕ Fault) (TypeExpr × List String)
  | [] => .ok (t, [])
  | segment :: rest =>
    match s.step naming before t segment with
    | .error e => .error e
    | .ok .anything => .ok (.any, segment :: rest)
    | .ok (.into next wire) =>
      match walkFrom s naming (before ++ [segment]) next rest with
      | .error e => .error e
      | .ok (final, wires) => .ok (final, wire :: wires)

/-! ## Walks -/

/-- The type at the end of a path and the stored names on the way. -/
def walk (s : Schema) (naming : Option Naming) (model : TypeExpr) (path : String) :
    Except Fault (TypeExpr × List String) :=
  if path = "" then .error .emptyPath
  else
    match s.walkFrom naming [] model (split '.' path) with
    | .ok r => .ok r
    | .error (.inl fault) => .error (.path fault model.name)
    | .error (.inr e) =>
      .error (if e.kind = .typeMismatch then .unreadableHints path model.display e
        else .unexpectedWalk path e)

/-- The type of the field at a path. -/
def typeAt (s : Schema) (naming : Option Naming) (model : TypeExpr) (path : String) :
    Except Fault TypeExpr :=
  (s.walk naming model path).map (·.1)

/-- The path of stored names. -/
def wirePath (s : Schema) (naming : Option Naming) (model : TypeExpr) (path : String) :
    Except Fault String :=
  (s.walk naming model path).map fun r => join "." r.2

/-- The kind of the field at a path. -/
def kindAt (s : Schema) (naming : Option Naming) (model : TypeExpr) (path : String) :
    Except Fault FieldKind :=
  (s.typeAt naming model path).map s.classify

/-- The path leads to an array of structured elements. -/
def isNestedArray (s : Schema) (naming : Option Naming) (model : TypeExpr) (path : String) :
    Except Fault Bool :=
  (s.kindAt naming model path).map (· == .nested)

/-! ## Fields of a class -/

/-- A field with the name of its stored field. -/
structure FieldEntry where
  name : String
  wire : String
  type : TypeExpr

/-- The entries for hints of a class. -/
def entriesOf (s : Schema) (naming : Option Naming) (cls : String) :
    List (String × TypeExpr) → Except Fault (List FieldEntry)
  | [] => .ok []
  | (name, type) :: hs =>
    match s.wireName naming cls name with
    | .error e => .error e
    | .ok wire => (entriesOf s naming cls hs).map ({ name, wire, type } :: ·)

/-- The fields of a type in order. Only classes have fields. -/
def fieldsOf (s : Schema) (naming : Option Naming) (target : TypeExpr) :
    Except Fault (List FieldEntry) :=
  (s.hintsOf target).bind (s.entriesOf naming ((classOf? target).getD ""))

end Schema

end TypedSearch
