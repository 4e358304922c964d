import TypedSearch.Schema.Path

/-!
# Index mappings

The mapping of an index follows from a model: a property for each field whose kind the engine
can index, and the properties of its class below a field with structured values. Classes may
refer to each other in circles; a class that is already expanded above on the way from the root
is not expanded again.

* `Schema.mapping`: the mapping of a model.
-/

namespace TypedSearch

namespace Schema

/-- The class behind an object or an array of objects. -/
def structuredClass? (s : Schema) (t : TypeExpr) : Option String :=
  let bare := t.stripped
  let bare := match bare.item? with
    | some item => item.stripped
    | none => bare
  match bare with
  | .named cls => if s.isStructured bare then some cls else none
  | _ => none

/-- The names of the classes, each once. -/
def classNames (s : Schema) : List String := (s.classes.map (·.name)).eraseDups

mutual

/-- The properties of a class; `fresh` are the classes that are not expanded above. -/
def properties (s : Schema) (naming : Option Naming) (fresh : List String) (target : TypeExpr) :
    Except Fault Entries :=
  match s.fieldsOf naming target with
  | .error e => .error e
  | .ok fields => collect s naming fresh [] fields
termination_by (fresh.length, 1, 0)

/-- The properties of fields, behind the properties collected so far. -/
def collect (s : Schema) (naming : Option Naming) (fresh : List String) (found : Entries)
    (fields : List FieldEntry) : Except Fault Entries :=
  match fields with
  | [] => .ok found
  | f :: fields =>
    let kind := s.classify f.type
    match kind with
    | .unknown => collect s naming fresh found fields
    | .object | .nested =>
      match expansion s naming fresh (s.structuredClass? f.type) with
      | .error e => .error e
      | .ok below =>
        let entry := Value.object ([("type", .str kind.name)] ++ below)
        collect s naming fresh (Entries.put f.wire entry found) fields
    | _ =>
      let entry := Value.object [("type", .str kind.name)]
      collect s naming fresh (Entries.put f.wire entry found) fields
termination_by (fresh.length, 0, fields.length + 1)

/-- The properties below a field with structured values, unless its class is expanded above. -/
def expansion (s : Schema) (naming : Option Naming) (fresh : List String) (cls : Option String) :
    Except Fault (List (String × Value)) :=
  match cls with
  | none => .ok []
  | some cls =>
    if cls ∈ fresh then
      (properties s naming (fresh.erase cls) (.named cls)).map fun es => [("properties", .dict es)]
    else .ok []
termination_by (fresh.length, 0, 0)
decreasing_by
  rename_i h
  exact .left _ _ (by have := List.length_pos_of_mem h; rw [List.length_erase_of_mem h]; omega)

end

/-- The mapping of a model. -/
def mapping (s : Schema) (naming : Option Naming) (model : TypeExpr) : Except Fault Value :=
  let fresh := s.classNames.filter fun c => some c != classOf? model
  (s.properties naming fresh model).map fun es => .object [("properties", .dict es)]

end Schema

end TypedSearch
