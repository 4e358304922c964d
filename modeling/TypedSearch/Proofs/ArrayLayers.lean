import TypedSearch.Proofs.NestedFields

/-!
# Layers of arrays

A walk takes every layer of arrays off a type before it reads the next segment; the kind of a type
looks through one layer. So an array of structured elements is nested if there is one layer, and
every other array that a walk goes through into a class has a kind by markers alone and cannot scope
a field.

* `TypeExpr.Peels`: so many layers are taken off, and this is left.
* `TypeExpr.peels_iff`: every type is peeled in one way, down to its core.
* `Schema.classify_eq_nested_iff`, `Schema.classify_of_layers`: the kind by the number of layers.
* `Schema.nested_agrees_iff`: **where the kind and the walk agree about arrays.**
-/

namespace TypedSearch

namespace TypeExpr

/-! ## Peeling -/

/-- Layers of arrays are taken off one after the other, each below its optionals and markers, until
no array is left. -/
inductive Peels : TypeExpr → Nat → TypeExpr → Prop
  | bare {t : TypeExpr} : t.stripped.item? = none → Peels t 0 t.stripped
  | layer {t item u : TypeExpr} {n : Nat} :
      t.stripped.item? = some item → Peels item n u → Peels t (n + 1) u

theorem peels_core (t : TypeExpr) : Peels t t.arrayDepth t.core := by
  induction hn : t.arrayDepth generalizing t with
  | zero =>
    obtain ⟨hitem, hcore⟩ := stripped_of_arrayDepth hn
    exact hcore ▸ .bare hitem
  | succ n ih =>
    obtain ⟨item, hitem, hdepth, hcore⟩ := item?_of_arrayDepth hn
    exact .layer hitem (hcore ▸ ih item hdepth)

theorem Peels.eq {t u : TypeExpr} {n : Nat} (h : Peels t n u) : n = t.arrayDepth ∧ u = t.core := by
  induction h with
  | bare hitem => exact ⟨(arrayDepth_of_item?_none hitem).symm, (core_of_item?_none hitem).symm⟩
  | layer hitem _ ih =>
    obtain ⟨hn, hu⟩ := ih
    rw [arrayDepth_of_stripped hitem, hn, hu, ← core_of_item? hitem, core_stripped]
    exact ⟨rfl, rfl⟩

/-- Every type is peeled in one way. -/
theorem peels_iff {t u : TypeExpr} {n : Nat} : Peels t n u ↔ n = t.arrayDepth ∧ u = t.core := by
  constructor
  · exact Peels.eq
  · rintro ⟨rfl, rfl⟩
    exact peels_core t

end TypeExpr

namespace Schema

variable {s : Schema} {naming : Option Naming} {t model : TypeExpr}

/-! ## Kinds by layers -/

/-- An array is nested if one layer stands above a class. -/
theorem classify_eq_nested_iff :
    s.classify t = .nested ↔ t.arrayDepth = 1 ∧ s.isStructured t.core = true := by
  constructor
  · intro h
    obtain ⟨cls, hcls⟩ := Option.isSome_iff_exists.mp (structuredClass?_isSome h)
    obtain ⟨hcore, hdepth, hs⟩ := structuredClass?_eq_some_iff_core.mp hcls
    refine ⟨?_, hcore ▸ hs⟩
    have hpos : t.arrayDepth ≠ 0 := by
      intro hzero
      rw [classify_of_item?_none (TypeExpr.stripped_of_arrayDepth hzero).1] at h
      exact kindOf_ne_nested h
    omega
  · rintro ⟨hdepth, hs⟩
    obtain ⟨item, hitem, hzero, hcore⟩ := TypeExpr.item?_of_arrayDepth hdepth
    have hinner : item.stripped = t.core :=
      (TypeExpr.stripped_of_arrayDepth hzero).2.trans hcore
    rw [classify_of_item? hitem, hinner, if_pos hs]

/-- The kind that markers give by themselves. -/
def markedKind (markers : List Marker) : FieldKind :=
  if markers.contains .text then .text
  else if markers.contains .keyword then .keyword
  else .unknown

/-- What the elements of an array are does not matter to the kind of the array itself. -/
theorem kindOf_of_item? {item : TypeExpr} (h : t.item? = some item) (markers : List Marker) :
    s.kindOf markers t = markedKind markers := by
  have hdict : t.isDict = false := by
    cases hd : t.isDict with
    | false => rfl
    | true =>
      rw [TypeExpr.item?_of_isDict hd] at h
      cases h
  unfold kindOf markedKind
  rw [hdict]
  cases t with
  | basic b => cases b <;> first | rfl | cases h
  | named cls => cases h
  | _ => rfl

/-- Below more than one layer only the markers on the outer two count. -/
theorem classify_of_layers (h : 1 < t.arrayDepth) :
    ∃ markers, s.classify t = markedKind markers := by
  obtain ⟨item, hitem, hdepth, -⟩ :=
    TypeExpr.item?_of_arrayDepth (t := t) (n := t.arrayDepth - 1) (by omega)
  obtain ⟨inner, hinner, -, -⟩ :=
    TypeExpr.item?_of_arrayDepth (t := item) (n := item.arrayDepth - 1) (by omega)
  refine ⟨t.unwrap.2 ++ item.unwrap.2, ?_⟩
  have hplain : s.isStructured item.stripped = false := by
    cases hs : s.isStructured item.stripped with
    | false => rfl
    | true =>
      obtain ⟨cls, hcls⟩ := isStructured_eq_true hs
      rw [hcls] at hinner
      cases hinner
  rw [classify_of_item? hitem, hplain, kindOf_of_item? hinner]
  rfl

/-! ## Scopes -/

/-- The ancestor at the end of a walk can scope a field if its kind is nested. -/
theorem checkScope_of_walk {path : String} {wires : List String}
    (h : s.walk naming model path = .ok (t, wires)) :
    Resolver.checkScope ⟨s, naming, some model⟩ path =
      if s.classify t = .nested then .ok () else .error (.notNestedArray path model.name) := by
  have hnested : s.isNestedArray naming model path = .ok (s.classify t == .nested) := by
    unfold isNestedArray kindAt typeAt
    rw [h]
    rfl
  unfold Resolver.checkScope
  dsimp only
  rw [hnested]
  by_cases hk : s.classify t = .nested
  · simp [hk]
  · simp [hk, beq_eq_false_iff_ne.mpr hk]

/-- **The kind and the walk agree about arrays up to the second layer.** A walk peels a type down
to one core, through all layers of arrays. The type is nested if it has exactly one layer above a
class; so it is nested just when the walk goes through some array into a class, unless there is more
than one layer. From there on the walk still goes on in the class, and the kind is left to the
markers, so that the array cannot scope what the walk finds below it. -/
theorem nested_agrees_iff (s : Schema) (t : TypeExpr) :
    ∃ n core, (∀ m u, t.Peels m u ↔ m = n ∧ u = core) ∧
      (s.classify t = .nested ↔ n = 1 ∧ s.isStructured core = true) ∧
      ((s.classify t = .nested ↔ 0 < n ∧ s.isStructured core = true) ↔
        ¬(1 < n ∧ s.isStructured core = true)) ∧
      (1 < n → ∃ markers, s.classify t = markedKind markers) ∧
      ∀ naming model path wires, s.walk naming model path = .ok (t, wires) →
        s.isStructured core = true →
          (∀ member, member ≠ "" → Follows (fun r => (r.1, wires ++ r.2))
            (s.walk naming core member) (s.walk naming model (path ++ "." ++ member))) ∧
          Resolver.checkScope ⟨s, naming, some model⟩ path =
            if n = 1 then .ok () else .error (.notNestedArray path model.name) := by
  refine ⟨t.arrayDepth, t.core, fun m u => TypeExpr.peels_iff, classify_eq_nested_iff, ?_,
    classify_of_layers, ?_⟩
  · rw [classify_eq_nested_iff]
    by_cases hs : s.isStructured t.core = true
    · simp only [hs, and_true]
      omega
    · simp [hs]
  · intro naming model path wires hwalk hs
    obtain ⟨cls, hcore⟩ := isStructured_eq_true hs
    refine ⟨fun member hmember => ?_, ?_⟩
    · rw [hcore]
      exact walk_member hwalk hcore hmember
    · rw [checkScope_of_walk hwalk]
      by_cases hn : t.arrayDepth = 1
      · rw [if_pos hn, if_pos (classify_eq_nested_iff.mpr ⟨hn, hs⟩)]
      · rw [if_neg hn, if_neg fun hk => hn (classify_eq_nested_iff.mp hk).1]

/-- Rows of labels, one layer deep and two layers deep: the names of both kinds of labels are found,
and only the first array can scope them. -/
theorem nested_agrees_iff_rows :
    let label : ClassDecl TypeExpr :=
      ⟨"Label", .model, none, [⟨"name", .basic .text, none, none, none, none⟩], [], false⟩
    let row : TypeExpr := .apply .list [.union [.annotated (.named "Label") [.note], .null]]
    let rows : TypeExpr := .annotated (.apply .tuple [row, .any]) [.keyword]
    let order : ClassDecl TypeExpr := ⟨"Order", .model, none,
      [⟨"row", row, none, none, none, none⟩, ⟨"rows", rows, none, none, none, none⟩], [], false⟩
    let s : Schema := ⟨[order, label], [], [], .strict⟩
    let model : TypeExpr := .named "Order"
    row.Peels 1 (.named "Label") ∧ s.classify row = .nested ∧
      rows.Peels 2 (.named "Label") ∧ s.classify rows = .keyword ∧
      s.walk none model "rows.name" = .ok (.basic .text, ["rows", "name"]) ∧
      Resolver.checkScope ⟨s, none, some model⟩ "row" = .ok () ∧
      Resolver.checkScope ⟨s, none, some model⟩ "rows" = .error (.notNestedArray "rows" "Order") := by
  intro label row rows order s model
  have hlabel : s.isStructured (.named "Label") = true := rfl
  obtain ⟨n, core, hpeels, hkind, -, -, hscope⟩ := nested_agrees_iff s row
  obtain ⟨rfl, rfl⟩ := (hpeels _ _).mp (TypeExpr.peels_core row)
  obtain ⟨n, core, hpeels', -, -, -, hscope'⟩ := nested_agrees_iff s rows
  obtain ⟨rfl, rfl⟩ := (hpeels' _ _).mp (TypeExpr.peels_core rows)
  have hrow : s.walk none model "row" = .ok (row, ["row"]) := by
    unfold model s order rows row label
    rfl
  have hrows : s.walk none model "rows" = .ok (rows, ["rows"]) := by
    unfold model s order rows row label
    rfl
  have hwalk : s.walk none (.named "Label") "name" = .ok (.basic .text, ["name"]) := rfl
  obtain ⟨hmember, hrefused⟩ := hscope' none model "rows" ["rows"] hrows hlabel
  have hfollows := hmember "name" (by decide)
  rw [show rows.core = .named "Label" from rfl, hwalk] at hfollows
  exact ⟨TypeExpr.peels_core row, hkind.mpr ⟨rfl, hlabel⟩, TypeExpr.peels_core rows, rfl, hfollows,
    (hscope none model "row" ["row"] hrow hlabel).2, hrefused⟩

end Schema

end TypedSearch
