import TypedSearch.Proofs.NestedFields

/-!
# Fields below their scopes

A field and the scope of the field are resolved by two walks of their own. The walk of the field
passes through all that the walk of the scope passes through, whatever the segments are: attributes
with or without aliases, keys of open objects, or names below a type that is not known. So the names
of the scope stand at the front of those of the field, one for each segment.

* `Schema.walkFrom_split`, `Schema.walk_split`: a walk, and the walk along the first segments.
* `Resolver.names`: the stored names of a path before they are joined.
* `Resolver.names_split`: the names of a path at the front of those of a path below it.
* `Resolver.LiesBelow`: a field lies below another one.
* `Resolver.resolve_liesBelow`: **a field that is scoped lies below its scope.**
-/

namespace TypedSearch

open Text

namespace Schema

variable {s : Schema} {naming : Option Naming} {before : List String} {t model : TypeExpr}

/-! ## Walks name by name -/

/-- A walk that succeeds can end after any of its segments, and has given the same names by then. -/
theorem walkFrom_split {segments more : List String} {r : TypeExpr × List String}
    (h : s.walkFrom naming before t (segments ++ more) = .ok r) :
    ∃ u first last, s.walkFrom naming before t segments = .ok (u, first) ∧ r.2 = first ++ last ∧
      first.length = segments.length ∧ last.length = more.length := by
  induction segments generalizing before t r with
  | nil => exact ⟨t, [], r.2, rfl, rfl, rfl, walkFrom_length h⟩
  | cons segment rest ih =>
    rw [List.cons_append] at h
    cases hstep : s.step naming before t segment with
    | error e =>
      rw [walkFrom, hstep] at h
      cases h
    | ok next =>
      cases next with
      | anything =>
        -- the rest is taken as it stands, and so is a part of it
        rw [walkFrom_cons_anything hstep] at h
        cases h
        exact ⟨.any, segment :: rest, more, walkFrom_cons_anything hstep, rfl, rfl, rfl⟩
      | into next wire =>
        rw [walkFrom_cons_into hstep] at h
        obtain ⟨r', hrest, rfl⟩ := map_eq_ok.mp h
        obtain ⟨u, first, last, hfirst, hnames, hlength, hlast⟩ := ih hrest
        refine ⟨u, wire :: first, last, ?_, ?_, ?_, hlast⟩
        · rw [walkFrom_cons_into hstep, hfirst]
          rfl
        · rw [hnames, List.cons_append]
        · rw [List.length_cons, List.length_cons, hlength]

/-- If a path can be walked, so can the path in front of any of its dots. -/
theorem walk_split {path member : String} {r : TypeExpr × List String} (hpath : path ≠ "")
    (h : s.walk naming model (path ++ "." ++ member) = .ok r) :
    ∃ u first last, s.walk naming model path = .ok (u, first) ∧ r.2 = first ++ last ∧
      first.length = (split '.' path).length ∧ last.length = (split '.' member).length := by
  obtain ⟨-, hwalk⟩ := walk_eq_ok_iff.mp h
  rw [split_member] at hwalk
  obtain ⟨u, first, last, hfirst, hrest⟩ := walkFrom_split hwalk
  exact ⟨u, first, last, walk_eq_ok_iff.mpr ⟨hpath, hfirst⟩, hrest⟩

end Schema

namespace Resolver

variable {r : Resolver} {f : FieldPath}

/-! ## Names of a path -/

theorem nameAll_length {naming : Naming} {segments names : List String}
    (h : nameAll naming segments = .ok names) : names.length = segments.length := by
  induction segments generalizing names with
  | nil =>
    cases h
    rfl
  | cons n ns ih =>
    unfold nameAll at h
    split at h
    · cases h
    · obtain ⟨rest, hrest, rfl⟩ := map_eq_ok.mp h
      rw [List.length_cons, List.length_cons, ih hrest]

theorem nameAll_split {naming : Naming} {segments more names : List String}
    (h : nameAll naming (segments ++ more) = .ok names) :
    ∃ first last, nameAll naming segments = .ok first ∧ names = first ++ last ∧
      first.length = segments.length ∧ last.length = more.length := by
  induction segments generalizing names with
  | nil => exact ⟨[], names, rfl, rfl, rfl, nameAll_length h⟩
  | cons n ns ih =>
    rw [List.cons_append, nameAll] at h
    split at h
    · cases h
    · rename_i wire hwire
      obtain ⟨rest, hrest, rfl⟩ := map_eq_ok.mp h
      obtain ⟨first, last, hfirst, rfl, hlength, hlast⟩ := ih hrest
      refine ⟨wire :: first, last, ?_, rfl, ?_, hlast⟩
      · rw [nameAll, hwire, hfirst]
        rfl
      · rw [List.length_cons, List.length_cons, hlength]

/-- The stored names of the segments of a path, before they are joined. -/
def names (r : Resolver) (path : String) : Except Fault (List String) :=
  match r.model, r.naming with
  | some t, _ => (r.schema.walk r.naming t path).map (·.2)
  | none, some f => nameAll f (split '.' path)
  | none, none => .ok (split '.' path)

theorem join_split (path : String) : join "." (split '.' path) = path := by
  have hdot : ".".toList = ['.'] := rfl
  unfold join split
  rw [List.map_map, hdot]
  simp [Function.comp_def, joinWith_pieces]

theorem wire_eq_names (r : Resolver) (path : String) :
    r.wire path = (r.names path).map (join ".") := by
  obtain ⟨s, naming, model⟩ := r
  cases model with
  | some t =>
    unfold wire names Schema.wirePath
    dsimp only
    cases s.walk naming t path <;> rfl
  | none =>
    cases naming with
    | some f => rfl
    | none => exact congrArg Except.ok (join_split path).symm

/-- The names of a path stand at the front of the names of a path below it. -/
theorem names_split {path member : String} {all : List String} (hpath : path ≠ "")
    (h : r.names (path ++ "." ++ member) = .ok all) :
    ∃ first last, r.names path = .ok first ∧ all = first ++ last ∧
      first.length = (split '.' path).length ∧ last.length = (split '.' member).length := by
  unfold names at h ⊢
  split at h
  · obtain ⟨walked, hwalk, rfl⟩ := map_eq_ok.mp h
    obtain ⟨u, first, last, hfirst, hrest⟩ := Schema.walk_split hpath hwalk
    exact ⟨first, last, map_eq_ok.mpr ⟨_, hfirst, rfl⟩, hrest⟩
  · rw [split_member] at h
    exact nameAll_split h
  · cases h
    exact ⟨_, _, rfl, split_member path member, rfl, rfl⟩

/-! ## Resolution with and without a scope -/

/-- A path that has a wire name has a kind. -/
theorem kind_isOk {path wire : String} (h : r.wire path = .ok wire) :
    ∃ kind, r.kind path = .ok kind := by
  rw [wire_eq_names] at h
  obtain ⟨names, hnames, -⟩ := map_eq_ok.mp h
  unfold Resolver.names at hnames
  unfold kind
  split at hnames
  · obtain ⟨walked, hwalk, -⟩ := map_eq_ok.mp hnames
    rename_i t _ hmodel
    rw [hmodel]
    dsimp only
    unfold Schema.kindAt Schema.typeAt
    rw [hwalk]
    exact ⟨_, rfl⟩
  · rename_i hmodel _
    rw [hmodel]
    exact ⟨_, rfl⟩
  · rename_i hmodel _
    rw [hmodel]
    exact ⟨_, rfl⟩

theorem resolve_unscoped_isOk {field : Value} {path wire : String}
    (hpath : descriptorPath field = .ok path) (hwire : r.wire path = .ok wire) :
    ∃ g, r.resolve field none = .ok g ∧ g.wire = wire := by
  obtain ⟨kind, hkind⟩ := kind_isOk hwire
  refine ⟨⟨wire, kind, none⟩, ?_, rfl⟩
  unfold resolve
  rw [hpath]
  dsimp only [bind, Except.bind]
  rw [hwire]
  dsimp only
  rw [hkind]
  rfl

/-- The parts of a field that is resolved with a scope. -/
theorem of_resolve_scoped {field scope : Value} (h : r.resolve field (some scope) = .ok f) :
    ∃ path ancestor wire, descriptorPath field = .ok path ∧ descriptorPath scope = .ok ancestor ∧
      r.wire (underAncestor ancestor path) = .ok f.wire ∧ r.wire ancestor = .ok wire ∧
      f.nested = some wire := by
  unfold resolve at h
  obtain ⟨path, hpath, h⟩ := bind_eq_ok.mp h
  obtain ⟨ancestor, hancestor, h⟩ := bind_eq_ok.mp h
  dsimp only at h
  split at h
  · cases h
  · obtain ⟨_, -, h⟩ := bind_eq_ok.mp h
    obtain ⟨whole, hwhole, h⟩ := bind_eq_ok.mp h
    obtain ⟨kind, -, h⟩ := bind_eq_ok.mp h
    obtain ⟨wire, hwire, h⟩ := bind_eq_ok.mp h
    cases h
    exact ⟨path, ancestor, wire, hpath, hancestor, hwhole, hwire, rfl⟩

/-- The path of a member is given from the root, or else from the ancestor. -/
theorem underAncestor_cases (ancestor path : String) : ∃ member,
    underAncestor ancestor path = ancestor ++ "." ++ member ∧
      (path = ancestor ++ "." ++ member ∨
        path = member ∧ startsWith (ancestor ++ ".") path = false) := by
  unfold underAncestor
  cases hstarts : startsWith (ancestor ++ ".") path with
  | false => exact ⟨path, rfl, .inr ⟨rfl, rfl⟩⟩
  | true =>
    unfold startsWith at hstarts
    obtain ⟨rest, hrest⟩ := List.isPrefixOf_iff_prefix.mp hstarts
    have hpath : path = ancestor ++ "." ++ String.ofList rest := by
      rw [← String.toList_inj, String.toList_append, hrest.symm, String.toList_ofList]
    exact ⟨String.ofList rest, hpath, .inl hpath⟩

/-! ## Fields below others -/

/-- The field `f` of a member of `ancestor` lies below `g`, the field of the ancestor: its scope is
`g`, and behind the names of `g` it has one name for each segment of the member. -/
structure LiesBelow (r : Resolver) (ancestor member : String) (g f : FieldPath) : Prop where
  scope : f.nested = some g.wire
  names : ∃ first last, r.names ancestor = .ok first ∧
    r.names (ancestor ++ "." ++ member) = .ok (first ++ last) ∧
    g.wire = join "." first ∧ f.wire = join "." (first ++ last) ∧
    first.length = (split '.' ancestor).length ∧ last.length = (split '.' member).length ∧ last ≠ []
  wire : ∃ rest, f.wire = g.wire ++ "." ++ rest

theorem ne_nil_of_split_length {names : List String} {path : String}
    (h : names.length = (split '.' path).length) : names ≠ [] := by
  rintro rfl
  exact split_ne_nil path (List.eq_nil_of_length_eq_zero h.symm)

/-- Whatever is resolved at a path below an ancestor lies below the field of the ancestor. -/
theorem liesBelow_of_wire {ancestor member : String} {g : FieldPath} (hancestor : ancestor ≠ "")
    (hg : r.wire ancestor = .ok g.wire) (hf : r.wire (ancestor ++ "." ++ member) = .ok f.wire)
    (hscope : f.nested = some g.wire) : r.LiesBelow ancestor member g f := by
  rw [wire_eq_names] at hg hf
  obtain ⟨all, hall, hfwire⟩ := map_eq_ok.mp hf
  obtain ⟨first, last, hfirst, rfl, hlength, hlast⟩ := names_split hancestor hall
  rw [hfirst] at hg
  have hgwire : g.wire = join "." first := (Except.ok.inj hg).symm
  have hne := ne_nil_of_split_length hlast
  refine ⟨hscope, ⟨first, last, hfirst, hall, hgwire, hfwire.symm, hlength, hlast, hne⟩,
    join "." last, ?_⟩
  rw [← hfwire, hgwire, join_append (ne_nil_of_split_length hlength) hne]

/-- **A field that is scoped lies below its scope.** Whatever the model and the naming are, with or
without them, and whichever way the field is given: the scope can be resolved by itself, and the
field has the names of the scope and one more for each segment behind it. The same goes for all
paths through a model: a path that can be walked has one name for each segment, and the paths at its
front can be walked and have the names at the front. -/
theorem resolve_liesBelow :
    (∀ (r : Resolver) (field scope : Value) (f : FieldPath),
      r.resolve field (some scope) = .ok f →
      ∃ path ancestor member g, descriptorPath field = .ok path ∧
        descriptorPath scope = .ok ancestor ∧
        (path = ancestor ++ "." ++ member ∨
          path = member ∧ startsWith (ancestor ++ ".") path = false) ∧
        r.resolve scope none = .ok g ∧ r.LiesBelow ancestor member g f) ∧
    ∀ (s : Schema) (naming : Option Naming) (model t : TypeExpr) (path member : String)
      (all : List String), path ≠ "" → s.walk naming model (path ++ "." ++ member) = .ok (t, all) →
      all.length = (split '.' (path ++ "." ++ member)).length ∧
      ∃ u first last, s.walk naming model path = .ok (u, first) ∧ all = first ++ last ∧
        first.length = (split '.' path).length ∧ last ≠ [] := by
  constructor
  · intro r field scope f h
    obtain ⟨path, ancestor, wire, hpath, hancestor, hwhole, hwire, hnested⟩ := of_resolve_scoped h
    obtain ⟨g, hg, rfl⟩ := resolve_unscoped_isOk hancestor hwire
    obtain ⟨member, hunder, hgiven⟩ := underAncestor_cases ancestor path
    rw [hunder] at hwhole
    have hne := ne_empty_of_isChain (isChain_of_descriptorPath hancestor)
    exact ⟨path, ancestor, member, g, hpath, hancestor, hgiven, hg,
      liesBelow_of_wire hne hwire hwhole hnested⟩
  · intro s naming model t path member all hpath h
    obtain ⟨u, first, last, hfirst, hall, hlength, hlast⟩ := Schema.walk_split hpath h
    exact ⟨Schema.walkFrom_length (Schema.walk_eq_ok_iff.mp h).2, u, first, last, hfirst, hall,
      hlength, ne_nil_of_split_length hlast⟩

/-- An array behind an alias, and below it an open object with a key and a key of a key. -/
theorem resolve_liesBelow_entry :
    let item : ClassDecl TypeExpr := ⟨"Item", .model, none,
      [⟨"extra_data", .apply .dict [.basic .text, .any], none, none, none, none⟩], [], false⟩
    let order : ClassDecl TypeExpr := ⟨"Order", .model, none, [⟨"all_items",
      .apply .list [.named "Item"], none, some "lines", none, none⟩], [], false⟩
    let s : Schema := ⟨[order, item], [], [], .strict⟩
    let r : Resolver := ⟨s, some (.ofFunction fun name => "d_" ++ name), some (.named "Order")⟩
    let f : FieldPath := ⟨"lines.d_extra_data.some_key.x", .unknown, some "lines"⟩
    let all := ["lines", "d_extra_data", "some_key", "x"]
    r.resolve (.str "extra_data.some_key.x") (some (.str "all_items")) = .ok f ∧
      s.walk r.naming (.named "Order") ("all_items.extra_data" ++ "." ++ "some_key.x") =
        .ok (.any, all) ∧
      (∃ g, r.resolve (.str "all_items") none = .ok g ∧ g.wire = "lines" ∧
        r.LiesBelow "all_items" "extra_data.some_key.x" g f) ∧
      ∃ u first last, s.walk r.naming (.named "Order") "all_items.extra_data" = .ok (u, first) ∧
        all = first ++ last ∧ first.length = 2 := by
  intro item order s r f all
  have hfield : descriptorPath (.str "extra_data.some_key.x") = .ok "extra_data.some_key.x" := rfl
  have hscope : descriptorPath (.str "all_items") = .ok "all_items" := rfl
  have harray : s.walk r.naming (.named "Order") "all_items" =
      .ok (.apply .list [.named "Item"], ["lines"]) := rfl
  have hnested : s.isNestedArray r.naming (.named "Order") "all_items" = .ok true := by
    unfold Schema.isNestedArray Schema.kindAt Schema.typeAt
    rw [harray]
    rfl
  have hwalk : s.walk r.naming (.named "Order") ("all_items.extra_data" ++ "." ++ "some_key.x") =
      .ok (.any, all) := by
    change s.walk r.naming (.named "Order") "all_items.extra_data.some_key.x" = _
    rfl
  have hunder : underAncestor "all_items" "extra_data.some_key.x" =
      "all_items.extra_data" ++ "." ++ "some_key.x" := rfl
  have hresolve : r.resolve (.str "extra_data.some_key.x") (some (.str "all_items")) = .ok f := by
    rw [resolve_scoped hscope hfield (by decide) hnested harray, hunder, hwalk]
    rfl
  have hscoped := resolve_liesBelow.1 r (.str "extra_data.some_key.x") (.str "all_items") f hresolve
  obtain ⟨given, ancestor, member, g, hgiven, hancestor, hform, hg, hbelow⟩ := hscoped
  obtain rfl := Except.ok.inj (hfield.symm.trans hgiven)
  obtain rfl := Except.ok.inj (hscope.symm.trans hancestor)
  obtain ⟨-, u, first, last, hfirst, hall, hlength, -⟩ :=
    resolve_liesBelow.2 s r.naming (.named "Order") .any "all_items.extra_data"
      "some_key.x" all (by decide) hwalk
  have hmember : member = "extra_data.some_key.x" := by
    rcases hform with hroot | ⟨hmember, -⟩
    · have hstarts := startsWith_member "all_items" member
      rw [← hroot] at hstarts
      exact absurd hstarts (by decide)
    · exact hmember.symm
  subst hmember
  refine ⟨hresolve, hwalk, ⟨g, hg, ?_, hbelow⟩, u, first, last, hfirst, hall,
    hlength.trans (by decide)⟩
  exact (Option.some.inj hbelow.scope).symm

end Resolver

end TypedSearch
