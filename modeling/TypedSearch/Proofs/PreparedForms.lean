import Mathlib.Data.List.Forall2
import TypedSearch.Proofs.ModelObstacles

/-!
# Prepared values

What is left to convert in a value can stand anywhere in it: in elements, in the values of objects,
in the attributes of entities, in the value of a member. One conversion for storage leaves none of
it, whatever types are declared for the parts, and what has none of it is stored as it is. There is
no such conversion of a value with a record or a model in it that cannot be taken apart.

* `Value.StandsIn`, `Value.IsPrepared`: a part of a value at any depth, and a value without a part
  that is converted.
* `Value.ConvertsTo`, `Value.ConvertsTo.isPrepared`: what a value can be converted to. Whatever that
  is, it is prepared.
* `Schema.convertsTo_prepareAs`: a stored form is what the value can be converted to.
* `Schema.prepareAs_of_isPrepared`: a prepared value is its own stored form.
* `Schema.prepare_normalizes`: **the stored forms are the prepared values, and each is its own
  stored form; what has none holds a record or a model that cannot be taken apart.**
-/

namespace TypedSearch

/-! ## What is left to convert -/

namespace Value

/-- The value is converted for storage, whatever stands in it. -/
def isConverted : Value → Bool
  | .uuid _ | .url _ | .tuple _ | .set _ | .member _ _ _ _ | .entity _ _ _ | .field _
  | .condition _ _ _ => true
  | _ => false

/-- The value `part` stands in a value, at any depth. Keys of objects and elements of frozen sets
do not count. -/
inductive StandsIn (part : Value) : Value → Prop
  | here : StandsIn part part
  | list {xs : List Value} {x : Value} : x ∈ xs → StandsIn part x → StandsIn part (.list xs)
  | tuple {xs : List Value} {x : Value} : x ∈ xs → StandsIn part x → StandsIn part (.tuple xs)
  | set {xs : List Value} {x : Value} : x ∈ xs → StandsIn part x → StandsIn part (.set xs)
  | dict {es : Entries} {e : Value × Value} : e ∈ es → StandsIn part e.2 → StandsIn part (.dict es)
  | member {enumeration name : String} {base : MemberBase} {v : Value} : StandsIn part v →
      StandsIn part (.member enumeration name base v)
  | entity {kind : EntityKind} {cls : String} {as : List (String × Value)} {a : String × Value} :
      a ∈ as → StandsIn part a.2 → StandsIn part (.entity kind cls as)
  | condition {path operator operand v : Value} : v ∈ [path, operator, operand] →
      StandsIn part v → StandsIn part (.condition path operator operand)

/-- Nothing in the value is left to convert. -/
def IsPrepared (v : Value) : Prop := ∀ part : Value, part.StandsIn v → part.isConverted = false

theorem isPrepared_list_iff {xs : List Value} : (list xs).IsPrepared ↔ ∀ x ∈ xs, x.IsPrepared := by
  constructor
  · intro h x hx part hpart
    exact h part (.list hx hpart)
  · intro h part hpart
    cases hpart with
    | here => rfl
    | list hx hpart => exact h _ hx part hpart

theorem isPrepared_dict_iff {es : Entries} : (dict es).IsPrepared ↔ ∀ e ∈ es, e.2.IsPrepared := by
  constructor
  · intro h e he part hpart
    exact h part (.dict he hpart)
  · intro h part hpart
    cases hpart with
    | here => rfl
    | dict he hpart => exact h _ he part hpart

/-- The value is neither a list nor an object, and it is not converted. -/
def isAtom : Value → Bool
  | .list _ | .dict _ => false
  | v => !v.isConverted

theorem isPrepared_of_isAtom {v : Value} (h : v.isAtom = true) : v.IsPrepared := by
  intro part hpart
  cases hpart with
  | here => cases v <;> first | rfl | cases h
  | _ => cases h

end Value

/-- The values of an object stay prepared when a prepared one is set. -/
theorem Entries.prepared_put {name : String} {v : Value} {es : Entries} (hv : v.IsPrepared)
    (hes : ∀ e ∈ es, e.2.IsPrepared) : ∀ e ∈ es.put name v, e.2.IsPrepared := by
  rintro ⟨key, u⟩ he
  rcases mem_put he with ⟨rfl, -⟩ | ⟨-, hold⟩
  · exact hv
  · exact hes _ hold

theorem Entries.prepared_ofNamed {es : List (String × Value)} (h : ∀ e ∈ es, e.2.IsPrepared) :
    ∀ e ∈ Entries.ofNamed es, e.2.IsPrepared := by
  refine List.foldlRecOn (motive := fun kept : Entries => ∀ e ∈ kept, e.2.IsPrepared) es _ nofun ?_
  intro kept hkept e he
  exact Entries.prepared_put (h e he) hkept

namespace Value

/-! ## Conversion -/

/-- The second value is the first one with all converted that stands in it. Identifiers and links
become texts, collections become lists, members their values, and entities objects of some of their
attributes. -/
inductive ConvertsTo : Value → Value → Prop
  | atom {v : Value} : v.isAtom = true → ConvertsTo v v
  | uuid (text : String) : ConvertsTo (.uuid text) (.str text)
  | url (text : String) : ConvertsTo (.url text) (.str text)
  | list {xs ys : List Value} : xs.length = ys.length →
      (∀ x y, (x, y) ∈ xs.zip ys → ConvertsTo x y) → ConvertsTo (.list xs) (.list ys)
  | tuple {xs ys : List Value} : xs.length = ys.length →
      (∀ x y, (x, y) ∈ xs.zip ys → ConvertsTo x y) → ConvertsTo (.tuple xs) (.list ys)
  | set {xs ys : List Value} : xs.length = ys.length →
      (∀ x y, (x, y) ∈ xs.zip ys → ConvertsTo x y) → ConvertsTo (.set xs) (.list ys)
  | dict {es fs : Entries} : es.map (·.1) = fs.map (·.1) →
      (∀ v w, (v, w) ∈ (es.map (·.2)).zip (fs.map (·.2)) → ConvertsTo v w) →
      ConvertsTo (.dict es) (.dict fs)
  | member {enumeration name : String} {base : MemberBase} {v w : Value} : ConvertsTo v w →
      ConvertsTo (.member enumeration name base v) w
  | entity {kind : EntityKind} {cls : String} {as bs kept : List (String × Value)} :
      bs.Sublist as → bs.length = kept.length →
      (∀ v w, (v, w) ∈ (bs.map (·.2)).zip (kept.map (·.2)) → ConvertsTo v w) →
      ConvertsTo (.entity kind cls as) (.dict (Entries.ofNamed kept))
  | field (path : String) : ConvertsTo (.field path) (.dict [])
  | condition {path operator operand path' operator' operand' : Value} : ConvertsTo path path' →
      ConvertsTo operator operator' → ConvertsTo operand operand' →
      ConvertsTo (.condition path operator operand)
        (.object [("field_path", path'), ("operator", operator'), ("value", operand')])

/-- What holds of the second of two values in the same place holds of all second values. -/
theorem forall_mem_of_zip {P : Value → Prop} {xs ys : List Value} (hlength : xs.length = ys.length)
    (h : ∀ x y, (x, y) ∈ xs.zip ys → P y) : ∀ y ∈ ys, P y := by
  intro y hy
  rw [← List.map_snd_zip (Nat.le_of_eq hlength.symm)] at hy
  obtain ⟨⟨x, y⟩, hxy, rfl⟩ := List.mem_map.mp hy
  exact h x y hxy

/-- Whatever a value is converted to is prepared. -/
theorem ConvertsTo.isPrepared {v w : Value} (h : v.ConvertsTo w) : w.IsPrepared := by
  induction h with
  | atom hatom => exact isPrepared_of_isAtom hatom
  | uuid | url => exact isPrepared_of_isAtom rfl
  | list hlength _ ih | tuple hlength _ ih | set hlength _ ih =>
    exact isPrepared_list_iff.mpr (forall_mem_of_zip hlength ih)
  | dict hkeys _ ih =>
    have hlength := congrArg List.length hkeys
    rw [isPrepared_dict_iff, ← List.forall_mem_map]
    exact forall_mem_of_zip (by simpa using hlength) ih
  | member _ ih => exact ih
  | entity _ hlength _ ih =>
    refine isPrepared_dict_iff.mpr (Entries.prepared_ofNamed ?_)
    rw [← List.forall_mem_map]
    exact forall_mem_of_zip (by simpa using hlength) ih
  | field => exact isPrepared_dict_iff.mpr nofun
  | condition _ _ _ hpath hoperator hoperand =>
    rw [object, isPrepared_dict_iff]
    simp only [List.map_cons, List.map_nil, List.forall_mem_cons]
    exact ⟨hpath, hoperator, hoperand, nofun⟩

end Value

namespace Schema

variable {s : Schema}

/-! ## Stored forms are converted -/

mutual

theorem convertsTo_prepareAs : ∀ (v : Value) (t : Option TypeExpr), v.ConvertsTo (s.prepareAs v t)
  | .list xs, t => by
    rw [prepareAs]
    obtain ⟨hlength, hall⟩ := List.forall₂_iff_zip.mp (convertsTo_prepareEach xs _)
    exact .list hlength fun x y => hall
  | .tuple xs, t => by
    rw [prepareAs]
    obtain ⟨hlength, hall⟩ := List.forall₂_iff_zip.mp (convertsTo_prepareEach xs _)
    exact .tuple hlength fun x y => hall
  | .set xs, t => by
    rw [prepareAs]
    obtain ⟨hlength, hall⟩ := List.forall₂_iff_zip.mp (convertsTo_prepareEach xs _)
    exact .set hlength fun x y => hall
  | .dict es, t => by
    rw [prepareAs]
    obtain ⟨hkeys, hvalues⟩ := convertsTo_prepareEntries es
      (entryType? (t.bind (s.writtenAs? · (.dict es))))
    exact .dict hkeys fun v w => (List.forall₂_iff_zip.mp hvalues).2
  | .member _ _ _ v, t => by
    rw [prepareAs]
    exact .member (convertsTo_prepareAs v none)
  | .entity kind own as, t => by
    rw [prepareAs]
    let written := t.bind (s.writtenAs? · (.entity kind own as))
    obtain ⟨bs, hbs, hvalues⟩ := convertsTo_prepareAttributes as (s.layout written own)
    obtain ⟨hlength, hall⟩ := List.forall₂_iff_zip.mp hvalues
    exact .entity hbs (by simpa using hlength) fun v w => hall
  | .condition path operator operand, t => by
    rw [prepareAs]
    exact .condition (convertsTo_prepareAs path none) (convertsTo_prepareAs operator none)
      (convertsTo_prepareAs operand none)
  | .field path, _ => .field path
  | .uuid text, _ => .uuid text
  | .url text, _ => .url text
  | .null, _ | .bool _, _ | .int _, _ | .double _, _ | .decimal _, _ | .str _, _ | .bytes _, _
  | .date _, _ | .datetime _, _ | .frozenset _, _ | .operation _ _, _ | .featureless, _ => .atom rfl

theorem convertsTo_prepareEach : ∀ (xs : List Value) (ts : List (Option TypeExpr)),
    List.Forall₂ Value.ConvertsTo xs (s.prepareEach xs ts)
  | [], _ => .nil
  | x :: xs, [] => .cons (convertsTo_prepareAs x none) (convertsTo_prepareEach xs [])
  | x :: xs, t :: ts => .cons (convertsTo_prepareAs x t) (convertsTo_prepareEach xs ts)

theorem convertsTo_prepareEntries : ∀ (es : List (Value × Value)) (t : Option TypeExpr),
    es.map (·.1) = (s.prepareEntries es t).map (·.1) ∧
      List.Forall₂ Value.ConvertsTo (es.map (·.2)) ((s.prepareEntries es t).map (·.2))
  | [], _ => ⟨rfl, .nil⟩
  | (k, v) :: es, t => by
    obtain ⟨hkeys, hvalues⟩ := convertsTo_prepareEntries es t
    rw [prepareEntries]
    exact ⟨congrArg (k :: ·) hkeys, .cons (convertsTo_prepareAs v t) hvalues⟩

theorem convertsTo_prepareAttributes : ∀ (as : List (String × Value)) (layout : Layout),
    ∃ bs : List (String × Value), bs.Sublist as ∧
      List.Forall₂ Value.ConvertsTo (bs.map (·.2)) ((s.prepareAttributes as layout).map (·.2))
  | [], _ => ⟨[], .slnil, .nil⟩
  | (name, v) :: as, layout => by
    obtain ⟨bs, hbs, hvalues⟩ := convertsTo_prepareAttributes as layout
    rw [prepareAttributes]
    split
    · exact ⟨(name, v) :: bs, hbs.cons_cons _, .cons (convertsTo_prepareAs v _) hvalues⟩
    · exact ⟨bs, hbs.cons _, hvalues⟩

end

/-! ## Prepared values stay -/

mutual

theorem prepareAs_of_isPrepared : ∀ v : Value, v.IsPrepared → ∀ t, s.prepareAs v t = v
  | .list xs, h, t => by
    rw [prepareAs, prepareEach_of_isPrepared xs (Value.isPrepared_list_iff.mp h)]
  | .dict es, h, t => by
    rw [prepareAs, prepareEntries_of_isPrepared es (Value.isPrepared_dict_iff.mp h)]
  | .uuid _, h, _ | .url _, h, _ | .tuple _, h, _ | .set _, h, _ | .member _ _ _ _, h, _
  | .entity _ _ _, h, _ | .field _, h, _ | .condition _ _ _, h, _ => nomatch h _ .here
  | .null, _, _ | .bool _, _, _ | .int _, _, _ | .double _, _, _ | .decimal _, _, _ | .str _, _, _
  | .bytes _, _, _ | .date _, _, _ | .datetime _, _, _ | .frozenset _, _, _ | .operation _ _, _, _
  | .featureless, _, _ => rfl

theorem prepareEach_of_isPrepared : ∀ xs : List Value, (∀ x ∈ xs, x.IsPrepared) →
    ∀ ts, s.prepareEach xs ts = xs
  | [], _, _ => rfl
  | x :: xs, h, [] => by
    rw [List.forall_mem_cons] at h
    rw [prepareEach, prepareAs_of_isPrepared x h.1, prepareEach_of_isPrepared xs h.2]
  | x :: xs, h, t :: ts => by
    rw [List.forall_mem_cons] at h
    rw [prepareEach, prepareAs_of_isPrepared x h.1, prepareEach_of_isPrepared xs h.2]

theorem prepareEntries_of_isPrepared : ∀ es : List (Value × Value), (∀ e ∈ es, e.2.IsPrepared) →
    ∀ t, s.prepareEntries es t = es
  | [], _, _ => rfl
  | (k, v) :: es, h, t => by
    rw [List.forall_mem_cons] at h
    rw [prepareEntries, prepareAs_of_isPrepared v h.1, prepareEntries_of_isPrepared es h.2]

end

mutual

theorem checkAs_of_isPrepared : ∀ v : Value, v.IsPrepared → ∀ isInModel t,
    s.checkAs v isInModel t = .ok ()
  | .list xs, h, _, _ => by
    rw [checkAs]
    exact checkEach_of_isPrepared xs (Value.isPrepared_list_iff.mp h) _ _
  | .dict es, h, _, _ => by
    rw [checkAs]
    exact checkEntries_of_isPrepared es (Value.isPrepared_dict_iff.mp h) _ _
  | .uuid _, h, _, _ | .url _, h, _, _ | .tuple _, h, _, _ | .set _, h, _, _
  | .member _ _ _ _, h, _, _ | .entity _ _ _, h, _, _ | .field _, h, _, _
  | .condition _ _ _, h, _, _ => nomatch h _ .here
  | .null, _, _, _ | .bool _, _, _, _ | .int _, _, _, _ | .double _, _, _, _ | .decimal _, _, _, _
  | .str _, _, _, _ | .bytes _, _, _, _ | .date _, _, _, _ | .datetime _, _, _, _
  | .frozenset _, _, _, _ | .operation _ _, _, _, _ | .featureless, _, _, _ => rfl

theorem checkEach_of_isPrepared : ∀ xs : List Value, (∀ x ∈ xs, x.IsPrepared) →
    ∀ isInModel ts, s.checkEach xs isInModel ts = .ok ()
  | [], _, _, _ => rfl
  | x :: xs, h, isInModel, ts => by
    rw [List.forall_mem_cons] at h
    rw [checkEach, checkAs_of_isPrepared x h.1]
    exact checkEach_of_isPrepared xs h.2 _ _

theorem checkEntries_of_isPrepared : ∀ es : List (Value × Value), (∀ e ∈ es, e.2.IsPrepared) →
    ∀ isInModel t, s.checkEntries es isInModel t = .ok ()
  | [], _, _, _ => rfl
  | (k, v) :: es, h, isInModel, t => by
    rw [List.forall_mem_cons] at h
    rw [checkEntries, checkAs_of_isPrepared v h.1]
    exact checkEntries_of_isPrepared es h.2 _ _

end

/-- A prepared value is stored as it is. -/
theorem prepare_of_isPrepared {v : Value} (h : v.IsPrepared) : s.prepare v = .ok v := by
  rw [prepare, checkAs_of_isPrepared v h, prepareAs_of_isPrepared v h]
  rfl

/-! ## The normal form -/

/-- **A value has a stored form, or it holds a record or a model that cannot be taken apart.** The
stored form is the value with all converted that stands in it, and has no part that is converted, at
any depth; storing it again changes nothing. The values that are stored as they are are just the
prepared ones. A record that opens to an object with a record for a key, on its own or in a tuple,
has no stored form. -/
theorem prepare_normalizes (s : Schema) (v : Value) :
    ((∃ d, s.prepare v = .ok d ∧ v.ConvertsTo d ∧
        (∀ part : Value, part.StandsIn d → part.isConverted = false) ∧ s.prepare d = .ok d) ∨
      ∃ fault, s.prepare v = .error fault ∧ v.HasPart (s.Resists fault)) ∧
    (s.prepare v = .ok v ↔ v.IsPrepared) ∧
    ∀ kind own as es e, v = .entity kind own as → s.isRecord own = true →
      s.Opens (.dict es) v → e ∈ es → e.1.holdsEntity s.isRecord = true →
      ∃ fault, s.prepare v = .error fault := by
  refine ⟨?_, ⟨fun h => ?_, prepare_of_isPrepared⟩, ?_⟩
  · cases hprepare : s.prepare v with
    | error fault => exact .inr ⟨fault, rfl, hasPart_of_prepare_error hprepare⟩
    | ok d =>
      have hconverts : v.ConvertsTo d := prepare_eq_ok hprepare ▸ convertsTo_prepareAs v none
      have hprepared : d.IsPrepared := hconverts.isPrepared
      exact .inl ⟨d, rfl, hconverts, hprepared, prepare_of_isPrepared hprepared⟩
  · have hconverts : v.ConvertsTo v := by
      have hconverts := convertsTo_prepareAs (s := s) v none
      rwa [← prepare_eq_ok h] at hconverts
    exact hconverts.isPrepared
  · rintro kind own as es e rfl hr hopens he hholds
    exact prepare_fails hr hopens he hholds

/-- A record with an object under numbers has a stored form, and one with an object under records
has none. -/
theorem prepare_normalizes_keys :
    let key : ClassDecl TypeExpr := ⟨"Key", .record, none,
      [⟨"code", .basic .integer, none, none, none, none⟩], [], false⟩
    let shelf : ClassDecl TypeExpr := ⟨"Shelf", .record, none,
      [⟨"rows", .basic .dict, none, none, none, none⟩], [], false⟩
    let s : Schema := ⟨[shelf, key], [], [], .strict⟩
    let row (k : Value) : Value := .entity .record "Shelf"
      [("rows", .list [.dict [(k, .tuple [.uuid "12345678-1234-5678-1234-567812345678"])]])]
    (∃ d, s.prepare (row (.int 1)) = .ok d ∧ s.prepare d = .ok d) ∧
      ∃ fault, s.prepare (row (.entity .record "Key" [("code", .int 1)])) = .error fault := by
  intro key shelf s row
  refine ⟨?_, ?_⟩
  · obtain ⟨d', hd'⟩ : ∃ d, s.prepare (row (.int 1)) = .ok d := ⟨_, by rfl⟩
    rcases (prepare_normalizes s (row (.int 1))).1 with ⟨d, hd, -, -, hstays⟩ | ⟨fault, h, -⟩
    · exact ⟨d, hd, hstays⟩
    · cases hd'.symm.trans h
  · have hopens : s.Opens (.dict [(.entity .record "Key" [("code", .int 1)], _)]) (row _) :=
      .field (by decide) List.mem_cons_self rfl (.list List.mem_cons_self .here)
    exact (prepare_normalizes s _).2.2 _ _ _ _ _ rfl (by decide) hopens List.mem_cons_self
      (by decide)

end Schema

end TypedSearch
