import TypedSearch.Proofs.RenamingBack

/-!
# What a renaming loses

The fields of an object are renamed one after the other in the object at hand. A field whose wire
name is the stored key of a later one is taken for that one when its turn comes: the value moves on,
and nothing is left under the wire name. Two names that are swapped lose a value in this way. Where
the stored keys and the wire names of a class differ among themselves, this is all that can be lost.

* `Schema.Keeps`: a renamed document has all that the document had.
* `Schema.keeps_renamed`: the renamed document has all where no field is taken for a later one.
* `Schema.undisturbed_of_keeps`: no field was taken for a later one if the renamed document has all.
* `Schema.rename_keeps_iff`: **a renaming loses nothing exactly if no field is taken for a later
  one**, in no object that it comes to.
-/

namespace TypedSearch

namespace Schema

variable {s : Schema} {f : Naming} {root cls : String} {fs : List FieldEntry} {es es' : Entries}
  {r : Renamer}

/-! ## Nothing lost -/

mutual

/-- A renamed value of the class `cls` has all that the value had: an object has as many keys, and
under the wire name of each field the renamed value of that field. -/
inductive Keeps (s : Schema) (f : Naming) : String → Value → Value → Prop
  | other {cls : String} {v : Value} : v.asEntries? = none → Keeps s f cls v v
  | object {cls : String} {fs : List FieldEntry} {es es' : Entries} {value : FieldEntry → Value} :
      s.fieldsOf (some f) (.named cls) = .ok fs → es'.length = es.length →
      (∀ g ∈ fs, ∀ v, es.get? (s.storedKey cls g.name) = some v →
        es'.get? g.wire = some (value g)) →
      (∀ g ∈ fs, ∀ v, es.get? (s.storedKey cls g.name) = some v →
        KeepsValue s f g.type v (value g)) →
      Keeps s f cls (.dict es) (.dict es')

/-- A renamed value of a field of the type has all that the value had: so have the values that the
field hands on, and a value that hands on none is the same. -/
inductive KeepsValue (s : Schema) (f : Naming) : TypeExpr → Value → Value → Prop
  | same {t : TypeExpr} {v : Value} : (∀ cls x, ¬s.HandsOn t v cls x) → KeepsValue s f t v v
  | single {t : TypeExpr} {cls : String} {v w : Value} :
      s.structuredClass? t = some cls → t.stripped.item? = none → Keeps s f cls v w →
      KeepsValue s f t v w
  | list {t item : TypeExpr} {cls : String} {xs ys : List Value} :
      s.structuredClass? t = some cls → t.stripped.item? = some item → xs.length = ys.length →
      (∀ x y, (x, y) ∈ xs.zip ys → Keeps s f cls x y) → KeepsValue s f t (.list xs) (.list ys)

end

/-- In every class that the renaming of a document of the class `root` can come to, the fields can
be listed, their stored keys differ, and so do their wire names. -/
def NamesFieldsOnce (s : Schema) (f : Naming) (root : String) : Prop :=
  ∀ cls, s.Reaches (fun t c => s.structuredClass? t = some c) root cls →
    ∃ fs, s.fieldsOf (some f) (.named cls) = .ok fs ∧
      (fs.map fun g => s.storedKey cls g.name).Nodup ∧ (fs.map (·.wire)).Nodup

/-- Each key of the object is the stored key of a field. -/
def HasStoredKeys (s : Schema) (cls : String) (fs : List FieldEntry) (es : Entries) : Prop :=
  ∀ e ∈ es, ∃ g ∈ fs, Entries.keyIs (s.storedKey cls g.name) e.1 = true

/-- Every object that the renaming of the value comes to has each key once, and no other keys than
the stored keys of the fields of its class. -/
def HoldsStoredKeys (s : Schema) (f : Naming) (cls : String) (v : Value) : Prop :=
  ∀ last es, s.Visits cls v last es → es.KeysOnce ∧
    ∀ fs, s.fieldsOf (some f) (.named last) = .ok fs → s.HasStoredKeys last fs es

/-- In the object of the class no field is taken for a later one. -/
def IsUndisturbed (s : Schema) (f : Naming) (cls : String) (es : Entries) : Prop :=
  ∀ fs, s.fieldsOf (some f) (.named cls) = .ok fs → s.Undisturbed .toWire cls fs es

/-! ## An object in which no field is taken for a later one -/

theorem unclaimed_eq_nil (hkeys : s.HasStoredKeys cls fs es) :
    s.unclaimed .toWire cls fs es = [] := by
  refine List.filter_eq_nil_iff.mpr fun e he => ?_
  obtain ⟨g, hg, hkey⟩ := hkeys e he
  rw [Bool.not_eq_true', Bool.not_eq_false]
  exact List.any_eq_true.mpr ⟨g, hg, hkey⟩

theorem length_moved (hstored : (fs.map fun g => s.storedKey cls g.name).Nodup) (hes : es.KeysOnce)
    (hkeys : s.HasStoredKeys cls fs es)
    (hvalues : ∀ g ∈ fs, ∀ v, es.get? (s.storedKey cls g.name) = some v →
      ∃ w, s.renameValue r g.type v = .ok w) :
    (fs.filterMap (s.moved r .toWire cls es)).length = es.length := by
  have hperm := perm_unclaimed hstored hes
  rw [unclaimed_eq_nil hkeys, List.nil_append] at hperm
  rw [← hperm.length_eq, List.length_filterMap_eq_countP, List.length_filterMap_eq_countP]
  refine List.countP_congr fun g hg => ?_
  have hmoved : s.moved r .toWire cls es g = (es.get? (s.storedKey cls g.name)).bind fun v =>
    (s.renameValue r g.type v).toOption.map fun w => (.str g.wire, w) := rfl
  have hheld : es.get? (s.storedKey cls g.name) =
      (es.held? (s.storedKey cls g.name)).map (·.2) := rfl
  rw [hmoved]
  cases hget : es.get? (s.storedKey cls g.name) with
  | none =>
    rw [hheld, Option.map_eq_none_iff] at hget
    simp [hget]
  | some v =>
    obtain ⟨w, hw⟩ := hvalues g hg v hget
    rw [hheld, Option.map_eq_some_iff] at hget
    obtain ⟨e, he, -⟩ := hget
    simp [he, hw, Except.toOption]

/-- An object whose fields keep out of each other's way holds them under their wire names. -/
theorem renameFields_moved (hwires : (fs.map (·.wire)).Nodup)
    (hstored : (fs.map fun g => s.storedKey cls g.name).Nodup)
    (hkeys : s.HasStoredKeys cls fs es) (hes : s.Undisturbed .toWire cls fs es)
    (hvalues : ∀ g ∈ fs, ∀ v, es.get? (s.storedKey cls g.name) = some v →
      ∃ w, s.renameValue r g.type v = .ok w) :
    s.renameFields r .toWire cls fs es = .ok (fs.filterMap (s.moved r .toWire cls es)) := by
  have hnone := unclaimed_eq_nil hkeys
  have hall : s.renameFields r .toWire cls fs es =
      .ok (s.unclaimed .toWire cls fs es ++ fs.filterMap (s.moved r .toWire cls es)) :=
    renameFields_undisturbed hstored hwires hes (fun g _ => by rw [hnone]; rfl) hvalues
  rwa [hnone] at hall

theorem get?_moved (hwires : (fs.map (·.wire)).Nodup) {g : FieldEntry} (hg : g ∈ fs) {v w : Value}
    (hv : es.get? (s.storedKey cls g.name) = some v) (hw : s.renameValue r g.type v = .ok w) :
    Entries.get? g.wire (fs.filterMap (s.moved r .toWire cls es)) = some w := by
  have hmoved : s.moved r .toWire cls es g = some (.str g.wire, w) := by
    change (Option.bind (es.get? (s.storedKey cls g.name)) _) = _
    rw [hv, Option.bind_some, hw]
    rfl
  have htargets : (fs.map (s.targetKey .toWire cls)).Nodup := hwires
  have hfound : Entries.get? g.wire (fs.filterMap (s.moved r .toWire cls es)) =
      (s.moved r .toWire cls es g).map (·.2) := get?_filterMap_moved hg htargets
  rw [hfound, hmoved]
  rfl

/-! ## A key that is gone -/

/-- A key that no field is put under is not there afterwards if a field is taken from it, or if it
was not there before. -/
theorem has_eq_false_of_renameFields {direction : Direction} {key : String}
    (h : s.renameFields r direction cls fs es = .ok es')
    (htargets : ∀ g ∈ fs, s.targetKey direction cls g ≠ key)
    (hkey : (∃ g ∈ fs, key = s.sourceKey direction cls g) ∨ es.has key = false) :
    es'.has key = false := by
  induction fs generalizing es with
  | nil =>
    cases h
    rcases hkey with ⟨g, hg, -⟩ | habsent
    · cases hg
    · exact habsent
  | cons g fs ih =>
    obtain ⟨next, hnext, hstep⟩ := renameFields_cons_eq_ok h
    rw [List.forall_mem_cons] at htargets
    refine ih hnext htargets.2 ?_
    have hkept := hstep key
    rw [if_neg htargets.1.symm] at hkept
    rcases hkey with ⟨k, hk, hsource⟩ | habsent
    · rcases List.mem_cons.mp hk with rfl | hk
      · exact .inr (hkept.trans (if_pos hsource))
      · exact .inl ⟨k, hk, hsource⟩
    · rw [habsent, ite_self] at hkept
      exact .inr hkept

/-- Where each field that the object `given` has is there under its new key afterwards, none was
taken for a later one. -/
theorem undisturbed_of_has {direction : Direction} {given : Entries}
    (h : s.renameFields r direction cls fs es = .ok es')
    (htargets : (fs.map (s.targetKey direction cls)).Nodup)
    (hkept : ∀ g ∈ fs, given.has (s.sourceKey direction cls g) = true →
      es'.has (s.targetKey direction cls g) = true) : s.Undisturbed direction cls fs given := by
  induction fs generalizing es with
  | nil => exact .nil
  | cons g fs ih =>
    obtain ⟨next, hnext, -⟩ := renameFields_cons_eq_ok h
    rw [List.map_cons, List.nodup_cons] at htargets
    rw [List.forall_mem_cons] at hkept
    refine List.pairwise_cons.mpr ⟨fun k hk hhas heq => ?_, ih hnext htargets.2 hkept.2⟩
    have hothers : ∀ k ∈ fs, s.targetKey direction cls k ≠ s.targetKey direction cls g :=
      fun k hk heq => htargets.1 (List.mem_map.mpr ⟨k, hk, heq⟩)
    have hgone := has_eq_false_of_renameFields hnext hothers (.inl ⟨k, hk, heq⟩)
    rw [hkept.1 hhas] at hgone
    cases hgone

/-! ## Values of fields -/

theorem keepsValue_of_handsOn {t : TypeExpr} {v w : Value} (hw : s.renameValue r t v = .ok w)
    (h : ∀ next x, s.HandsOn t v next x → ∀ y, r (.named next) x = .ok y → s.Keeps f next x y) :
    s.KeepsValue f t v w := by
  cases hc : s.structuredClass? t with
  | none =>
    rw [renameValue_of_none hc] at hw
    cases hw
    refine .same fun next x hx => ?_
    rw [hx.structuredClass?] at hc
    cases hc
  | some cls =>
    cases hi : t.stripped.item? with
    | none =>
      rw [renameValue_single hc hi] at hw
      exact .single hc hi (h cls v (.single hc hi) w hw)
    | some item =>
      by_cases hlist : ∃ xs, v = .list xs
      · obtain ⟨xs, rfl⟩ := hlist
        rw [renameValue_list hc hi] at hw
        obtain ⟨ys, hys, rfl⟩ := map_eq_ok.mp hw
        obtain ⟨hlength, hall⟩ := List.forall₂_iff_zip.mp (renameAll_forall₂ hys)
        refine .list hc hi hlength fun x y hxy => ?_
        exact h cls x (.element hc hi (List.of_mem_zip hxy).1) y (hall hxy)
      · rw [renameValue_of_not_list hi fun xs hxs => hlist ⟨xs, hxs⟩] at hw
        cases hw
        refine .same fun next x hx => ?_
        cases hx with
        | single _ hnone =>
          rw [hi] at hnone
          cases hnone
        | element => exact hlist ⟨_, rfl⟩

/-- Of a value that has all it had, so has whatever the field hands on. -/
theorem keeps_of_handsOn {t : TypeExpr} {v w x : Value} {next : String}
    (hw : s.renameValue r t v = .ok w) (hkeeps : s.KeepsValue f t v w) (hx : s.HandsOn t v next x) :
    ∃ y, r (.named next) x = .ok y ∧ s.Keeps f next x y := by
  cases hx with
  | single hc hi =>
    rw [renameValue_single hc hi] at hw
    cases hkeeps with
    | same hnone => exact absurd (.single hc hi) (hnone _ _)
    | single hc' _ hkeeps =>
      cases hc.symm.trans hc'
      exact ⟨w, hw, hkeeps⟩
    | list _ hi' => cases hi.symm.trans hi'
  | element hc hi hx =>
    rw [renameValue_list hc hi] at hw
    obtain ⟨ys, hys, rfl⟩ := map_eq_ok.mp hw
    cases hkeeps with
    | same hnone => exact absurd (.element hc hi hx) (hnone _ _)
    | single _ hi' => cases hi.symm.trans hi'
    | list hc' _ hlength hkeeps =>
      cases hc.symm.trans hc'
      obtain ⟨-, hzip⟩ := List.forall₂_iff_zip.mp (renameAll_forall₂ hys)
      have hboth : List.Forall₂ (fun x y => r (.named next) x = .ok y ∧ s.Keeps f next x y) _ ys :=
        List.forall₂_iff_zip.mpr ⟨hlength, fun hxy => ⟨hzip hxy, hkeeps _ _ hxy⟩⟩
      obtain ⟨y, -, hy⟩ := exists_of_forall₂ hboth hx
      exact ⟨y, hy⟩

/-! ## Whole documents -/

theorem namesFieldsOnce_of_classNames (h : ∀ cls ∈ s.classNames, ∃ fs,
    s.fieldsOf (some f) (.named cls) = .ok fs ∧
      (fs.map fun g => s.storedKey cls g.name).Nodup ∧ (fs.map (·.wire)).Nodup) :
    s.NamesFieldsOnce f root := by
  intro cls _
  by_cases hcls : cls ∈ s.classNames
  · exact h cls hcls
  · exact ⟨[], fieldsOf_of_notMem hcls, List.nodup_nil, List.nodup_nil⟩

theorem NamesFieldsOnce.renamed (hroot : s.NamesFieldsOnce f root)
    (hreach : s.Reaches (fun t c => s.structuredClass? t = some c) root cls) (v : Value) :
    ∃ w, s.renamer f .toWire (.named cls) v = .ok w := by
  refine renamer_total (fun h => h) (fun {c} hc => ?_) hreach v
  obtain ⟨fs, hfs, -⟩ := hroot c hc
  exact ⟨fs, hfs⟩

theorem NamesFieldsOnce.renamedValue (hroot : s.NamesFieldsOnce f root)
    (hreach : s.Reaches (fun t c => s.structuredClass? t = some c) root cls)
    (hfs : s.fieldsOf (some f) (.named cls) = .ok fs) {g : FieldEntry} (hg : g ∈ fs) (v : Value) :
    ∃ w, s.renameValue (s.renamer f .toWire) g.type v = .ok w :=
  renameValue_total fun _ hc x _ => hroot.renamed (hreach.through hfs hg hc) x

/-- An object in which no field is taken for a later one is renamed to its fields. -/
theorem renamer_undisturbed (hroot : s.NamesFieldsOnce f root)
    (hreach : s.Reaches (fun t c => s.structuredClass? t = some c) root cls)
    (hv : s.HoldsStoredKeys f cls (.dict es)) (hes : s.IsUndisturbed f cls es)
    (hfs : s.fieldsOf (some f) (.named cls) = .ok fs) :
    s.renamer f .toWire (.named cls) (.dict es) =
      .ok (.dict (fs.filterMap (s.moved (s.renamer f .toWire) .toWire cls es))) := by
  obtain ⟨fs', hfs', hstored, hwires⟩ := hroot cls hreach
  cases hfs.symm.trans hfs'
  have hfields : s.renameFields (s.renamer f .toWire) .toWire cls fs es =
      .ok (fs.filterMap (s.moved (s.renamer f .toWire) .toWire cls es)) :=
    renameFields_moved hwires hstored ((hv cls es .here).2 fs hfs) (hes fs hfs)
      fun g hg v _ => hroot.renamedValue hreach hfs hg v
  rw [renamer_object, hfs]
  exact congrArg (Except.map Value.dict) hfields

theorem keeps_renamed (hroot : s.NamesFieldsOnce f root)
    (hreach : s.Reaches (fun t c => s.structuredClass? t = some c) root cls) {v w : Value}
    (hv : s.HoldsStoredKeys f cls v) (hw : s.renamer f .toWire (.named cls) v = .ok w)
    (hall : ∀ last es, s.Visits cls v last es → s.IsUndisturbed f last es) : s.Keeps f cls v w := by
  induction hd : v.depth using Nat.strongRecOn generalizing cls v w with
  | ind d ih =>
    cases v with
    | dict es =>
      obtain ⟨fs, hfs, hstored, hwires⟩ := hroot cls hreach
      obtain ⟨hes, hkeys⟩ := hv cls es .here
      rw [Value.depth] at hd
      rw [renamer_undisturbed hroot hreach hv (hall cls es .here) hfs] at hw
      cases hw
      have hrenamed : ∀ g ∈ fs, ∃ w, ∀ v, Entries.get? (s.storedKey cls g.name) es = some v →
          s.renameValue (s.renamer f .toWire) g.type v = .ok w := by
        intro g hg
        cases hget : Entries.get? (s.storedKey cls g.name) es with
        | none => exact ⟨.null, fun v hv => by cases hv⟩
        | some v =>
          obtain ⟨w, hw⟩ := hroot.renamedValue hreach hfs hg v
          exact ⟨w, by rintro u ⟨⟩; exact hw⟩
      choose! value hvalue using hrenamed
      have hfound : ∀ g ∈ fs, ∀ v, Entries.get? (s.storedKey cls g.name) es = some v →
          Entries.get? g.wire (fs.filterMap (s.moved (s.renamer f .toWire) .toWire cls es)) =
            some (value g) := fun g hg v hget => get?_moved hwires hg hget (hvalue g hg v hget)
      refine .object hfs ?_ hfound fun g hg v hget => ?_
      · exact length_moved hstored hes (hkeys fs hfs) fun g hg v _ =>
          hroot.renamedValue hreach hfs hg v
      refine keepsValue_of_handsOn (hvalue g hg v hget) fun next x hx y hy => ?_
      have hdepth := Nat.le_trans hx.depth_le (depth_of_get? hget)
      have hinside : ∀ last es', s.Visits next x last es' → s.Visits cls (.dict es) last es' :=
        fun last es' hvisit => .inside (fieldsOf_spec hfs).1 (List.mem_map.mpr ⟨g, hg, rfl⟩) hget
          hx hvisit
      exact ih x.depth (by omega) (hreach.through hfs hg hx.structuredClass?)
        (fun last es' hvisit => hv last es' (hinside last es' hvisit)) hy
        (fun last es' hvisit => hall last es' (hinside last es' hvisit)) rfl
    | _ =>
      rw [renamer_of_not_object rfl] at hw
      cases hw
      exact .other rfl

/-- An object that has all its fields afterwards had none that was taken for a later one. -/
theorem isUndisturbed_of_keeps (hroot : s.NamesFieldsOnce f root)
    (hreach : s.Reaches (fun t c => s.structuredClass? t = some c) root cls) {w : Value}
    (hw : s.renamer f .toWire (.named cls) (.dict es) = .ok w)
    (hkeeps : s.Keeps f cls (.dict es) w) : s.IsUndisturbed f cls es := by
  intro fs hfs
  obtain ⟨fs', hfs', -, hwires⟩ := hroot cls hreach
  cases hfs.symm.trans hfs'
  rw [renamer_object, hfs] at hw
  obtain ⟨es', hes', rfl⟩ := map_eq_ok.mp hw
  cases hkeeps with
  | other hv => cases hv
  | object hfs' _ hfound _ =>
    cases hfs.symm.trans hfs'
    refine undisturbed_of_has hes' hwires fun g hg hhas => ?_
    obtain ⟨v, hv⟩ := Entries.has_iff.mp hhas
    exact Entries.has_iff.mpr ⟨_, hfound g hg v hv⟩

theorem undisturbed_of_keeps (hroot : s.NamesFieldsOnce f root)
    (hreach : s.Reaches (fun t c => s.structuredClass? t = some c) root cls) {v w : Value}
    (hv : s.HoldsStoredKeys f cls v) (hw : s.renamer f .toWire (.named cls) v = .ok w)
    (hkeeps : s.Keeps f cls v w) {last : String} (hvisit : s.Visits cls v last es) :
    s.IsUndisturbed f last es := by
  induction hvisit generalizing w with
  | here => exact isUndisturbed_of_keeps hroot hreach hw hkeeps
  | @inside cls next last name es es' hs t v x hhints hmem hget hx hvisit ih =>
    obtain ⟨fs, hfs, hstored, hwires⟩ := hroot cls hreach
    obtain rfl := Except.ok.inj ((fieldsOf_spec hfs).1.symm.trans hhints)
    obtain ⟨g, hg, hfield⟩ := List.mem_map.mp hmem
    cases hfield
    -- the object itself is undisturbed, so the field stands under its wire name with its own value
    have hes := isUndisturbed_of_keeps hroot hreach hw hkeeps
    rw [renamer_undisturbed hroot hreach hv hes hfs] at hw
    obtain ⟨u, hu⟩ := hroot.renamedValue hreach hfs hg v
    have hfound := get?_moved hwires hg hget hu
    cases hkeeps with
    | other hv => cases hv
    | @object _ _ _ _ value hfs' _ hvalue hkept =>
      cases hfs.symm.trans hfs'
      obtain rfl := Value.dict.inj (Except.ok.inj hw)
      obtain rfl : u = value g := Option.some.inj (hfound.symm.trans (hvalue g hg v hget))
      obtain ⟨y, hy, hykeeps⟩ := keeps_of_handsOn hu (hkept g hg v hget) hx
      exact ih (hreach.through hfs hg hx.structuredClass?)
        (fun last es' hvisit => hv last es' (.inside hhints hmem hget hx hvisit)) hy hykeeps

/-- **A renaming loses nothing exactly if no field is taken for a later one.** Where the stored keys
and the wire names of each class differ, and a document has stored keys only, its renaming succeeds.
The renamed document has all that the document had if, in each object that the renaming comes to, no
field that is there has the stored key of a later one as its wire name; otherwise it lacks some. -/
theorem rename_keeps_iff (hroot : s.NamesFieldsOnce f root) {d : Value}
    (hd : s.HoldsStoredKeys f root d) :
    ∃ renamed, s.rename (some f) .toWire (.type (.named root)) d = .ok renamed ∧
      (s.Keeps f root d renamed ↔ ∀ cls es, s.Visits root d cls es → s.IsUndisturbed f cls es) := by
  obtain ⟨renamed, hrenamed⟩ := hroot.renamed .root d
  refine ⟨renamed, hrenamed, fun hkeeps cls es hvisit => ?_, fun hall => ?_⟩
  · exact undisturbed_of_keeps hroot .root hd hrenamed hkeeps hvisit
  · exact keeps_renamed hroot .root hd hrenamed hall

/-- Two names are swapped. An element that has the second field only keeps it, and one that has both
fields loses the first one. -/
theorem rename_keeps_iff_pairs :
    let pair : ClassDecl TypeExpr := ⟨"Pair", .model, none,
      [⟨"a", .basic .integer, none, none, none, none⟩,
        ⟨"b", .basic .integer, none, none, none, none⟩], [], false⟩
    let box : ClassDecl TypeExpr := ⟨"Box", .model, none,
      [⟨"pairs", .apply .list [.named "Pair"], none, none, none, none⟩], [], false⟩
    let s : Schema := ⟨[box, pair], [], [], .strict⟩
    let f : Naming := Naming.ofFunction fun name =>
      if name = "a" then "b" else if name = "b" then "a" else name
    let short : Value := .object [("b", .int 3)]
    let whole : Value := .object [("a", .int 1), ("b", .int 2)]
    let boxOf (xs : List Value) : Value := .object [("pairs", .list xs)]
    s.NamesFieldsOnce f "Box" ∧ s.HoldsStoredKeys f "Box" (boxOf [short]) ∧
      s.HoldsStoredKeys f "Box" (boxOf [short, whole]) ∧
      (∃ renamed, s.rename (some f) .toWire (.type (.named "Box")) (boxOf [short]) = .ok renamed ∧
        renamed = boxOf [.object [("a", .int 3)]] ∧ s.Keeps f "Box" (boxOf [short]) renamed) ∧
      ∃ renamed,
        s.rename (some f) .toWire (.type (.named "Box")) (boxOf [short, whole]) = .ok renamed ∧
        renamed = boxOf [.object [("a", .int 3)], .object [("a", .int 1)]] ∧
        ¬s.Keeps f "Box" (boxOf [short, whole]) renamed := by
  intro pair box s f short whole boxOf
  have hnames : s.classNames = ["Box", "Pair"] := rfl
  have hroot : s.NamesFieldsOnce f "Box" := by
    refine namesFieldsOnce_of_classNames ?_
    rw [hnames]
    simp only [List.forall_mem_cons]
    refine ⟨⟨_, rfl, ?_, ?_⟩, ⟨_, rfl, ?_, ?_⟩, nofun⟩ <;> decide
  have hpairs : s.fieldsOf (some f) (.named "Pair") =
      .ok [⟨"a", "b", .basic .integer⟩, ⟨"b", "a", .basic .integer⟩] := rfl
  have hboxes : s.fieldsOf (some f) (.named "Box") =
      .ok [⟨"pairs", "pairs", .apply .list [.named "Pair"]⟩] := rfl
  -- the renaming comes to the box and to the elements, which hold no objects
  have hpair : ∀ {P : String → Entries → Prop} {es : Entries}, P "Pair" es →
      ∀ last es', s.Visits "Pair" (.dict es) last es' → P last es' := by
    intro P es hhere
    refine forall_visits_object hpairs hhere ?_
    simp only [List.forall_mem_cons]
    refine ⟨?_, ?_, nofun⟩ <;>
    · rintro v - next x hx
      cases hx.structuredClass?
  have hbox : ∀ {P : String → Entries → Prop} {xs : List Value},
      P "Box" [(.str "pairs", .list xs)] →
      (∀ x ∈ xs, ∀ last es', s.Visits "Pair" x last es' → P last es') →
      ∀ last es', s.Visits "Box" (boxOf xs) last es' → P last es' := by
    intro P xs hhere hinside
    refine forall_visits_object hboxes hhere ?_
    refine List.forall_mem_singleton.mpr ?_
    rintro v ⟨⟩ next x hx
    obtain rfl : "Pair" = next := Option.some.inj hx.structuredClass?
    cases hx with
    | single _ hi => cases hi
    | element _ _ hx => exact hinside x hx
  have hstored : ∀ xs : List Value, (∀ x ∈ xs, x = short ∨ x = whole) →
      s.HoldsStoredKeys f "Box" (boxOf xs) := by
    intro xs hxs
    refine hbox ⟨List.pairwise_singleton _ _, fun fs hfs => ?_⟩ fun x hx => ?_
    · obtain rfl := Except.ok.inj (hboxes.symm.trans hfs)
      exact List.forall_mem_singleton.mpr ⟨_, .head _, rfl⟩
    · rcases hxs x hx with rfl | rfl
      · refine hpair ⟨List.pairwise_singleton _ _, fun fs hfs => ?_⟩
        obtain rfl := Except.ok.inj (hpairs.symm.trans hfs)
        exact List.forall_mem_singleton.mpr ⟨_, .tail _ (.head _), rfl⟩
      · refine hpair ⟨by simp [Entries.KeysOnce], fun fs hfs => ?_⟩
        obtain rfl := Except.ok.inj (hpairs.symm.trans hfs)
        refine List.forall_mem_cons.mpr ⟨⟨_, .head _, rfl⟩, ?_⟩
        exact List.forall_mem_singleton.mpr ⟨_, .tail _ (.head _), rfl⟩
  have hshort : s.HoldsStoredKeys f "Box" (boxOf [short]) := hstored _ (by simp)
  have hwhole : s.HoldsStoredKeys f "Box" (boxOf [short, whole]) := hstored _ (by simp)
  obtain ⟨kept, hkept, hkeeps⟩ := rename_keeps_iff hroot hshort
  obtain ⟨lost, hlost, hloses⟩ := rename_keeps_iff hroot hwhole
  refine ⟨hroot, hshort, hwhole, ⟨kept, hkept, ?_, hkeeps.mpr ?_⟩, lost, hlost, ?_, ?_⟩
  · exact Except.ok.inj (hkept.symm.trans (by rfl))
  · refine hbox (fun fs hfs => ?_) (List.forall_mem_singleton.mpr (hpair fun fs hfs => ?_))
    · obtain rfl := Except.ok.inj (hboxes.symm.trans hfs)
      exact List.pairwise_singleton _ _
    · obtain rfl := Except.ok.inj (hpairs.symm.trans hfs)
      exact List.pairwise_pair.mpr fun hhas => by cases hhas
  · exact Except.ok.inj (hlost.symm.trans (by rfl))
  · intro hall
    have hvisit : s.Visits "Box" (boxOf [short, whole]) "Pair"
        [(.str "a", .int 1), (.str "b", .int 2)] :=
      .inside (fieldsOf_spec hboxes).1 (.head _) rfl (.element rfl rfl (.tail _ (.head _))) .here
    have hundisturbed := hloses.mp hall "Pair" _ hvisit _ hpairs
    exact List.pairwise_pair.mp hundisturbed rfl rfl

end Schema

end TypedSearch
