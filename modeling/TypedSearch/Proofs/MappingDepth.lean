import Mathlib.Data.List.Induction
import Mathlib.Tactic.Tauto
import TypedSearch.Proofs.MappingPaths

/-!
# Depth of mappings

Classes may refer to each other in circles, and the mapping of a model ends all the same: on the
way down from the model each class is expanded at most once. What was expanded on the way is what
the properties below an entry depend on, and not what was expanded beside it.

Two fields may have one wire name; then the last one of a known kind has the property.

* `Value.NestsProperties`: how deep properties are listed in properties.
* `Schema.shownUnder?`: the field that the property under a wire name is of.
* `Schema.ShownChain`: rows of fields that have properties.
* `Schema.entryAt?_of_shownChain`: the entries of a class on such rows, and which list properties.
* `Schema.mapping_expands_once`: **every mapping ends, and expands a class once on the way to an
  entry.**
-/

namespace TypedSearch

namespace Value

/-! ## Properties in properties -/

/-- Properties are listed, and properties in them, as many times. -/
inductive NestsProperties : Value → Nat → Prop
  | here {v : Value} {es : Entries} : v.properties? = some es → NestsProperties v 1
  | inside {v key e : Value} {es : Entries} {n : Nat} :
      v.properties? = some es → (key, e) ∈ es → NestsProperties e n → NestsProperties v (n + 1)

end Value

namespace Schema

variable {s : Schema} {naming : Option Naming} {fresh : List String} {model : String}

/-! ## Fields that have a property -/

/-- The field that the property under a wire name is of: the last one of a known kind. -/
def shownUnder? (s : Schema) (fs : List FieldEntry) (wire : String) : Option FieldEntry :=
  fs.reverse.find? fun f => s.classify f.type ≠ .unknown && f.wire == wire

theorem shownUnder?_append_singleton (fs : List FieldEntry) (f : FieldEntry) (wire : String) :
    s.shownUnder? (fs ++ [f]) wire =
      if s.classify f.type ≠ .unknown ∧ f.wire = wire then some f else s.shownUnder? fs wire := by
  unfold shownUnder?
  rw [List.reverse_append, List.reverse_singleton, List.singleton_append, List.find?_cons]
  split <;> simp_all

theorem mem_of_shownUnder? {fs : List FieldEntry} {wire : String} {f : FieldEntry}
    (h : s.shownUnder? fs wire = some f) : f ∈ fs ∧ f.wire = wire := by
  unfold shownUnder? at h
  have hmem := List.mem_reverse.mp (List.mem_of_find?_eq_some h)
  have hwire := List.find?_some h
  simp only [Bool.and_eq_true, beq_iff_eq] at hwire
  exact ⟨hmem, hwire.2⟩

/-- Under a wire name stands the property of the last field of a known kind. -/
theorem get?_foldl_addProperty (fs : List FieldEntry) (wire : String) :
    Entries.get? wire (fs.foldl (s.addProperty naming fresh) []) =
      (s.shownUnder? fs wire).map (s.fieldProperty naming fresh) := by
  induction fs using List.reverseRecOn with
  | nil => rfl
  | append_singleton fs f ih =>
    rw [List.foldl_concat, shownUnder?_append_singleton, addProperty]
    split
    · rename_i hk
      rw [ih, if_neg fun h => h.1 hk]
    · rename_i hk
      rw [Entries.get?_put, ih]
      split <;> simp_all

/-- Each property is under the wire name of the field that it is of. -/
theorem mem_foldl_addProperty {fs : List FieldEntry} {key e : Value}
    (h : (key, e) ∈ fs.foldl (s.addProperty naming fresh) []) :
    ∃ f, s.shownUnder? fs f.wire = some f ∧ key = .str f.wire ∧
      e = s.fieldProperty naming fresh f := by
  induction fs using List.reverseRecOn generalizing key e with
  | nil => cases h
  | append_singleton fs f ih =>
    rw [List.foldl_concat, addProperty] at h
    split at h
    · rename_i hk
      obtain ⟨g, hg, rfl, rfl⟩ := ih h
      exact ⟨g, by rw [shownUnder?_append_singleton, if_neg fun h => h.1 hk, hg], rfl, rfl⟩
    · rename_i hk
      have hself : s.shownUnder? (fs ++ [f]) f.wire = some f := by
        rw [shownUnder?_append_singleton, if_pos ⟨hk, rfl⟩]
      rcases Entries.mem_put h with ⟨rfl, rfl | ⟨hkey, old, hold⟩⟩ | ⟨hkey, hold⟩
      · exact ⟨f, hself, rfl, rfl⟩
      · obtain ⟨g, -, rfl, -⟩ := ih hold
        rw [Entries.keyIs_str, beq_iff_eq] at hkey
        exact ⟨f, hself, by rw [hkey], rfl⟩
      · obtain ⟨g, hg, rfl, rfl⟩ := ih hold
        rw [Entries.keyIs_str, beq_eq_false_iff_ne, ne_comm] at hkey
        refine ⟨g, ?_, rfl, rfl⟩
        rw [shownUnder?_append_singleton, if_neg fun h => hkey h.2, hg]

/-- An entry tells the kind of its field, and has nothing under the other key but the properties that
it lists. -/
theorem fieldProperty_eq_dict {f : FieldEntry} (hx : s.Expands naming fresh f) :
    ∃ es : Entries, s.fieldProperty naming fresh f = .dict es ∧
      es.get? "type" = some (.str (s.classify f.type).name) ∧
      (es.has "properties" = false ↔ (s.fieldProperty naming fresh f).properties? = none) := by
  refine ⟨_, rfl, rfl, ?_⟩
  unfold fieldProperty
  rcases listedBelow_cases hx with ⟨next, inner, -, -, -, hlisted⟩ | ⟨-, hlisted⟩ <;> rw [hlisted]
  · exact iff_of_false nofun nofun
  · exact iff_of_true rfl rfl

/-! ## Rows of fields that have properties -/

/-- Rows of fields from a class on, with the classes that they pass, where each field has the
property under its wire name. -/
inductive ShownChain (s : Schema) (naming : Option Naming) :
    String → List FieldEntry → List String → Prop
  | last {cls : String} {fs : List FieldEntry} {f : FieldEntry} :
      s.fieldsOf naming (.named cls) = .ok fs → s.shownUnder? fs f.wire = some f →
      ShownChain s naming cls [f] [cls]
  | step {cls next : String} {fs chain : List FieldEntry} {f : FieldEntry}
      {classes : List String} :
      s.fieldsOf naming (.named cls) = .ok fs → s.shownUnder? fs f.wire = some f →
      s.LeadsTo f.type next → ShownChain s naming next chain classes →
      ShownChain s naming cls (f :: chain) (cls :: classes)

theorem ShownChain.fieldChain {cls : String} {chain : List FieldEntry} {classes : List String}
    (h : s.ShownChain naming cls chain classes) : s.FieldChain naming cls chain classes := by
  induction h with
  | last hfs hf => exact .last hfs (mem_of_shownUnder? hf).1
  | step hfs hf hl _ ih => exact .step hfs (mem_of_shownUnder? hf).1 hl ih

theorem ShownChain.ne_nil {cls : String} {chain : List FieldEntry} {classes : List String}
    (h : s.ShownChain naming cls chain classes) : chain ≠ [] := h.fieldChain.ne_nil

/-- The classes that a row passes, as the list of classes that may be expanded sees them. -/
theorem passes_fresh_iff {next : String} {classes : List String} (hfresh : fresh.Nodup) :
    (next ∈ fresh ∧ classes.Nodup ∧ ∀ c ∈ classes, c ∈ fresh.erase next) ↔
      (next :: classes).Nodup ∧ ∀ c ∈ next :: classes, c ∈ fresh := by
  simp only [hfresh.mem_erase_iff, List.nodup_cons, List.forall_mem_cons]
  constructor
  · rintro ⟨hnext, hdistinct, hall⟩
    exact ⟨⟨fun hmem => (hall next hmem).1 rfl, hdistinct⟩, hnext, fun c hc => (hall c hc).2⟩
  · rintro ⟨⟨hnew, hdistinct⟩, hnext, hall⟩
    refine ⟨hnext, hdistinct, fun c hc => ⟨?_, hall c hc⟩⟩
    rintro rfl
    exact hnew hc

/-- The property of a field that leads to a class lists the properties of the class if and only if
the class may be expanded. -/
theorem properties?_of_leadsTo (hn : NeverFails naming) (hm : s.Resolves model) {f : FieldEntry}
    {next : String} (hl : s.LeadsTo f.type next) (hr : s.Reaches s.LeadsTo model next)
    (hx : s.Expands naming fresh f) :
    if next ∈ fresh then
      ∃ es, s.properties naming (fresh.erase next) (.named next) = .ok es ∧
        (s.fieldProperty naming fresh f).properties? = some es
    else (s.fieldProperty naming fresh f).properties? = none := by
  split
  · rename_i hnext
    obtain ⟨_, -, -, hp⟩ := properties_fold hn hm (fresh.erase next) hr
    exact ⟨_, hp, (properties?_fieldProperty hx).mpr ⟨next, hl, hnext, hp⟩⟩
  · rename_i hnext
    rw [Option.eq_none_iff_forall_ne_some]
    intro es hes
    obtain ⟨other, hother, hmem, -⟩ := (properties?_fieldProperty hx).mp hes
    exact hnext (hl.unique hother ▸ hmem)

/-- What stands under the wire names where the properties of a class are listed, and that nothing
else stands there. -/
theorem entryAt?_properties (hn : NeverFails naming) (hm : s.Resolves model) {cls : String}
    {v : Value} {es : Entries} (hr : s.Reaches s.LeadsTo model cls) (hv : v.properties? = some es)
    (hes : s.properties naming fresh (.named cls) = .ok es) :
    ∃ fs, s.fieldsOf naming (.named cls) = .ok fs ∧
      (∀ f, s.shownUnder? fs f.wire = some f → s.Expands naming fresh f ∧
        ∀ keys, v.entryAt? (f.wire :: keys) = (s.fieldProperty naming fresh f).entryAt? keys) ∧
      ∀ key e, (key, e) ∈ es → ∃ f, s.shownUnder? fs f.wire = some f ∧ key = .str f.wire ∧
        e = s.fieldProperty naming fresh f := by
  obtain ⟨fs, hfs, hx, hp⟩ := properties_fold hn hm fresh hr
  rw [hes, Except.ok.injEq] at hp
  subst hp
  refine ⟨fs, hfs, ?_, fun key e hmem => mem_foldl_addProperty hmem⟩
  intro f hf
  refine ⟨hx f (mem_of_shownUnder? hf).1, fun keys => ?_⟩
  rw [Value.entryAt?, hv, Option.bind_some, get?_foldl_addProperty, hf]
  rfl

/-- At the end of a row stands an entry if and only if the row passes no class twice, and only such
that may be expanded. The entry lists properties unless its class is passed on the way or may not be
expanded. -/
theorem entryAt?_of_shownChain (hn : NeverFails naming) (hm : s.Resolves model) {cls : String}
    {chain : List FieldEntry} {classes : List String}
    (h : s.ShownChain naming cls chain classes) {v : Value} {es : Entries}
    (hr : s.Reaches s.LeadsTo model cls) (hfresh : fresh.Nodup) (hv : v.properties? = some es)
    (hes : s.properties naming fresh (.named cls) = .ok es) :
    ((v.entryAt? (chain.map (·.wire))).isSome ↔
        classes.tail.Nodup ∧ ∀ c ∈ classes.tail, c ∈ fresh) ∧
      ∀ e next, v.entryAt? (chain.map (·.wire)) = some e →
        s.LeadsTo (chain.getLast h.ne_nil).type next →
        ∃ below : Entries, e = .dict below ∧
          below.get? "type" = some (.str (s.classify (chain.getLast h.ne_nil).type).name) ∧
          (below.has "properties" = false ↔ next ∈ classes.tail ∨ next ∉ fresh) := by
  induction h generalizing fresh v es with
  | @last cls fs f hfs hf =>
    obtain ⟨fs', hfs', hshown, -⟩ := entryAt?_properties hn hm hr hv hes
    rw [hfs, Except.ok.injEq] at hfs'
    subst hfs'
    obtain ⟨hx, hat⟩ := hshown f hf
    rw [List.map_singleton, hat, Value.entryAt?]
    refine ⟨by simp, ?_⟩
    rintro e next ⟨⟩ hl
    rw [List.getLast_singleton] at hl
    obtain ⟨below, hbelow, hkind, hhas⟩ := fieldProperty_eq_dict hx
    refine ⟨below, hbelow, hkind, ?_⟩
    have hlists := properties?_of_leadsTo hn hm hl
      (hr.through hfs (mem_of_shownUnder? hf).1 hl) hx
    rw [hhas]
    by_cases hnext : next ∈ fresh
    · rw [if_pos hnext] at hlists
      obtain ⟨inner, -, hinner⟩ := hlists
      simp [hinner, hnext]
    · rw [if_neg hnext] at hlists
      simp [hlists, hnext]
  | @step cls next fs chain f classes hfs hf hl hrest ih =>
    obtain ⟨fs', hfs', hshown, -⟩ := entryAt?_properties hn hm hr hv hes
    rw [hfs, Except.ok.injEq] at hfs'
    subst hfs'
    obtain ⟨hx, hat⟩ := hshown f hf
    have hr' := hr.through hfs (mem_of_shownUnder? hf).1 hl
    have hlists := properties?_of_leadsTo hn hm hl hr' hx
    have hclasses : classes = next :: classes.tail := hrest.fieldChain.classes_eq
    rw [List.map_cons, hat, List.getLast_cons hrest.ne_nil, List.tail_cons]
    by_cases hnext : next ∈ fresh
    · rw [if_pos hnext] at hlists
      obtain ⟨inner, hp, hinner⟩ := hlists
      obtain ⟨hsome, hlacks⟩ := ih hr' (hfresh.erase next) hinner hp
      constructor
      · rw [hsome, hclasses, ← passes_fresh_iff hfresh]
        simp [hnext]
      · intro e deeper he hld
        obtain ⟨below, rfl, hkind, hhas⟩ := hlacks e deeper he hld
        refine ⟨below, rfl, hkind, ?_⟩
        rw [hhas, hclasses, List.tail_cons, hfresh.mem_erase_iff, List.mem_cons]
        tauto
    · -- The class may not be expanded: nothing stands below the entry.
      rw [if_neg hnext] at hlists
      have hnone : (s.fieldProperty naming fresh f).entryAt? (chain.map (·.wire)) = none := by
        obtain ⟨g, rest, rfl⟩ := List.exists_cons_of_ne_nil hrest.ne_nil
        rw [List.map_cons, Value.entryAt?, hlists]
        rfl
      rw [hnone]
      refine ⟨iff_of_false (by simp) ?_, ?_⟩
      · rintro ⟨-, hall⟩
        exact hnext (hall next (hclasses ▸ List.mem_cons_self))
      · intro e deeper he
        cases he

/-- Every entry anywhere in a list of properties stands at the end of such a row. -/
theorem shownChain_of_hasEntry (hn : NeverFails naming) (hm : s.Resolves model) {v e : Value}
    {keys : List Value} (h : v.HasEntry keys e) {fresh : List String} {cls : String} {es : Entries}
    (hr : s.Reaches s.LeadsTo model cls) (hv : v.properties? = some es)
    (hes : s.properties naming fresh (.named cls) = .ok es) :
    ∃ chain classes, s.ShownChain naming cls chain classes ∧
      keys = chain.map (fun f => .str f.wire) ∧ v.entryAt? (chain.map (·.wire)) = some e := by
  obtain ⟨fs, hfs, hshown, hof⟩ := entryAt?_properties hn hm hr hv hes
  induction h generalizing fresh cls es fs with
  | direct hv' hmem =>
    rw [hv, Option.some.injEq] at hv'
    subst hv'
    obtain ⟨f, hf, rfl, rfl⟩ := hof _ _ hmem
    exact ⟨[f], [cls], .last hfs hf, rfl, (hshown f hf).2 []⟩
  | inside hv' hmem hin ih =>
    rw [hv, Option.some.injEq] at hv'
    subst hv'
    obtain ⟨f, hf, rfl, rfl⟩ := hof _ _ hmem
    obtain ⟨hx, hat⟩ := hshown f hf
    obtain ⟨below, hbelow⟩ : ∃ es, (s.fieldProperty naming fresh f).properties? = some es := by
      cases hin <;> exact ⟨_, by assumption⟩
    obtain ⟨next, hl, -, hp⟩ := (properties?_fieldProperty hx).mp hbelow
    have hr' := hr.through hfs (mem_of_shownUnder? hf).1 hl
    obtain ⟨fs', hfs', hshown', hof'⟩ := entryAt?_properties hn hm hr' hbelow hp
    obtain ⟨chain, classes, hchain, rfl, hinner⟩ := ih hr' hbelow hp fs' hfs' hshown' hof'
    refine ⟨f :: chain, cls :: classes, .step hfs hf hl hchain, rfl, ?_⟩
    rw [List.map_cons, hat]
    exact hinner

/-- With each class that is expanded there is one less that may be. -/
theorem nestsProperties_le (hn : NeverFails naming) (hm : s.Resolves model) {v : Value} {n : Nat}
    (h : v.NestsProperties n) {fresh : List String} {cls : String} {es : Entries}
    (hr : s.Reaches s.LeadsTo model cls) (hv : v.properties? = some es)
    (hes : s.properties naming fresh (.named cls) = .ok es) : n ≤ fresh.length + 1 := by
  induction h generalizing fresh cls es with
  | here => omega
  | inside hv' hmem hin ih =>
    rw [hv, Option.some.injEq] at hv'
    subst hv'
    obtain ⟨fs, hfs, hshown, hof⟩ := entryAt?_properties hn hm hr hv hes
    obtain ⟨f, hf, -, rfl⟩ := hof _ _ hmem
    obtain ⟨below, hbelow⟩ : ∃ es, (s.fieldProperty naming fresh f).properties? = some es := by
      cases hin <;> exact ⟨_, by assumption⟩
    obtain ⟨next, hl, hnext, hp⟩ := (properties?_fieldProperty (hshown f hf).1).mp hbelow
    have hle := ih (hr.through hfs (mem_of_shownUnder? hf).1 hl) hbelow hp
    have hpos := List.length_pos_of_mem hnext
    rw [List.length_erase_of_mem hnext] at hle
    omega

/-! ## Mappings -/

theorem resolves_of_classNames (hmodel : model ∈ s.classNames)
    (h : ∀ cls ∈ s.classNames, ∃ hs, s.hints cls = .ok hs) : s.Resolves model := by
  intro cls hr
  cases hr with
  | root => exact h model hmodel
  | field _ _ _ hl => exact h cls (mem_classNames hl.structured)

/-- **Every mapping ends, and expands a class once on the way to an entry.** Properties are listed
in properties at most as often as there are classes. Every entry stands at the end of a row of
fields; such a row has an entry if and only if it passes no class twice, and an entry of objects of a
class lists no properties if and only if the row passes that class. -/
theorem mapping_expands_once (hmodel : model ∈ s.classNames) (hn : NeverFails naming)
    (hm : s.Resolves model) :
    ∃ m, s.mapping naming (.named model) = .ok m ∧
      (∀ n, m.NestsProperties n → n ≤ s.classNames.length) ∧
      (∀ keys e, m.HasEntry keys e → ∃ chain classes, s.ShownChain naming model chain classes ∧
        keys = chain.map (fun f => .str f.wire) ∧ m.entryAt? (chain.map (·.wire)) = some e) ∧
      ∀ chain classes (h : s.ShownChain naming model chain classes),
        ((m.entryAt? (chain.map (·.wire))).isSome ↔ classes.Nodup) ∧
        ∀ e next, m.entryAt? (chain.map (·.wire)) = some e →
          s.LeadsTo (chain.getLast h.ne_nil).type next →
          ∃ below : Entries, e = .dict below ∧
            below.get? "type" = some (.str (s.classify (chain.getLast h.ne_nil).type).name) ∧
            (below.has "properties" = false ↔ next ∈ classes) := by
  let fresh := s.classNames.filter fun c => some c != classOf? (.named model)
  have hmem : ∀ {c}, c ∈ fresh ↔ c ∈ s.classNames ∧ c ≠ model := by
    intro c
    simp [fresh, classOf?]
  have hfresh : fresh.Nodup := List.Nodup.filter _ (eraseDups_nodup _)
  obtain ⟨fs, -, -, hp⟩ := properties_fold hn hm fresh .root
  have hv := Value.properties?_object (fs.foldl (s.addProperty naming fresh) [])
  refine ⟨.object [("properties", .dict (fs.foldl (s.addProperty naming fresh) []))], ?_, ?_, ?_,
    ?_⟩
  · change (s.properties naming fresh (.named model)).map _ = _
    rw [hp]
    rfl
  · intro n hnests
    have hle := nestsProperties_le hn hm hnests .root hv hp
    have hshort : fresh.length < s.classNames.length := by
      refine List.length_filter_lt_length_iff_exists.mpr ⟨model, hmodel, ?_⟩
      simp [classOf?]
    omega
  · intro keys e hentry
    exact shownChain_of_hasEntry hn hm hentry .root hv hp
  · intro chain classes hchain
    obtain ⟨hsome, hlacks⟩ := entryAt?_of_shownChain hn hm hchain .root hfresh hv hp
    have hclasses := hchain.fieldChain.classes_eq
    have hknown := fun c hc => mem_classNames (hchain.fieldChain.structured_tail c hc)
    constructor
    · rw [hsome, hclasses, List.nodup_cons, List.tail_cons]
      constructor
      · rintro ⟨hdistinct, hall⟩
        exact ⟨fun hc => (hmem.mp (hall model hc)).2 rfl, hdistinct⟩
      · rintro ⟨hnew, hdistinct⟩
        refine ⟨hdistinct, fun c hc => hmem.mpr ⟨hknown c hc, ?_⟩⟩
        rintro rfl
        exact hnew hc
    · intro e next he hl
      obtain ⟨below, rfl, hkind, hhas⟩ := hlacks e next he hl
      refine ⟨below, rfl, hkind, ?_⟩
      have hstructured := mem_classNames hl.structured
      rw [hhas, hmem, hclasses, List.tail_cons, List.mem_cons]
      tauto

/-- Two classes that refer to each other and to themselves, where the naming gives two attributes one
wire name. -/
theorem mapping_expands_once_circle :
    let field (name : String) (type : TypeSyntax) : FieldDecl TypeSyntax :=
      ⟨name, type, none, none, none, none⟩
    let person : ClassDecl TypeSyntax := ⟨"Person", .model, none,
      [field "first_name" (.basic .text), field "firstName" (.basic .integer),
        field "friend" (.optional (.reference "Person")),
        field "homes" (.optional (.apply .list [.reference "Address"]))], [], false⟩
    let address : ClassDecl TypeSyntax := ⟨"Address", .record, none,
      [field "owner" (.reference "Person"), field "rented_by" (.reference "Person"),
        field "next_door" (.reference "Address")], [], false⟩
    let s := (Schema.empty.declare person).declare address
    let f : Naming := Naming.ofFunction camelCase
    "Person" ∈ s.classNames ∧ NeverFails (some f) ∧ s.Resolves "Person" ∧
      ∃ m, s.mapping (some f) (.named "Person") = .ok m ∧
        (∀ n, m.NestsProperties n → n ≤ 2) ∧
        (∃ below : Entries, m.entryAt? ["homes"] = some (.dict below) ∧
          below.get? "type" = some (.str "nested") ∧ below.has "properties" = true) ∧
        (∃ below : Entries, m.entryAt? ["homes", "rentedBy"] = some (.dict below) ∧
          below.get? "type" = some (.str "object") ∧ below.has "properties" = false) ∧
        m.entryAt? ["homes", "nextDoor", "rentedBy"] = none := by
  intro field person address s f
  let homes : FieldEntry := ⟨"homes", "homes", .union [.apply .list [.named "Address"], .null]⟩
  let rentedBy : FieldEntry := ⟨"rented_by", "rentedBy", .named "Person"⟩
  let nextDoor : FieldEntry := ⟨"next_door", "nextDoor", .named "Address"⟩
  have hperson : s.fieldsOf (some f) (.named "Person") =
      .ok [⟨"first_name", "firstName", .basic .text⟩, ⟨"firstName", "firstName", .basic .integer⟩,
        ⟨"friend", "friend", .union [.named "Person", .null]⟩, homes] := by
    unfold s f address person field
    rfl
  have haddress : s.fieldsOf (some f) (.named "Address") =
      .ok [⟨"owner", "owner", .named "Person"⟩, rentedBy, nextDoor] := by
    unfold s f address person field
    rfl
  have hmodel : "Person" ∈ s.classNames := by decide
  have hn : NeverFails (some f) := neverFails_ofFunction camelCase
  have hm : s.Resolves "Person" := by
    have hnames : s.classNames = ["Address", "Person"] := rfl
    refine resolves_of_classNames hmodel ?_
    rw [hnames, List.forall_mem_cons, List.forall_mem_singleton]
    exact ⟨⟨_, (fieldsOf_spec haddress).1⟩, ⟨_, (fieldsOf_spec hperson).1⟩⟩
  obtain ⟨m, hmap, hdepth, -, hentries⟩ := mapping_expands_once hmodel hn hm
  have hnested : s.classify homes.type = .nested := by rfl
  have hrented : s.classify rentedBy.type = .object := by rfl
  have hnext : s.classify nextDoor.type = .object := by rfl
  have hhomes : s.LeadsTo homes.type "Address" := ⟨.inr hnested, rfl, rfl⟩
  have hlast : s.ShownChain (some f) "Address" [rentedBy] ["Address"] := .last haddress (by rfl)
  have hlisted : ∃ below : Entries, m.entryAt? ["homes"] = some (.dict below) ∧
      below.get? "type" = some (.str "nested") ∧ below.has "properties" = true := by
    obtain ⟨hsome, hbelow⟩ := hentries [homes] ["Person"] (.last hperson (by rfl))
    obtain ⟨e, he⟩ := Option.isSome_iff_exists.mp (hsome.mpr (by decide))
    obtain ⟨below, rfl, hkind, hlacks⟩ := hbelow e "Address" he hhomes
    refine ⟨below, he, hkind, ?_⟩
    rw [← Bool.not_eq_false, hlacks]
    decide
  have hcut : ∃ below : Entries, m.entryAt? ["homes", "rentedBy"] = some (.dict below) ∧
      below.get? "type" = some (.str "object") ∧ below.has "properties" = false := by
    obtain ⟨hsome, hbelow⟩ :=
      hentries [homes, rentedBy] _ (.step hperson (by rfl) hhomes hlast)
    obtain ⟨e, he⟩ := Option.isSome_iff_exists.mp (hsome.mpr (by decide))
    obtain ⟨below, rfl, hkind, hlacks⟩ := hbelow e "Person" he ⟨.inl hrented, rfl, rfl⟩
    exact ⟨below, he, hkind, hlacks.mpr (by decide)⟩
  have hnone : m.entryAt? ["homes", "nextDoor", "rentedBy"] = none := by
    have hagain : s.ShownChain (some f) "Person" [homes, nextDoor, rentedBy]
        ["Person", "Address", "Address"] :=
      .step hperson (by rfl) hhomes (.step haddress (by rfl) ⟨.inl hnext, rfl, rfl⟩ hlast)
    rw [← Option.not_isSome_iff_eq_none]
    exact fun h => absurd ((hentries _ _ hagain).1.mp h) (by decide)
  exact ⟨hmodel, hn, hm, m, hmap, hdepth, hlisted, hcut, hnone⟩

end Schema

end TypedSearch
