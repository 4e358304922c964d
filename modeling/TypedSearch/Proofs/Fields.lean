import Mathlib.Data.List.Forall2
import Mathlib.Data.List.Nodup
import TypedSearch.Proofs.Wrappers

/-!
# Fields of classes

The fields of a class have different names, and every one has a wire name if the naming gives one.
A class leads to others through the objects that its fields hold.

* `Schema.hints_nodup`: no name is listed twice.
* `Schema.fieldsOf_spec`, `Schema.fieldsOf_isOk`: the fields with their wire names. They can be
  listed if the annotations resolve and the naming does not fail.
* `Schema.Reaches`: the classes that a class leads to, at any depth.
-/

namespace TypedSearch

/-- The naming, if there is one, gives every name a wire name. -/
def NeverFails (naming : Option Naming) : Prop := ∀ f ∈ naming, ∀ name, ∃ wire, f name = .ok wire

theorem neverFails_ofFunction (rename : String → String) :
    NeverFails (some (Naming.ofFunction rename)) := by
  rintro f ⟨⟩ name
  exact ⟨rename name, rfl⟩

namespace Schema

variable {s : Schema} {naming : Option Naming}

/-! ## Rows -/

/-- Where no key is listed twice, the element of a key is found by it. -/
theorem find?_of_nodup {α β : Type} {key : α → β} {p : α → Bool} {xs : List α}
    (hn : (xs.map key).Nodup) {x : α} (hx : x ∈ xs)
    (hp : ∀ y ∈ xs, p y = true ↔ key y = key x) : xs.find? p = some x := by
  induction xs with
  | nil => cases hx
  | cons y ys ih =>
    rw [List.map_cons, List.nodup_cons] at hn
    rw [List.forall_mem_cons] at hp
    rw [List.find?_cons]
    rcases List.mem_cons.mp hx with rfl | hrest
    · rw [hp.1.mpr rfl]
    · have hne : p y = false := by
        rw [Bool.eq_false_iff, ne_eq, hp.1]
        exact fun heq => hn.1 (List.mem_map.mpr ⟨x, hrest, heq.symm⟩)
      rw [hne]
      exact ih hn.2 hrest hp.2

theorem lookup_of_mem {β : Type} {hs : List (String × β)} (hn : (hs.map (·.1)).Nodup)
    {name : String} {t : β} (h : (name, t) ∈ hs) : hs.lookup name = some t := by
  induction hs with
  | nil => cases h
  | cons e hs ih =>
    rw [List.map_cons, List.nodup_cons] at hn
    rw [List.lookup_cons]
    rcases List.mem_cons.mp h with rfl | hrest
    · simp
    · have hne : (name == e.1) = false := by
        rw [beq_eq_false_iff_ne]
        rintro rfl
        exact hn.1 (List.mem_map.mpr ⟨_, hrest, rfl⟩)
      rw [hne]
      exact ih hn.2 hrest

theorem exists_of_forall₂ {α β : Type} {R : α → β → Prop} {xs : List α} {ys : List β}
    (h : List.Forall₂ R xs ys) {x : α} (hx : x ∈ xs) : ∃ y ∈ ys, R x y := by
  induction h with
  | nil => cases hx
  | @cons a b xs ys hab _ ih =>
    rcases List.mem_cons.mp hx with rfl | hx
    · exact ⟨b, List.mem_cons_self, hab⟩
    · obtain ⟨y, hy, hxy⟩ := ih hx
      exact ⟨y, List.mem_cons_of_mem _ hy, hxy⟩

/-! ## Names are listed once -/

theorem overriding_nodup {fs : List (FieldDecl TypeExpr)} (f : FieldDecl TypeExpr)
    (h : (fs.map (·.name)).Nodup) : ((overriding fs f).map (·.name)).Nodup := by
  unfold overriding
  split
  · have hnames : ∀ g : FieldDecl TypeExpr,
        (if (g.name == f.name) = true then f else g).name = g.name := by
      intro g
      split <;> simp_all
    rw [List.map_map]
    exact (List.map_congr_left fun g _ => hnames g) ▸ h
  · rename_i hany
    rw [List.map_append, List.nodup_append]
    refine ⟨h, List.nodup_singleton _, ?_⟩
    intro a ha b hb heq
    obtain ⟨g, hg, rfl⟩ := List.mem_map.mp ha
    rw [List.map_singleton, List.mem_singleton] at hb
    exact hany (List.any_eq_true.mpr ⟨g, hg, by rw [heq, hb]; exact beq_self_eq_true _⟩)

theorem foldl_overriding_nodup (fs : List (FieldDecl TypeExpr)) {kept : List (FieldDecl TypeExpr)}
    (h : (kept.map (·.name)).Nodup) : ((fs.foldl overriding kept).map (·.name)).Nodup := by
  induction fs generalizing kept with
  | nil => exact h
  | cons f fs ih => exact ih (overriding_nodup f h)

theorem modelFields_nodup (s : Schema) (cls : String) :
    ((s.modelFields cls).map (·.name)).Nodup := by
  refine List.Nodup.sublist (List.Sublist.map _ List.filter_sublist) ?_
  exact foldl_overriding_nodup _ List.nodup_nil

theorem resolveFields_names {fs gs : List (FieldDecl TypeExpr)} (h : resolveFields s fs = .ok gs) :
    gs.map (·.name) = fs.map (·.name) := by
  induction fs generalizing gs with
  | nil => cases h; rfl
  | cons f fs ih =>
    unfold resolveFields at h
    cases ht : f.type.resolve s.isDeclared with
    | error e => rw [ht] at h; cases h
    | ok t =>
      cases hr : resolveFields s fs with
      | error e => simp only [ht, hr, bind, Except.bind] at h; cases h
      | ok rest =>
        simp only [ht, hr, bind, Except.bind] at h
        cases h
        simp [ih hr]

theorem settledFields_names (s : Schema) (cls : String) :
    (s.settledFields cls).map (·.name) = (s.modelFields cls).map (·.name) := by
  unfold settledFields
  cases h : resolveFields s (s.modelFields cls) with
  | error e => rfl
  | ok fs => exact resolveFields_names h

theorem settledFields_nodup (s : Schema) (cls : String) :
    ((s.settledFields cls).map (·.name)).Nodup := by
  rw [settledFields_names]
  exact modelFields_nodup s cls

/-- The hints of a model are its fields. -/
theorem hints_of_isModel {cls : String} (h : s.isModel cls = true) :
    s.hints cls = .ok ((s.settledFields cls).map fun g => (g.name, g.type)) := if_pos h

/-- No name is listed twice. -/
theorem hints_nodup {cls : String} {hs : List (String × TypeExpr)} (h : s.hints cls = .ok hs) :
    (hs.map (·.1)).Nodup := by
  unfold hints at h
  dsimp only at h
  split at h
  · cases h
    rw [List.map_map]
    exact settledFields_nodup s cls
  · split at h
    · rename_i fs hfs
      cases h
      rw [List.map_map]
      refine List.Nodup.sublist (List.Sublist.map _ List.filter_sublist) ?_
      unfold resolvedAnnotations at hfs
      cases hr : resolveFields s ((s.lineage cls).flatMap (·.fields)) with
      | error e => rw [hr] at hfs; cases hfs
      | ok gs =>
        rw [hr] at hfs
        cases hfs
        exact foldl_overriding_nodup gs List.nodup_nil
    · cases h

theorem find?_of_mem {fs : List (FieldDecl TypeExpr)} (hn : (fs.map (·.name)).Nodup)
    {g : FieldDecl TypeExpr} (h : g ∈ fs) : fs.find? (·.name == g.name) = some g :=
  find?_of_nodup hn h fun _ _ => beq_iff_eq

/-! ## Fields with their wire names -/

theorem entriesOf_spec {cls : String} {hs : List (String × TypeExpr)} {fs : List FieldEntry}
    (h : s.entriesOf naming cls hs = .ok fs) :
    fs.map (fun f => (f.name, f.type)) = hs ∧
      ∀ f ∈ fs, s.wireName naming cls f.name = .ok f.wire := by
  induction hs generalizing fs with
  | nil => cases h; exact ⟨rfl, by simp⟩
  | cons e hs ih =>
    obtain ⟨name, type⟩ := e
    unfold entriesOf at h
    cases hw : s.wireName naming cls name with
    | error e => rw [hw] at h; cases h
    | ok wire =>
      cases hr : s.entriesOf naming cls hs with
      | error e => simp only [hw, hr] at h; cases h
      | ok rest =>
        simp only [hw, hr] at h
        cases h
        obtain ⟨hmap, hwires⟩ := ih hr
        refine ⟨by rw [List.map_cons, hmap], ?_⟩
        rw [List.forall_mem_cons]
        exact ⟨hw, hwires⟩

theorem wireName_isOk (hn : NeverFails naming) (cls name : String) :
    ∃ wire, s.wireName naming cls name = .ok wire := by
  unfold wireName
  split
  · exact ⟨_, rfl⟩
  · split
    · rename_i f
      exact hn f rfl name
    · exact ⟨_, rfl⟩

theorem entriesOf_isOk (hn : NeverFails naming) (cls : String) (hs : List (String × TypeExpr)) :
    ∃ fs, s.entriesOf naming cls hs = .ok fs := by
  induction hs with
  | nil => exact ⟨[], rfl⟩
  | cons e hs ih =>
    obtain ⟨wire, hw⟩ := wireName_isOk (s := s) hn cls e.1
    obtain ⟨rest, hr⟩ := ih
    exact ⟨{ name := e.1, wire, type := e.2 } :: rest, by simp [entriesOf, hw, hr, Except.map]⟩

/-- The fields of a class are its hints, each with its wire name. -/
theorem fieldsOf_spec {cls : String} {fs : List FieldEntry}
    (h : s.fieldsOf naming (.named cls) = .ok fs) :
    s.hints cls = .ok (fs.map fun f => (f.name, f.type)) ∧
      ∀ f ∈ fs, s.wireName naming cls f.name = .ok f.wire := by
  unfold fieldsOf at h
  cases hh : s.hintsOf (.named cls) with
  | error e => rw [hh] at h; cases h
  | ok hs =>
    rw [hh] at h
    obtain ⟨hmap, hwires⟩ := entriesOf_spec h
    exact ⟨by rw [hmap]; exact hh, hwires⟩

theorem fieldsOf_isOk (hn : NeverFails naming) {cls : String} {hs : List (String × TypeExpr)}
    (h : s.hints cls = .ok hs) : ∃ fs, s.fieldsOf naming (.named cls) = .ok fs := by
  obtain ⟨fs, hfs⟩ := entriesOf_isOk (s := s) hn cls hs
  have hh : s.hintsOf (.named cls) = .ok hs := h
  exact ⟨fs, by rw [fieldsOf, hh]; exact hfs⟩

/-- The field of a name that is looked up. -/
theorem field_of_lookup {cls name wire : String} {fs : List FieldEntry}
    {hs : List (String × TypeExpr)} {t : TypeExpr} (hfs : s.fieldsOf naming (.named cls) = .ok fs)
    (hhints : s.hints cls = .ok hs) (hlookup : hs.lookup name = some t)
    (hwire : s.wireName naming cls name = .ok wire) :
    ∃ g ∈ fs, g.name = name ∧ g.type = t ∧ g.wire = wire := by
  obtain ⟨hspec, hwires⟩ := fieldsOf_spec hfs
  rw [hhints, Except.ok.injEq] at hspec
  obtain ⟨l₁, l₂, rfl, -⟩ := List.lookup_eq_some_iff.mp hlookup
  have hmem : (name, t) ∈ fs.map fun g => (g.name, g.type) := hspec ▸ by simp
  obtain ⟨g, hg, heq⟩ := List.mem_map.mp hmem
  rw [Prod.mk.injEq] at heq
  obtain ⟨rfl, rfl⟩ := heq
  refine ⟨g, hg, rfl, rfl, ?_⟩
  rw [hwires g hg, Except.ok.injEq] at hwire
  exact hwire

/-! ## Classes that a class leads to -/

/-- The classes that the class `root` leads to, at any depth, where `leads` tells the classes that
the type of a field leads to. -/
inductive Reaches (s : Schema) (leads : TypeExpr → String → Prop) (root : String) : String → Prop
  | root : Reaches s leads root root
  | field {cls next name : String} {hs : List (String × TypeExpr)} {t : TypeExpr} :
      Reaches s leads root cls → s.hints cls = .ok hs → (name, t) ∈ hs → leads t next →
      Reaches s leads root next

/-- A model leads to the classes that the types of its fields lead to. -/
theorem Reaches.model {leads : TypeExpr → String → Prop} {root cls next : String}
    {g : FieldDecl TypeExpr} (h : s.Reaches leads root cls) (hm : s.isModel cls = true)
    (hg : g ∈ s.settledFields cls) (hl : leads g.type next) : s.Reaches leads root next :=
  .field h (hints_of_isModel hm) (List.mem_map.mpr ⟨g, hg, rfl⟩) hl

/-- A class leads to the classes that the types of its fields lead to. -/
theorem Reaches.through {leads : TypeExpr → String → Prop} {root cls next : String}
    {fs : List FieldEntry} {f : FieldEntry} (h : s.Reaches leads root cls)
    (hfs : s.fieldsOf naming (.named cls) = .ok fs) (hf : f ∈ fs) (hl : leads f.type next) :
    s.Reaches leads root next :=
  .field h (fieldsOf_spec hfs).1 (List.mem_map.mpr ⟨f, hf, rfl⟩) hl

end Schema

end TypedSearch
