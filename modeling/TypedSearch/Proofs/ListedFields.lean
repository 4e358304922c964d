import TypedSearch.Field.Source
import TypedSearch.Proofs.NestedFields

/-!
# Fields that a source lists

The source of a class lists the fields of the class, those it inherits included. Resolving a field
asks for more: its name has to be a member chain, which takes only letters of ASCII, and the class
has to be structured, which a plain class without annotations of its own is not. So some fields are
listed that cannot be resolved.

* `isDigits_of_isChain`: a member chain without dots is no position.
* `Schema.walk_listed`: one step from a class into a field of it.
* `Resolver.listedAnswer`: what resolving a listed field gives.
* `Resolver.resolve_listed`: **the listed fields that can be resolved.**
-/

namespace TypedSearch

open Text

/-! ## Names and positions -/

/-- The letters of ASCII and the underscore are no digits. -/
theorem isDigit_of_isNameStart {c : Char} (h : isNameStart c = true) : isDigit c = false := by
  obtain ⟨hlow, hhigh⟩ := toNat_of_isNameStart h
  have hzero : ∀ z ∈ zeroDigits, z + 10 ≤ 65 ∨ 122 < z := by decide
  have hother : ∀ r ∈ otherDigitRanges, r.2 < 65 ∨ 122 < r.1 := by decide
  have hvalue : digitValue? c = none := by
    unfold digitValue?
    rw [Option.map_eq_none_iff, List.find?_eq_none]
    intro z hz
    have := hzero z hz
    simp
    omega
  unfold isDigit
  rw [hvalue, Option.isSome_none, Bool.false_or, List.any_eq_false]
  intro r hr
  have := hother r hr
  simp
  omega

theorem mem_of_mem_dropLineEnd {cs : List Char} {c : Char} (h : c ∈ dropLineEnd cs) : c ∈ cs := by
  induction cs with
  | nil => exact h
  | cons d cs ih =>
    cases cs with
    | nil =>
      unfold dropLineEnd at h
      split at h
      · cases h
      · exact h
    | cons e cs =>
      rcases List.mem_cons.mp h with rfl | hrest
      · exact List.mem_cons_self
      · exact List.mem_cons_of_mem _ (ih hrest)

/-- A member chain without dots is one name. -/
theorem isName_of_isChain {name : String} (h : isChain name = true) (hdot : '.' ∉ name.toList) :
    isName (dropLineEnd name.toList) = true := by
  have hdrop : '.' ∉ dropLineEnd name.toList := fun hmem => hdot (mem_of_mem_dropLineEnd hmem)
  simpa [isChain, pieces_of_notMem hdrop] using h

theorem isNameStart_of_isName_dropLineEnd {c : Char} {cs : List Char}
    (h : isName (dropLineEnd (c :: cs)) = true) : isNameStart c = true := by
  cases cs with
  | nil =>
    unfold dropLineEnd at h
    split at h
    · cases h
    · exact (Bool.and_eq_true _ _ ▸ h).1
  | cons d cs => exact (Bool.and_eq_true _ _ ▸ h).1

/-- A member chain without dots is no position. -/
theorem isDigits_of_isChain {name : String} (h : isChain name = true) (hdot : '.' ∉ name.toList) :
    isDigits name = false := by
  have hname := isName_of_isChain h hdot
  unfold isDigits
  cases hcs : name.toList with
  | nil => rfl
  | cons c cs =>
    rw [hcs] at hname
    have hc := isDigit_of_isNameStart (isNameStart_of_isName_dropLineEnd hname)
    simp [hc]

theorem split_of_notMem {name : String} (hdot : '.' ∉ name.toList) : split '.' name = [name] := by
  simp [split, pieces_of_notMem hdot]

theorem join_singleton (glue name : String) : join glue [name] = name := by
  simp [join, joinWith]

namespace Schema

variable {s : Schema} {naming : Option Naming} {cls : String} {f : FieldEntry}
  {fields : List FieldEntry}

/-! ## From a class into a field -/

/-- A field of a structured class is reached in one step. -/
theorem walk_listed (hfields : s.fieldsOf naming (.named cls) = .ok fields) (hf : f ∈ fields)
    (hdot : '.' ∉ f.name.toList) (hchain : isChain f.name = true)
    (hcls : s.isStructured (.named cls) = true) :
    s.walk naming (.named cls) f.name = .ok (f.type, [f.wire]) := by
  obtain ⟨hhints, hwires⟩ := fieldsOf_spec hfields
  have hlookup : (fields.map fun f => (f.name, f.type)).lookup f.name = some f.type :=
    lookup_of_mem (hints_nodup hhints) (List.mem_map.mpr ⟨f, hf, rfl⟩)
  have hstep : s.step naming [] (.named cls) f.name = .ok (.into f.type f.wire) :=
    step_field rfl hcls hhints hlookup (hwires f hf) (isDigits_of_isChain hchain hdot)
  rw [walk_eq_ok_iff, split_of_notMem hdot, walkFrom_cons_into hstep]
  exact ⟨ne_empty_of_isChain hchain, rfl⟩

/-- No step leads from a class that is not structured. -/
theorem walk_not_structured {name : String} (hdot : '.' ∉ name.toList)
    (hchain : isChain name = true) (hcls : s.isStructured (.named cls) = false) :
    s.walk naming (.named cls) name =
      .error (.path (.notTraversable name "root" cls name) cls) := by
  have hcore : (TypeExpr.named cls).core = .named cls := rfl
  have hdict : (TypeExpr.named cls).isDict = false := rfl
  have hstep : s.step naming [] (.named cls) name =
      .error (.inl (.notTraversable name "root" cls name)) := by
    simp [step, hcore, hdict, hcls, isDigits_of_isChain hchain hdot, parentText, TypeExpr.name,
      join_singleton]
  unfold walk
  rw [if_neg (ne_empty_of_isChain hchain), split_of_notMem hdot, walkFrom, hstep]
  rfl

end Schema

/-! ## Resolving what is listed -/

namespace Resolver

open Schema

variable {s : Schema} {naming : Option Naming} {cls : String}

/-- What resolving a listed field of a class gives. -/
def listedAnswer (s : Schema) (cls : String) (f : FieldEntry) : Except Fault FieldPath :=
  if isChain f.name = false then .error (.notAChain f.name)
  else if s.isStructured (.named cls) = false then
    .error (.path (.notTraversable f.name "root" cls f.name) cls)
  else .ok ⟨f.wire, s.classify f.type, none⟩

theorem resolve_field {fields : List FieldEntry} {f : FieldEntry}
    (hfields : s.fieldsOf naming (.named cls) = .ok fields) (hf : f ∈ fields)
    (hdot : '.' ∉ f.name.toList) :
    resolve ⟨s, naming, some (.named cls)⟩ (.field f.name) none = listedAnswer s cls f := by
  unfold listedAnswer
  cases hchain : isChain f.name with
  | false =>
    have hpath : descriptorPath (.field f.name) = .error (.notAChain f.name) := by
      simp [descriptorPath, checkedChain, hchain]
    unfold resolve
    rw [hpath]
    rfl
  | true =>
    have hpath : descriptorPath (.field f.name) = .ok f.name := by
      simp [descriptorPath, checkedChain, hchain]
    rw [resolve_unscoped hpath]
    cases hcls : s.isStructured (.named cls) with
    | false =>
      rw [walk_not_structured hdot hchain hcls]
      rfl
    | true =>
      rw [walk_listed hfields hf hdot hchain hcls]
      simp [Except.map, join_singleton]

theorem listedAnswer_isOk_iff {f : FieldEntry} :
    listedAnswer s cls f = .ok ⟨f.wire, s.classify f.type, none⟩ ↔
      s.isStructured (.named cls) = true ∧ isChain f.name = true := by
  unfold listedAnswer
  cases isChain f.name <;> cases s.isStructured (.named cls) <;> simp

/-- The source of a class lists the names of its hints. -/
theorem hints_of_source {src : FieldSource}
    (h : FieldSource.ofModel s (.type (.named cls)) = .ok src) :
    ∃ hs, s.hints cls = .ok hs ∧ src = .listed (hs.map (·.1)) := by
  have hclass : (ModelRef.type (.named cls)).class?.bind (s.fieldsOf none) =
      s.fieldsOf none (.named cls) := rfl
  unfold FieldSource.ofModel at h
  rw [hclass] at h
  cases hfields : s.fieldsOf none (.named cls) with
  | error e =>
    rw [hfields] at h
    cases h
  | ok fields =>
    rw [hfields] at h
    cases h
    refine ⟨_, (fieldsOf_spec hfields).1, ?_⟩
    simp

/-- **A listed field can be resolved just when its name is a member chain and the class is
structured.** The source lists the fields of the class, each access gives the field of that name,
and resolving it gives the wire name and the kind of the field, or a fault that says why not. -/
theorem resolve_listed (hn : NeverFails naming) {src : FieldSource}
    (hsrc : FieldSource.ofModel s (.type (.named cls)) = .ok src)
    (hdots : ∀ name ∈ src.names, '.' ∉ name.toList) :
    ∃ r fields, Resolver.ofModel s naming (.type (.named cls)) = .ok r ∧
      s.fieldsOf naming (.named cls) = .ok fields ∧ src.names = fields.map (·.name) ∧
      (∀ f ∈ fields, Reached.ofSource src f.name = .ok (.field f.name) ∧
        r.resolve (.field f.name) none = listedAnswer s cls f) ∧
      ((∀ f ∈ fields, r.resolve (.field f.name) none = .ok ⟨f.wire, s.classify f.type, none⟩) ↔
        fields = [] ∨
          s.isStructured (.named cls) = true ∧ ∀ f ∈ fields, isChain f.name = true) := by
  obtain ⟨hs, hhints, rfl⟩ := hints_of_source hsrc
  obtain ⟨fields, hfields⟩ := fieldsOf_isOk hn hhints
  have hnames : hs.map (·.1) = fields.map (·.name) := by
    obtain ⟨hspec, -⟩ := fieldsOf_spec hfields
    rw [hhints, Except.ok.injEq] at hspec
    simp [hspec]
  have hanswer : ∀ f ∈ fields, resolve ⟨s, naming, some (.named cls)⟩ (.field f.name) none =
      listedAnswer s cls f := by
    intro f hf
    have hmem : f.name ∈ hs.map (·.1) := hnames ▸ List.mem_map.mpr ⟨f, hf, rfl⟩
    exact resolve_field hfields hf (hdots f.name hmem)
  refine ⟨⟨s, naming, some (.named cls)⟩, fields, rfl, hfields, hnames, ?_, ?_⟩
  · intro f hf
    have hmem : f.name ∈ hs.map (·.1) := hnames ▸ List.mem_map.mpr ⟨f, hf, rfl⟩
    exact ⟨if_pos hmem, hanswer f hf⟩
  · have hall : (∀ f ∈ fields, resolve ⟨s, naming, some (.named cls)⟩ (.field f.name) none =
        .ok ⟨f.wire, s.classify f.type, none⟩) ↔
        ∀ f ∈ fields, s.isStructured (.named cls) = true ∧ isChain f.name = true :=
      forall₂_congr fun f hf => by rw [hanswer f hf, listedAnswer_isOk_iff]
    rw [hall]
    cases fields with
    | nil => simp
    | cons first rest =>
      constructor
      · intro h
        exact .inr ⟨(h first List.mem_cons_self).1, fun f hf => (h f hf).2⟩
      · rintro (hnil | ⟨hcls, hchains⟩) f hf
        · cases hnil
        · exact ⟨hcls, hchains f hf⟩

/-- A manager is a person and annotates nothing more: what a manager has is listed, but it cannot be
resolved. Of the fields of a thing those can be whose names are of ASCII. -/
theorem resolve_listed_managers :
    let s : Schema := ⟨[⟨"Thing", .model, none, [⟨"name", .basic .text, none, none, none, none⟩,
        ⟨"größe", .basic .integer, none, none, none, none⟩], [], false⟩,
      ⟨"Manager", .plain, some "Person", [], [], false⟩, ⟨"Person", .plain, none,
        [⟨"name", .basic .text, none, none, none, none⟩], [], false⟩],
        [], [], .strict⟩
    let naming : Option Naming := some (Naming.ofFunction fun name => "d_" ++ name)
    NeverFails naming ∧
      (FieldSource.ofModel s (.type (.named "Manager")) = .ok (.listed ["name"]) ∧
        ∃ r, Resolver.ofModel s naming (.type (.named "Manager")) = .ok r ∧
          r.resolve (.field "name") none =
            .error (.path (.notTraversable "name" "root" "Manager" "name") "Manager")) ∧
      FieldSource.ofModel s (.type (.named "Thing")) = .ok (.listed ["name", "größe"]) ∧
        ∃ r, Resolver.ofModel s naming (.type (.named "Thing")) = .ok r ∧
          r.resolve (.field "name") none = .ok ⟨"d_name", .keyword, none⟩ ∧
          r.resolve (.field "größe") none = .error (.notAChain "größe") := by
  intro s naming
  have hn : NeverFails naming := neverFails_ofFunction _
  have hmanager : FieldSource.ofModel s (.type (.named "Manager")) = .ok (.listed ["name"]) := rfl
  have hthing : FieldSource.ofModel s (.type (.named "Thing")) = .ok (.listed ["name", "größe"]) :=
    rfl
  refine ⟨hn, ⟨hmanager, ?_⟩, hthing, ?_⟩
  · obtain ⟨r, fields, hr, hfields, -, hall, -⟩ := resolve_listed hn hmanager (by decide)
    cases hfields
    exact ⟨r, hr, (hall _ List.mem_cons_self).2⟩
  · obtain ⟨r, fields, hr, hfields, -, hall, -⟩ := resolve_listed hn hthing (by decide)
    cases hfields
    rw [List.forall_mem_cons, List.forall_mem_singleton] at hall
    exact ⟨r, hr, hall.1.2, hall.2.2⟩

end Resolver

end TypedSearch
