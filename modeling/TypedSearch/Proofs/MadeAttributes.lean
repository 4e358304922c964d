import TypedSearch.Document.Restore
import TypedSearch.Proofs.Fits

/-!
# Attributes of restored entities

An entity is made from the entries of a document. Each of its attributes depends only on what is
found under the names that give it: a model looks for it under its alias, and, if the model says so,
under its own name after that; any other class takes it as an argument of its own name.

* `Schema.givenNames`: the names that give an attribute.
* `Schema.lookup_acceptFields`, `Schema.lookup_bindArguments`: the attributes that a model and any
  other class make.
* `Schema.attribute?_of_found`: an attribute is what its class makes of what is found.
* `Schema.attribute?_congr`: an attribute depends on nothing else.
* `Schema.taken?_text`: a text stays as it is where the type keeps texts.
-/

namespace TypedSearch

/-- The attribute of an entity. -/
def Value.attribute? (name : String) : Value → Option Value
  | .entity _ _ attributes => attributes.lookup name
  | _ => none

namespace Schema

variable {s : Schema} {cls name : String} {es es' : Entries}

/-! ## Names of attributes -/

/-- The names under which a document gives an attribute of the class: the first that is there
counts. -/
def givenNames (s : Schema) (cls name : String) : List String :=
  if s.isModel cls then (((s.settledFields cls).find? (·.name == name)).map (s.dataNames cls)).getD []
  else if name ∈ s.annotatedNames cls then [name] else []

theorem givenNames_cases {key : String} (hfirst : (s.givenNames cls name).head? = some key) :
    s.givenNames cls name = [key] ∨ s.givenNames cls name = [key, name] := by
  unfold givenNames dataNames at hfirst ⊢
  split at hfirst
  · rename_i hm
    rw [if_pos hm]
    cases hf : (s.settledFields cls).find? (·.name == name) with
    | none =>
      rw [hf] at hfirst
      cases hfirst
    | some f =>
      have hname : f.name = name := by simpa using List.find?_some hf
      rw [hf] at hfirst
      cases hfirst
      rw [Option.map_some, Option.getD_some, hname]
      split
      · exact .inr rfl
      · exact .inl rfl
  · rename_i hm
    rw [if_neg hm]
    split at hfirst
    · rename_i hname
      cases hfirst
      exact .inl (if_pos hname)
    · cases hfirst

/-- What the class makes of a value for an attribute: a model reads it by the type of the field. -/
def taken? (s : Schema) (cls name : String) (v : Value) : Option Value :=
  if s.isModel cls then
    ((s.settledFields cls).find? (·.name == name)).bind fun f => s.accept v f.type
  else some v

/-- The alternative takes some texts by itself, as the choices they stand for. -/
def readsTexts (s : Schema) : TypeExpr → Bool
  | .literal _ => true
  | .named cls => (s.enumeration? cls).isSome
  | _ => false

/-- The alternative takes a text as it is or not at all. -/
def leavesTexts (s : Schema) : TypeExpr → Bool
  | .basic .text | .basic .object | .any | .variable | .null | .generic _ _ => true
  | .named cls => (s.enumeration? cls).isNone
  | _ => false

/-- The attribute keeps a text as it is, if it takes it at all: either no alternative of its type
makes something else of texts, or texts are among the alternatives and none offers choices. -/
def KeepsTexts (s : Schema) (cls name : String) : Prop :=
  s.isModel cls = true → ∀ f ∈ s.settledFields cls, f.name = name →
    (∀ h ∈ f.type.alternatives, s.leavesTexts h = true) ∨
      .basic .text ∈ f.type.alternatives ∧ ∀ h ∈ f.type.alternatives, s.readsTexts h = false

/-! ## Texts that are read -/

theorem acceptWhole_text_of_leavesTexts {t : TypeExpr} {text : String} {f : Fit}
    (ht : s.leavesTexts t = true) (h : s.acceptWhole t (.str text) = some f) :
    f.value = .str text := by
  cases t with
  | basic b =>
    cases b with
    | text | object =>
      rw [acceptWhole_of_takeWhole rfl] at h
      cases h
      rfl
    | _ => cases ht
  | any | «variable» =>
    rw [acceptWhole_of_takeWhole rfl] at h
    cases h
    rfl
  | null | generic _ _ => cases h
  | named c =>
    have hnone : s.enumeration? c = none := by simpa [leavesTexts] using ht
    simp [acceptWhole, takeWhole, convert, isConverting, hnone, acceptInstance, isInstance] at h
  | _ => cases ht

/-- A type that offers no choices takes a text as final only as it is. -/
theorem acceptWhole_text_of_isFinal {t : TypeExpr} {text : String} {f : Fit}
    (ht : s.readsTexts t = false) (h : s.acceptWhole t (.str text) = some f)
    (hfinal : f.isFinal = true) : f.value = .str text := by
  have hexact : f.grade = .exact := by
    simp only [Fit.isFinal, Bool.and_eq_true, beq_iff_eq] at hfinal
    exact hfinal.1
  cases htake : s.takeWhole t (.str text) with
  | none =>
    have hconverted : s.convert t (.str text) = some f := by
      simpa [acceptWhole, htake] using h
    unfold convert at hconverted
    split at hconverted
    · obtain ⟨made, -, rfl⟩ := Option.map_eq_some_iff.mp hconverted
      cases hexact
    · cases hconverted
  | some g =>
    rw [acceptWhole_of_takeWhole htake] at h
    cases h
    cases t with
    | basic b =>
      cases b with
      | text | object =>
        cases htake
        rfl
      | date | datetime =>
        obtain ⟨d, -, rfl⟩ := Option.map_eq_some_iff.mp htake
        cases hexact
      | _ => cases htake
    | any | «variable» =>
      cases htake
      rfl
    | named c =>
      have hnone : s.enumeration? c = none := by simpa [readsTexts] using ht
      simp [takeWhole, hnone, acceptInstance, isInstance] at htake
    | literal vs => cases ht
    | bare a => cases a <;> cases htake
    | _ => cases htake

theorem fit_text (text : String) (t : TypeExpr) :
    s.fit (.str text) t =
      Fit.best? (t.alternatives.filterMap fun h => s.acceptWhole h (.str text)) := rfl

/-- A type keeps a text as it is if no alternative makes something else of it. -/
theorem accept_text_of_leavesTexts {t : TypeExpr} {text : String} {v : Value}
    (ht : ∀ h ∈ t.alternatives, s.leavesTexts h = true) (h : s.accept (.str text) t = some v) :
    v = .str text := by
  obtain ⟨f, hf, rfl⟩ := Option.map_eq_some_iff.mp h
  rw [fit_text] at hf
  have hne : (t.alternatives.filterMap fun h => s.acceptWhole h (.str text)) ≠ [] := by
    intro hnil
    rw [hnil] at hf
    cases hf
  have hall : ∀ g ∈ t.alternatives.filterMap fun h => s.acceptWhole h (.str text),
      g.value = .str text := by
    intro g hg
    obtain ⟨alt, halt, hgalt⟩ := List.mem_filterMap.mp hg
    exact acceptWhole_text_of_leavesTexts (ht alt halt) hgalt
  obtain ⟨g, hg, hvalue⟩ := Fit.best?_value hne hall
  rw [hg] at hf
  cases hf
  exact hvalue

/-- A type keeps a text as it is if texts are among its alternatives and none offers choices. -/
theorem accept_text_of_mem {t : TypeExpr} {text : String} {v : Value}
    (hmem : .basic .text ∈ t.alternatives)
    (ht : ∀ h ∈ t.alternatives, s.readsTexts h = false) (h : s.accept (.str text) t = some v) :
    v = .str text := by
  obtain ⟨f, hf, rfl⟩ := Option.map_eq_some_iff.mp h
  have hthere : Fit.exactly (.str text) ∈
      t.alternatives.filterMap fun h => s.acceptWhole h (.str text) :=
    List.mem_filterMap.mpr ⟨_, hmem, rfl⟩
  have hexact : (Fit.exactly (.str text)).isFinal = true := rfl
  obtain ⟨g, hg⟩ := Option.isSome_iff_exists.mp (List.find?_isSome.mpr ⟨_, hthere, hexact⟩)
  rw [fit_text, Fit.best?_of_find? hg] at hf
  cases hf
  obtain ⟨alt, halt, hgalt⟩ := List.mem_filterMap.mp (List.mem_of_find?_eq_some hg)
  exact acceptWhole_text_of_isFinal (ht alt halt) hgalt (List.find?_some hg)

theorem taken?_text {name text : String} {v : Value} (hk : s.KeepsTexts cls name)
    (h : s.taken? cls name (.str text) = some v) : v = .str text := by
  unfold taken? at h
  split at h
  · rename_i hm
    obtain ⟨f, hf, hv⟩ := Option.bind_eq_some_iff.mp h
    have hname : f.name = name := by simpa using List.find?_some hf
    rcases hk hm f (List.mem_of_find?_eq_some hf) hname with hleaves | ⟨hmem, hreads⟩
    · exact accept_text_of_leavesTexts hleaves hv
    · exact accept_text_of_mem hmem hreads hv
  · cases h
    rfl

/-! ## Attributes that a model reads -/

/-- The value of a field for what is found of it, if anything is: read by its type, or its
fallback. -/
def fieldValue? (s : Schema) (f : FieldDecl TypeExpr) : Option Value → Option Value
  | some v => s.accept v f.type
  | none => f.fallback

/-- A model reads a field if it has a value, and then the fields behind it. -/
theorem acceptFields_cons_eq_some {names : FieldDecl TypeExpr → List String}
    {f : FieldDecl TypeExpr} {fs : List (FieldDecl TypeExpr)}
    {read : List (String × Value × Option Fit)}
    (h : acceptFields (s.readersOf es) names (f :: fs) = some read) :
    ∃ v fit rest, s.fieldValue? f ((names f).findSome? fun key => es.get? key) = some v ∧
      acceptFields (s.readersOf es) names fs = some rest ∧ read = (f.name, v, fit) :: rest := by
  rw [acceptFields, reader?_readersOf] at h
  cases hfound : (names f).findSome? fun key => es.get? key with
  | none =>
    rw [hfound] at h
    obtain ⟨entry, hentry, h⟩ := Option.bind_eq_some_iff.mp h
    obtain ⟨v, hv, rfl⟩ := Option.map_eq_some_iff.mp hentry
    obtain ⟨rest, hrest, h⟩ := Option.bind_eq_some_iff.mp h
    cases h
    exact ⟨v, none, rest, hv, hrest, rfl⟩
  | some v =>
    rw [hfound] at h
    obtain ⟨entry, hentry, h⟩ := Option.bind_eq_some_iff.mp h
    obtain ⟨fit, hfit, rfl⟩ := Option.map_eq_some_iff.mp hentry
    obtain ⟨rest, hrest, h⟩ := Option.bind_eq_some_iff.mp h
    cases h
    exact ⟨fit.value, some fit, rest, Option.map_eq_some_iff.mpr ⟨fit, hfit, rfl⟩, hrest, rfl⟩

/-- The attributes of what a model reads are the values of its fields, and each field has one. -/
theorem lookup_acceptFields {names : FieldDecl TypeExpr → List String}
    {fs : List (FieldDecl TypeExpr)} {read : List (String × Value × Option Fit)}
    (h : acceptFields (s.readersOf es) names fs = some read) (name : String) :
    ((read.map fun a => (a.1, a.2.1)).lookup name).map some = (fs.find? (·.name == name)).map fun f =>
      s.fieldValue? f ((names f).findSome? fun key => es.get? key) := by
  induction fs generalizing read with
  | nil =>
    cases h
    rfl
  | cons f fs ih =>
    obtain ⟨v, fit, rest, hv, hrest, rfl⟩ := acceptFields_cons_eq_some h
    rw [List.map_cons, List.lookup_cons, List.find?_cons]
    by_cases hname : f.name = name
    · subst hname
      simp [hv]
    · rw [beq_eq_false_iff_ne.mpr hname, beq_eq_false_iff_ne.mpr (Ne.symm hname)]
      exact ih hrest

/-- What a model reads depends only on what is found under the names of its fields. -/
theorem acceptFields_congr {names : FieldDecl TypeExpr → List String}
    {fs : List (FieldDecl TypeExpr)} (h : ∀ f ∈ fs, (names f).findSome? (fun key => es.get? key) =
      (names f).findSome? fun key => es'.get? key) :
    acceptFields (s.readersOf es) names fs = acceptFields (s.readersOf es') names fs := by
  induction fs with
  | nil => rfl
  | cons f fs ih =>
    rw [List.forall_mem_cons] at h
    rw [acceptFields, acceptFields, reader?_readersOf, reader?_readersOf, h.1, ih h.2]

theorem givenNames_of_isModel (hm : s.isModel cls = true) (name : String) :
    s.givenNames cls name =
      (((s.settledFields cls).find? (·.name == name)).map (s.dataNames cls)).getD [] := if_pos hm

/-- The attributes of the entity that a model makes. -/
theorem attribute?_validated (hm : s.isModel cls = true) {e : Value}
    (h : s.validated cls es = .ok e) (name : String) :
    (e.attribute? name).map some = ((s.settledFields cls).find? (·.name == name)).map fun f =>
      s.fieldValue? f ((s.givenNames cls name).findSome? fun key => es.get? key) := by
  unfold validated at h
  split at h
  · split at h
    · rename_i v hv
      cases h
      obtain ⟨f, hf, rfl⟩ := Option.map_eq_some_iff.mp hv
      rw [acceptReaders, if_pos hm] at hf
      obtain ⟨read, hread, rfl⟩ := Option.map_eq_some_iff.mp hf
      have hentity : (entityFit .model cls .converted read).value =
          .entity .model cls (read.map fun a => (a.1, a.2.1)) := Fit.withParts_value _ _
      rw [hentity, Value.attribute?, lookup_acceptFields hread, givenNames_of_isModel hm]
      cases (s.settledFields cls).find? (·.name == name) <;> rfl
    · cases h
  · cases h

theorem validated_congr (hm : s.isModel cls = true)
    (h : ∀ name, (s.givenNames cls name).findSome? (fun key => es.get? key) =
      (s.givenNames cls name).findSome? fun key => es'.get? key) :
    s.validated cls es = s.validated cls es' := by
  have hfields : acceptFields (s.readersOf es) (s.dataNames cls) (s.settledFields cls) =
      acceptFields (s.readersOf es') (s.dataNames cls) (s.settledFields cls) := by
    refine acceptFields_congr fun f hf => ?_
    have hnames := h f.name
    rw [givenNames_of_isModel hm, find?_of_mem (settledFields_nodup s cls) hf] at hnames
    exact hnames
  simp only [validated, acceptModel, acceptReaders, if_pos hm, hfields]

/-! ## Attributes that any other class makes -/

theorem lookup_replace (as : List (String × Value)) (name key : String) (v : Value) :
    (as.map fun a => if a.1 == name then (name, v) else a).lookup key =
      if key = name then (as.lookup key).map fun _ => v else as.lookup key := by
  induction as with
  | nil => simp
  | cons a as ih =>
    obtain ⟨k, u⟩ := a
    rw [List.map_cons, List.lookup_cons]
    by_cases hkey : key = k
    · subst hkey
      by_cases hname : key = name
      · subst hname
        simp
      · simp [hname]
    · have hself : (key == k) = false := beq_eq_false_iff_ne.mpr hkey
      rw [List.lookup_cons, hself, ← ih]
      by_cases hname : k = name
      · subst hname
        simp [hself]
      · simp [hself, hname]

theorem lookup_setAttribute (as : List (String × Value)) (name key : String) (v : Value) :
    (setAttribute as name v).lookup key = if key = name then some v else as.lookup key := by
  unfold setAttribute
  split
  · rename_i hany
    rw [lookup_replace]
    split
    · rename_i hkey
      obtain ⟨a, ha, hname⟩ := List.any_eq_true.mp hany
      have hthere : (as.lookup key).isSome :=
        List.lookup_isSome_iff.mpr ⟨a, ha, beq_iff_eq.mpr (hkey.trans (beq_iff_eq.mp hname).symm)⟩
      obtain ⟨u, hu⟩ := Option.isSome_iff_exists.mp hthere
      rw [hu, Option.map_some]
    · rfl
  · rename_i hany
    rw [List.lookup_append, List.lookup_cons, List.lookup_nil]
    by_cases hkey : key = name
    · have hnone : as.lookup key = none := by
        refine List.lookup_eq_none_iff.mpr fun a ha => bne_iff_ne.mpr fun heq => hany ?_
        exact List.any_eq_true.mpr ⟨a, ha, beq_iff_eq.mpr (heq.symm.trans hkey)⟩
      rw [hnone, hkey]
      simp
    · simp [hkey, beq_eq_false_iff_ne.mpr hkey]

/-- An argument that is given is the attribute of its name. -/
theorem lookup_bindArguments {args as as' : List (String × Value)}
    {wanted : List (String × Option Value)} {v : Value} (h : bindArguments args wanted as = .ok as')
    (hv : args.lookup name = some v)
    (hin : (∃ w ∈ wanted, w.1 = name) ∨ as.lookup name = some v) : as'.lookup name = some v := by
  induction wanted generalizing as with
  | nil =>
    cases h
    rcases hin with ⟨w, hw, -⟩ | hin
    · cases hw
    · exact hin
  | cons w wanted ih =>
    obtain ⟨key, fallback⟩ := w
    rw [bindArguments] at h
    split at h
    · rename_i u hu
      by_cases hkey : name = key
      · subst hkey
        rw [hv] at hu
        cases hu
        exact ih h (.inr (by rw [lookup_setAttribute, if_pos rfl]))
      · refine ih h ?_
        rw [lookup_setAttribute, if_neg hkey]
        rcases hin with ⟨w, hw, hname⟩ | hin
        · rcases List.mem_cons.mp hw with rfl | hw
          · exact absurd hname.symm hkey
          · exact .inl ⟨w, hw, hname⟩
        · exact .inr hin
    · cases h

/-- An attribute depends only on the argument of its name. -/
theorem lookup_bindArguments_congr {args args' as bs as' bs' : List (String × Value)}
    {wanted : List (String × Option Value)} (h : bindArguments args wanted as = .ok as')
    (h' : bindArguments args' wanted bs = .ok bs') (hargs : args.lookup name = args'.lookup name)
    (has : as.lookup name = bs.lookup name) : as'.lookup name = bs'.lookup name := by
  induction wanted generalizing as bs with
  | nil =>
    cases h
    cases h'
    exact has
  | cons w wanted ih =>
    obtain ⟨key, fallback⟩ := w
    rw [bindArguments] at h h'
    split at h
    · rename_i u hu
      split at h'
      · rename_i u' hu'
        refine ih h h' ?_
        rw [lookup_setAttribute, lookup_setAttribute]
        split
        · rename_i hkey
          subst hkey
          rw [hargs, hu'] at hu
          exact hu.symm
        · exact has
      · cases h'
    · cases h

theorem lookup_namedArguments (names : List String) (es : Entries) (name : String) :
    (namedArguments names es).lookup name = if name ∈ names then es.get? name else none := by
  induction es with
  | nil => simp [namedArguments]
  | cons e es ih =>
    obtain ⟨key, v⟩ := e
    unfold namedArguments at ih ⊢
    rw [List.filterMap_cons, Entries.get?_cons, Entries.keyIs]
    cases htext : key.asText? with
    | none => simpa [htext] using ih
    | some k =>
      by_cases hk : k ∈ names
      · by_cases hname : k = name
        · subst hname
          simp [hk]
        · simp [hk, hname, ih, List.lookup_cons, beq_eq_false_iff_ne.mpr (Ne.symm hname)]
      · by_cases hname : k = name
        · subst hname
          simpa [hk] using ih
        · simpa [hk, hname] using ih

theorem givenNames_of_not_isModel (hm : s.isModel cls = false) (name : String) :
    s.givenNames cls name = if name ∈ s.annotatedNames cls then [name] else [] :=
  if_neg (by simp [hm])

/-- The arguments of a class that is no model are what is found under the names of its attributes. -/
theorem lookup_namedArguments_eq (hm : s.isModel cls = false) (es : Entries) (name : String) :
    (namedArguments (s.annotatedNames cls) es).lookup name =
      (s.givenNames cls name).findSome? fun key => es.get? key := by
  rw [lookup_namedArguments, givenNames_of_not_isModel hm]
  split
  · rw [List.findSome?_singleton]
  · rfl

/-- A class that is no model makes entities of the arguments that it wants, or none. -/
theorem construct_cases (hm : s.isModel cls = false) :
    (∃ kind wanted, ∀ args, s.construct cls args = (bindAll wanted args).map (.entity kind cls)) ∨
      ∀ args, s.construct cls args = .error .wrongType := by
  unfold construct
  simp only [hm, Bool.false_eq_true, if_false]
  cases s.class? cls with
  | none => exact .inr fun _ => rfl
  | some c =>
    by_cases hkind : c.kind = .record
    · exact .inl ⟨.record, _, fun args => if_pos hkind⟩
    · exact .inl ⟨.plain, _, fun args => if_neg hkind⟩

theorem bindAll_eq_ok {wanted : List (String × Option Value)} {args as : List (String × Value)}
    (h : bindAll wanted args = .ok as) :
    (∀ a ∈ args, ∃ w ∈ wanted, w.1 = a.1) ∧ bindArguments args wanted [] = .ok as := by
  unfold bindAll at h
  split at h
  · rename_i hall
    refine ⟨fun a ha => ?_, h⟩
    have hany := List.all_eq_true.mp hall a ha
    simpa using List.any_eq_true.mp hany
  · cases h

/-! ## Entities and what is found -/

theorem instantiate_of_isModel (hm : s.isModel cls = true) (es : Entries) :
    s.instantiate (.type (.named cls)) es = s.validated cls es := by
  have hgiven : s.modelGiven? (.type (.named cls)) = some cls := if_pos hm
  unfold instantiate
  rw [hgiven]

theorem construct_of_instantiate (hm : s.isModel cls = false) {e : Value}
    (h : s.instantiate (.type (.named cls)) es = .ok e) :
    s.construct cls (namedArguments (s.annotatedNames cls) es) = .ok e := by
  have hgiven : s.modelGiven? (.type (.named cls)) = none := if_neg (by simp [hm])
  unfold instantiate at h
  rw [hgiven] at h
  dsimp only at h
  split at h
  · cases h
    assumption
  · cases h

theorem instantiate_congr (hm : s.isModel cls = false)
    (h : namedArguments (s.annotatedNames cls) es = namedArguments (s.annotatedNames cls) es') :
    s.instantiate (.type (.named cls)) es = s.instantiate (.type (.named cls)) es' := by
  have hgiven : s.modelGiven? (.type (.named cls)) = none := if_neg (by simp [hm])
  unfold instantiate
  rw [hgiven]
  dsimp only
  rw [h]

/-- An attribute with something under one of its names is what the class makes of it. -/
theorem attribute?_of_found {v e : Value}
    (hv : (s.givenNames cls name).findSome? (fun key => es.get? key) = some v)
    (h : s.instantiate (.type (.named cls)) es = .ok e) :
    ∃ w, s.taken? cls name v = some w ∧ e.attribute? name = some w := by
  unfold taken?
  cases hm : s.isModel cls with
  | true =>
    rw [instantiate_of_isModel hm] at h
    have hattribute := attribute?_validated hm h name
    rw [if_pos rfl]
    cases hf : (s.settledFields cls).find? (·.name == name) with
    | none =>
      rw [givenNames_of_isModel hm, hf] at hv
      cases hv
    | some f =>
      rw [hf, hv, Option.map_some] at hattribute
      obtain ⟨w, hw, htaken⟩ := Option.map_eq_some_iff.mp hattribute
      exact ⟨w, htaken.symm, hw⟩
  | false =>
    refine ⟨v, rfl, ?_⟩
    have hargs := lookup_namedArguments_eq hm es name
    rw [hv] at hargs
    have hmade := construct_of_instantiate hm h
    rcases construct_cases hm with ⟨kind, wanted, hconstruct⟩ | hnone
    · rw [hconstruct] at hmade
      obtain ⟨as, has, rfl⟩ := map_eq_ok.mp hmade
      obtain ⟨hwanted, hbind⟩ := bindAll_eq_ok has
      have hin : ∃ w ∈ wanted, w.1 = name := by
        obtain ⟨l₁, l₂, hsplit, -⟩ := List.lookup_eq_some_iff.mp hargs
        exact hwanted (name, v) (hsplit ▸ by simp)
      exact lookup_bindArguments hbind hargs (.inl hin)
    · rw [hnone] at hmade
      cases hmade

/-- An attribute depends only on what is found under its names. -/
theorem attribute?_congr {e e' : Value}
    (hsame : (s.givenNames cls name).findSome? (fun key => es.get? key) =
      (s.givenNames cls name).findSome? fun key => es'.get? key)
    (h : s.instantiate (.type (.named cls)) es = .ok e)
    (h' : s.instantiate (.type (.named cls)) es' = .ok e') :
    e.attribute? name = e'.attribute? name := by
  cases hm : s.isModel cls with
  | true =>
    rw [instantiate_of_isModel hm] at h h'
    refine (Option.map_inj_right fun _ _ => Option.some.inj).mp ?_
    rw [attribute?_validated hm h, attribute?_validated hm h', hsame]
  | false =>
    have hargs := lookup_namedArguments_eq hm es name
    rw [hsame, ← lookup_namedArguments_eq hm es' name] at hargs
    have hmade := construct_of_instantiate hm h
    have hmade' := construct_of_instantiate hm h'
    rcases construct_cases hm with ⟨kind, wanted, hconstruct⟩ | hnone
    · rw [hconstruct] at hmade hmade'
      obtain ⟨as, has, rfl⟩ := map_eq_ok.mp hmade
      obtain ⟨as', has', rfl⟩ := map_eq_ok.mp hmade'
      exact lookup_bindArguments_congr (bindAll_eq_ok has).2 (bindAll_eq_ok has').2 hargs rfl
    · rw [hnone] at hmade
      cases hmade

end Schema

end TypedSearch
