import TypedSearch.Proofs.ClauseFormation
import TypedSearch.Proofs.StoredEntities

/-!
# Compared and stored forms

A query finds a value if it is put to the engine in the form in which documents hold it. Two
conversions make these forms, one for clauses and one for documents, and neither knows of the
other. On scalars they agree, members of enumerations and identifiers included, with one exception:
a document holds the text of a link, where a clause holds the link itself, which is no plain data.

* `Value.IsScalar`: the values without parts that fields hold, and members that stand for them.
* `Value.link?`: the link that such a value stands for.
* `Schema.IsComparedAs`: the compared form of a value next to its stored one.
* `Schema.scalar_isComparedAs`, `Schema.scalars_areComparedAs`: scalars alone and in collections.
* `Schema.compared_as_stored`: **values are compared in the form in which they are stored, except
  for links**.
-/

namespace TypedSearch

/-! ## Scalars -/

namespace Value

/-- The value has no parts: it is a truth value, a number, a text, an identifier or a link, or a
member of an enumeration that stands for such a value. -/
inductive IsScalar : Value → Prop
  | bool (b : Bool) : IsScalar (.bool b)
  | int (n : Int) : IsScalar (.int n)
  | double (x : Double) : IsScalar (.double x)
  | str (text : String) : IsScalar (.str text)
  | uuid (text : String) : IsScalar (.uuid text)
  | url (text : String) : IsScalar (.url text)
  | member (enumeration name : String) (base : MemberBase) {v : Value} :
      IsScalar v → IsScalar (.member enumeration name base v)

/-- The link that a value stands for, as itself or through members of enumerations. -/
def link? : Value → Option String
  | .url text => some text
  | .member _ _ _ v => v.link?
  | _ => none

theorem IsScalar.ne_null {v : Value} (h : v.IsScalar) : v.isNull = false := by
  cases h <;> rfl

theorem IsScalar.asCollection? {v : Value} (h : v.IsScalar) : v.asCollection? = none := by
  cases h <;> rfl

end Value

namespace Schema

variable {s : Schema}

/-- The value `w` is the compared form of a value next to the stored one, which is plain data. The
two are the same unless the value stands for a link; then the compared form is the link, which is no
plain data, and the stored form is its text. -/
structure IsComparedAs (s : Schema) (v w : Value) : Prop where
  stored : ∃ d, s.prepare v = .ok d ∧ d.isJson = true
  same : s.prepare v = .ok w ↔ v.link? = none
  plain : w.isJson = true ↔ v.link? = none
  link : ∀ text, v.link? = some text → w = .url text ∧ s.prepare v = .ok (.str text)

/-- A value that both conversions leave as it is, or turn into the same text. -/
theorem isComparedAs_of_plain {v w : Value} (hstored : s.prepare v = .ok w)
    (hplain : w.isJson = true) (hlink : v.link? = none) : s.IsComparedAs v w where
  stored := ⟨w, hstored, hplain⟩
  same := iff_of_true hstored hlink
  plain := iff_of_true hplain hlink
  link := fun text htext => by
    rw [hlink] at htext
    cases htext

/-- The induction is on what a member stands for: both conversions look through members. -/
theorem scalar_isComparedAs {v : Value} (h : v.IsScalar) :
    ∃ w, scalar v = .ok w ∧ s.IsComparedAs v w := by
  induction h with
  | bool b => exact ⟨.bool b, rfl, isComparedAs_of_plain rfl rfl rfl⟩
  | int n => exact ⟨.int n, rfl, isComparedAs_of_plain rfl rfl rfl⟩
  | double x => exact ⟨.double x, rfl, isComparedAs_of_plain rfl rfl rfl⟩
  | str text => exact ⟨.str text, rfl, isComparedAs_of_plain rfl rfl rfl⟩
  | uuid text => exact ⟨.str text, rfl, isComparedAs_of_plain rfl rfl rfl⟩
  | url text =>
    refine ⟨.url text, rfl, ⟨.str text, rfl, rfl⟩, iff_of_false nofun nofun,
      iff_of_false nofun nofun, ?_⟩
    rintro other ⟨⟩
    exact ⟨rfl, rfl⟩
  | member enumeration name base _ ih =>
    obtain ⟨w, hw, hcompared⟩ := ih
    exact ⟨w, hw, hcompared.stored, hcompared.same, hcompared.plain, hcompared.link⟩

theorem scalars_areComparedAs {xs : List Value} (h : ∀ x ∈ xs, x.IsScalar) :
    ∃ ws, scalars xs = .ok ws ∧ List.Forall₂ s.IsComparedAs xs ws := by
  induction xs with
  | nil => exact ⟨[], rfl, .nil⟩
  | cons x xs ih =>
    rw [List.forall_mem_cons] at h
    obtain ⟨w, hw, hx⟩ := scalar_isComparedAs (s := s) h.1
    obtain ⟨ws, hws, hxs⟩ := ih h.2
    exact ⟨w :: ws, by simp only [scalars, hw, hws, bind, Except.bind]; rfl, .cons hx hxs⟩

/-! ## Clauses on scalars -/

variable {field : FieldPath} {v : Value}

/-- Away from fields of words, equality compares with the compared form of the value. -/
theorem equality_of_scalar {negated : Bool} {w : Value} (hkind : field.kind ≠ .text)
    (hv : v.IsScalar) (hw : scalar v = .ok w) : Clause.equality field negated v =
      .ok (.plain (if negated then .termNot else .term) field w) := by
  obtain ⟨wire, kind, nested⟩ := field
  unfold Clause.equality
  rw [hv.ne_null, hv.asCollection?, hw]
  cases kind with
  | text => exact absurd rfl hkind
  | _ => cases v.asText? <;> rfl

/-- Membership compares with the compared forms of the elements. -/
theorem likeness_of_scalars {negated : Bool} {xs ws : List Value} (hv : v.asCollection? = some xs)
    (hws : scalars xs = .ok ws) : Clause.likeness field negated v =
      .ok (.plain (if negated then .termsNot else .terms) field (.tuple ws)) := by
  have htext : v.asText? = none := by
    cases v <;> first | rfl | cases hv
  unfold Clause.likeness
  rw [htext, hv]
  dsimp only
  rw [hws]
  rfl

/-- **Values are compared in the form in which they are stored, except for links.** On a field of any
kind but text, equality with a scalar asks for the term that is its compared form, and likeness to a
collection of scalars for the terms that are theirs, in order. Each is the stored form of its value
if and only if the value stands for no link. A value without a display gives no clause at all. -/
theorem compared_as_stored (s : Schema) (hkind : field.kind ≠ .text) (timeZone rounding : Value) :
    (∀ (operator : OperatorArgument) v, operator.read = .ok .equal ∨ operator.read = .ok .notEqual →
      v.IsScalar → v.hasDisplay = true →
      ∃ c w, (Clause.build field operator v timeZone rounding).outcome = (.ok c, []) ∧
        c.body = .ok (.object [("term", .object [(field.wire, .object [("value", w)])])]) ∧
        s.IsComparedAs v w) ∧
    (∀ (operator : OperatorArgument) v xs, operator.read = .ok .like ∨
        operator.read = .ok .notLike → v.asCollection? = some xs →
      (∀ x ∈ xs, x.IsScalar) → v.hasDisplay = true →
      ∃ c ws, (Clause.build field operator v timeZone rounding).outcome = (.ok c, []) ∧
        c.body = .ok (.object [("terms", .object [(field.wire, .list ws)])]) ∧
        List.Forall₂ s.IsComparedAs xs ws) ∧
    ∀ (operator : OperatorArgument) op v, operator.read = .ok op → v.hasDisplay = false →
      (Clause.build field operator v timeZone rounding).outcome = (.error .wrongValue, []) := by
  refine ⟨?_, ?_, ?_⟩
  · intro operator v hop hv hdisplay
    obtain ⟨w, hw, hcompared⟩ := scalar_isComparedAs (s := s) hv
    obtain ⟨negated, hbuild⟩ := Clause.build_equality hop field timeZone rounding hdisplay
    rw [hbuild, equality_of_scalar hkind hv hw]
    exact ⟨_, w, rfl, by cases negated <;> rfl, hcompared⟩
  · intro operator v xs hop hv hxs hdisplay
    obtain ⟨ws, hws, hcompared⟩ := scalars_areComparedAs (s := s) hxs
    obtain ⟨negated, hbuild⟩ := Clause.build_likeness hop field timeZone rounding hdisplay
    rw [hbuild, likeness_of_scalars hv hws]
    exact ⟨_, ws, rfl, by cases negated <;> rfl, hcompared⟩
  · intro operator op v hop hdisplay
    exact Clause.build_of_not_hasDisplay hop field timeZone rounding hdisplay

/-- A link that equals a field, and a set of an identifier and of a member that stands for one. -/
theorem compared_as_stored_links :
    let s : Schema := .empty
    let field : FieldPath := ⟨"home", .keyword, none⟩
    let link : Value := .url "https://example.org/"
    let key : Value := .uuid "12345678-1234-5678-1234-567812345678"
    let keys : Value := .set [key, .member "Key" "MAIN" .plain key]
    let equal : OperatorArgument := .value (.str "eq")
    let notLike : OperatorArgument := .value (.str "not_like")
    field.kind ≠ .text ∧ equal.read = .ok .equal ∧ link.IsScalar ∧ link.hasDisplay = true ∧
      notLike.read = .ok .notLike ∧ keys.hasDisplay = true ∧
      (∃ c, (Clause.build field equal link .null .null).outcome = (.ok c, []) ∧
        c.body = .ok (.object [("term", .object [("home", .object [("value", link)])])]) ∧
        s.prepare link = .ok (.str "https://example.org/")) ∧
      ∃ c, (Clause.build field notLike keys .null .null).outcome = (.ok c, []) ∧
        ∃ d, s.prepare keys = .ok d ∧ c.body = .ok (.object [("terms", .object [("home", d)])]) := by
  intro s field link key keys equal notLike
  have hlink : link.IsScalar := .url _
  have hkey : key.IsScalar := .uuid _
  have hequal : equal.read = .ok .equal := rfl
  have hlike : notLike.read = .ok .notLike := rfl
  have hkind : field.kind ≠ .text := by decide
  obtain ⟨hterm, hterms, -⟩ := compared_as_stored s hkind .null .null
  obtain ⟨c, w, hc, hbody, hw⟩ := hterm equal link (.inl hequal) hlink rfl
  obtain ⟨d, ws, hd, hbodies, hws⟩ := hterms notLike keys _ (.inr hlike) rfl
    (by simpa using ⟨hkey, .member _ _ _ hkey⟩) rfl
  refine ⟨hkind, hequal, hlink, rfl, hlike, rfl, ⟨c, hc, ?_, rfl⟩, d, hd, _, rfl, ?_⟩
  · rw [(hw.link _ rfl).1] at hbody
    exact hbody
  · cases hws with
    | cons hfirst hrest =>
      cases hrest with
      | cons hsecond hnone =>
        cases hnone
        obtain ⟨⟩ := hfirst.same.mpr rfl
        obtain ⟨⟩ := hsecond.same.mpr rfl
        exact hbodies

end Schema

end TypedSearch
