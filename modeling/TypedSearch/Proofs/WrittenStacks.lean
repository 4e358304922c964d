import TypedSearch.Proofs.WrapperStacks

/-!
# Stacks of wrappers that are written out

Writing out a wrapper coins a type. Where an equal type was coined before, that type is given again,
and it may stand around a type with another order or another spelling of its unions. So a written
stack is either the stack around the type that is written out inside it, or there is an outermost
wrapper around such an equal type. What is inside that wrapper is lost: walks lead to where they
lead from the equal type, and if it joins plain classes by bars, they lead nowhere.

* `Wrapper.elaborate_write`: one wrapper stands around the type inside it, or an equal one.
* `Wrapper.core_around_pipe`: a union by bars stays what it is in an array and behind markers.
* `TypeExpr.elaborate_stack`: **written stacks.**
-/

namespace TypedSearch

open TypeExpr

namespace Wrapper

variable {t : TypeExpr} {coined : List Coined}

/-! ## One wrapper -/

/-- How the wrapper makes a type. -/
def maker : Wrapper → Maker
  | .optional => .union
  | .annotated ms => .annotated ms
  | .array c _ => .apply c

/-- What the wrapper makes a type of. -/
def parts : Wrapper → TypeExpr → List TypeExpr
  | .optional, t => [t, .null]
  | .annotated _, t | .array _ _, t => [t]

theorem make_parts (w : Wrapper) (t : TypeExpr) : w.maker.make (w.parts t) = w.around t := by
  cases w <;> rfl

theorem sameLists_singleton {ts : List TypeExpr} (h : sameLists ts [t] = true) :
    ∃ u, ts = [u] ∧ u.same t = true := by
  cases ts with
  | nil => cases h
  | cons u ts =>
    obtain ⟨hsame, hrest⟩ := Bool.and_eq_true_iff.mp h
    cases ts with
    | nil => exact ⟨u, rfl, hsame⟩
    | cons _ _ => cases hrest

/-- Equal parts are those that the wrapper makes of an equal type. -/
theorem eq_parts_of_sameLists (w : Wrapper) {ts : List TypeExpr}
    (h : sameLists ts (w.parts t) = true) : ∃ u, ts = w.parts u ∧ u.same t = true := by
  cases w with
  | optional =>
    cases ts with
    | nil => cases h
    | cons u ts =>
      obtain ⟨hsame, hrest⟩ := Bool.and_eq_true_iff.mp h
      obtain ⟨n, rfl, hnull⟩ := sameLists_singleton hrest
      rw [same_null] at hnull
      cases n with
      | null => exact ⟨u, rfl, hsame⟩
      | _ => cases hnull
  | annotated ms => exact sameLists_singleton h
  | array c hc => exact sameLists_singleton h

theorem coin_around (w : Wrapper) (ht : t.IsNormal) (hcoined : ∀ c ∈ coined, c.IsMade) :
    ∃ u, ((coin w.maker (w.parts t) (w.around t)).run coined).1 = w.around u ∧ u.IsNormal ∧
      (u = t ∨ u.same t = true) := by
  rw [run_coin]
  split
  · rename_i c hfound
    have hmade := hcoined c (List.mem_of_find?_eq_some hfound)
    have hfits := List.find?_some hfound
    obtain ⟨hmaker, hsame⟩ := Bool.and_eq_true_iff.mp hfits
    obtain ⟨u, hparts, hu⟩ := w.eq_parts_of_sameLists hsame
    have hnormal : u.IsNormal := hmade.parts_isNormal u (by rw [hparts]; cases w <;> simp [parts])
    refine ⟨u, ?_, hnormal, .inr hu⟩
    rw [hmade.type_eq, hparts, eq_of_beq hmaker, make_parts]
  · exact ⟨t, rfl, ht, .inl rfl⟩

/-- A wrapper that is written around a type stands around what the type is written out to, or around
an equal type that was there before. -/
theorem elaborate_write (declared : String → Bool) (w : Wrapper) (x : TypeSyntax)
    (hcoined : ∀ c ∈ coined, c.IsMade) :
    let inner := ((x.elaborate declared).run coined).1
    ∃ u, (((w.write x).elaborate declared).run coined).1 = w.around u ∧ u.IsNormal ∧
      (u = inner ∨ u.same inner = true) := by
  obtain ⟨hinner, hlater⟩ := TypeSyntax.elaborate_isNormal declared x coined hcoined
  cases w with
  | optional => exact coin_around .optional hinner hlater
  | annotated ms => exact coin_around (.annotated ms) hinner hlater
  | array c hc =>
    have hmade : (TypeSyntax.apply c [x]).elaborate declared = x.elaborate declared >>= fun t =>
        if c.isOwnClass then pure (.apply c [t]) else coin (.apply c) [t] (.apply c [t]) := rfl
    dsimp only [write]
    rw [hmade]
    cases c.isOwnClass with
    | true => exact ⟨_, rfl, hinner, .inl rfl⟩
    | false => exact coin_around (.array c hc) hinner hlater

/-- In an array and behind markers, plain classes joined by bars are not looked through. -/
theorem core_around_pipe (w : Wrapper) (h : w ≠ .optional) (ts : List TypeExpr) :
    (w.around (.pipe ts)).core = .pipe ts := by
  cases w with
  | optional => exact absurd rfl h
  | annotated ms => rfl
  | array c hc => rw [around, core, if_pos hc]; rfl

end Wrapper

/-! ## Stacks -/

namespace TypeExpr

variable {t u : TypeExpr} {coined : List Coined}

theorem LeadsAlike.isDeadEnd (h : t.LeadsAlike u) (hu : u.core.isDeadEnd = true) :
    t.core.isDeadEnd = true := by
  rcases h with heq | ⟨ht, -⟩
  · rw [heq]
    exact hu
  · exact ht

/-- Wrappers around a union by bars lead nowhere if the innermost is no optional. -/
theorem isDeadEnd_wrapped_pipe (outer : List Wrapper) {w : Wrapper} (h : w ≠ .optional)
    (ts : List TypeExpr) : ((TypeExpr.pipe ts).wrapped (outer ++ [w])).core.isDeadEnd = true := by
  have hwrapped : (TypeExpr.pipe ts).wrapped (outer ++ [w]) =
      (w.around (.pipe ts)).wrapped outer := List.foldr_append
  have hdead : (w.around (.pipe ts)).core.isDeadEnd = true := by
    rw [w.core_around_pipe h]
    rfl
  have hnormal : (w.around (.pipe ts)).IsNormal := by
    cases w with
    | optional => exact absurd rfl h
    | annotated _ | array _ _ => trivial
  have hbar (us : List TypeExpr) : w.around (.pipe ts) ≠ .pipe us := by
    cases w with
    | optional => exact absurd rfl h
    | annotated _ | array _ _ => nofun
  rw [hwrapped]
  exact (leadsAlike_wrapped hnormal hbar outer).isDeadEnd hdead

/-- A written stack is a stack around the written type, or the outer part of the stack around a type
that was there before and equals what the inner part is written out to. -/
theorem elaborate_stack_cases (declared : String → Bool) (x : TypeSyntax)
    (hcoined : ∀ c ∈ coined, c.IsMade) (stack : List Wrapper) :
    let made (stack : List Wrapper) :=
      (((stack.foldr Wrapper.write x).elaborate declared).run coined).1
    ∃ outer inner u, stack = outer ++ inner ∧ made stack = u.wrapped outer ∧ u.IsNormal ∧
      (inner = [] ∧ u = made [] ∨ u.same (made inner) = true ∧ u ≠ made inner) := by
  intro made
  induction stack with
  | nil =>
    have hnormal := (TypeSyntax.elaborate_isNormal declared x coined hcoined).1
    exact ⟨[], [], made [], rfl, rfl, hnormal, .inl ⟨rfl, rfl⟩⟩
  | cons w stack ih =>
    obtain ⟨v, hv, hnormal, hequal⟩ :=
      Wrapper.elaborate_write declared w (stack.foldr Wrapper.write x) hcoined
    by_cases hsame : v = made stack
    · obtain ⟨outer, inner, u, hstack, hmade, hu⟩ := ih
      refine ⟨w :: outer, inner, u, by rw [hstack, List.cons_append], ?_, hu⟩
      change _ = w.around (u.wrapped outer)
      rw [← hmade, ← hsame]
      exact hv
    · exact ⟨[w], stack, v, rfl, hv, hnormal, .inr ⟨hequal.resolve_left hsame, hsame⟩⟩

/-- **Written stacks.** Let the types coined so far be made of normal types. What a type in a stack
of wrappers is written out to is the stack around what the type itself is written out to; or it is
the outer part of the stack around a type that was there before, which equals what the inner part is
written out to in all but the order and the spelling of unions. A walk leads to where it leads from
the type inside, which wrappers do not hide, unless that type is a union by bars: in an array or
behind markers such a union stops every walk. -/
theorem elaborate_stack (declared : String → Bool) (x : TypeSyntax)
    (hcoined : ∀ c ∈ coined, c.IsMade) (stack : List Wrapper) :
    let made (stack : List Wrapper) :=
      (((stack.foldr Wrapper.write x).elaborate declared).run coined).1
    ∃ outer inner u, stack = outer ++ inner ∧ made stack = u.wrapped outer ∧ u.IsNormal ∧
      (inner = [] ∧ u = made [] ∨ u.same (made inner) = true ∧ u ≠ made inner) ∧
      ((∀ ts, u ≠ .pipe ts) → ∀ (s : Schema) naming before others segments, segments ≠ [] →
        Schema.placeless (s.walkFrom naming before (made stack) segments) =
          Schema.placeless (s.walkFrom naming others u segments)) ∧
      (∀ ts further w, u = .pipe ts → outer = further ++ [w] → w ≠ .optional →
        ∀ (s : Schema) naming before segments, segments ≠ [] →
          ∃ fault, s.walkFrom naming before (made stack) segments = .error (.inl fault)) := by
  intro made
  obtain ⟨outer, inner, u, hstack, hmade, hnormal, hu⟩ :=
    elaborate_stack_cases declared x hcoined stack
  change made stack = _ at hmade
  refine ⟨outer, inner, u, hstack, hmade, hnormal, hu, ?_, ?_⟩
  · intro hbar s naming before others segments hne
    exact Schema.walkFrom_placeless_of_leadsAlike
      (hmade ▸ leadsAlike_wrapped hnormal hbar outer) before others hne
  · rintro ts further w rfl rfl hw s naming before segments hne
    exact Schema.walkFrom_of_isDeadEnd (hmade ▸ isDeadEnd_wrapped_pipe further hw ts) before hne

/-- Optional items in a list, when a list of items or null, joined by a bar, came before. -/
example :
    let joined : TypeSyntax := .apply .list [.pipe [.reference "Item", .null]]
    let optional : TypeSyntax := .apply .list [.optional (.reference "Item")]
    let coined := ((joined.elaborate fun _ => true).run []).2
    ((optional.elaborate fun _ => true).run coined).1 =
      .apply .list [.pipe [.named "Item", .null]] := by
  rfl

end TypeExpr

end TypedSearch
