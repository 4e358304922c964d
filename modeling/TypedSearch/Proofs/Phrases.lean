import TypedSearch.Proofs.ScopedClauses

/-!
# Exact phrases

A text that equals a field of words inside a nested array is put to the engine as a phrase, so
that its words stand next to each other. The phrase ends at the first quote that is not escaped,
and a text may hold quotes and backslashes of its own, in any order and number. The backslashes are
doubled first and the quotes escaped after that; then the phrase reads as the text and as nothing
else.

* `Spells`: the characters between the quotes of a phrase, and the text that they spell.
* `readPhrase?_eq_some_iff`: a phrase is read if and only if its characters spell a text.
* `escaped_eq_replaced`: escaping is one replacement after the other.
* `Clause.equality_carries_text`: **a nested exact phrase carries any text**.
-/

namespace TypedSearch

open Text

/-! ## The grammar of phrases -/

/-- Between the quotes of a phrase, the characters spell a text: a backslash makes the character
behind it literal, and any other character but a quote stands for itself. -/
inductive Spells : List Char → List Char → Prop
  | nil : Spells [] []
  | plain {c : Char} {cs text : List Char} : c ≠ doubleQuote → c ≠ backslash → Spells cs text →
      Spells (c :: cs) (c :: text)
  | literal {c : Char} {cs text : List Char} : Spells cs text →
      Spells (backslash :: c :: cs) (c :: text)

/-- A text is one phrase with a content: it can be read as a phrase in this way only, and nothing
is left behind the phrase. -/
structure IsPhraseOf (query content : List Char) : Prop where
  spelled : ∃ cs, Spells cs content ∧ query = doubleQuote :: cs ++ [doubleQuote]
  only : ∀ cs text rest, Spells cs text → query = doubleQuote :: cs ++ doubleQuote :: rest →
    text = content ∧ rest = []

theorem backslash_ne_doubleQuote : backslash ≠ doubleQuote := by decide

theorem readPhraseBody?_of_spells {cs text : List Char} (h : Spells cs text) (rest : List Char) :
    readPhraseBody? (cs ++ doubleQuote :: rest) = some (text, rest) := by
  induction h with
  | nil =>
    rw [List.nil_append, readPhraseBody?.eq_def]
    simp
  | plain hquote hslash _ ih =>
    rw [List.cons_append, readPhraseBody?.eq_def]
    simp [hquote, hslash, ih]
  | literal _ ih =>
    rw [List.cons_append, List.cons_append, readPhraseBody?.eq_def]
    simp [backslash_ne_doubleQuote, ih]

theorem spells_of_readPhraseBody? {cs text rest : List Char}
    (h : readPhraseBody? cs = some (text, rest)) :
    ∃ body, Spells body text ∧ cs = body ++ doubleQuote :: rest := by
  fun_induction readPhraseBody? cs generalizing text rest with
  | case1 => cases h
  | case2 cs =>
    cases h
    exact ⟨[], .nil, rfl⟩
  | case3 => cases h
  | case4 d ds _ ih =>
    obtain ⟨⟨text', rest'⟩, hread, heq⟩ := Option.map_eq_some_iff.mp h
    cases heq
    obtain ⟨body, hbody, rfl⟩ := ih hread
    exact ⟨backslash :: d :: body, .literal hbody, rfl⟩
  | case5 c cs hquote hslash ih =>
    obtain ⟨⟨text', rest'⟩, hread, heq⟩ := Option.map_eq_some_iff.mp h
    cases heq
    obtain ⟨body, hbody, rfl⟩ := ih hread
    exact ⟨c :: body, .plain hquote hslash hbody, rfl⟩

/-- A phrase is read if and only if what stands between its quotes spells a text. -/
theorem readPhrase?_eq_some_iff {query text rest : List Char} :
    readPhrase? query = some (text, rest) ↔
      ∃ cs, Spells cs text ∧ query = doubleQuote :: cs ++ doubleQuote :: rest := by
  constructor
  · intro h
    cases query with
    | nil => cases h
    | cons c cs =>
      rw [readPhrase?] at h
      split at h
      · rename_i hc
        obtain ⟨body, hbody, rfl⟩ := spells_of_readPhraseBody? h
        exact ⟨body, hbody, hc ▸ rfl⟩
      · cases h
  · rintro ⟨cs, hcs, rfl⟩
    exact readPhraseBody?_of_spells hcs rest

/-- What a text is read as decides which phrase it is. -/
theorem isPhraseOf_iff {query content : List Char} :
    IsPhraseOf query content ↔ readPhrase? query = some (content, []) := by
  constructor
  · exact fun h => readPhrase?_eq_some_iff.mpr h.spelled
  · intro h
    refine ⟨readPhrase?_eq_some_iff.mp h, fun cs text rest hcs hquery => ?_⟩
    have hread := readPhrase?_eq_some_iff.mpr ⟨cs, hcs, hquery⟩
    rw [h, Option.some.injEq, Prod.mk.injEq] at hread
    exact ⟨hread.1.symm, hread.2.symm⟩

/-! ## Escaping -/

/-- A character replaced wherever it stands. -/
def replaced (c : Char) (word cs : List Char) : List Char :=
  cs.flatMap fun d => if d = c then word else [d]

/-- Escaping doubles the backslashes and after that escapes the quotes. A backslash that comes in
with a quote is not doubled. -/
theorem escaped_eq_replaced (cs : List Char) : cs.flatMap escapedChar =
    replaced doubleQuote [backslash, doubleQuote] (replaced backslash [backslash, backslash] cs) := by
  unfold replaced
  rw [List.flatMap_assoc]
  refine List.flatMap_congr fun c _ => ?_
  unfold escapedChar
  by_cases hslash : c = backslash
  · simp [hslash, backslash_ne_doubleQuote]
  · by_cases hquote : c = doubleQuote
    · simp [hquote, backslash_ne_doubleQuote.symm]
    · simp [hslash, hquote]

/-- An escaped text spells the text. -/
theorem spells_escaped (cs : List Char) : Spells (cs.flatMap escapedChar) cs := by
  induction cs with
  | nil => exact .nil
  | cons c cs ih =>
    rw [List.flatMap_cons]
    unfold escapedChar
    split
    · exact .literal ih
    · rename_i hc
      rw [not_or] at hc
      exact .plain hc.2 hc.1 ih

theorem toList_phrase (text : String) :
    (phrase text).toList = doubleQuote :: text.toList.flatMap escapedChar ++ [doubleQuote] :=
  String.toList_ofList

theorem isPhraseOf_phrase (text : String) : IsPhraseOf (phrase text).toList text.toList :=
  isPhraseOf_iff.mpr
    (readPhrase?_eq_some_iff.mpr ⟨_, spells_escaped text.toList, toList_phrase text⟩)

/-- Different texts are different phrases. -/
theorem phrase_injective : Function.Injective phrase := by
  intro text other heq
  obtain ⟨cs, hcs, hquery⟩ := (isPhraseOf_phrase text).spelled
  have hsame := (isPhraseOf_phrase other).only cs text.toList [] hcs (heq ▸ hquery)
  exact String.toList_inj.mp hsame.1

/-! ## Texts that equal a nested field -/

namespace Clause

variable {field : FieldPath} {path : String}

/-- A text that equals a nested field of words is matched as a phrase. -/
theorem compile_equality_text (hkind : field.kind = .text) (hnested : field.nested = some path)
    (negated : Bool) {v : Value} {text : String} (htext : v.asText? = some text) :
    ∃ c, equality field negated v = .ok c ∧ ∀ hitsName, c.compile hitsName =
      .ok (nestedIn path (wordsMatched field.wire (.str (phrase text)) [])) := by
  have hscoped : field.isNested = true := by rw [FieldPath.isNested, hnested]; rfl
  refine ⟨_, equality_text negated htext hkind, fun hitsName => ?_⟩
  rw [hscoped, if_pos rfl]
  have hbody : body (plain (if negated then .matchingNot else .matching) field
      (.str (phrase text))) = .ok (wordsMatched field.wire (.str (phrase text)) []) := by
    cases negated <;> rfl
  have hasks : requestsInnerHits (plain (if negated then .matchingNot else .matching) field
      (.str (phrase text))) = false := by
    cases negated <;> simp [requestsInnerHits, plain, ClauseKind.isMembership]
  unfold compile
  rw [hbody, hasks]
  simp [plain, hnested, Except.map]

/-- **A nested exact phrase carries any text.** Whatever text equals, or does not equal, a field of
words inside a nested array, the clause asks for one phrase with this text as its content, which
ends with the query, and different texts give different queries. -/
theorem equality_carries_text (hkind : field.kind = .text) (hnested : field.nested = some path)
    {operator : OperatorArgument} (hop : operator.read = .ok .equal ∨ operator.read = .ok .notEqual)
    (timeZone rounding : Value) :
    ∃ query : String → String, Function.Injective query ∧
      (∀ text, IsPhraseOf (query text).toList text.toList ∧
        readPhrase? (query text).toList = some (text.toList, []) ∧
        (query text).toList = doubleQuote :: replaced doubleQuote [backslash, doubleQuote]
          (replaced backslash [backslash, backslash] text.toList) ++ [doubleQuote]) ∧
      ∀ v text, v.asText? = some text →
        ∃ c, (build field operator v timeZone rounding).outcome = (.ok c, []) ∧
          ∀ hitsName, c.compile hitsName =
            .ok (nestedIn path (wordsMatched field.wire (.str (query text)) [])) := by
  refine ⟨phrase, phrase_injective, fun text => ⟨isPhraseOf_phrase text,
    isPhraseOf_iff.mp (isPhraseOf_phrase text), ?_⟩, fun v text htext => ?_⟩
  · rw [toList_phrase, escaped_eq_replaced]
  · obtain ⟨negated, hbuild⟩ :=
      build_equality hop field timeZone rounding (Value.hasDisplay_of_asText? htext)
    obtain ⟨c, hc, hcompile⟩ := compile_equality_text hkind hnested negated htext
    exact ⟨c, hbuild.trans (congrArg (·, []) hc), hcompile⟩

/-- A text that ends in a backslash and holds a quote, as a member of an enumeration. -/
theorem equality_carries_text_quotes :
    let field : FieldPath := ⟨"items.note", .text, some "items"⟩
    let text := String.ofList ['a', doubleQuote, 'b', backslash]
    let v : Value := .member "Note" "N" .text (.str text)
    field.kind = .text ∧ field.nested = some "items" ∧
      OperatorArgument.read (.value (.str "ne")) = .ok .notEqual ∧ v.asText? = some text ∧
      ∃ query : String, query.toList = [doubleQuote, 'a', backslash, doubleQuote, 'b', backslash,
          backslash, doubleQuote] ∧
        IsPhraseOf query.toList text.toList ∧
        ∃ c, (build field (.value (.str "ne")) v .null .null).outcome = (.ok c, []) ∧
          c.compile none = .ok (nestedIn "items" (wordsMatched "items.note" (.str query) [])) := by
  intro field text v
  have hkind : field.kind = .text := rfl
  have hnested : field.nested = some "items" := rfl
  have hop : OperatorArgument.read (.value (.str "ne")) = .ok .notEqual := rfl
  obtain ⟨query, -, hquery, hbuild⟩ :=
    equality_carries_text hkind hnested (.inr hop) .null .null
  obtain ⟨hphrase, -, hlist⟩ := hquery text
  obtain ⟨c, hc, hcompile⟩ := hbuild v text rfl
  exact ⟨hkind, hnested, hop, rfl, query text, hlist.trans (by decide), hphrase, c, hc, hcompile none⟩

end Clause

end TypedSearch
