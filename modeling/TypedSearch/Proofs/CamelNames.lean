import TypedSearch.Naming
import TypedSearch.Proofs.Walks

/-!
# Names in camel case

A name in camel case has no underscores, and unless its first segment is empty it starts in lower
case. So it is its own name in camel case, where the name did not begin with an underscore. Of the
case maps no more is asked than that they put neither nothing nor an underscore for another
character, and that what a lower case begins with is in lower case.

* `Text.notMem_of_mem_pieces`: the segments of a text have no separators.
* `Text.mapCase_cases`, `Text.mapCase_of_notMem`: a character under a case table.
* `CaseMaps.IsRegular`, `CaseMaps.unicode_isRegular`: what is asked of case maps. The tables of the
  Unicode character database are regular.
* `CaseMaps.camel`, `CaseMaps.camel_unicode`: camel case under any case maps, and under the tables.
* `CaseMaps.underscore_notMem_camel`: a name in camel case has no underscore.
* `CaseMaps.camel_camel`: a name in camel case is its own name in camel case.
-/

namespace TypedSearch

namespace Text

/-! ## Segments -/

/-- No segment of a text has a separator. -/
theorem notMem_of_mem_pieces {sep : Char} {cs : List Char} : ∀ p ∈ pieces sep cs, sep ∉ p := by
  induction cs with
  | nil => exact List.forall_mem_singleton.mpr List.not_mem_nil
  | cons c cs ih =>
    rw [pieces]
    split
    · exact List.forall_mem_cons.mpr ⟨List.not_mem_nil, ih⟩
    · rename_i hc
      split
      · exact List.forall_mem_singleton.mpr (by simpa using Ne.symm hc)
      · rename_i p ps hpieces
        rw [hpieces, List.forall_mem_cons] at ih
        exact List.forall_mem_cons.mpr ⟨List.not_mem_cons_of_ne_of_not_mem (Ne.symm hc) ih.1, ih.2⟩

/-- The first segment of a text starts as the text does, unless that is with a separator. -/
theorem pieces_cons_of_ne {sep c : Char} (hc : c ≠ sep) (cs : List Char) :
    ∃ p ps, pieces sep (c :: cs) = (c :: p) :: ps := by
  rw [pieces, if_neg hc]
  split
  · exact ⟨[], [], rfl⟩
  · exact ⟨_, _, rfl⟩

/-! ## Case tables -/

/-- The characters of a run. -/
def CaseRun.codes (run : CaseRun) : List Nat :=
  (List.range ((run.last - run.first) / run.stride + 1)).map fun i => run.first + i * run.stride

theorem CaseRun.mem_codes {run : CaseRun} {n : Nat} (h : run.covers n = true) : n ∈ run.codes := by
  simp only [covers, Bool.and_eq_true, decide_eq_true_eq, beq_iff_eq] at h
  obtain ⟨⟨hfirst, hlast⟩, hstride⟩ := h
  have hsteps : (n - run.first) / run.stride * run.stride = n - run.first :=
    Nat.div_mul_cancel (Nat.dvd_of_mod_eq_zero hstride)
  refine List.mem_map.mpr ⟨(n - run.first) / run.stride, List.mem_range.mpr ?_, by omega⟩
  exact Nat.lt_succ_of_le (Nat.div_le_div_right (by omega))

/-- The characters that a table maps to others. -/
def sources (runs : List CaseRun) (texts : List (Nat × List Nat)) : List Nat :=
  texts.map (·.1) ++ runs.flatMap (·.codes)

/-- The texts that a table maps them to. -/
def counterparts (runs : List CaseRun) (texts : List (Nat × List Nat)) : List (List Char) :=
  texts.map (fun e => e.2.map Char.ofNat) ++
    runs.flatMap fun run => run.codes.map fun n : Nat => [Char.ofNat (n + run.shift).toNat]

variable {runs : List CaseRun} {texts : List (Nat × List Nat)} {c : Char}

theorem mapCase_of_notMem (h : c.toNat ∉ sources runs texts) : mapCase runs texts c = [c] := by
  rw [sources, List.mem_append, not_or] at h
  have htexts : texts.lookup c.toNat = none := by
    refine List.lookup_eq_none_iff.mpr fun e he => ?_
    rw [bne_iff_ne]
    exact fun heq => h.1 (List.mem_map.mpr ⟨e, he, heq.symm⟩)
  have hruns : runs.find? (·.covers c.toNat) = none := by
    refine List.find?_eq_none.mpr fun run hrun hcovers => h.2 ?_
    exact List.mem_flatMap.mpr ⟨run, hrun, run.mem_codes hcovers⟩
  rw [mapCase, htexts, hruns]

theorem mapCase_cases (runs : List CaseRun) (texts : List (Nat × List Nat)) (c : Char) :
    mapCase runs texts c = [c] ∨ mapCase runs texts c ∈ counterparts runs texts := by
  unfold mapCase
  split
  · rename_i codes hcodes
    obtain ⟨before, after, rfl, -⟩ := List.lookup_eq_some_iff.mp hcodes
    exact .inr (List.mem_append_left _ (List.mem_map.mpr ⟨(c.toNat, codes), by simp, rfl⟩))
  · split
    · rename_i run hrun
      have hcovers : run.covers c.toNat = true := by simpa using List.find?_some hrun
      refine .inr (List.mem_append_right _ (List.mem_flatMap.mpr ?_))
      exact ⟨run, List.mem_of_find?_eq_some hrun,
        List.mem_map.mpr ⟨c.toNat, run.mem_codes hcovers, rfl⟩⟩
    · exact .inl rfl

/-- Numbers as the bits of one number. Two rows have no number in common if what they are as bits
has none, and that is one step to decide. -/
def bits (ns : List Nat) : Nat := ns.foldr (fun n m => 1 <<< n ||| m) 0

theorem testBit_bits (ns : List Nat) (n : Nat) : (bits ns).testBit n = decide (n ∈ ns) := by
  induction ns with
  | nil => simp [bits]
  | cons m ns ih =>
    have hcons : bits (m :: ns) = 1 <<< m ||| bits ns := rfl
    rw [hcons, Nat.testBit_or, ih, Nat.one_shiftLeft, Nat.testBit_two_pow]
    simp [eq_comm]

theorem notMem_of_bits {ns ms : List Nat} (h : bits ns &&& bits ms = 0) {n : Nat} (hn : n ∈ ns) :
    n ∉ ms := by
  intro hm
  have hbit : (bits ns &&& bits ms).testBit n = true := by
    rw [Nat.testBit_and, testBit_bits, testBit_bits, decide_eq_true hn, decide_eq_true hm]
    rfl
  rw [h, Nat.zero_testBit] at hbit
  cases hbit

end Text

open Text

/-! ## Case maps -/

/-- A map to lower case and one to upper case, character by character. -/
structure CaseMaps where
  lower : Char → List Char
  upper : Char → List Char

namespace CaseMaps

/-- Neither map puts nothing or an underscore for a character other than the underscore, and what a
lower case begins with is in lower case. -/
structure IsRegular (maps : CaseMaps) : Prop where
  lower_ne_nil : ∀ c, c ≠ '_' → maps.lower c ≠ []
  upper_ne_nil : ∀ c, c ≠ '_' → maps.upper c ≠ []
  notMem_lower : ∀ c, c ≠ '_' → '_' ∉ maps.lower c
  notMem_upper : ∀ c, c ≠ '_' → '_' ∉ maps.upper c
  lower_head : ∀ c d, (maps.lower c).head? = some d → maps.lower d = [d]

/-- The maps of the Unicode character database. -/
def unicode : CaseMaps := ⟨lowerChar, upperChar⟩

theorem lower_counterparts : ∀ cs ∈ counterparts lowerRuns lowerTexts, cs ≠ [] ∧ '_' ∉ cs := by
  decide +kernel

theorem upper_counterparts : ∀ cs ∈ counterparts upperRuns upperTexts, cs ≠ [] ∧ '_' ∉ cs := by
  decide +kernel

/-- No lower case begins with a character that the table maps to another one. -/
theorem lower_heads :
    bits (((counterparts lowerRuns lowerTexts).filterMap (·.head?)).map Char.toNat) &&&
      bits (sources lowerRuns lowerTexts) = 0 := by
  decide +kernel

theorem mapCase_spec {runs : List CaseRun} {texts : List (Nat × List Nat)}
    (h : ∀ cs ∈ counterparts runs texts, cs ≠ [] ∧ '_' ∉ cs) {c : Char} (hc : c ≠ '_') :
    mapCase runs texts c ≠ [] ∧ '_' ∉ mapCase runs texts c := by
  rcases mapCase_cases runs texts c with heq | hmem
  · rw [heq]
    exact ⟨List.cons_ne_nil _ _, by simpa using Ne.symm hc⟩
  · exact h _ hmem

theorem unicode_isRegular : unicode.IsRegular where
  lower_ne_nil c hc := (mapCase_spec lower_counterparts hc).1
  upper_ne_nil c hc := (mapCase_spec upper_counterparts hc).1
  notMem_lower c hc := (mapCase_spec lower_counterparts hc).2
  notMem_upper c hc := (mapCase_spec upper_counterparts hc).2
  lower_head c d hd := by
    rcases mapCase_cases lowerRuns lowerTexts c with heq | hmem
    · have hlower : unicode.lower c = [c] := heq
      rw [hlower] at hd
      cases hd
      exact hlower
    · refine mapCase_of_notMem (notMem_of_bits lower_heads ?_)
      exact List.mem_map.mpr ⟨d, List.mem_filterMap.mpr ⟨_, hmem, hd⟩, rfl⟩

/-! ## Camel case -/

variable {maps : CaseMaps}

/-- The segments of a name in one word. -/
def camelChars (maps : CaseMaps) : List (List Char) → List Char
  | [] => []
  | head :: rest => mapHead maps.lower head ++ rest.flatMap (mapHead maps.upper)

/-- A name of segments between underscores as one word. -/
def camel (maps : CaseMaps) (name : String) : String :=
  String.ofList (maps.camelChars (pieces '_' name.toList))

theorem camel_unicode : unicode.camel = camelCase := by
  funext name
  unfold camel camelCase
  cases pieces '_' name.toList <;> rfl

theorem notMem_mapHead {f : Char → List Char} (hf : ∀ c, c ≠ '_' → '_' ∉ f c) {p : List Char}
    (hp : '_' ∉ p) : '_' ∉ mapHead f p := by
  cases p with
  | nil => exact List.not_mem_nil
  | cons c cs =>
    rw [List.mem_cons, not_or] at hp
    rw [mapHead, List.mem_append, not_or]
    exact ⟨hf c (Ne.symm hp.1), hp.2⟩

theorem notMem_camelChars (hmaps : maps.IsRegular) {ps : List (List Char)}
    (hps : ∀ p ∈ ps, '_' ∉ p) : '_' ∉ maps.camelChars ps := by
  cases ps with
  | nil => exact List.not_mem_nil
  | cons head rest =>
    rw [List.forall_mem_cons] at hps
    rw [camelChars, List.mem_append, not_or]
    refine ⟨notMem_mapHead hmaps.notMem_lower hps.1, fun hmem => ?_⟩
    obtain ⟨p, hp, hmem⟩ := List.mem_flatMap.mp hmem
    exact notMem_mapHead hmaps.notMem_upper (hps.2 p hp) hmem

/-- A name in camel case has no underscore. -/
theorem underscore_notMem_camel (hmaps : maps.IsRegular) (name : String) :
    '_' ∉ (maps.camel name).toList := by
  rw [camel, String.toList_ofList]
  exact notMem_camelChars hmaps notMem_of_mem_pieces

/-- A word that starts in lower case is its own name in camel case. -/
theorem camel_of_lower {c : Char} {cs : List Char} (hword : '_' ∉ c :: cs)
    (hc : maps.lower c = [c]) : maps.camel (String.ofList (c :: cs)) = String.ofList (c :: cs) := by
  rw [camel, String.toList_ofList, pieces_of_notMem hword, camelChars, mapHead, hc]
  simp

/-- A name in camel case is its own name in camel case, where the name did not begin with an
underscore. -/
theorem camel_camel (hmaps : maps.IsRegular) {name : String}
    (hname : name.toList.head? ≠ some '_') : maps.camel (maps.camel name) = maps.camel name := by
  cases hcs : name.toList with
  | nil =>
    have hempty : maps.camel name = "" := by rw [camel, hcs]; rfl
    rw [hempty]
    rfl
  | cons c cs =>
    rw [hcs, List.head?_cons, ne_eq, Option.some.injEq] at hname
    obtain ⟨p, ps, hpieces⟩ := pieces_cons_of_ne hname cs
    obtain ⟨d, ds, hlower⟩ := List.exists_cons_of_ne_nil (hmaps.lower_ne_nil c hname)
    -- the first segment starts the word with the lower case of its first character
    have hcamel : maps.camel name =
        String.ofList (d :: (ds ++ p ++ ps.flatMap (mapHead maps.upper))) := by
      rw [camel, hcs, hpieces, camelChars, mapHead, hlower]
      simp
    have hword := underscore_notMem_camel hmaps name
    rw [hcamel, String.toList_ofList] at hword
    rw [hcamel]
    exact camel_of_lower hword (hmaps.lower_head c d (by rw [hlower]; rfl))

end CaseMaps

end TypedSearch
