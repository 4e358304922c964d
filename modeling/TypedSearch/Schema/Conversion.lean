import TypedSearch.Number.Shortest
import TypedSearch.Schema.Validation

/-!
# Conversions of scalars

The conversions between scalars that validation makes of data which are not of the expected type:
numbers, truth values, identifiers and bytes are read from their texts, and a number becomes one of
another kind if it is the same number there. Whatever else can be converted, links and collections
among it, is left to conversions of another kind.

* `Conversion.scalars`: the conversions.
-/

namespace TypedSearch

open Text

namespace Conversion

/-- The text of a whole number without the zeros behind its point. -/
def wholeText (s : String) : String :=
  match pieces '.' s.toList with
  | [whole, zeros] => if zeros.all (· = '0') then String.ofList whole else s
  | _ => s

/-- The truth value of a word. -/
def truthOfWord? (s : String) : Option Bool :=
  let word := String.ofList (s.toList.map Char.toLower)
  if word ∈ ["1", "on", "t", "true", "y", "yes"] then some true
  else if word ∈ ["0", "off", "f", "false", "n", "no"] then some false
  else none

/-- The digits of an identifier in five groups. -/
def identifierText? (s : String) : Option String :=
  let groups := pieces '-' (s.toList.map Char.toLower)
  let isHex (c : Char) : Bool := c.isDigit || ('a' ≤ c && c ≤ 'f')
  if groups.map List.length = [8, 4, 4, 4, 12] ∧ groups.all (·.all isHex) then
    some (String.ofList (joinWith ['-'] groups))
  else none

/-- What a basic class reads from a text. -/
def ofText? (b : BasicType) (s : String) : Option Value :=
  match b with
  | .integer => (readInteger? (wholeText s)).map .int
  | .double => (Double.ofText? (trim s)).map .double
  | .decimal => (Decimal.ofText? (trim s)).map .decimal
  | .boolean => (truthOfWord? s).map .bool
  | .uuid => (identifierText? s).map .uuid
  | .bytes => some (.bytes s.toUTF8.toList)
  | _ => none

/-- The whole number that a number is. -/
def wholeNumber? (v : Value) : Option Int :=
  match v.magnitude? with
  | some (.exact r) => if r.den = 1 then some r.num else none
  | _ => none

/-- What a basic class makes of a number of another kind. -/
def ofNumber? (b : BasicType) (v : Value) : Option Value :=
  match b, v with
  | .integer, v => (wholeNumber? v).map .int
  | .double, .decimal d => d.toDouble?.map .double
  | .double, .bool c => some (.double (Double.ofInt (if c then 1 else 0)))
  | .decimal, .int n => some (.decimal (.finite (n < 0) n.natAbs 0))
  | .decimal, .double x => (Decimal.ofText? x.text).map .decimal
  | .boolean, v =>
    match wholeNumber? v with
    | some 0 => some (.bool false)
    | some 1 => some (.bool true)
    | _ => none
  | _, _ => none

/-- The conversions between scalars. -/
def scalars : Conversion := fun t v =>
  match t, v with
  | .basic b, .str s => (ofText? b s).map (·, none)
  | .basic b, v => (ofNumber? b v).map (·, none)
  | _, _ => none

end Conversion

end TypedSearch
