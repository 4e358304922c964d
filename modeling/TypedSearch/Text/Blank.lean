/-!
# Blank characters

The white space of Unicode, to which the four information separators `0x1c` to `0x1f` belong
as well.

* `isBlank`: the class.
* `trim`: a text without the blanks around it.
-/

namespace TypedSearch.Text

/-- The ranges of blank characters. -/
def blankRanges : List (Nat × Nat) :=
  [(0x9, 0xd), (0x1c, 0x20), (0x85, 0x85), (0xa0, 0xa0), (0x1680, 0x1680), (0x2000, 0x200a),
    (0x2028, 0x2029), (0x202f, 0x202f), (0x205f, 0x205f), (0x3000, 0x3000)]

/-- White space. -/
def isBlank (c : Char) : Bool := blankRanges.any fun r => r.1 ≤ c.toNat && c.toNat ≤ r.2

/-- The characters between the first and the last that is not in the class `blank`. -/
def trimWhere (blank : Char → Bool) (cs : List Char) : List Char :=
  ((cs.dropWhile blank).reverse.dropWhile blank).reverse

/-- The text without the blanks at its two ends. -/
def trim (s : String) : String := String.ofList (trimWhere isBlank s.toList)

/-- A text of blanks only, also the empty one. -/
def isAllBlank (s : String) : Bool := s.toList.all isBlank

end TypedSearch.Text
