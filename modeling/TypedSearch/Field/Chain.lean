import TypedSearch.Text.Segments

/-!
# Member chains

A field is denoted by a chain of names with dots between them. A name starts with a letter or an
underscore, and digits may follow. The letters are those of ASCII. One line end after the last
name is let through.

* `isChain`: the text is a member chain.
-/

namespace TypedSearch

open Text

/-- A character that a name starts with. -/
def isNameStart (c : Char) : Bool := c.isAlpha || c = '_'

/-- A character inside a name. -/
def isNamePart (c : Char) : Bool := isNameStart c || c.isDigit

/-- The characters form a name. -/
def isName : List Char → Bool
  | [] => false
  | c :: cs => isNameStart c && cs.all isNamePart

/-- The characters without a line end at their end. -/
def dropLineEnd : List Char → List Char
  | [] => []
  | [c] => if c = '\n' then [] else [c]
  | c :: cs => c :: dropLineEnd cs

/-- The text is a member chain. -/
def isChain (s : String) : Bool := (pieces '.' (dropLineEnd s.toList)).all isName

end TypedSearch
