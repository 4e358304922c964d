import TypedSearch.Fault
import TypedSearch.Text.Case

/-!
# Names of stored fields

A naming maps the attribute names of entities to the names of stored fields. It may fail on a
name.

* `Naming`: the type.
* `camelCase`: the usual naming; `first_name` becomes `firstName`.
-/

namespace TypedSearch

open Text

/-- A map from attribute names to names of stored fields. -/
abbrev Naming := String → Except Fault String

/-- A naming that never fails. -/
def Naming.ofFunction (f : String → String) : Naming := fun name => .ok (f name)

/-- The characters with the first one under a case map. -/
def mapHead (f : Char → List Char) : List Char → List Char
  | [] => []
  | c :: cs => f c ++ cs

/-- The segments of a name in one word: the first starts in lower case, each other in upper
case. -/
def camelChars : List (List Char) → List Char
  | [] => []
  | head :: rest => mapHead lowerChar head ++ rest.flatMap (mapHead upperChar)

/-- A name of segments between underscores as one word. -/
def camelCase (name : String) : String := String.ofList (camelChars (pieces '_' name.toList))

end TypedSearch
