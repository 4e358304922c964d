import TypedSearch.Text.CaseTable

/-!
# Upper and lower case

Case maps of characters and texts by the Unicode tables. A counterpart may have several
characters: the upper case of a sharp s is two letters.

* `upperChar`, `lowerChar`: the counterpart of one character.
* `upper`: a whole text in upper case.
-/

namespace TypedSearch.Text

/-- The counterpart of `c` under a table of runs and a table of longer texts. -/
def mapCase (runs : List CaseRun) (texts : List (Nat × List Nat)) (c : Char) : List Char :=
  match texts.lookup c.toNat with
  | some codes => codes.map Char.ofNat
  | none =>
    match runs.find? (·.covers c.toNat) with
    | some run => [Char.ofNat (c.toNat + run.shift).toNat]
    | none => [c]

/-- The upper case of one character. -/
def upperChar (c : Char) : List Char := mapCase upperRuns upperTexts c

/-- The lower case of one character that stands alone. -/
def lowerChar (c : Char) : List Char := mapCase lowerRuns lowerTexts c

/-- The text with every character in upper case. -/
def upper (s : String) : String := String.ofList (s.toList.flatMap upperChar)

end TypedSearch.Text
