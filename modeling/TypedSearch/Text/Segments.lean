/-!
# Segments

A text read as segments with one character between them, and segments joined again.

* `split`: the segments of a text. A text without the separator is one segment.
* `join`: segments with a text between them.
* `without`: a text from which a word is taken out wherever it stands.
* `joinWith_pieces`: joining the segments of a text by their separator gives the text back.
-/

namespace TypedSearch.Text

/-! ## Character lists -/

/-- The pieces of `cs` between the occurrences of `sep`. -/
def pieces (sep : Char) : List Char → List (List Char)
  | [] => [[]]
  | c :: cs =>
    if c = sep then [] :: pieces sep cs
    else
      match pieces sep cs with
      | [] => [[c]]
      | p :: ps => (c :: p) :: ps

/-- The pieces in a row with `glue` between two neighbours. -/
def joinWith (glue : List Char) : List (List Char) → List Char
  | [] => []
  | [p] => p
  | p :: q :: ps => p ++ glue ++ joinWith glue (q :: ps)

theorem pieces_ne_nil (sep : Char) (cs : List Char) : pieces sep cs ≠ [] := by
  cases cs with
  | nil => simp [pieces]
  | cons c cs =>
    by_cases h : c = sep
    · simp [pieces, h]
    · cases hp : pieces sep cs <;> simp [pieces, h, hp]

/-- Joining undoes cutting. -/
theorem joinWith_pieces (sep : Char) (cs : List Char) :
    joinWith [sep] (pieces sep cs) = cs := by
  induction cs with
  | nil => rfl
  | cons c cs ih =>
    cases hp : pieces sep cs with
    | nil => exact absurd hp (pieces_ne_nil sep cs)
    | cons p ps =>
      rw [hp] at ih
      by_cases h : c = sep
      · simp [pieces, h, hp, joinWith, ih]
      · cases ps with
        | nil => simp_all [pieces, joinWith]
        | cons q qs => simp_all [pieces, joinWith]

/-- Takes the word `w` out of `cs` from left to right; `skip` characters of an occurrence are
still to be passed over. -/
def removing (w : List Char) : Nat → List Char → List Char
  | _, [] => []
  | skip + 1, _ :: cs => removing w skip cs
  | 0, c :: cs =>
    if w.isPrefixOf (c :: cs) then removing w (w.length - 1) cs else c :: removing w 0 cs

/-! ## Texts -/

/-- The segments of `s` between the occurrences of `sep`. -/
def split (sep : Char) (s : String) : List String :=
  (pieces sep s.toList).map String.ofList

/-- The texts in a row with `glue` between two neighbours. -/
def join (glue : String) (parts : List String) : String :=
  String.ofList (joinWith glue.toList (parts.map String.toList))

/-- The text starts with `start`. -/
def startsWith (start s : String) : Bool := start.toList.isPrefixOf s.toList

/-- The text `s` without the occurrences of a word. -/
def without (word s : String) : String := String.ofList (removing word.toList 0 s.toList)

end TypedSearch.Text
