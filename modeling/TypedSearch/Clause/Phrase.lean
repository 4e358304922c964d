import TypedSearch.Text.Quoted

/-!
# Phrases

A phrase in a query text stands between double quotes. A backslash makes the character behind it
literal; inside a phrase, backslashes and double quotes are written with one in front.

* `phrase`: a text as a phrase.
* `readPhrase?`: the content of the phrase at the front of a text, and what follows the phrase.
-/

namespace TypedSearch

open Text

/-- One character inside a phrase. -/
def escapedChar (c : Char) : List Char :=
  if c = backslash ∨ c = doubleQuote then [backslash, c] else [c]

/-- A text as a phrase. -/
def phrase (s : String) : String :=
  String.ofList (doubleQuote :: s.toList.flatMap escapedChar ++ [doubleQuote])

/-- The content up to the closing quote, and what follows it. -/
def readPhraseBody? : List Char → Option (List Char × List Char)
  | [] => none
  | c :: cs =>
    if c = doubleQuote then some ([], cs)
    else if c = backslash then
      match cs with
      | [] => none
      | d :: ds => (readPhraseBody? ds).map fun r => (d :: r.1, r.2)
    else (readPhraseBody? cs).map fun r => (c :: r.1, r.2)

/-- The content of the phrase at the front, and what follows it. -/
def readPhrase? : List Char → Option (List Char × List Char)
  | [] => none
  | c :: cs => if c = doubleQuote then readPhraseBody? cs else none

end TypedSearch
