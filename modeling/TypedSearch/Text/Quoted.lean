import TypedSearch.Text.Printable

/-!
# Quoted texts

A text between quotes as messages show it. The quotes are single ones unless the text holds
single but no double quotes. Backslashes and the quote are escaped, line ends and tabs have
short escapes, and what is not printable is written by its code.

* `quoted`: a text between quotes.
* `quotedBytes`: a row of bytes between quotes.
-/

namespace TypedSearch.Text

/-! ## Hexadecimal digits -/

/-- The last `width` hexadecimal digits of `n`, in lower case. -/
def hexDigits : Nat → Nat → List Char
  | 0, _ => []
  | width + 1, n => hexDigits width (n / 16) ++ [Nat.digitChar (n % 16)]

/-! ## Quotes and escapes -/

/-- The usual quote around a text. -/
def singleQuote : Char := Char.ofNat 0x27

/-- The quote around a text that holds single quotes. -/
def doubleQuote : Char := Char.ofNat 0x22

/-- The character that starts an escape. -/
def backslash : Char := Char.ofNat 0x5c

/-- Single quotes unless the text has single but no double quotes inside. -/
def quoteFor (cs : List Char) : Char :=
  if cs.contains singleQuote && !cs.contains doubleQuote then doubleQuote else singleQuote

/-- The escape of a character that needs one whatever the quote. -/
def shortEscape? (c : Char) : Option (List Char) :=
  if c = backslash then some [backslash, backslash]
  else if c = '\n' then some [backslash, 'n']
  else if c = '\r' then some [backslash, 'r']
  else if c = '\t' then some [backslash, 't']
  else none

/-- The escape of a character by its code: two, four or eight digits. -/
def codeEscape (n : Nat) : List Char :=
  if n < 0x100 then backslash :: 'x' :: hexDigits 2 n
  else if n < 0x10000 then backslash :: 'u' :: hexDigits 4 n
  else backslash :: 'U' :: hexDigits 8 n

/-- One character inside quotes. -/
def quotedChar (quote c : Char) : List Char :=
  if c = quote then [backslash, c]
  else
    match shortEscape? c with
    | some cs => cs
    | none => if isPrintable c then [c] else codeEscape c.toNat

/-- The text between quotes. -/
def quoted (s : String) : String :=
  let quote := quoteFor s.toList
  String.ofList (quote :: s.toList.flatMap (quotedChar quote) ++ [quote])

/-! ## Bytes -/

/-- One byte inside quotes: an ASCII character for itself, any other by its code. -/
def quotedByte (quote : Char) (b : UInt8) : List Char :=
  let c := Char.ofNat b.toNat
  if c = quote then [backslash, c]
  else
    match shortEscape? c with
    | some cs => cs
    | none => if 0x20 ≤ b.toNat && b.toNat < 0x7f then [c] else codeEscape b.toNat

/-- The bytes between quotes, with the mark of a row of bytes in front. -/
def quotedBytes (bs : List UInt8) : String :=
  let quote := quoteFor (bs.map fun b => Char.ofNat b.toNat)
  String.ofList ('b' :: quote :: bs.flatMap (quotedByte quote) ++ [quote])

end TypedSearch.Text
