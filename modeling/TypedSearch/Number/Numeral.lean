import TypedSearch.Text.Digit
import TypedSearch.Text.Blank

/-!
# Numerals

Decimal numerals as texts: whole numbers, and scientific numerals with a point and an exponent.

* `Numeral.readUnsigned?`: digits and power of ten of a scientific numeral.
* `readInteger?`: a whole number with an optional sign, single underscores between its digits
  and blanks around it.
* `readIntegerBytes?`: the same from bytes.
* `hasNumeral`: a whole number has few enough digits to be written.
-/

namespace TypedSearch

open Text

/-- The number `± coefficient · 10 ^ exponent`, as it is written. -/
structure Numeral where
  negative : Bool
  coefficient : Nat
  exponent : Int

namespace Numeral

/-- A value with one more digit behind it. -/
def push (value : Nat) (c : Char) : Nat := value * 10 + (digitValue? c).getD 0

/-- The longest row of decimal digits at the front, and the rest. -/
def digitsOf (cs : List Char) : List Char × List Char :=
  (cs.takeWhile fun c => (digitValue? c).isSome, cs.dropWhile fun c => (digitValue? c).isSome)

/-- The sign at the front, if there is one, and the rest. -/
def signOf : List Char → Bool × List Char
  | '-' :: cs => (true, cs)
  | '+' :: cs => (false, cs)
  | cs => (false, cs)

/-- The exponent behind the digits: nothing, or a mark, a sign and digits. -/
def exponentOf : List Char → Option Int
  | [] => some 0
  | c :: cs =>
    if c = 'e' ∨ c = 'E' then
      let (negative, cs) := signOf cs
      match digitsOf cs with
      | ([], _) => none
      | (ds, []) =>
        let n := ds.foldl push 0
        some (if negative then -(n : Int) else n)
      | _ => none
    else none

/-- The digits behind the point, if there is one, and the rest. -/
def fractionOf : List Char → List Char × List Char
  | '.' :: cs => digitsOf cs
  | cs => ([], cs)

/-- The numeral that a text without its sign spells. -/
def readUnsigned? (negative : Bool) (cs : List Char) : Option Numeral :=
  let (whole, rest) := digitsOf cs
  let (fraction, rest) := fractionOf rest
  if whole.isEmpty && fraction.isEmpty then none
  else
    (exponentOf rest).map fun e =>
      { negative, coefficient := (whole ++ fraction).foldl push 0,
        exponent := e - fraction.length }

end Numeral

/-! ## Whole numbers -/

/-- A blank that may stand around a whole number: a space or a line control of ASCII, or any
blank outside ASCII. -/
def isNumeralBlank (c : Char) : Bool :=
  if c.toNat < 128 then c = ' ' || (0x9 ≤ c.toNat && c.toNat ≤ 0xd) else isBlank c

/-- The greatest number of digits that a whole number is read or written with. -/
def digitLimit : Nat := 4300

/-- The number has at most so many digits, leading zeros aside. -/
def fitsDigits : Nat → Nat → Bool
  | 0, n => n == 0
  | k + 1, n => n == 0 || fitsDigits k (n / 10)

/-- The whole number has few enough digits to be written. -/
def hasNumeral (n : Int) : Bool := fitsDigits digitLimit n.natAbs

/-- The value of digits with single underscores between two of them. -/
def readDigits? (value : Nat) : List Char → Option Nat
  | [] => some value
  | '_' :: c :: cs => (digitValue? c).bind fun d => readDigits? (value * 10 + d) cs
  | c :: cs => (digitValue? c).bind fun d => readDigits? (value * 10 + d) cs

/-- The whole number that a text spells. -/
def readInteger? (s : String) : Option Int :=
  let (negative, cs) := Numeral.signOf (trimWhere isNumeralBlank s.toList)
  if digitLimit < (cs.filter (· != '_')).length then none
  else
    match cs with
    | [] => none
    | c :: cs =>
      (digitValue? c).bind fun d =>
        (readDigits? d cs).map fun n => if negative then -(n : Int) else n

/-- The whole number that bytes spell in ASCII. -/
def readIntegerBytes? (bs : List UInt8) : Option Int :=
  if bs.all (· < 128) then readInteger? (String.ofList (bs.map fun b => Char.ofNat b.toNat))
  else none

/-- The value of a hexadecimal numeral; characters that are no digits do not count. -/
def readHex (s : String) : Nat :=
  s.toList.foldl (fun n c =>
    if c.isDigit then n * 16 + (c.toNat - 48)
    else if 'a' ≤ c ∧ c ≤ 'f' then n * 16 + (c.toNat - 87)
    else n) 0

end TypedSearch
