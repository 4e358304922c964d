import TypedSearch.Number.Numeral

/-!
# Doubles

Binary floating point numbers of 64 bits, kept by their bits: a sign, eleven bits of exponent
and 52 bits of fraction. All arithmetic here is exact and on natural numbers.

* `Double.parts`: what the bits denote.
* `Double.ofRatio`: the double nearest to a fraction, a tie going to the even one.
* `Double.ofText?`: the double that a numeral or one of the names `nan` and `inf` denotes.
* `Double.toRat?`: the exact value of a finite double.
-/

namespace TypedSearch

/-- A binary floating point number of 64 bits. -/
structure Double where
  bits : UInt64
  deriving DecidableEq, Repr

namespace Double

/-! ## Reading the bits -/

/-- What the bits denote: no number, an infinity, or `± mantissa · 2 ^ exponent`. -/
inductive Parts where
  | nan
  | infinite (negative : Bool)
  | finite (negative : Bool) (mantissa : Nat) (exponent : Int)
  deriving DecidableEq, Repr

/-- The least exponent of a finite double. -/
def leastExponent : Int := -1074

/-- The weight of the first bit above the fraction. -/
def hidden : Nat := Nat.pow 2 52

/-- The bits of an infinity without its sign. -/
def infinityBits : Nat := 0x7ff * hidden

/-- The weight of the bit of the sign. -/
def signWeight : Nat := Nat.pow 2 63

/-- What the double denotes. -/
def parts (x : Double) : Parts :=
  let n := x.bits.toNat
  let negative := signWeight ≤ n
  let field := n / hidden % 2048
  let fraction := n % hidden
  if field = 2047 then
    if fraction = 0 then .infinite negative else .nan
  else if field = 0 then .finite negative fraction leastExponent
  else .finite negative (hidden + fraction) (field - 1075)

/-! ## Rounding -/

/-- The whole number nearest to `num / den`; a half goes to the even neighbour. -/
def roundDiv (num den : Nat) : Nat :=
  let q := num / den
  let r := num % den
  if 2 * r < den ∨ (2 * r = den ∧ q % 2 = 0) then q else q + 1

/-- The fraction `num / den` divided by `2 ^ e`, as numerator and denominator. -/
def scaled (num den : Nat) (e : Int) : Nat × Nat :=
  (num * Nat.pow 2 (-e).toNat, den * Nat.pow 2 e.toNat)

/-- The exponent at which `num / den` has 53 bits before the point, or the least one. -/
def exponentFor (num den : Nat) : Int :=
  let e : Int := (num.log2 : Int) - den.log2 - 52
  let (n, d) := scaled num den e
  max leastExponent (if n / d < hidden then e - 1 else e)

/-- The double nearest to `± num / den`. -/
def ofRatio (negative : Bool) (num den : Nat) : Double :=
  let magnitude :=
    if num = 0 then 0
    else
      let e := exponentFor num den
      let (n, d) := scaled num den e
      min infinityBits ((e - leastExponent).toNat * hidden + roundDiv n d)
  ⟨UInt64.ofNat (magnitude + if negative then signWeight else 0)⟩

/-- No number. -/
def nan : Double := ⟨0x7ff8000000000000⟩

/-- An infinity. -/
def infinity (negative : Bool) : Double :=
  ⟨UInt64.ofNat (infinityBits + if negative then signWeight else 0)⟩

/-- Zero, which has a sign. -/
def zero (negative : Bool) : Double := ofRatio negative 0 1

/-- The double nearest to a whole number. -/
def ofInt (n : Int) : Double := ofRatio (n < 0) n.natAbs 1

/-- The double nearest to a numeral. What lies far outside the range needs no computation. -/
def ofNumeral (x : Numeral) : Double :=
  if x.coefficient = 0 then zero x.negative
  else
    let places : Int := (Nat.repr x.coefficient).length + x.exponent
    if 400 < places then infinity x.negative
    else if places < -400 then zero x.negative
    else
      ofRatio x.negative (x.coefficient * Nat.pow 10 x.exponent.toNat)
        (Nat.pow 10 (-x.exponent).toNat)

/-- The double that a text denotes. -/
def ofText? (s : String) : Option Double :=
  let (negative, cs) := Numeral.signOf s.toList
  let word := String.ofList (cs.map Char.toLower)
  if word = "nan" then some nan
  else if word = "inf" ∨ word = "infinity" then some (infinity negative)
  else (Numeral.readUnsigned? negative cs).map ofNumeral

/-! ## Exact values -/

/-- The exact value of a finite double. -/
def toRat? (x : Double) : Option Rat :=
  match x.parts with
  | .finite negative m e =>
    let (n, d) := (m * Nat.pow 2 e.toNat, Nat.pow 2 (-e).toNat)
    some (mkRat (if negative then -(n : Int) else n) d)
  | _ => none

/-- The double is zero, with either sign. -/
def isZero (x : Double) : Bool :=
  match x.parts with
  | .finite _ m _ => m == 0
  | _ => false

/-- The double is an infinity. -/
def isInfinite (x : Double) : Bool :=
  match x.parts with
  | .infinite _ => true
  | _ => false

/-- The double is below zero. -/
def isNegative (x : Double) : Bool :=
  match x.parts with
  | .finite negative m _ => negative && m != 0
  | .infinite negative => negative
  | .nan => false

end Double

end TypedSearch
