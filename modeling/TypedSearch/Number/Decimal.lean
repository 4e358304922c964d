import TypedSearch.Number.Double

/-!
# Decimals

Decimal floating point numbers that keep their trailing zeros: `1.50` and `1.5` are equal in
value and differ in text. There are infinities and two kinds of values that are no number; the
signaling kind has no double.

* `Decimal.ofText?`, `Decimal.text`: reading and writing.
* `Decimal.toDouble?`: the nearest double.
-/

namespace TypedSearch

/-- A decimal floating point number. -/
inductive Decimal where
  | finite (negative : Bool) (coefficient : Nat) (exponent : Int)
  | infinite (negative : Bool)
  | nan (negative signaling : Bool) (payload : Option Nat)
  deriving DecidableEq, Repr

namespace Decimal

/-! ## Reading -/

/-- Removes the lower-case word `w` from the front, whatever the case of the text. -/
def afterWord? : List Char → List Char → Option (List Char)
  | [], cs => some cs
  | _ :: _, [] => none
  | w :: ws, c :: cs => if c.toLower = w then afterWord? ws cs else none

/-- The digits behind the name of a value that is no number. -/
def payload? (cs : List Char) : Option (Option Nat) :=
  match Numeral.digitsOf cs with
  | ([], []) => some none
  | (ds, []) => some (some (ds.foldl Numeral.push 0))
  | _ => none

/-- The decimal that a text denotes. -/
def ofText? (s : String) : Option Decimal :=
  let (negative, cs) := Numeral.signOf s.toList
  let word := String.ofList (cs.map Char.toLower)
  if word = "inf" ∨ word = "infinity" then some (.infinite negative)
  else
    match afterWord? "snan".toList cs, afterWord? "nan".toList cs with
    | some rest, _ => (payload? rest).map (.nan negative true)
    | none, some rest => (payload? rest).map (.nan negative false)
    | none, none =>
      (Numeral.readUnsigned? negative cs).map fun n => .finite negative n.coefficient n.exponent

/-! ## Writing -/

/-- The digits of a finite decimal with the point, and with an exponent when the number has
places behind its digits or starts more than six places behind the point. -/
def digitsText (coefficient : Nat) (exponent : Int) : List Char :=
  let ds := (Nat.repr coefficient).toList
  let left := exponent + ds.length
  let point := if exponent ≤ 0 ∧ -6 < left then left else 1
  let body :=
    if point ≤ 0 then '0' :: '.' :: List.replicate (-point).toNat '0' ++ ds
    else if (ds.length : Int) ≤ point then ds ++ List.replicate (point.toNat - ds.length) '0'
    else ds.take point.toNat ++ '.' :: ds.drop point.toNat
  if left = point then body
  else
    let p := left - point
    body ++ 'E' :: (if p < 0 then '-' else '+') :: (Nat.repr p.natAbs).toList

/-- The text of a decimal. -/
def text (d : Decimal) : String :=
  let signed (negative : Bool) (cs : List Char) := String.ofList (if negative then '-' :: cs else cs)
  match d with
  | .finite negative c e => signed negative (digitsText c e)
  | .infinite negative => signed negative "Infinity".toList
  | .nan negative signaling payload =>
    let name := (if signaling then "sNaN" else "NaN").toList
    signed negative (name ++ (payload.map fun n => (Nat.repr n).toList).getD [])

/-! ## Values -/

/-- The nearest double; a signaling value has none. -/
def toDouble? : Decimal → Option Double
  | .finite negative coefficient exponent =>
    some (Double.ofNumeral { negative, coefficient, exponent })
  | .infinite negative => some (Double.infinity negative)
  | .nan _ false _ => some Double.nan
  | .nan _ true _ => none

/-- The exact value of a finite decimal. -/
def toRat? : Decimal → Option Rat
  | .finite negative c e =>
    let n : Int := (c * Nat.pow 10 e.toNat : Nat)
    some (mkRat (if negative then -n else n) (Nat.pow 10 (-e).toNat))
  | _ => none

/-- The decimal is no number, of the kind that no operation takes. -/
def isSignaling : Decimal → Bool
  | .nan _ signaling _ => signaling
  | _ => false

/-- The decimal is zero, with either sign and any number of places. -/
def isZero : Decimal → Bool
  | .finite _ c _ => c == 0
  | _ => false

end Decimal

end TypedSearch
