import TypedSearch.Number.Double

/-!
# Shortest decimal texts of doubles

A double is written with the fewest digits that read back as the same double, and of the
numbers with so many digits by the nearest. The search tries one digit, two digits and so on;
on each decimal grid only the two neighbours of the double can read back.

* `Double.shortest`: the digits and the power of ten.
* `FloatLayout`: where the point stands and when an exponent is written.
* `Double.text`: the text of a double.
-/

namespace TypedSearch

namespace Double

/-! ## The interval that rounds to a double -/

/-- Compares `a · 10 ^ k` with `b · 2 ^ q`. -/
def compareScaled (a : Nat) (k : Int) (b : Nat) (q : Int) : Ordering :=
  compare (a * Nat.pow 10 k.toNat * Nat.pow 2 (-q).toNat)
    (b * Nat.pow 2 q.toNat * Nat.pow 10 (-k).toNat)

/-- The number `c · 10 ^ k` rounds to the double `m · 2 ^ e`. The ends of the interval belong to
it when the mantissa is even; below a power of two the doubles lie twice as close. -/
def roundsTo (m : Nat) (e : Int) (c : Nat) (k : Int) : Bool :=
  let below := if m = hidden ∧ leastExponent < e then 1 else 2
  let low := compareScaled c k (4 * m - below) (e - 2)
  let high := compareScaled c k (4 * m + 2) (e - 2)
  if m % 2 = 0 then low != .lt && high != .gt else low == .gt && high == .lt

/-! ## The search -/

/-- The whole part of `m · 2 ^ e / 10 ^ k` and how twice the rest compares with one. -/
def gridFloor (m : Nat) (e k : Int) : Nat × Ordering :=
  let num := m * Nat.pow 2 e.toNat * Nat.pow 10 (-k).toNat
  let den := Nat.pow 10 k.toNat * Nat.pow 2 (-e).toNat
  (num / den, compare (2 * (num % den)) den)

/-- The best number `c · 10 ^ k` on the grid of `10 ^ k` that reads back as `m · 2 ^ e`. -/
def onGrid? (m : Nat) (e k : Int) : Option Nat :=
  let (c, rest) := gridFloor m e k
  match roundsTo m e c k, roundsTo m e (c + 1) k with
  | true, true =>
    some (if rest == .lt ∨ (rest == .eq ∧ c % 2 = 0) then c else c + 1)
  | true, false => some c
  | false, true => some (c + 1)
  | false, false => none

/-- The power of ten of the first digit of `m · 2 ^ e`, by an estimate that is corrected
upwards at most `fuel` times. -/
def leadingPower (m : Nat) (e p : Int) : Nat → Int
  | 0 => p
  | fuel + 1 =>
    if compareScaled 1 (p + 1) m e == .gt then p else leadingPower m e (p + 1) fuel

/-- Tries `n` digits, then `n + 1` digits and so on. Seventeen digits always suffice. -/
def search (m : Nat) (e p : Int) (n : Nat) : Nat → Nat × Int
  | 0 => (m, e)
  | fuel + 1 =>
    let k := p + 1 - n
    match onGrid? m e k with
    | some c => if c = Nat.pow 10 n then (1, k + n) else (c, k)
    | none => search m e p (n + 1) fuel

/-- The shortest digits `c` and the power `k` with `c · 10 ^ k` reading back as `m · 2 ^ e`. -/
def shortest (m : Nat) (e : Int) : Nat × Int :=
  let estimate := ((m.log2 : Int) + e) * 30103 / 100000 - 1
  search m e (leadingPower m e estimate 4) 1 17

/-! ## Layout -/

/-- The first digit's power of ten decides: from `least` up to, but not including, `most` the
point is written in its place, and otherwise an exponent of at least `width` digits follows. -/
structure FloatLayout where
  least : Int
  most : Int
  width : Nat
  nan : String
  infinity : String

/-- The layout of values in messages. -/
def plainLayout : FloatLayout := ⟨-4, 16, 2, "nan", "inf"⟩

/-- The layout of numbers in documents. -/
def documentLayout : FloatLayout := { plainLayout with nan := "NaN", infinity := "Infinity" }

/-- `n` zeros. -/
def zeros (n : Nat) : List Char := List.replicate n '0'

/-- The exponent with its sign and at least `width` digits. -/
def exponentText (width : Nat) (p : Int) : List Char :=
  let ds := (Nat.repr p.natAbs).toList
  'e' :: (if p < 0 then '-' else '+') :: zeros (width - ds.length) ++ ds

/-- The digits `ds`, the first of them at the power `p`, with the point in its place. -/
def positional (ds : List Char) (p : Int) : List Char :=
  if p < 0 then '0' :: '.' :: zeros (-p - 1).toNat ++ ds
  else
    let whole := p.toNat + 1
    if ds.length ≤ whole then ds ++ zeros (whole - ds.length) ++ ['.', '0']
    else ds.take whole ++ '.' :: ds.drop whole

/-- The digits `ds` with one of them before the point, and the exponent `p`. -/
def scientific (width : Nat) (ds : List Char) (p : Int) : List Char :=
  match ds with
  | [] => []
  | [d] => d :: exponentText width p
  | d :: rest => d :: '.' :: rest ++ exponentText width p

/-- The text of `c · 10 ^ k`. -/
def layOut (layout : FloatLayout) (c : Nat) (k : Int) : List Char :=
  let ds := (Nat.repr c).toList
  let p := k + ds.length - 1
  if layout.least ≤ p ∧ p < layout.most then positional ds p
  else scientific layout.width ds p

/-- The text of a double in a layout. -/
def textIn (layout : FloatLayout) (x : Double) : String :=
  let signed (negative : Bool) (cs : List Char) := String.ofList (if negative then '-' :: cs else cs)
  match x.parts with
  | .nan => layout.nan
  | .infinite negative => signed negative layout.infinity.toList
  | .finite negative m e =>
    if m = 0 then signed negative ['0', '.', '0']
    else
      let (c, k) := shortest m e
      signed negative (layOut layout c k)

/-- The text of a double in messages. -/
def text (x : Double) : String := x.textIn plainLayout

end Double

end TypedSearch
