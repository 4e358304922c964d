import TypedSearch.Calendar

/-!
# Time stamps

The texts by which data gives dates and points in time. A stamp is a date, alone or with a time of
day behind it and an offset behind that; digits of a fraction beyond the sixth do not count. A
whole number is a stamp too: it counts seconds from the start of 1970, or milliseconds where it is
too great for seconds.

* `DateTime.ofStamp?`: the point in time of a stamp.
* `Date.ofStamp?`: the date of a stamp at the start of a day.
-/

namespace TypedSearch

open Text

/-! ## Times of day -/

/-- Takes a fraction of a second behind a point or a comma, if there is one. -/
def takeStampFraction? : List Char → Option (Nat × List Char)
  | [] => some (0, [])
  | c :: cs =>
    if c = '.' ∨ c = ',' then
      let ds := cs.takeWhile Char.isDigit
      let six := (ds ++ List.replicate 6 '0').take 6
      if ds.isEmpty then none else some (six.foldl Numeral.push 0, cs.drop ds.length)
    else some (0, c :: cs)

/-- Takes seconds behind a colon, if there is one. -/
def takeStampSeconds? : List Char → Option (Nat × Nat × List Char)
  | ':' :: cs => do
    let (second, cs) ← takeDigits? 2 cs
    let (micro, cs) ← takeStampFraction? cs
    some (second, micro, cs)
  | cs => some (0, 0, cs)

/-- Takes a time of day; the seconds may be missing. -/
def takeStampClock? (cs : List Char) : Option (Clock × List Char) := do
  let (hour, cs) ← takeDigits? 2 cs
  let cs ← takeChar? ':' cs
  let (minute, cs) ← takeDigits? 2 cs
  let (second, micro, cs) ← takeStampSeconds? cs
  if hour < 24 && minute < 60 && second < 60 then some ({ hour, minute, second, micro }, cs)
  else none

/-! ## Offsets -/

/-- The sign of an offset; the minus sign of typography counts as well. -/
def offsetSign? (c : Char) : Option Int :=
  if c = '+' then some 1
  else if c = '-' ∨ c.toNat = 0x2212 then some (-1)
  else none

/-- The microseconds of hours and minutes, with or without a colon between them. -/
def readStampOffset? (cs : List Char) : Option Nat := do
  let (hour, cs) ← takeDigits? 2 cs
  let (minute, cs) ← takeDigits? 2 ((takeChar? ':' cs).getD cs)
  if hour < 24 && minute < 60 && cs.isEmpty then some ((hour * 60 + minute) * 60000000) else none

/-- The offset that the rest of a stamp spells. -/
def stampOffset? : List Char → Option (Option Int)
  | [] => some none
  | c :: cs =>
    if (c = 'Z' ∨ c = 'z') ∧ cs = [] then some (some 0)
    else do
      let sign ← offsetSign? c
      let micros ← readStampOffset? cs
      some (some (sign * micros))

/-! ## Counted stamps -/

/-- The date of a day, counted from the first of March of the year zero. A year starts in March
here, so that a leap day is the last day of one. -/
def Date.ofMarchDay (n : Nat) : Date :=
  let era := n / 146097
  let day := n % 146097
  let year := (day - day / 1460 + day / 36524 - day / 146096) / 365
  let rest := day - (365 * year + year / 4 - year / 100)
  let m := (5 * rest + 2) / 153
  { year := year + era * 400 + if m < 10 then 0 else 1
    month := if m < 10 then m + 3 else m - 9
    day := rest - (153 * m + 2) / 5 + 1 }

/-- The days from the first of March of the year zero to the start of 1970. -/
def daysTo1970 : Nat := 719468

/-- The greatest number that counts seconds. -/
def secondsLimit : Nat := 20000000000

/-- The point in time that is so many microseconds away from the start of 1970. -/
def DateTime.ofMicros? (micros : Int) : Option DateTime :=
  let day := Int.fdiv micros 86400000000
  if -11676096000 ≤ Int.fdiv micros 1000000 ∧ Int.fdiv micros 1000000 ≤ 253402300799 then
    some {
      date := Date.ofMarchDay (day + daysTo1970).toNat
      clock := clockOfMicros (Int.fmod micros 86400000000).toNat
      offset := some 0 }
  else none

/-- The point in time that a whole number counts. -/
def DateTime.ofCount? (n : Int) : Option DateTime :=
  DateTime.ofMicros? (if n.natAbs ≤ secondsLimit then n * 1000000 else n * 1000)

/-- The whole number that a text of ASCII digits spells. -/
def readCount? (cs : List Char) : Option Int :=
  let (negative, ds) := Numeral.signOf cs
  if !ds.isEmpty && ds.all Char.isDigit then
    let n := ds.foldl Numeral.push 0
    some (if negative then -(n : Int) else n)
  else none

/-! ## Stamps -/

/-- The point in time of a stamp that starts with a date. -/
def readDated? (cs : List Char) : Option DateTime := do
  let (date, cs) ← takeDate? cs
  match cs with
  | [] => some date.atMidnight
  | sep :: cs =>
    if sep = 'T' ∨ sep = 't' ∨ sep = ' ' ∨ sep = '_' then
      let (clock, cs) ← takeStampClock? cs
      let offset ← stampOffset? cs
      some { date, clock, offset }
    else none

/-- The point in time of a stamp. A date alone stands for the start of the day. -/
def DateTime.ofStamp? (s : String) : Option DateTime :=
  readDated? s.toList <|> (readCount? s.toList).bind DateTime.ofCount?

/-- The date of a stamp, which has to be at the start of a day. -/
def Date.ofStamp? (s : String) : Option Date :=
  (DateTime.ofStamp? s).bind fun t => if t.clock = .midnight then some t.date else none

end TypedSearch
