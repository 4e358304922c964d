import TypedSearch.Number.Numeral

/-!
# Dates and points in time

Calendar dates and points in time of the Gregorian calendar, with or without an offset from
universal time, and their ISO texts.

* `Date.text`, `DateTime.text`: the ISO texts. A fraction of a second is written only when it is
  not zero.
* `Date.ofText?`, `DateTime.ofText?`: reading them.
* `DateTime.denotesSame`: two points in time with offsets are the same when their universal
  times are.
-/

namespace TypedSearch

open Text

/-! ## Types -/

/-- A day of the calendar. -/
structure Date where
  year : Nat
  month : Nat
  day : Nat
  deriving DecidableEq, Repr

/-- A time of day with microseconds. -/
structure Clock where
  hour : Nat
  minute : Nat
  second : Nat
  micro : Nat
  deriving DecidableEq, Repr

/-- A day and a time of day. The offset is in microseconds east of universal time. -/
structure DateTime where
  date : Date
  clock : Clock
  offset : Option Int
  deriving DecidableEq, Repr

/-! ## Writing -/

/-- The digits of `n`, filled with zeros on the left. -/
def padded (width n : Nat) : String :=
  let ds := Nat.repr n
  String.ofList (List.replicate (width - ds.length) '0') ++ ds

/-- The ISO text of a date. -/
def Date.text (d : Date) : String :=
  padded 4 d.year ++ "-" ++ padded 2 d.month ++ "-" ++ padded 2 d.day

/-- Hours and minutes, seconds always or when there are some, and then a fraction. -/
def clockText (c : Clock) (seconds : Bool) : String :=
  padded 2 c.hour ++ ":" ++ padded 2 c.minute ++
    (if seconds || c.second != 0 || c.micro != 0 then ":" ++ padded 2 c.second else "") ++
    (if c.micro != 0 then "." ++ padded 6 c.micro else "")

/-- A length of time below one day, as a time of day. -/
def clockOfMicros (n : Nat) : Clock :=
  { hour := n / 3600000000, minute := n / 60000000 % 60, second := n / 1000000 % 60,
    micro := n % 1000000 }

/-- The text of an offset. -/
def offsetText (micros : Int) : String :=
  (if micros < 0 then "-" else "+") ++ clockText (clockOfMicros micros.natAbs) false

/-- The ISO text of a point in time with `sep` between day and time. -/
def DateTime.textWith (sep : String) (t : DateTime) : String :=
  t.date.text ++ sep ++ clockText t.clock true ++ (t.offset.map offsetText).getD ""

/-- The ISO text of a point in time. -/
def DateTime.text (t : DateTime) : String := t.textWith "T"

/-! ## Reading -/

/-- A year with a leap day. -/
def isLeapYear (y : Nat) : Bool := y % 4 == 0 && (y % 100 != 0 || y % 400 == 0)

/-- The number of days of a month. -/
def daysInMonth (y m : Nat) : Nat :=
  if m = 2 then if isLeapYear y then 29 else 28
  else if m = 4 ∨ m = 6 ∨ m = 9 ∨ m = 11 then 30
  else 31

/-- The date exists. -/
def Date.isValid (d : Date) : Bool :=
  1 ≤ d.year && 1 ≤ d.month && d.month ≤ 12 && 1 ≤ d.day && d.day ≤ daysInMonth d.year d.month

/-- Takes exactly `n` ASCII digits. -/
def takeDigits? (n : Nat) (cs : List Char) : Option (Nat × List Char) :=
  let ds := cs.take n
  if ds.length = n && ds.all Char.isDigit then some (ds.foldl Numeral.push 0, cs.drop n) else none

/-- Takes the character `c`. -/
def takeChar? (c : Char) : List Char → Option (List Char)
  | d :: cs => if d = c then some cs else none
  | [] => none

/-- Takes a date. -/
def takeDate? (cs : List Char) : Option (Date × List Char) := do
  let (year, cs) ← takeDigits? 4 cs
  let cs ← takeChar? '-' cs
  let (month, cs) ← takeDigits? 2 cs
  let cs ← takeChar? '-' cs
  let (day, cs) ← takeDigits? 2 cs
  let d : Date := { year, month, day }
  if d.isValid then some (d, cs) else none

/-- Takes a fraction of a second with up to six digits. -/
def takeFraction : List Char → Nat × List Char
  | '.' :: cs =>
    let ds := cs.takeWhile Char.isDigit
    let six := (ds ++ List.replicate 6 '0').take 6
    if ds.isEmpty then (0, '.' :: cs) else (six.foldl Numeral.push 0, cs.drop ds.length)
  | cs => (0, cs)

/-- Takes a time of day; the seconds may be missing. -/
def takeClock? (cs : List Char) : Option (Clock × List Char) := do
  let (hour, cs) ← takeDigits? 2 cs
  let cs ← takeChar? ':' cs
  let (minute, cs) ← takeDigits? 2 cs
  let (second, micro, cs) ←
    match cs with
    | ':' :: rest => do
      let (second, rest) ← takeDigits? 2 rest
      let (micro, rest) := takeFraction rest
      some (second, micro, rest)
    | _ => some (0, 0, cs)
  if hour < 24 && minute < 60 && second < 60 then some ({ hour, minute, second, micro }, cs)
  else none

/-- A time of day as a length of time. -/
def Clock.micros (c : Clock) : Nat :=
  ((c.hour * 60 + c.minute) * 60 + c.second) * 1000000 + c.micro

/-- The offset that the rest of a text spells. -/
def readOffset? : List Char → Option (Option Int)
  | [] => some none
  | ['Z'] => some (some 0)
  | sign :: cs =>
    if sign = '+' ∨ sign = '-' then
      match takeClock? cs with
      | some (c, []) => some (some (if sign = '-' then -(c.micros : Int) else c.micros))
      | _ => none
    else none

/-- The date that an ISO text denotes. -/
def Date.ofText? (s : String) : Option Date :=
  match takeDate? s.toList with
  | some (d, []) => some d
  | _ => none

/-- The point in time that an ISO text denotes. A blank may stand for the `T`. -/
def DateTime.ofText? (s : String) : Option DateTime := do
  let (date, cs) ← takeDate? s.toList
  match cs with
  | sep :: cs =>
    if sep = 'T' ∨ sep = ' ' then
      let (clock, cs) ← takeClock? cs
      let offset ← readOffset? cs
      some { date, clock, offset }
    else none
  | [] => none

/-! ## Midnight and instants -/

/-- The time of day at which a day starts. -/
def Clock.midnight : Clock := ⟨0, 0, 0, 0⟩

/-- The start of a day. -/
def Date.atMidnight (d : Date) : DateTime := { date := d, clock := .midnight, offset := none }

/-- The number of days before a date, counted from the start of the year 1. -/
def Date.dayNumber (d : Date) : Nat :=
  let y := d.year - 1
  y * 365 + y / 4 - y / 100 + y / 400 +
    (List.range (d.month - 1)).foldl (fun days m => days + daysInMonth d.year (m + 1)) 0 + d.day

/-- The microseconds from the start of the calendar, less the offset. -/
def DateTime.instant (t : DateTime) : Int :=
  (t.date.dayNumber * 86400000000 + t.clock.micros : Nat) - t.offset.getD 0

/-- Two points in time are the same: both or none have an offset, and the instants agree. -/
def DateTime.denotesSame (s t : DateTime) : Bool :=
  s.offset.isSome == t.offset.isSome && s.instant == t.instant

end TypedSearch
