import TypedSearch.Number.Numeral
import TypedSearch.Value.Basic
import TypedSearch.Text.Quoted
import TypedSearch.Text.Segments

/-!
# Values in messages

Two texts of a value. The display shows what kind of value it is: texts stand in quotes, exact
numbers and calendar values name their type. The plain text is what a sentence shows, and
differs from the display for scalars only. Where one of them has to write a whole number with too
many digits, there is no text, and showing the value fails.

* `Value.display`, `Value.hasDisplay`: the display, and whether there is one.
* `Value.plainText`, `Value.hasPlainText`: the plain text, and whether there is one.
-/

namespace TypedSearch

open Text

/-- The display of a length of time in microseconds. -/
def durationDisplay (micros : Int) : String :=
  let days := Int.fdiv micros 86400000000
  let rest := Int.fmod micros 86400000000
  let parts :=
    (if days = 0 then [] else ["days=" ++ toString days]) ++
      (if rest / 1000000 = 0 then [] else ["seconds=" ++ toString (rest / 1000000)]) ++
      (if rest % 1000000 = 0 then [] else ["microseconds=" ++ toString (rest % 1000000)])
  "datetime.timedelta(" ++ (if parts.isEmpty then "0" else join ", " parts) ++ ")"

/-- The display of an offset. -/
def offsetDisplay (micros : Int) : String :=
  if micros = 0 then "datetime.timezone.utc"
  else "datetime.timezone(" ++ durationDisplay micros ++ ")"

/-- The display of a point in time; seconds and microseconds that are zero at the end are left
out. -/
def DateTime.display (t : DateTime) : String :=
  let fraction :=
    if t.clock.micro != 0 then [t.clock.second, t.clock.micro]
    else if t.clock.second != 0 then [t.clock.second]
    else []
  let numbers :=
    [t.date.year, t.date.month, t.date.day, t.clock.hour, t.clock.minute] ++ fraction
  let zone := (t.offset.map fun o => ", tzinfo=" ++ offsetDisplay o).getD ""
  "datetime.datetime(" ++ join ", " (numbers.map Nat.repr) ++ zone ++ ")"

/-- The display of a date. -/
def Date.display (d : Date) : String :=
  "datetime.date(" ++ join ", " ([d.year, d.month, d.day].map Nat.repr) ++ ")"

/-- The display of a truth value. -/
def truthWord (b : Bool) : String := if b then "True" else "False"

namespace Value

/-- The display of the field at a path. -/
def fieldDisplay (path : String) : String := "Field(path=" ++ quoted path ++ ")"

/-- Displays in a row between two brackets. -/
def bracketed (opening : String) (parts : List String) (closing : String) : String :=
  opening ++ join ", " parts ++ closing

mutual

/-- The display of a value. -/
def display : Value → String
  | .null => "None"
  | .bool b => truthWord b
  | .int n => toString n
  | .double x => x.text
  | .decimal d => "Decimal(" ++ quoted d.text ++ ")"
  | .str s => quoted s
  | .bytes bs => quotedBytes bs
  | .uuid s => "UUID(" ++ quoted s ++ ")"
  | .date d => d.display
  | .datetime t => t.display
  | .url s => "AnyUrl(" ++ quoted s ++ ")"
  | .list xs => bracketed "[" (displays xs) "]"
  | .tuple xs => bracketed "(" (displays xs) (if xs.length = 1 then ",)" else ")")
  | .set xs => if xs.isEmpty then "set()" else bracketed "\x7b" (displays xs) "\x7d"
  | .frozenset xs =>
    if xs.isEmpty then "frozenset()" else bracketed "frozenset(\x7b" (displays xs) "\x7d)"
  | .dict es => bracketed "\x7b" (entryDisplays es) "\x7d"
  | .member enumeration name _ v => "<" ++ enumeration ++ "." ++ name ++ ": " ++ v.display ++ ">"
  | .entity _ cls as => bracketed (cls ++ "(") (attributeDisplays as) ")"
  | .field path => fieldDisplay path
  | .operation path name => "<bound method Field." ++ name ++ " of " ++ fieldDisplay path ++ ">"
  | .condition p o v =>
    bracketed "FilterCondition(" [p.display, o.display, v.display] ")"
  | .featureless => "<opaque>"
termination_by structural v => v

/-- The displays of the elements of a list. -/
def displays : List Value → List String
  | [] => []
  | x :: xs => x.display :: displays xs
termination_by structural xs => xs

/-- The displays of the entries of an object. -/
def entryDisplays : List (Value × Value) → List String
  | [] => []
  | (k, v) :: es => (k.display ++ ": " ++ v.display) :: entryDisplays es
termination_by structural es => es

/-- The displays of the attributes of an entity. -/
def attributeDisplays : List (String × Value) → List String
  | [] => []
  | (k, v) :: as => (k ++ "=" ++ v.display) :: attributeDisplays as
termination_by structural as => as

end

/-- The plain text of a value. -/
def plainText : Value → String
  | .str s => s
  | .decimal d => d.text
  | .uuid s => s
  | .date d => d.text
  | .datetime t => t.textWith " "
  | .url s => s
  | .member enumeration name _ _ => enumeration ++ "." ++ name
  | .entity .model _ as => join " " (attributeDisplays as)
  | v => v.display

/-! ## Values that can be shown -/

mutual

/-- The value has a display: each whole number in it can be written. -/
def hasDisplay : Value → Bool
  | .int n => hasNumeral n
  | .list xs | .tuple xs | .set xs | .frozenset xs => haveDisplays xs
  | .dict es => entriesHaveDisplays es
  | .member _ _ _ v => v.hasDisplay
  | .entity _ _ as => attributesHaveDisplays as
  | .condition p o v => p.hasDisplay && o.hasDisplay && v.hasDisplay
  | _ => true
termination_by structural v => v

/-- All elements of a list have displays. -/
def haveDisplays : List Value → Bool
  | [] => true
  | x :: xs => x.hasDisplay && haveDisplays xs
termination_by structural xs => xs

/-- All keys and values of an object have displays. -/
def entriesHaveDisplays : List (Value × Value) → Bool
  | [] => true
  | (k, v) :: es => k.hasDisplay && v.hasDisplay && entriesHaveDisplays es
termination_by structural es => es

/-- All attributes of an entity have displays. -/
def attributesHaveDisplays : List (String × Value) → Bool
  | [] => true
  | (_, v) :: as => v.hasDisplay && attributesHaveDisplays as
termination_by structural as => as

end

/-- The value has a plain text. That of a member is its name, whatever it stands for. -/
def hasPlainText : Value → Bool
  | .member _ _ _ _ => true
  | v => v.hasDisplay

theorem hasDisplay_of_asText? {v : Value} {s : String} (h : v.asText? = some s) :
    v.hasDisplay = true := by
  rcases asText?_eq_some h with rfl | ⟨enumeration, name, rfl⟩ <;> rfl

end Value

end TypedSearch
