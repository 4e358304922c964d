import TypedSearch.Fault

/-!
# JSON texts

The JSON text of a value: elements and entries stand on lines of their own, two columns further
in for each level, and characters outside ASCII stay as they are. A value that JSON does not have
is written as its plain text. Keys are texts, numbers, truth values or null; no other key can be
written.

* `Value.json`: the text of a value.
* `jsonString`: a text between double quotes.
-/

namespace TypedSearch

open Text

/-! ## Strings -/

/-- The escape of a character that has a short one. -/
def jsonShortEscape? (c : Char) : Option Char :=
  if c = doubleQuote then some doubleQuote
  else if c = backslash then some backslash
  else if c = '\n' then some 'n'
  else if c = '\r' then some 'r'
  else if c = '\t' then some 't'
  else if c.toNat = 0x08 then some 'b'
  else if c.toNat = 0x0c then some 'f'
  else none

/-- One character of a string. Control characters are escaped. -/
def jsonChar (c : Char) : List Char :=
  match jsonShortEscape? c with
  | some d => [backslash, d]
  | none => if c.toNat < 0x20 then backslash :: 'u' :: hexDigits 4 c.toNat else [c]

/-- A text between double quotes. -/
def jsonString (s : String) : String :=
  String.ofList (doubleQuote :: s.toList.flatMap jsonChar ++ [doubleQuote])

/-! ## Containers -/

/-- A line end and the columns of a level. -/
def lineAt (level : Nat) : String := String.ofList ('\n' :: List.replicate (2 * level) ' ')

/-- Parts of a container at a level between its brackets. -/
def jsonContainer (opening closing : String) (level : Nat) (parts : List String) : String :=
  if parts.isEmpty then opening ++ closing
  else
    opening ++ lineAt (level + 1) ++ join ("," ++ lineAt (level + 1)) parts ++ lineAt level ++
      closing

namespace Value

/-! ## Values -/

/-- The text of a value that is a key. -/
def jsonKey (k : Value) : Except Fault String :=
  match k.asText?, k with
  | some s, _ => .ok s
  | none, .null => .ok "null"
  | none, .bool b => .ok (if b then "true" else "false")
  | none, .double x => .ok (x.textIn Double.documentLayout)
  | none, k =>
    match k.asInt? with
    | some n => .ok (toString n)
    | none =>
      .error (.foreign .typeMismatch
        s!"keys must be str, int, float, bool or None, not {k.typeName}")

/-- The text of a value without parts. -/
def jsonScalar (v : Value) : String :=
  match v.asText?, v with
  | some s, _ => jsonString s
  | none, .null => "null"
  | none, .bool b => if b then "true" else "false"
  | none, .double x => x.textIn Double.documentLayout
  | none, v =>
    match v.asInt? with
    | some n => toString n
    | none => jsonString v.plainText

mutual

/-- The text of a value at a level. -/
def jsonAt (level : Nat) : Value → Except Fault String
  | .list xs => (jsonElements (level + 1) xs).map (jsonContainer "[" "]" level)
  | .tuple xs => (jsonElements (level + 1) xs).map (jsonContainer "[" "]" level)
  | .dict es => (jsonEntries (level + 1) es).map (jsonContainer "\x7b" "\x7d" level)
  | v => .ok v.jsonScalar
termination_by structural v => v

/-- The texts of the elements of a list. -/
def jsonElements (level : Nat) : List Value → Except Fault (List String)
  | [] => .ok []
  | x :: xs => do
    let text ← x.jsonAt level
    return text :: (← jsonElements level xs)
termination_by structural xs => xs

/-- The texts of the entries of an object. -/
def jsonEntries (level : Nat) : List (Value × Value) → Except Fault (List String)
  | [] => .ok []
  | (k, v) :: es => do
    let key ← k.jsonKey
    let text ← v.jsonAt level
    return (jsonString key ++ ": " ++ text) :: (← jsonEntries level es)
termination_by structural es => es

end

/-- The text of a value. -/
def json (v : Value) : Except Fault String := v.jsonAt 0

end Value

end TypedSearch
