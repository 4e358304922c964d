import TypedSearch.Field.Resolver
import TypedSearch.Value.Demand

/-!
# Clauses

A clause is one atomic condition of a search. It is put to the engine as an object; a clause
on a member of a nested array is wrapped once, so that it holds of a single element. Membership
clauses on such members ask for the elements that match.

* `Clause`: a clause.
* `Clause.body`: the condition itself.
* `Clause.compile`: the condition with the scope around it.
-/

namespace TypedSearch

/-! ## Vocabulary -/

/-- The forms of clauses. -/
inductive ClauseKind where
  | term
  | termNot
  | range
  | longRange
  | dateRange
  | matching
  | matchingNot
  | terms
  | termsNot
  deriving DecidableEq, Repr

namespace ClauseKind

/-- The word for a form. -/
def name : ClauseKind → String
  | .term => "term"
  | .termNot => "term_not"
  | .range => "range"
  | .longRange => "long_range"
  | .dateRange => "date_range"
  | .matching => "match"
  | .matchingNot => "match_not"
  | .terms => "terms"
  | .termsNot => "terms_not"

/-- All forms. -/
def all : List ClauseKind :=
  [.term, .termNot, .range, .longRange, .dateRange, .matching, .matchingNot, .terms, .termsNot]

/-- The form of a word. -/
def ofName? (name : String) : Option ClauseKind := all.find? (·.name == name)

/-- The clause excludes what its body describes. -/
def negated : ClauseKind → Bool
  | .termNot | .matchingNot | .termsNot => true
  | _ => false

/-- The clause is about membership in a collection. -/
def isMembership : ClauseKind → Bool
  | .terms | .termsNot => true
  | _ => false

end ClauseKind

/-- The units to which points in time are rounded. -/
inductive Rounding where
  | year
  | month
  | week
  | day
  | hour
  | minute
  | second
  deriving DecidableEq, Repr

namespace Rounding

/-- The engine's letter for a unit. -/
def letter : Rounding → String
  | .year => "y"
  | .month => "M"
  | .week => "w"
  | .day => "d"
  | .hour => "h"
  | .minute => "m"
  | .second => "s"

/-- The name of a unit. -/
def name : Rounding → String
  | .year => "YEAR"
  | .month => "MONTH"
  | .week => "WEEK"
  | .day => "DAY"
  | .hour => "HOUR"
  | .minute => "MINUTE"
  | .second => "SECOND"

/-- A unit as a value: a member of an enumeration, which stands for the letter. -/
def toValue (u : Rounding) : Value := .member "DateRounding" u.name .plain (.str u.letter)

/-- All units. -/
def all : List Rounding := [.year, .month, .week, .day, .hour, .minute, .second]

/-- The unit of a letter. -/
def ofLetter? (letter : String) : Option Rounding := all.find? (·.letter == letter)

/-- The unit where none is asked for. -/
def standard : Rounding := .day

end Rounding

/-- The time zone where none is asked for. -/
def standardTimeZone : String := "+08:00"

/-! ## Clauses -/

/-- A clause. The time zone and the rounding are null where none is set. -/
structure Clause where
  kind : ClauseKind
  field : FieldPath
  value : Value
  rangeWord : Option String
  timeZone : Value
  rounding : Value
  minimumMatch : Option Int

namespace Clause

/-- A clause without options. -/
def plain (kind : ClauseKind) (field : FieldPath) (value : Value) : Clause :=
  ⟨kind, field, value, none, .null, .null, none⟩

/-- The clause excludes what its body describes. -/
def negated (c : Clause) : Bool := c.kind.negated

/-- The clause asks for the matching elements of a nested array. -/
def requestsInnerHits (c : Clause) : Bool := c.field.isNested && c.kind.isMembership

/-- The clause has a display: its value, time zone and rounding have, and its number can be
written. -/
def hasDisplay (c : Clause) : Bool :=
  c.value.hasDisplay && c.timeZone.hasDisplay && c.rounding.hasDisplay &&
    c.minimumMatch.all hasNumeral

/-- An object with one entry under the name of the field. -/
def underField (c : Clause) (word : String) (v : Value) : Value :=
  .object [(word, .object [(c.field.wire, v)])]

/-- The entries of a range of points in time: the bound, and the time zone if one is set. -/
def dateEntries (c : Clause) : Entries :=
  let bound := [(Value.ofText? c.rangeWord, c.value)]
  if c.timeZone.isTruthy then Entries.put "time_zone" c.timeZone bound else bound

/-- The condition itself. -/
def body (c : Clause) : Except Fault Value :=
  match c.kind with
  | .term | .termNot => .ok (c.underField "term" (.object [("value", c.value)]))
  | .range | .longRange =>
    .ok (c.underField "range" (.dict [(Value.ofText? c.rangeWord, c.value)]))
  | .dateRange => .ok (c.underField "range" (.dict c.dateEntries))
  | .matching | .matchingNot =>
    .ok (.object [("query_string", .object (
      [("default_field", .str c.field.wire), ("query", c.value)] ++
        (c.minimumMatch.map fun n => ("minimum_should_match", Value.int n)).toList))])
  | .terms | .termsNot => c.value.elements.map fun xs => c.underField "terms" (.list xs)

/-- A condition scoped by a nested array. -/
def nestedIn (path : String) (inner : Value) : Value :=
  .object [("nested", .object [("path", .str path),
    ("query", .object [("bool", .object [("must", .list [inner])])])])]

/-- A condition scoped by a nested array, with a request for the matching elements under a
name; without one they come under the path. -/
def nestedWithHits (path : String) (hitsName : Option String) (inner : Value) : Value :=
  let request := (hitsName.map fun n => ("name", Value.str n)).toList ++ [("explain", .bool true)]
  .object [("nested", .object [("path", .str path), ("inner_hits", .object request),
    ("query", inner)])]

/-- The condition with the scope around it. -/
def compile (c : Clause) (hitsName : Option String) : Except Fault Value :=
  c.body.map fun inner =>
    match c.field.nested with
    | none => inner
    | some path =>
      if c.requestsInnerHits then nestedWithHits path hitsName inner else nestedIn path inner

end Clause

end TypedSearch
