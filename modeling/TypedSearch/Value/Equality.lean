import TypedSearch.Value.Basic

/-!
# Equality of values

Two values are equal when they denote the same: numbers of any kind by their exact value, texts
and members over texts by their characters, sets and objects without regard to order. Nothing
equals a double or a decimal that is no number. Entities of plain classes and conditions are
things of their own, which nothing equals.

* `Value.equals`: the test.
* `Value.distinct`: the elements of a list, each once, the first of equal ones kept.
-/

namespace TypedSearch

/-- The exact value of a number. -/
inductive Magnitude where
  | undefined
  | infinite (negative : Bool)
  | exact (r : Rat)
  deriving DecidableEq

namespace Value

/-- The exact value of a value that is a number. -/
def magnitude? : Value → Option Magnitude
  | .double x =>
    match x.parts with
    | .nan => some .undefined
    | .infinite negative => some (.infinite negative)
    | .finite _ _ _ => x.toRat?.map .exact
  | .decimal (.nan _ _ _) => some .undefined
  | .decimal (.infinite negative) => some (.infinite negative)
  | .decimal d => d.toRat?.map .exact
  | v => v.asInt?.map fun n => .exact n

/-- The two numbers are equal. -/
def sameMagnitude : Magnitude → Magnitude → Bool
  | .exact a, .exact b => a == b
  | .infinite a, .infinite b => a == b
  | _, _ => false

/-- The two values are equal scalars. -/
def sameScalar (a b : Value) : Bool :=
  match a.magnitude?, b.magnitude?, a.asText?, b.asText? with
  | some m, some n, _, _ => sameMagnitude m n
  | _, _, some s, some t => s == t
  | _, _, _, _ =>
    match a, b with
    | .null, .null => true
    | .bytes s, .bytes t => s == t
    | .uuid s, .uuid t => s == t
    | .date s, .date t => s == t
    | .datetime s, .datetime t => s.denotesSame t
    | .url s, .url t => s == t
    | .member e n _ _, .member e' n' _ _ => e == e' && n == n'
    | .field s, .field t => s == t
    | _, _ => false

mutual

/-- The two values are equal. -/
def equals : Value → Value → Bool
  | .list xs, .list ys => equalLists xs ys
  | .tuple xs, .tuple ys => equalLists xs ys
  | .set xs, .set ys => xs.length == ys.length && containedIn xs ys
  | .set xs, .frozenset ys => xs.length == ys.length && containedIn xs ys
  | .frozenset xs, .set ys => xs.length == ys.length && containedIn xs ys
  | .frozenset xs, .frozenset ys => xs.length == ys.length && containedIn xs ys
  | .dict es, .dict fs => es.length == fs.length && entriesIn es fs
  | .entity .plain _ _, .entity _ _ _ => false
  | .entity _ c as, .entity _ d bs => c == d && as.length == bs.length && attributesIn as bs
  | a, b => sameScalar a b
termination_by structural a => a

/-- The two lists have equal elements in the same places. -/
def equalLists : List Value → List Value → Bool
  | [], [] => true
  | x :: xs, y :: ys => x.equals y && equalLists xs ys
  | _, _ => false
termination_by structural xs => xs

/-- Every element of the first list equals one of the second. -/
def containedIn : List Value → List Value → Bool
  | [], _ => true
  | x :: xs, ys => (ys.any fun y => x.equals y) && containedIn xs ys
termination_by structural xs => xs

/-- Every entry of the first object equals one of the second. -/
def entriesIn : List (Value × Value) → List (Value × Value) → Bool
  | [], _ => true
  | (k, v) :: es, fs => (fs.any fun f => k.equals f.1 && v.equals f.2) && entriesIn es fs
termination_by structural es => es

/-- Every attribute of the first entity equals one of the second. -/
def attributesIn : List (String × Value) → List (String × Value) → Bool
  | [], _ => true
  | (k, v) :: as, bs => (bs.any fun b => k == b.1 && v.equals b.2) && attributesIn as bs
termination_by structural as => as

end

/-- The elements of a list, each once; of equal elements the first stays. -/
def distinct (xs : List Value) : List Value :=
  xs.foldl (fun kept x => if kept.any fun y => y.equals x then kept else kept ++ [x]) []

end Value

end TypedSearch
