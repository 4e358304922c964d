import TypedSearch.Clause.Basic

/-!
# Names of inner hits

Each nested membership clause of a query asks for inner hits, and the engine wants their names to
differ. The first clause of an array takes the array's path; further ones take the path with a
number behind it.

* `freshName`: a name that is not taken yet.
* `compileAll`: clauses with names for their inner hits.
-/

namespace TypedSearch

/-- The name with a number for a path. -/
def numbered (path : String) (n : Nat) : String := path ++ "_" ++ Nat.repr n

/-- The first name of a path that is not taken: the path itself, or the path with the least
number behind it. Among as many numbers as names are taken, and one more, there is a free one. -/
def freshName (taken : List String) (path : String) : String :=
  if path ∈ taken then
    let numbers := (List.range (taken.length + 1)).map (· + 1)
    ((numbers.map (numbered path)).find? fun name => !taken.contains name).getD path
  else path

/-- The names that are given so far, each with the path it belongs to. -/
abbrev HitPaths := List (String × String)

/-- One clause; if it asks for inner hits, it takes a fresh name. The name is put into the request
only where it differs from the path. -/
def compileNamed (given : HitPaths) (c : Clause) : Except Fault (Value × HitPaths) :=
  match c.field.nested with
  | some path =>
    if c.requestsInnerHits then
      let name := freshName (given.map (·.1)) path
      (c.compile (if name = path then none else some name)).map fun v =>
        (v, given ++ [(name, path)])
    else (c.compile none).map fun v => (v, given)
  | none => (c.compile none).map fun v => (v, given)

/-- Clauses in order. -/
def compileAll (given : HitPaths) : List Clause → Except Fault (List Value × HitPaths)
  | [] => .ok ([], given)
  | c :: cs => do
    let (v, given) ← compileNamed given c
    let (vs, given) ← compileAll given cs
    return (v :: vs, given)

end TypedSearch
