import Sexpr.Fault
import Sexpr.Value.Equality
import Sexpr.Value.Collection

/-!
# Sexpr.Algebra.Spine

Lists as chains of pairs.

A value is walked along its second slots: the first slots on the way are its `elements`, and what
stands at the end is its `tail` (`nil` for a proper list).  Values that are no pair
have no elements.
-/

namespace Sexpr

/-- Computations that make objects and can fail.  What was made before a failure stays made. -/
abbrev Attempt := ExceptT Fault Fresh

/-- A failed operation. -/
def failure {α : Type} (location : String) (cause : Cause) : Except Fault α :=
  .error { location, cause }

namespace Value

/-! ## Slots -/

/-- The first slot of a pair; that of `nil` is `nil`. -/
def car : Value → Except Fault Value
  | .pair _ a _ => .ok a
  | .nil => .ok .nil
  | v => failure "car" (.expected "pair" v)

/-- The second slot of a pair; that of `nil` is `nil`. -/
def cdr : Value → Except Fault Value
  | .pair _ _ d => .ok d
  | .nil => .ok .nil
  | v => failure "cdr" (.expected "pair" v)

def caar (v : Value) : Except Fault Value := do (← v.car).car

def cadr (v : Value) : Except Fault Value := do (← v.cdr).car

def caddr (v : Value) : Except Fault Value := do (← (← v.cdr).cdr).car

def cddr (v : Value) : Except Fault Value := do (← v.cdr).cdr

def cdar (v : Value) : Except Fault Value := do (← v.car).cdr

/-! ## Elements -/

/-- The first slots along the spine. -/
def elements : Value → List Value
  | .pair _ a d => a :: d.elements
  | _ => []

/-- The number of pairs along the spine. -/
def length : Value → Nat
  | .pair _ _ d => d.length + 1
  | _ => 0

/-- The elements that have been walked over and those that follow, if the end is `nil`. -/
def toListFrom (walked : List Value) : Value → Except Fault (List Value)
  | .pair _ a d => toListFrom (a :: walked) d
  | v => if v.isNil then .ok walked.reverse else failure "list" (.improperList v)

/-- The elements of a proper list. -/
def toList (v : Value) : Except Fault (List Value) := toListFrom [] v

theorem toListFrom_eq (walked : List Value) (v : Value) :
    toListFrom walked v =
      if v.tail.isNil then .ok (walked.reverse ++ v.elements)
      else failure "list" (.improperList v.tail) := by
  fun_induction toListFrom walked v with
  | case1 walked id a d ih =>
    rw [ih, List.reverse_cons, List.append_assoc]
    rfl
  | case2 _ _ hv hnil => rw [tail.eq_2 _ hv, elements.eq_2 _ hv, if_pos hnil, List.append_nil]
  | case3 _ _ hv hnil => rw [tail.eq_2 _ hv, if_neg hnil]

theorem toList_eq (v : Value) :
    v.toList =
      if v.tail.isNil then .ok v.elements else failure "list" (.improperList v.tail) := by
  rw [toList, toListFrom_eq, List.reverse_nil, List.nil_append]

/-- The slots of a pair that is an entry of an association list. -/
def entry : Value → Except Fault (Value × Value)
  | .pair _ k x => .ok (k, x)
  | v => failure "alist" (.improperEntry v)

/-- The entries of an association list: a proper list of pairs. -/
def toEntries (v : Value) : Except Fault (List (Value × Value)) := do
  (← v.toList).mapM entry

/-- Whether an element of the list is `equal` to `x`. -/
def member (x : Value) : Value → Bool
  | .pair _ a d => equal x a || member x d
  | _ => false

/-! ## Joining -/

/-- The elements of a list in reverse order, in front of `acc`. -/
def revAppend : Value → Value → Fresh Value
  | .pair _ a d, acc => do revAppend d (← cons a acc)
  | _, acc => pure acc

def reverse (x : Value) : Fresh Value := revAppend x .nil

/-- The elements of `x` followed by `y` itself. -/
def append (x y : Value) : Fresh Value :=
  if x.isNil then pure y else do revAppend (← reverse x) y

/-- All lists joined, in front of an empty one. -/
def appendAll (lists : List Value) : Fresh Value := lists.foldrM append .nil

end Value

end Sexpr
