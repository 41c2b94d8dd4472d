import Sexpr.Algebra.Tree

/-!
# Sexpr.Algebra.Alist

Association lists: lists of pairs of a key and a value.
-/

namespace Sexpr

namespace Value

/-- The value of the first entry whose key is `eq` to `key`.  Elements that are no pair are
passed over. -/
def assoc? (key : Value) : Value → Option Value
  | .pair _ (.pair _ k x) d => if eq k key then some x else assoc? key d
  | .pair _ _ d => assoc? key d
  | _ => none

/-- The value of `z` in the list, or `z` itself. -/
def lookupOrSelf (alist z : Value) : Value := (assoc? z alist).getD z

/-- A copy of `y` in which every leaf has been looked up. -/
def sublis (alist y : Value) : Fresh Value :=
  copyTree (fun node => pure (if node.isPair then none else some (lookupOrSelf alist node))) y

/-- Checks that two lists have the same length, under the name of a function. -/
def checkLengths (name : String) (x y : Value) : Except Fault Unit :=
  if x.length = y.length then .ok () else failure name (.unequalLengths x.length y.length)

/-- The list of the two-element lists of corresponding elements. -/
def pairUp (x y : Value) : Attempt Value := do
  checkLengths "pair" x y
  let rows ← (x.elements.zip y.elements).mapM fun (a, b) => list [a, b]
  list rows

/-- New entries for corresponding keys and values, in front of `base`. -/
def pairlis (keys vals base : Value) : Attempt Value := do
  checkLengths "pairlis" keys vals
  let entries ← (keys.elements.zip vals.elements).mapM fun (k, v) => cons k v
  listOnto entries base

end Value

end Sexpr
