import Sexpr.Text.Ranges

/-!
# Sexpr.Limits

The two limits of an evaluation, and how they are read from text.
-/

namespace Sexpr

/-- The limits that hold for every evaluation in a session. -/
structure Limits where
  /-- How deep evaluations may nest. -/
  depth : Nat := 128
  /-- How often the head of one expression may be replaced by its definition. -/
  unfoldings : Nat := 64
  deriving DecidableEq, Repr, Inhabited

namespace Limits

/-- The value of a list of decimal digits; nothing else may occur in it. -/
def digitsValue? (cs : List Char) : Option Nat :=
  if cs.isEmpty || !cs.all Char.isDigit then none
  else some (cs.foldl (fun n c => 10 * n + (c.toNat - '0'.toNat)) 0)

/-- A limit in decimal: blanks at the ends are dropped, one plus sign may stand
in front, and the number is below `2 ^ 64`. -/
def parse? (s : String) : Option Nat :=
  let cs := trimBlanks s.toList
  let digits := match cs with
    | '+' :: rest => rest
    | cs => cs
  match digitsValue? digits with
  | some n => if n < Nat.pow 2 64 then some n else none
  | none => none

/-- The limits given by two optional texts; a text that is absent or no number
leaves its default. -/
def ofTexts (depth unfoldings : Option String) : Limits :=
  let defaults : Limits := {}
  { depth := (depth.bind parse?).getD defaults.depth
    unfoldings := (unfoldings.bind parse?).getD defaults.unfoldings }

end Limits

end Sexpr
