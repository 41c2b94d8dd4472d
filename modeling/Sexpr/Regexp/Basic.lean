import Sexpr.Regexp.CharSet

/-!
# Sexpr.Regexp.Basic

The structure of a regular expression.

Patterns are built by `seqs`, `anyOf` and `repeated`, which leave out what makes no
difference: empty pieces of a sequence, choices between single characters or between sets, which
are one set, and rounds that read nothing.
-/

namespace Sexpr

/-- A condition on the place between two characters. -/
inductive Place where
  | textStart
  | textEnd
  | lineStart
  | lineEnd
  | wordBoundary
  | noWordBoundary
  | wordStart
  | wordEnd
  | noWordBefore
  | noWordAfter
  deriving DecidableEq, Repr, Inhabited

/-- A smallest piece of a pattern: one character of a set, or a condition on
the place reached. -/
inductive Test where
  | char (set : CharSet)
  | place (p : Place)
  deriving DecidableEq, Repr, Inhabited

/-- A pattern over pieces of type `α`. -/
inductive Pattern (α : Type) where
  | empty
  | atom (a : α)
  | seq (p q : Pattern α)
  | alt (p q : Pattern α)
  /-- At least `low` and at most `high` times `p`; without `high`, any number of
  times from `low` on. -/
  | rep (p : Pattern α) (low : Nat) (high : Option Nat)
  /-- A group whose text is remembered. -/
  | capture (p : Pattern α)
  deriving Repr, Inhabited

namespace Pattern

def map {α β : Type} (f : α → β) : Pattern α → Pattern β
  | .empty => .empty
  | .atom a => .atom (f a)
  | .seq p q => .seq (p.map f) (q.map f)
  | .alt p q => .alt (p.map f) (q.map f)
  | .rep p low high => .rep (p.map f) low high
  | .capture p => .capture (p.map f)

/-! ## Views -/

/-- The pieces of a pattern in front of `more`. -/
def atoms {α : Type} : Pattern α → List α → List α
  | .empty, more => more
  | .atom a, more => a :: more
  | .seq p q, more => p.atoms (q.atoms more)
  | .alt p q, more => p.atoms (q.atoms more)
  | .rep p _ _, more => p.atoms more
  | .capture p, more => p.atoms more

/-- Whether a match of the pattern never reads a character. -/
def isWidthless : Pattern Test → Bool
  | .empty => true
  | .atom (.char _) => false
  | .atom (.place _) => true
  | .seq p q => p.isWidthless && q.isWidthless
  | .alt p q => p.isWidthless && q.isWidthless
  | .rep p _ _ => p.isWidthless
  | .capture p => p.isWidthless

/-- The patterns between which a pattern chooses. -/
def choices {α : Type} : Pattern α → List (Pattern α)
  | .alt p q => p.choices ++ q.choices
  | p => [p]

/-- The set of a pattern that reads one character. -/
def set? : Pattern Test → Option CharSet
  | .atom (.char s) => some s
  | _ => none

/-- The text of a pattern that matches only one, which is not empty. -/
def text? : Pattern Test → Option (List Char)
  | .atom (.char s) => s.single?.map ([·])
  | .seq p q =>
    match p.text?, q.text? with
    | some a, some b => some (a ++ b)
    | _, _ => none
  | _ => none

/-! ## Building -/

/-- The patterns one after another. -/
def seqs : List (Pattern Test) → Pattern Test
  | [] => .empty
  | .empty :: ps => seqs ps
  | p :: ps =>
    match seqs ps with
    | .empty => p
    | q => .seq p q

/-- A choice between patterns.  Between sets of which all or none have just one character it is a
set again. -/
def anyOf (ps : List (Pattern Test)) : Pattern Test :=
  let ps := ps.flatMap choices
  let sets := ps.filterMap set?
  let singles := sets.filter fun s => s.single?.isSome
  if sets.length = ps.length && (singles.length = 0 || singles.length = sets.length) then
    .atom (.char (.ofList sets))
  else
    match ps.reverse with
    | [] => .empty
    | last :: before => before.foldl (fun q p => .alt p q) last

/-- At least `low` and at most `high` times `p`.  A pattern that reads nothing need not be tried
more than once. -/
def repeated (p : Pattern Test) (low : Nat) (high : Option Nat) : Pattern Test :=
  let (low, high) := if p.isWidthless then (min low 1, some (min (high.getD 1) 1)) else (low, high)
  if high = some 0 then .empty
  else if low = 1 && high = some 1 then p
  else .rep p low high

end Pattern

/-- A regular expression: its text and what the text means. -/
structure Regexp where
  source : String
  pattern : Pattern Test
  deriving Inhabited

end Sexpr
