import Sexpr.Regexp.Basic

/-!
# Sexpr.Regexp.Search

Searching a text for a match.

A match is followed from all starting places at once.  The places of a text of `n`
characters are numbered from `0` to `n`, and a set of places is a natural
number with the bit of every member set.  A piece of a pattern takes a set of places
to the set of places where a match that started in it can end:

* a character set keeps the places in front of a member and moves one to the right;
* a condition keeps the places where it holds;
* a sequence composes, a choice unites;
* a repetition collects what its rounds reach, and stops when a round reaches
  nothing new.
-/

namespace Sexpr

/-- What a piece of a pattern does on one text: it keeps the places of `mask`, and
then moves to the next place if `advance` is set. -/
structure Move where
  mask : Nat
  advance : Bool
  deriving Repr, Inhabited

namespace Move

/-- The number whose bits are the given ones, the lowest first. -/
def maskOf (bits : List Bool) : Nat := bits.foldr (fun b n => 2 * n + b.toNat) 0

/-- Whether there is a character that belongs to a word. -/
def isWordAt (c : Option Char) : Bool := c.any CharSet.word.contains

/-- Whether a condition holds between two characters, which are absent at the
ends of the text. -/
def holdsAt : Place → Option Char → Option Char → Bool
  | .textStart, before, _ => before.isNone
  | .textEnd, _, after => after.isNone
  | .lineStart, before, _ => before.all (· = '\n')
  | .lineEnd, _, after => after.all (· = '\n')
  | .wordBoundary, before, after => isWordAt before != isWordAt after
  | .noWordBoundary, before, after => isWordAt before == isWordAt after
  | .wordStart, before, after => !isWordAt before && isWordAt after
  | .wordEnd, before, after => isWordAt before && !isWordAt after
  | .noWordBefore, before, _ => !isWordAt before
  | .noWordAfter, _, after => !isWordAt after

/-- The characters on both sides of every place of a text. -/
def sides (text : List Char) : List (Option Char × Option Char) :=
  (none :: text.map some).zip (text.map some ++ [none])

/-- What a piece does on a text. -/
def ofTest (text : List Char) : Test → Move
  | .char set => { mask := maskOf (text.map set.contains), advance := true }
  | .place p => { mask := maskOf ((sides text).map fun (b, a) => holdsAt p b a), advance := false }

def apply (m : Move) (places : Nat) : Nat :=
  let kept := places &&& m.mask
  if m.advance then kept <<< 1 else kept

end Move

namespace Pattern

/-- What `rounds` rounds of `step` reach, the start included. -/
def upTo (step : Nat → Nat) : Nat → Nat → Nat → Nat
  | 0, seen, _ => seen
  | rounds + 1, seen, frontier =>
    let new := (step frontier ||| seen) ^^^ seen
    if new = 0 then seen else upTo step rounds (seen ||| new) new

/-- What exactly `rounds` rounds of `step` reach. -/
def exactly (step : Nat → Nat) : Nat → Nat → Nat
  | 0, places => places
  | rounds + 1, places => if places = 0 then 0 else exactly step rounds (step places)

/-- The places where matches end that started in one of the given places, on a text of
`size` characters. -/
def reach (size : Nat) : Pattern Move → Nat → Nat
  | .empty, places => places
  | .atom m, places => m.apply places
  | .seq p q, places => q.reach size (p.reach size places)
  | .alt p q, places => p.reach size places ||| q.reach size places
  | .rep p low high, places =>
    let start := exactly (p.reach size) low places
    let rounds := match high with
      | some h => h - low
      | none => size + 1
    upTo (p.reach size) rounds start start
  | .capture p, places => p.reach size places

end Pattern

/-- Whether a part of the text matches.  What a piece does is found out once, however often it
occurs in the pattern. -/
def Regexp.isMatch (r : Regexp) (text : String) : Bool :=
  let cs := text.toList
  let moves := (r.pattern.atoms []).eraseDups.map fun t => (t, Move.ofTest cs t)
  let move (t : Test) : Move := (moves.lookup t).getD (Move.ofTest cs t)
  (r.pattern.map move).reach cs.length (Nat.pow 2 (cs.length + 1) - 1) != 0

end Sexpr
