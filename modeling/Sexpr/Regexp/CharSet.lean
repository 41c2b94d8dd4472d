import Sexpr.Text.Ranges
import Sexpr.Text.CaseFold
import Sexpr.Text.Word

/-!
# Sexpr.Regexp.CharSet

Sets of characters.

A set is a list of ranges of code points that ascend and do not touch.  Every operation
gives such a list again, so that equal sets have the same ranges, and what a set costs
can be read off them.
-/

namespace Sexpr

/-- A set of characters, as ascending ranges of code points with a gap between any two. -/
structure CharSet where
  ranges : List (Nat × Nat)
  deriving DecidableEq, Repr, Inhabited

namespace CharSet

/-! ## Building -/

/-- Joins ranges that overlap or touch.  The ranges are sorted by their low ends. -/
def join : List (Nat × Nat) → List (Nat × Nat)
  | (a, b) :: (c, d) :: rest =>
    if c ≤ b + 1 then join ((a, max b d) :: rest) else (a, b) :: join ((c, d) :: rest)
  | ranges => ranges
termination_by ranges => ranges.length

/-- The set that some ranges cover, in any order. -/
def ofRanges (ranges : List (Nat × Nat)) : CharSet :=
  ⟨join (ranges.mergeSort fun a b => a.1 ≤ b.1)⟩

def empty : CharSet := ⟨[]⟩

/-- The characters from `low` to `high`, both included. -/
def range (low high : Char) : CharSet := ⟨[(low.toNat, high.toNat)]⟩

def single (c : Char) : CharSet := range c c

def union (a b : CharSet) : CharSet := ofRanges (a.ranges ++ b.ranges)

def ofList (cs : List CharSet) : CharSet := ofRanges (cs.flatMap CharSet.ranges)

/-- The gaps between ascending ranges, from `start` to the last code point.  A gap that holds
surrogates only has no character in it. -/
def gaps (start : Nat) : List (Nat × Nat) → List (Nat × Nat)
  | [] => if start ≤ 0x10ffff then [(start, 0x10ffff)] else []
  | (low, high) :: rest =>
    if start < low && !(0xd800 ≤ start && low ≤ 0xe000) then
      (start, low - 1) :: gaps (high + 1) rest
    else
      gaps (high + 1) rest

/-- The characters that are not in the set. -/
def complement (s : CharSet) : CharSet := ⟨gaps 0 s.ranges⟩

def inter (a b : CharSet) : CharSet := complement (union a.complement b.complement)

def diff (a b : CharSet) : CharSet := inter a b.complement

def symmDiff (a b : CharSet) : CharSet := union (diff a b) (diff b a)

/-- The characters that differ from a member in case only. -/
def folded (s : CharSet) : CharSet :=
  let met := foldPairs.filter fun (n, m) => inRanges s.ranges n || inRanges s.ranges m
  let targets := ofRanges (met.map fun (_, m) => (m, m))
  let sources := foldPairs.filter fun (_, m) => inRanges targets.ranges m
  ofRanges (s.ranges ++ targets.ranges ++ sources.map fun (n, _) => (n, n))

/-! ## Reading -/

/-- Whether a character is in the set. -/
def contains (s : CharSet) (c : Char) : Bool := inRanges s.ranges c.toNat

/-- The character of a set that has only one. -/
def single? (s : CharSet) : Option Char :=
  match s.ranges with
  | [(low, high)] => if low = high then some (Char.ofNat low) else none
  | _ => none

/-- Whether all characters of the set are ASCII. -/
def isAscii (s : CharSet) : Bool := s.ranges.all fun (_, high) => high < 0x80

/-! ## Sets with a name -/

/-- The decimal digits. -/
def digit : CharSet := ofRanges decimalDigits

/-- The characters of a word. -/
def word : CharSet := ofRanges wordRanges

def blank : CharSet := ofRanges blankRanges

/-- Every character. -/
def all : CharSet := complement empty

/-- Every character but the end of a line. -/
def notNewline : CharSet := complement (single '\n')

def asciiDigit : CharSet := range '0' '9'

def asciiLower : CharSet := range 'a' 'z'

def asciiUpper : CharSet := range 'A' 'Z'

def asciiAlpha : CharSet := union asciiLower asciiUpper

def asciiAlnum : CharSet := union asciiAlpha asciiDigit

/-- The sets that are named between colons, all of ASCII characters. -/
def named? : String → Option CharSet
  | "alnum" => some asciiAlnum
  | "alpha" => some asciiAlpha
  | "ascii" => some (range '\x00' '\x7f')
  | "blank" => some (union (single '\t') (single ' '))
  | "cntrl" => some (union (range '\x00' '\x1f') (single '\x7f'))
  | "digit" => some asciiDigit
  | "graph" => some (range '!' '~')
  | "lower" => some asciiLower
  | "print" => some (range ' ' '~')
  | "punct" => some (ofList [range '!' '/', range ':' '@', range '[' '\x60', range '\x7b' '~'])
  | "space" => some (union (range '\t' '\r') (single ' '))
  | "upper" => some asciiUpper
  | "word" => some (union asciiAlnum (single '_'))
  | "xdigit" => some (ofList [asciiDigit, range 'a' 'f', range 'A' 'F'])
  | _ => none

end CharSet

end Sexpr
