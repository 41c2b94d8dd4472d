import Sexpr.Regexp.Basic
import Sexpr.Text.Utf8

/-!
# Sexpr.Regexp.Footprint

The memory that a pattern takes as an automaton over bytes.

A counted repetition is short to write and long to carry out: its pattern is laid out once for
every round.  A pattern is refused if its automaton would take more than `footprintLimit`
bytes.  Two automata are laid out, one that reads a text forwards and one that reads it
backwards, and both have to fit.

* A state takes 32 bytes.  A state with a list of byte ranges takes 8 more for each of
  them, and a state that branches 4 more for each branch.
* A character takes a state for each of its bytes.  A set of ASCII characters takes a state with
  its ranges and an end.
* Forwards, any other set takes the states of its byte sequences, of which equal ones are laid
  out once.  Backwards, only common beginnings of its sequences are shared.
* A choice between texts shares the common beginnings of the texts, forwards, and their common
  ends, backwards.
* A remembered group takes two states, forwards only.
-/

namespace Sexpr

/-- The most bytes that an automaton may take. -/
def footprintLimit : Nat := 10485760

namespace Footprint

/-- A state without a list. -/
def state : Nat := 32

/-- A state with some byte ranges. -/
def ranges (n : Nat) : Nat := state + 8 * n

/-- A state with some branches. -/
def branches (n : Nat) : Nat := state + 4 * n

/-- All of some costs together. -/
def total : List Nat → Nat
  | [] => 0
  | n :: ns => n + total ns

/-! ## Sets -/

/-- What follows each different leading byte range of some sequences. -/
def followers (node : List ByteSeq) : List (List ByteSeq) :=
  (node.splitBy fun a b => a.head? == b.head?).map fun group => group.map List.tail

/-- The nodes at which sequences can stand, the given ones and up to `depth` bytes further.  At a
node that has read whole sequences nothing follows. -/
def nodes : Nat → List (List ByteSeq) → List (List ByteSeq)
  | 0, _ => []
  | depth + 1, level =>
    let next := ((level.flatMap followers).filter (· != [[]])).eraseDups
    level ++ nodes depth next

/-- The number of different beginnings of some sequences. -/
def beginnings : Nat → List ByteSeq → Nat
  | 0, _ => 0
  | depth + 1, node =>
    total <| (followers node).map fun rest =>
      if rest == [[]] then 1 else 1 + beginnings depth rest

/-- The byte sequences of a set. -/
def seqsOf (s : CharSet) : List ByteSeq := s.ranges.flatMap fun (low, high) => byteSeqs low high

/-- A set, forwards or backwards. -/
def ofSet (backwards : Bool) (s : CharSet) : Nat :=
  match s.single? with
  | some c => c.utf8Size * state
  | none =>
    if s.isAscii then
      ranges s.ranges.length + state
    else
      let seqs := seqsOf s
      if backwards then
        branches seqs.length + state + state * beginnings 4 seqs
      else
        state + total ((nodes 4 [seqs]).eraseDups.map fun node => ranges (followers node).length)

/-! ## Choices between texts -/

/-- The cost of a node at which some words go on, without its end.  A word that ends here divides
the words before it from the words after it, and only words on the same side share a branch. -/
def ofWords : Nat → List (List UInt8) → Nat
  | 0, _ => 0
  | depth + 1, words =>
    let groups := (words.splitBy fun a b => !a.isEmpty && !b.isEmpty).filter fun g => g != [[]]
    let ends := words.countP List.isEmpty
    let costs := groups.map fun group =>
      let bytes := (group.filterMap List.head?).eraseDups
      let rests := bytes.map fun b => (group.filter fun w => w.head? == some b).map List.tail
      let deeper := rests.filter fun ws => ws.any fun w => !w.isEmpty
      (if bytes.length = 1 then state else ranges bytes.length) + total (deeper.map (ofWords depth))
    branches (groups.length + ends) + total costs

/-- A choice between texts, forwards or backwards. -/
def ofTexts (backwards : Bool) (texts : List (List Char)) : Nat :=
  let words := texts.map fun cs => cs.flatMap String.utf8EncodeChar
  let words := if backwards then words.map List.reverse else words
  state + ofWords ((words.map List.length).foldl max 0) words

end Footprint

namespace Pattern

open Footprint

/-- The least number of characters that a match reads, if there can be a match. -/
def leastWidth? : Pattern Test → Option Nat
  | .empty => some 0
  | .atom (.char s) => if s.ranges.isEmpty then none else some 1
  | .atom (.place _) => some 0
  | .seq p q => return (← p.leastWidth?) + (← q.leastWidth?)
  | .alt p q => return min (← p.leastWidth?) (← q.leastWidth?)
  | .rep p low _ => p.leastWidth?.map (· * low)
  | .capture p => p.leastWidth?

/-- Whether every match starts at the start of the text. -/
def isAnchoredAtStart : Pattern Test → Bool
  | .atom (.place .textStart) => true
  | .seq p q => p.isAnchoredAtStart || (p.isWidthless && q.isAnchoredAtStart)
  | .alt p q => p.isAnchoredAtStart && q.isAnchoredAtStart
  | .rep p low _ => 0 < low && p.isAnchoredAtStart
  | .capture p => p.isAnchoredAtStart
  | _ => false

/-- Whether every match ends at the end of the text. -/
def isAnchoredAtEnd : Pattern Test → Bool
  | .atom (.place .textEnd) => true
  | .seq p q => q.isAnchoredAtEnd || (q.isWidthless && p.isAnchoredAtEnd)
  | .alt p q => p.isAnchoredAtEnd && q.isAnchoredAtEnd
  | .rep p low _ => 0 < low && p.isAnchoredAtEnd
  | .capture p => p.isAnchoredAtEnd
  | _ => false

/-- The cost of `low` to `high` rounds of a pattern that costs `cost`. -/
def roundsCost (cost : Nat) (canBeEmpty : Bool) (low : Nat) : Option Nat → Nat
  | none =>
    if 0 < low then low * cost + branches 2
    else if canBeEmpty then cost + 2 * branches 2 + state
    else cost + branches 2
  | some high =>
    if low = high then low * cost
    else if low = 0 && high = 1 then cost + branches 2 + state
    else (if low = 0 then state else low * cost) + state + (high - low) * (cost + branches 2)

/-- The cost of a pattern, alone or as one of the choices of a larger pattern. -/
def cost (backwards : Bool) (asChoice : Bool) : Pattern Test → Nat
  | .alt p q =>
    let texts := if asChoice then none else (p.choices ++ q.choices).mapM text?
    match texts with
    | some texts => ofTexts backwards texts
    | none =>
      (if asChoice then 0 else branches 0 + state) + p.cost backwards true + q.cost backwards true
  | .empty => branch + state
  | .atom (.char s) => branch + ofSet backwards s
  | .atom (.place _) => branch + state
  | .seq p q => branch + p.cost backwards false + q.cost backwards false
  | .rep p low high =>
    branch + roundsCost (p.cost backwards false) (p.leastWidth?.getD 0 == 0) low high
  | .capture p => branch + p.cost backwards false + if backwards then 0 else 2 * state
where
  branch : Nat := if asChoice then 4 else 0

/-- The part of an automaton that finds the start of a match.  If matches start anywhere, it is a
loop over all bytes. -/
def entryCost (anchored : Bool) : Nat :=
  if anchored then state else branches 2 + ranges 1 + state

/-- The bytes that the automaton of a pattern takes, the larger one of the two. -/
def footprint (p : Pattern Test) : Nat :=
  max (entryCost p.isAnchoredAtStart + 2 * state + p.cost false false + state)
    (entryCost p.isAnchoredAtEnd + p.cost true false + state)

end Pattern

end Sexpr
