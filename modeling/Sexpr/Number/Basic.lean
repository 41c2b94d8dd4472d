import Sexpr.Number.Binary64

/-!
# Sexpr.Number.Basic

Numbers: machine integers, integers of any size and binary64 floats.

A number is one of three representations, and the representation can be seen (an
`int` and a `big` with the same value print differently in the unambiguous
spelling).  What two numbers *mean* is compared through `Number.exact`:

* integers of both kinds, and floats without a fractional part, mean an integer;
* other finite floats mean a fraction in lowest terms over a power of two;
* every not-a-number means the same.

Equality is equality of meanings.  The order `Number.compare?` is the one of integers where
both numbers mean one; otherwise both are rounded to floats (`Number.toFloat`) and these are
compared.
-/

namespace Sexpr

/-- A number in one of its representations. -/
inductive Number where
  | int (n : Int64)
  /-- An integer of any size, which need not be too large for `int`. -/
  | big (n : Int)
  | float (x : Float)
  deriving Inhabited

/-- What a number means, apart from its representation. -/
inductive Exact where
  | nan
  | infinite (negative : Bool)
  | integer (n : Int)
  /-- The fraction `numerator / 2 ^ scale`, in lowest terms and not an integer. -/
  | fraction (numerator : Int) (scale : Nat)
  deriving DecidableEq, Repr, Inhabited

namespace Exact

/-- Lowest terms of `m / 2 ^ k`, as numerator and scale. -/
def reduce : Nat → Nat → Nat × Nat
  | 0, m => (m, 0)
  | k + 1, m => if m % 2 = 0 then reduce k (m / 2) else (m, k + 1)

/-- A natural with a sign. -/
def signed (negative : Bool) (m : Nat) : Int := if negative then -(m : Int) else m

/-- The meaning of a float. -/
def ofBinary64 : Binary64 → Exact
  | .nan => .nan
  | .infinite negative => .infinite negative
  | .finite negative m (.ofNat e) => .integer (signed negative (m * Nat.pow 2 e))
  | .finite negative m (.negSucc e) =>
    match reduce (e + 1) m with
    | (n, 0) => .integer (signed negative n)
    | (n, k + 1) => .fraction (signed negative n) (k + 1)

end Exact

namespace Number

/-- The bounds of `int`. -/
def fitsInt (n : Int) : Bool := decide (-Int.pow 2 63 ≤ n ∧ n < Int.pow 2 63)

/-- The representation of an integer result: an `int` whenever it fits. -/
def ofInt (n : Int) : Number := if fitsInt n then .int (Int64.ofInt n) else .big n

/-- The integer a number holds, unless it is a float. -/
def integer? : Number → Option Int
  | .int n => some n.toInt
  | .big n => some n
  | .float _ => none

/-- What a number means. -/
def exact : Number → Exact
  | .int n => .integer n.toInt
  | .big n => .integer n
  | .float x => .ofBinary64 (.ofFloat x)

/-- Numbers are equal when they mean the same. -/
instance : BEq Number := ⟨fun a b => a.exact = b.exact⟩

/-- The 64 leading bits of a large natural, with zeros in place of the others.  The last of them
is also set if bits are found among the others.  These are looked for in the 64-bit digits below
the top one, in each of them among as many low bits as the top digit has. -/
def leading (n : Nat) : Nat :=
  let dropped := n.log2 - 63
  let topBits := n.log2 % 64 + 1
  let found := (List.range (n.log2 / 64)).any fun i =>
    n / Nat.pow 2 (64 * i) % Nat.pow 2 topBits != 0
  let kept := n / Nat.pow 2 dropped
  (if found && kept % 2 = 0 then kept + 1 else kept) * Nat.pow 2 dropped

/-- The nearest float, an even mantissa deciding a tie; an integer out of range becomes an
infinity.  An integer of more than 64 bits is rounded by its leading bits. -/
def toFloat : Number → Float
  | .int n => Float.ofInt n.toInt
  | .big n => Float.ofInt (Exact.signed (n < 0) (leading n.natAbs))
  | .float x => x

/-- Zero in any representation, either sign of a float included. -/
def isZero (a : Number) : Bool := a.exact = .integer 0

/-- The order of floats, of which not-a-numbers are no part. -/
def compareFloats (x y : Float) : Option Ordering :=
  match decide (x ≤ y), decide (y ≤ x) with
  | true, true => some .eq
  | true, false => some .lt
  | false, true => some .gt
  | false, false => none

/-- The order of numbers.  A not-a-number equals itself and is not ordered
against anything else.  Two integers are compared as such, and other numbers as floats. -/
def compare? (a b : Number) : Option Ordering :=
  match a.exact, b.exact with
  | .nan, .nan => some .eq
  | .nan, _ => none
  | _, .nan => none
  | .integer m, .integer n => some (compare m n)
  | _, _ => compareFloats a.toFloat b.toFloat

end Number

end Sexpr
