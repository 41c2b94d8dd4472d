import Sexpr.Number.Basic

/-!
# Sexpr.Number.Text

The text of a number.

Integers are written in decimal.  A float is written with the fewest digits
that read back, never with an exponent and without a point when nothing follows
it; `-0` keeps its sign.

The reals that round to `mantissa * 2 ^ exponent` form an interval: half a unit
of the last place to each side, only a quarter below a power of two, and the ends
belong to it when the mantissa is even.  A decimal reads back as the number
exactly when it lies in this interval.  `Decimal.shortest` tries the decimals of 1, 2, … 17
significant digits in turn.  On each such grid only the two neighbours of the
number need a look, and the first grid with a neighbour inside the interval wins; of
two neighbours inside, the nearer one is taken and an even split goes up.
-/

namespace Sexpr

/-- The decimal `digits * 10 ^ exponent`. -/
structure Decimal where
  digits : Nat
  exponent : Int
  deriving DecidableEq, Repr, Inhabited

namespace Decimal

/-- A positive number and the interval of reals that round to it, all three over
one denominator. -/
structure Target where
  value : Nat
  low : Nat
  high : Nat
  denominator : Nat
  /-- Whether the ends of the interval round to the number too. -/
  closed : Bool

/-- The interval around `mantissa * 2 ^ exponent`, counted in quarters of a unit
of the last place. -/
def Target.of (mantissa : Nat) (exponent : Int) : Target :=
  let below := if mantissa = Nat.pow 2 52 then 1 else 2
  let up := Nat.pow 2 (exponent - 2).toNat
  { value := 4 * mantissa * up
    low := (4 * mantissa - below) * up
    high := (4 * mantissa + 2) * up
    denominator := Nat.pow 2 (2 - exponent).toNat
    closed := mantissa % 2 = 0 }

/-- The number of digits before the decimal point; zero or less when the number
is below one.  No binary64 number is smaller than `10 ^ -340`. -/
def Target.magnitude (t : Target) : Int :=
  (Nat.toDigits 10 (t.value * Nat.pow 10 340 / t.denominator)).length - 340

/-- Whether `c * 10 ^ place` rounds to the number. -/
def Target.admits (t : Target) (place : Int) (c : Nat) : Bool :=
  let point := c * t.denominator * Nat.pow 10 place.toNat
  let low := t.low * Nat.pow 10 (-place).toNat
  let high := t.high * Nat.pow 10 (-place).toNat
  if t.closed then decide (low ≤ point ∧ point ≤ high) else decide (low < point ∧ point < high)

/-- The multiple of `10 ^ place` that reads back, if a neighbour of the number on
that grid does. -/
def Target.onGrid (t : Target) (place : Int) : Option Nat :=
  let value := t.value * Nat.pow 10 (-place).toNat
  let unit := t.denominator * Nat.pow 10 place.toNat
  let floor := value / unit
  match t.admits place floor, t.admits place (floor + 1) with
  | true, true => some (if 2 * (value % unit) < unit then floor else floor + 1)
  | true, false => some floor
  | false, true => some (floor + 1)
  | false, false => none

/-- The first grid from `count` digits on, of `left` to try, with a decimal that reads back. -/
def Target.search (t : Target) (magnitude : Int) (count : Nat) : Nat → Decimal
  | 0 => ⟨t.value, 0⟩
  | left + 1 =>
    let place := magnitude - count
    match t.onGrid place with
    | some c => ⟨c, place⟩
    | none => t.search magnitude (count + 1) left

/-- The shortest decimal that reads back as `mantissa * 2 ^ exponent`, for a
positive mantissa. -/
def shortest (mantissa : Nat) (exponent : Int) : Decimal :=
  let t := Target.of mantissa exponent
  t.search t.magnitude 1 17

/-- A digit list without the zeros at its end. -/
def dropZeros (digits : List Char) : List Char :=
  (digits.reverse.dropWhile (· = '0')).reverse

/-- Positional text, without an exponent and without zeros after the last decimal. -/
def positional (d : Decimal) : String :=
  let digits := Nat.toDigits 10 d.digits
  match d.exponent with
  | .ofNat zeros => String.ofList (digits ++ List.replicate zeros '0')
  | .negSucc n =>
    let places := n + 1
    let padded := List.replicate (places + 1 - digits.length) '0' ++ digits
    let whole := padded.take (padded.length - places)
    let decimals := dropZeros (padded.drop (padded.length - places))
    String.ofList (if decimals.isEmpty then whole else whole ++ '.' :: decimals)

end Decimal

namespace Binary64

/-- The text of a float. -/
def text : Binary64 → String
  | .nan => "NaN"
  | .infinite false => "+Inf"
  | .infinite true => "-Inf"
  | .finite negative m e =>
    (if negative then "-" else "") ++
      (if m = 0 then "0" else (Decimal.shortest m e).positional)

end Binary64

namespace Number

/-- The text of a number. -/
def text : Number → String
  | .int n => n.toInt.repr
  | .big n => n.repr
  | .float x => (Binary64.ofFloat x).text

end Number

end Sexpr
