import Sexpr.Number.Basic

/-!
# Sexpr.Number.Arithmetic

Mixed arithmetic.

Two integers give the exact result, an `int` whenever it fits and a `big`
otherwise; as soon as one operand is a float both are taken as floats.  Two `int`s are combined as
words of 64 bits first, and as integers of any size only where the words overflow.  A quotient of
integers that leaves a remainder is a float.  `Number.pow` is exact for an integer base
and an `int` exponent that is not negative, and refuses a power when a lower bound of its
size passes `powerBitLimit`.
-/

namespace Sexpr

/-- Why an arithmetic operation has no result. -/
inductive ArithmeticError where
  | divisionByZero
  | remainderByZero
  | powerTooLarge (base : Number) (exponent : Nat)
  deriving Inhabited

namespace Number

/-! ## Words -/

/-- An operation on words of 64 bits, unless it overflows. -/
def checked (overflows : Int64 → Int64 → Bool) (op : Int64 → Int64 → Int64) (m n : Int64) :
    Option Int64 :=
  if overflows m n then none else some (op m n)

def checkedAdd : Int64 → Int64 → Option Int64 :=
  checked (fun m n => m.toBitVec.saddOverflow n.toBitVec) (· + ·)

def checkedSub : Int64 → Int64 → Option Int64 :=
  checked (fun m n => m.toBitVec.ssubOverflow n.toBitVec) (· - ·)

def checkedMul : Int64 → Int64 → Option Int64 :=
  checked (fun m n => m.toBitVec.smulOverflow n.toBitVec) (· * ·)

/-- Whether a division of words has no quotient: by zero, or where the quotient is one more than the
largest word. -/
def divisionOverflows (m n : Int64) : Bool := n == 0 || (m == Int64.minValue && n == -1)

def checkedDiv : Int64 → Int64 → Option Int64 := checked divisionOverflows (· / ·)

def checkedRem : Int64 → Int64 → Option Int64 := checked divisionOverflows (· % ·)

/-! ## Numbers -/

/-- Applies an operation to two numbers: to two words as long as it does not overflow, to integers
of any size otherwise, and to floats where one of the numbers is a float. -/
def lift (wordOp : Int64 → Int64 → Option Int64) (exactOp : Int → Int → Int)
    (floatOp : Float → Float → Float) (a b : Number) : Number :=
  match a, b with
  | .int m, .int n =>
    match wordOp m n with
    | some r => .int r
    | none => ofInt (exactOp m.toInt n.toInt)
  | a, b =>
    match a.integer?, b.integer? with
    | some m, some n => ofInt (exactOp m n)
    | _, _ => .float (floatOp a.toFloat b.toFloat)

def add (a b : Number) : Number := lift checkedAdd (· + ·) (· + ·) a b

def sub (a b : Number) : Number := lift checkedSub (· - ·) (· - ·) a b

def mul (a b : Number) : Number := lift checkedMul (· * ·) (· * ·) a b

/-- The quotient of two words that leaves no remainder. -/
def wordQuotient? : Number → Number → Option Number
  | .int m, .int n =>
    if checkedRem m n = some 0 then
      match checkedDiv m n with
      | some q => some (.int q)
      | none => some (ofInt (m.toInt.tdiv n.toInt))
    else none
  | _, _ => none

/-- Exact when both operands are integers and nothing remains, a float otherwise. -/
def div (a b : Number) : Except ArithmeticError Number :=
  if b.isZero then .error .divisionByZero
  else
    match wordQuotient? a b with
    | some q => .ok q
    | none =>
      match a.integer?, b.integer? with
      | some m, some n =>
        if m.tmod n = 0 then .ok (ofInt (m.tdiv n)) else .ok (.float (a.toFloat / b.toFloat))
      | _, _ => .ok (.float (a.toFloat / b.toFloat))

/-- The remainder of two floats, with the sign of the first. -/
def floatRemainder (x y : Float) : Float :=
  (Binary64.remainder (.ofFloat x) (.ofFloat y)).toFloat

/-- The remainder of the truncating division, with the sign of the first operand. -/
def rem (a b : Number) : Except ArithmeticError Number :=
  if b.isZero then .error .remainderByZero
  else .ok (lift checkedRem Int.tmod floatRemainder a b)

/-- The largest size of an integer power, in bits. -/
def powerBitLimit : Nat := Nat.pow 2 20

/-- A product of words of 64 bits; the largest word stands for every product beyond it. -/
def wordProduct (m n : Nat) : Nat := min (m * n) (Nat.pow 2 64 - 1)

/-- An integer power, by the power of the absolute value. -/
def powInt (base : Int) (exponent : Nat) : Int :=
  Exact.signed (decide (base < 0 ∧ exponent % 2 = 1)) (base.natAbs.pow exponent)

/-- An integer power, refused when a lower bound of its size passes `powerBitLimit`.
The powers of `0`, `1` and `-1` never grow.  Any other power is computed with the exponent as a
word of 32 bits. -/
def integerPower (self : Number) (base : Int) (exponent : Nat) : Except ArithmeticError Number :=
  if base.natAbs ≤ 1 then
    .ok (ofInt (if exponent = 0 then 1 else if exponent % 2 = 0 then base.natAbs else base))
  else if powerBitLimit < wordProduct base.natAbs.log2 exponent then
    .error (.powerTooLarge self exponent)
  else
    .ok (ofInt (powInt base exponent.toUInt32.toNat))

/-- Exact for an integer base and an `int` exponent that is not negative, a float otherwise. -/
def pow (a b : Number) : Except ArithmeticError Number :=
  match a.integer?, b with
  | some base, .int e =>
    if 0 ≤ e.toInt then integerPower a base e.toInt.toNat
    else .ok (.float (a.toFloat.pow b.toFloat))
  | _, _ => .ok (.float (a.toFloat.pow b.toFloat))

end Number

end Sexpr
