/-!
# Sexpr.Number.Binary64

The exact meaning of a binary64 float.

A float is read from its 64 bits:

```
sign (1 bit) | biased exponent (11 bits) | fraction (52 bits)
```

A biased exponent of 2047 marks the infinities and the not-a-numbers, 0 marks
the subnormal numbers, and anything else a number with a hidden leading bit.
`Binary64.ofFloat` splits a float along these lines, `Binary64.toFloat` puts an
exactly representable number back together, and `Binary64.remainder` is the
remainder of a truncating division, which is always representable.
-/

namespace Sexpr

/-- What the bits of a float say. -/
inductive Binary64 where
  | nan
  | infinite (negative : Bool)
  /-- The number `± mantissa * 2 ^ exponent`. -/
  | finite (negative : Bool) (mantissa : Nat) (exponent : Int)
  deriving DecidableEq, Repr, Inhabited

namespace Binary64

/-- The number of fraction bits. -/
def fractionBits : Nat := 52

/-- The exponent of the last bit of a subnormal number, the least there is. -/
def minExponent : Int := -1074

/-- Splits a float into sign, mantissa and exponent. -/
def ofFloat (x : Float) : Binary64 :=
  let bits := x.toBits.toNat
  let negative := decide (Nat.pow 2 63 ≤ bits)
  let biased : Nat := bits / Nat.pow 2 fractionBits % Nat.pow 2 11
  let fraction := bits % Nat.pow 2 fractionBits
  if biased = 2047 then
    if fraction = 0 then .infinite negative else .nan
  else if biased = 0 then
    .finite negative fraction minExponent
  else
    .finite negative (Nat.pow 2 fractionBits + fraction) (biased + minExponent - 1)

/-- The bits of `± mantissa * 2 ^ exponent`.  The number has to be
representable: the mantissa has at most 53 bits and, where the exponent is
shifted down to make the leading bit the hidden one, enough room is left. -/
def pack (negative : Bool) (mantissa : Nat) (exponent : Int) : UInt64 :=
  let sign := if negative then Nat.pow 2 63 else 0
  if mantissa = 0 then
    UInt64.ofNat sign
  else
    let shift := min (fractionBits - mantissa.log2) (exponent - minExponent).toNat
    let mantissa := mantissa * Nat.pow 2 shift
    if mantissa < Nat.pow 2 fractionBits then
      UInt64.ofNat (sign + mantissa)
    else
      let biased := (exponent - shift - minExponent + 1).toNat
      UInt64.ofNat (sign + biased * Nat.pow 2 fractionBits + (mantissa - Nat.pow 2 fractionBits))

/-- The float with this meaning. -/
def toFloat : Binary64 → Float
  | .nan => Float.ofBits 0x7ff8000000000000
  | .infinite false => Float.ofBits 0x7ff0000000000000
  | .infinite true => Float.ofBits 0xfff0000000000000
  | .finite negative mantissa exponent => Float.ofBits (pack negative mantissa exponent)

/-- The remainder of the division that truncates its quotient.  It has the sign
of the dividend.  Both numbers are brought to the smaller of their exponents,
where the remainder is one of naturals. -/
def remainder : Binary64 → Binary64 → Binary64
  | .finite negative m e, .finite _ n f =>
    if n = 0 then .nan
    else
      let low := min e f
      .finite negative ((m * Nat.pow 2 (e - low).toNat) % (n * Nat.pow 2 (f - low).toNat)) low
  | .finite negative m e, .infinite _ => .finite negative m e
  | _, _ => .nan

end Binary64

end Sexpr
