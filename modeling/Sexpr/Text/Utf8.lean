/-!
# Sexpr.Text.Utf8

Ranges of code points as sequences of byte ranges.

The characters of a range are encoded by one to four bytes.  The range is cut into parts in
which every byte runs through a range of its own:

```
U+0000 .. U+10FFFF  =  [00-7F]
                    |  [C2-DF][80-BF]
                    |  [E0][A0-BF][80-BF]  |  [E1-EC][80-BF][80-BF]  |  ...
```
-/

namespace Sexpr

/-- The byte ranges for one part of a range of code points, the leading byte first. -/
abbrev ByteSeq := List (Nat × Nat)

/-- The sequences for the numbers from `low` to `high`, written as a byte above `lead` and `n`
bytes of six bits each. -/
def byteSeqsFrom : Nat → Nat → Nat → Nat → List ByteSeq
  | 0, lead, low, high => [[(lead + low, lead + high)]]
  | n + 1, lead, low, high =>
    let unit := Nat.pow 64 (n + 1)
    let first := low / unit
    let last := high / unit
    let under (b : Nat) (seqs : List ByteSeq) := seqs.map ((lead + b, lead + b) :: ·)
    if first = last then
      under first (byteSeqsFrom n 0x80 (low % unit) (high % unit))
    else
      let cutFirst := low % unit != 0
      let cutLast := high % unit != unit - 1
      let first' := if cutFirst then first + 1 else first
      let last' := if cutLast then last - 1 else last
      (if cutFirst then under first (byteSeqsFrom n 0x80 (low % unit) (unit - 1)) else []) ++
        (if first' ≤ last' then
          [(lead + first', lead + last') :: List.replicate (n + 1) (0x80, 0xbf)]
        else []) ++
        (if cutLast then under last (byteSeqsFrom n 0x80 0 (high % unit)) else [])

/-- The code points that are encoded alike: first, last, the number of bytes after the leading one,
and what is added to the leading one.  The surrogates are left out. -/
def utf8Blocks : List (Nat × Nat × Nat × Nat) :=
  [(0x0, 0x7f, 0, 0x0), (0x80, 0x7ff, 1, 0xc0), (0x800, 0xd7ff, 2, 0xe0),
    (0xe000, 0xffff, 2, 0xe0), (0x10000, 0x10ffff, 3, 0xf0)]

/-- The sequences for a range of code points, in ascending order. -/
def byteSeqs (low high : Nat) : List ByteSeq :=
  utf8Blocks.flatMap fun (first, last, n, lead) =>
    let a := max low first
    let b := min high last
    if a ≤ b then byteSeqsFrom n lead a b else []

end Sexpr
