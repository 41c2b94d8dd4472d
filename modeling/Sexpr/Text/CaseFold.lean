/-!
# Sexpr.Text.CaseFold

Simple case folding: which characters differ in case only.

Unicode maps every character to one folded character, and two characters differ
in case only when they fold alike.  The folding is given as runs: every
`stride`-th character from `low` to `high` moves by `delta`, and a character in
no run folds to itself.
-/

namespace Sexpr

/-- A run of characters that fold by the same distance. -/
structure FoldRun where
  low : Nat
  high : Nat
  stride : Nat
  delta : Int

namespace FoldRun

/-- The code points of the run. -/
def members (r : FoldRun) : List Nat :=
  (List.range ((r.high - r.low) / r.stride + 1)).map fun i => r.low + i * r.stride

/-- The code points of the run, each with the one it folds to. -/
def pairs (r : FoldRun) : List (Nat × Nat) := r.members.map fun n => (n, (n + r.delta).toNat)

/-- A run from its four numbers. -/
def ofRow : Nat × Nat × Nat × Int → FoldRun
  | (low, high, stride, delta) => { low, high, stride, delta }

end FoldRun

/-- The runs in ascending order: low, high, stride, delta. -/
def foldRows : List (Nat × Nat × Nat × Int) :=
  [(0x0041, 0x005a, 1, 32), (0x00b5, 0x00b5, 1, 775), (0x00c0, 0x00d6, 1, 32),
    (0x00d8, 0x00de, 1, 32), (0x0100, 0x012e, 2, 1), (0x0132, 0x0136, 2, 1),
    (0x0139, 0x0147, 2, 1), (0x014a, 0x0176, 2, 1), (0x0178, 0x0178, 1, -121),
    (0x0179, 0x017d, 2, 1), (0x017f, 0x017f, 1, -268), (0x0181, 0x0181, 1, 210),
    (0x0182, 0x0184, 2, 1), (0x0186, 0x0186, 1, 206), (0x0187, 0x0187, 1, 1),
    (0x0189, 0x018a, 1, 205), (0x018b, 0x018b, 1, 1), (0x018e, 0x018e, 1, 79),
    (0x018f, 0x018f, 1, 202), (0x0190, 0x0190, 1, 203), (0x0191, 0x0191, 1, 1),
    (0x0193, 0x0193, 1, 205), (0x0194, 0x0194, 1, 207), (0x0196, 0x0196, 1, 211),
    (0x0197, 0x0197, 1, 209), (0x0198, 0x0198, 1, 1), (0x019c, 0x019c, 1, 211),
    (0x019d, 0x019d, 1, 213), (0x019f, 0x019f, 1, 214), (0x01a0, 0x01a4, 2, 1),
    (0x01a6, 0x01a6, 1, 218), (0x01a7, 0x01a7, 1, 1), (0x01a9, 0x01a9, 1, 218),
    (0x01ac, 0x01ac, 1, 1), (0x01ae, 0x01ae, 1, 218), (0x01af, 0x01af, 1, 1),
    (0x01b1, 0x01b2, 1, 217), (0x01b3, 0x01b5, 2, 1), (0x01b7, 0x01b7, 1, 219),
    (0x01b8, 0x01b8, 1, 1), (0x01bc, 0x01bc, 1, 1), (0x01c4, 0x01c4, 1, 2),
    (0x01c5, 0x01c5, 1, 1), (0x01c7, 0x01c7, 1, 2), (0x01c8, 0x01c8, 1, 1),
    (0x01ca, 0x01ca, 1, 2), (0x01cb, 0x01db, 2, 1), (0x01de, 0x01ee, 2, 1),
    (0x01f1, 0x01f1, 1, 2), (0x01f2, 0x01f4, 2, 1), (0x01f6, 0x01f6, 1, -97),
    (0x01f7, 0x01f7, 1, -56), (0x01f8, 0x021e, 2, 1), (0x0220, 0x0220, 1, -130),
    (0x0222, 0x0232, 2, 1), (0x023a, 0x023a, 1, 10795), (0x023b, 0x023b, 1, 1),
    (0x023d, 0x023d, 1, -163), (0x023e, 0x023e, 1, 10792), (0x0241, 0x0241, 1, 1),
    (0x0243, 0x0243, 1, -195), (0x0244, 0x0244, 1, 69), (0x0245, 0x0245, 1, 71),
    (0x0246, 0x024e, 2, 1), (0x0345, 0x0345, 1, 116), (0x0370, 0x0372, 2, 1),
    (0x0376, 0x0376, 1, 1), (0x037f, 0x037f, 1, 116), (0x0386, 0x0386, 1, 38),
    (0x0388, 0x038a, 1, 37), (0x038c, 0x038c, 1, 64), (0x038e, 0x038f, 1, 63),
    (0x0391, 0x03a1, 1, 32), (0x03a3, 0x03ab, 1, 32), (0x03c2, 0x03c2, 1, 1),
    (0x03cf, 0x03cf, 1, 8), (0x03d0, 0x03d0, 1, -30), (0x03d1, 0x03d1, 1, -25),
    (0x03d5, 0x03d5, 1, -15), (0x03d6, 0x03d6, 1, -22), (0x03d8, 0x03ee, 2, 1),
    (0x03f0, 0x03f0, 1, -54), (0x03f1, 0x03f1, 1, -48), (0x03f4, 0x03f4, 1, -60),
    (0x03f5, 0x03f5, 1, -64), (0x03f7, 0x03f7, 1, 1), (0x03f9, 0x03f9, 1, -7),
    (0x03fa, 0x03fa, 1, 1), (0x03fd, 0x03ff, 1, -130), (0x0400, 0x040f, 1, 80),
    (0x0410, 0x042f, 1, 32), (0x0460, 0x0480, 2, 1), (0x048a, 0x04be, 2, 1),
    (0x04c0, 0x04c0, 1, 15), (0x04c1, 0x04cd, 2, 1), (0x04d0, 0x052e, 2, 1),
    (0x0531, 0x0556, 1, 48), (0x10a0, 0x10c5, 1, 7264), (0x10c7, 0x10c7, 1, 7264),
    (0x10cd, 0x10cd, 1, 7264), (0x13f8, 0x13fd, 1, -8), (0x1c80, 0x1c80, 1, -6222),
    (0x1c81, 0x1c81, 1, -6221), (0x1c82, 0x1c82, 1, -6212), (0x1c83, 0x1c84, 1, -6210),
    (0x1c85, 0x1c85, 1, -6211), (0x1c86, 0x1c86, 1, -6204), (0x1c87, 0x1c87, 1, -6180),
    (0x1c88, 0x1c88, 1, 35267), (0x1c89, 0x1c89, 1, 1), (0x1c90, 0x1cba, 1, -3008),
    (0x1cbd, 0x1cbf, 1, -3008), (0x1e00, 0x1e94, 2, 1), (0x1e9b, 0x1e9b, 1, -58),
    (0x1e9e, 0x1e9e, 1, -7615), (0x1ea0, 0x1efe, 2, 1), (0x1f08, 0x1f0f, 1, -8),
    (0x1f18, 0x1f1d, 1, -8), (0x1f28, 0x1f2f, 1, -8), (0x1f38, 0x1f3f, 1, -8),
    (0x1f48, 0x1f4d, 1, -8), (0x1f59, 0x1f5f, 2, -8), (0x1f68, 0x1f6f, 1, -8),
    (0x1f88, 0x1f8f, 1, -8), (0x1f98, 0x1f9f, 1, -8), (0x1fa8, 0x1faf, 1, -8),
    (0x1fb8, 0x1fb9, 1, -8), (0x1fba, 0x1fbb, 1, -74), (0x1fbc, 0x1fbc, 1, -9),
    (0x1fbe, 0x1fbe, 1, -7173), (0x1fc8, 0x1fcb, 1, -86), (0x1fcc, 0x1fcc, 1, -9),
    (0x1fd3, 0x1fd3, 1, -7235), (0x1fd8, 0x1fd9, 1, -8), (0x1fda, 0x1fdb, 1, -100),
    (0x1fe3, 0x1fe3, 1, -7219), (0x1fe8, 0x1fe9, 1, -8), (0x1fea, 0x1feb, 1, -112),
    (0x1fec, 0x1fec, 1, -7), (0x1ff8, 0x1ff9, 1, -128), (0x1ffa, 0x1ffb, 1, -126),
    (0x1ffc, 0x1ffc, 1, -9), (0x2126, 0x2126, 1, -7517), (0x212a, 0x212a, 1, -8383),
    (0x212b, 0x212b, 1, -8262), (0x2132, 0x2132, 1, 28), (0x2160, 0x216f, 1, 16),
    (0x2183, 0x2183, 1, 1), (0x24b6, 0x24cf, 1, 26), (0x2c00, 0x2c2f, 1, 48),
    (0x2c60, 0x2c60, 1, 1), (0x2c62, 0x2c62, 1, -10743), (0x2c63, 0x2c63, 1, -3814),
    (0x2c64, 0x2c64, 1, -10727), (0x2c67, 0x2c6b, 2, 1), (0x2c6d, 0x2c6d, 1, -10780),
    (0x2c6e, 0x2c6e, 1, -10749), (0x2c6f, 0x2c6f, 1, -10783), (0x2c70, 0x2c70, 1, -10782),
    (0x2c72, 0x2c72, 1, 1), (0x2c75, 0x2c75, 1, 1), (0x2c7e, 0x2c7f, 1, -10815),
    (0x2c80, 0x2ce2, 2, 1), (0x2ceb, 0x2ced, 2, 1), (0x2cf2, 0x2cf2, 1, 1),
    (0xa640, 0xa66c, 2, 1), (0xa680, 0xa69a, 2, 1), (0xa722, 0xa72e, 2, 1),
    (0xa732, 0xa76e, 2, 1), (0xa779, 0xa77b, 2, 1), (0xa77d, 0xa77d, 1, -35332),
    (0xa77e, 0xa786, 2, 1), (0xa78b, 0xa78b, 1, 1), (0xa78d, 0xa78d, 1, -42280),
    (0xa790, 0xa792, 2, 1), (0xa796, 0xa7a8, 2, 1), (0xa7aa, 0xa7aa, 1, -42308),
    (0xa7ab, 0xa7ab, 1, -42319), (0xa7ac, 0xa7ac, 1, -42315), (0xa7ad, 0xa7ad, 1, -42305),
    (0xa7ae, 0xa7ae, 1, -42308), (0xa7b0, 0xa7b0, 1, -42258), (0xa7b1, 0xa7b1, 1, -42282),
    (0xa7b2, 0xa7b2, 1, -42261), (0xa7b3, 0xa7b3, 1, 928), (0xa7b4, 0xa7c2, 2, 1),
    (0xa7c4, 0xa7c4, 1, -48), (0xa7c5, 0xa7c5, 1, -42307), (0xa7c6, 0xa7c6, 1, -35384),
    (0xa7c7, 0xa7c9, 2, 1), (0xa7cb, 0xa7cb, 1, -42343), (0xa7cc, 0xa7cc, 1, 1),
    (0xa7d0, 0xa7d0, 1, 1), (0xa7d6, 0xa7da, 2, 1), (0xa7dc, 0xa7dc, 1, -42561),
    (0xa7f5, 0xa7f5, 1, 1), (0xab70, 0xabbf, 1, -38864), (0xfb05, 0xfb05, 1, 1),
    (0xff21, 0xff3a, 1, 32), (0x10400, 0x10427, 1, 40), (0x104b0, 0x104d3, 1, 40),
    (0x10570, 0x1057a, 1, 39), (0x1057c, 0x1058a, 1, 39), (0x1058c, 0x10592, 1, 39),
    (0x10594, 0x10595, 1, 39), (0x10c80, 0x10cb2, 1, 64), (0x10d50, 0x10d65, 1, 32),
    (0x118a0, 0x118bf, 1, 32), (0x16e40, 0x16e5f, 1, 32), (0x1e900, 0x1e921, 1, 34)]

/-- The runs of the simple case folding. -/
def foldRuns : List FoldRun := foldRows.map .ofRow

/-- The code points that do not fold to themselves, each with the one it folds to. -/
def foldPairs : List (Nat × Nat) := foldRuns.flatMap FoldRun.pairs

end Sexpr
