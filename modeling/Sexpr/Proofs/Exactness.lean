import Mathlib
import Sexpr.Proofs.NumberOrder

/-!
# Sexpr.Proofs.Exactness

Finite numbers are compared exactly.

The bits of a finite float denote a rational (`Binary64.denoted`):

```
(-1) ^ sign * (1 + fraction / 2 ^ 52) * 2 ^ (biased - 1023)
```

with `0` for the hidden bit and the least exponent where the biased exponent is zero.  Two finite
numbers are equal exactly when they stand for the same rational, and compare as their rationals do,
although one of them may be rounded on the way.
-/

namespace Sexpr

namespace Binary64

/-! ## bits -/

/-- The biased exponent. -/
def biased (bits : Nat) : Nat := bits / 2 ^ 52 % 2 ^ 11

/-- The bits of the fraction. -/
def fraction (bits : Nat) : Nat := bits % 2 ^ 52

/-- The rational that the bits of a finite float denote. -/
def denoted (bits : Nat) : ℚ :=
  let sign : ℚ := (-1) ^ (bits / 2 ^ 63)
  let fraction : ℚ := fraction bits / 2 ^ 52
  if biased bits = 0 then sign * fraction * 2 ^ (-1022 : Int)
  else sign * (1 + fraction) * 2 ^ ((biased bits : Int) - 1023)

variable {x : Float}

theorem signed_eq_sign_mul {bits : Nat} (h : bits < 2 ^ 64) (m : Nat) :
    (Exact.signed (decide (2 ^ 63 ≤ bits)) m : ℚ) = (-1) ^ (bits / 2 ^ 63) * m := by
  rw [Exact.signed_cast]
  rcases Nat.lt_or_ge bits (2 ^ 63) with hlt | hge
  · have hsign : bits / 2 ^ 63 = 0 := by omega
    rw [hsign, decide_eq_false (Nat.not_le.2 hlt), if_neg Bool.false_ne_true, pow_zero, one_mul]
  · have hsign : bits / 2 ^ 63 = 1 := by omega
    rw [hsign, decide_eq_true hge, if_pos rfl, pow_one, neg_one_mul]

/-- A finite float is read as what its bits denote. -/
theorem ofFloat_of_finite (h : biased x.toBits.toNat ≠ 2047) :
    ∃ negative m e, ofFloat x = .finite negative m e ∧
      denoted x.toBits.toNat = Exact.signed negative m * 2 ^ e := by
  have hbits : x.toBits.toNat < 2 ^ 64 := x.toBits.toNat_lt
  have hfinite : ofFloat x = if biased x.toBits.toNat = 0 then
      .finite (decide (2 ^ 63 ≤ x.toBits.toNat)) (fraction x.toBits.toNat) minExponent
    else .finite (decide (2 ^ 63 ≤ x.toBits.toNat)) (2 ^ 52 + fraction x.toBits.toNat)
      (biased x.toBits.toNat + minExponent - 1) := if_neg h
  have hscale : ∀ t : Int, (2 : ℚ) ^ (t - 52) = 2 ^ t / 2 ^ 52 :=
    fun t => zpow_sub₀ two_ne_zero t 52
  by_cases hsubnormal : biased x.toBits.toNat = 0
  · refine ⟨_, _, _, hfinite.trans (if_pos hsubnormal), ?_⟩
    have hexponent : minExponent = -1022 - 52 := rfl
    rw [denoted, if_pos hsubnormal, signed_eq_sign_mul hbits, hexponent, hscale]
    ring
  · refine ⟨_, _, _, hfinite.trans (if_neg hsubnormal), ?_⟩
    have hexponent : biased x.toBits.toNat + minExponent - 1 =
        (biased x.toBits.toNat : Int) - 1023 - 52 := by
      unfold minExponent
      omega
    rw [denoted, if_neg hsubnormal, signed_eq_sign_mul hbits, hexponent, hscale]
    push_cast
    ring

theorem ofFloat_eq_nan_iff (x : Float) :
    ofFloat x = .nan ↔ biased x.toBits.toNat = 2047 ∧ fraction x.toBits.toNat ≠ 0 := by
  by_cases hspecial : biased x.toBits.toNat = 2047
  · have hread : ofFloat x = if fraction x.toBits.toNat = 0
        then .infinite (decide (2 ^ 63 ≤ x.toBits.toNat)) else .nan := if_pos hspecial
    rw [hread]
    split <;> simp [*]
  · obtain ⟨negative, m, e, hread, -⟩ := ofFloat_of_finite hspecial
    simp [hread, hspecial]

end Binary64

namespace Exact

variable {x : Exact} {q : ℚ}

/-- Clamping does not move a number past a place near zero. -/
theorem IsFinite.cmp_clamped (h : x.IsFinite) (hq : |q| < 2 ^ 53) :
    cmp x.clamped (onLine q) = cmp x.rational q := by
  obtain ⟨hlow, hhigh⟩ := abs_lt.1 hq
  by_cases hinteger : ∃ n, x = .integer n
  · obtain ⟨n, rfl⟩ := hinteger
    have hfar : (2 : ℤ) ^ 53 ≤ floatOverflow := by decide +kernel
    rw [clamped_integer, rational_integer]
    split_ifs with habove hbelow
    · have hn : (2 : ℚ) ^ 53 ≤ n := by exact_mod_cast hfar.trans ((beyond_false_iff n).1 habove)
      rw [cmp_top_onLine, (cmp_eq_gt_iff (n : ℚ) q).2 (hhigh.trans_le hn)]
    · have hn : (n : ℚ) ≤ -2 ^ 53 := by
        exact_mod_cast ((beyond_true_iff n).1 hbelow).trans (neg_le_neg hfar)
      rw [cmp_bot_onLine, (cmp_eq_lt_iff (n : ℚ) q).2 (hn.trans_lt hlow)]
    · exact cmp_onLine _ _
  · rw [clamped, saturate_of_ne_integer (not_exists.1 hinteger), place_of_isFinite h, cmp_onLine]

end Exact

namespace Number

/-- The rational that a number stands for, unless it is an infinity or a not-a-number. -/
def rational? : Number → Option ℚ
  | .int n => some n.toInt
  | .big n => some n
  | .float x =>
    if Binary64.biased x.toBits.toNat = 2047 then none else some (Binary64.denoted x.toBits.toNat)

/-- A not-a-number has the largest exponent and a fraction. -/
def IsNan : Number → Prop
  | .float x => Binary64.biased x.toBits.toNat = 2047 ∧ Binary64.fraction x.toBits.toNat ≠ 0
  | _ => False

instance : DecidablePred IsNan
  | .float _ => inferInstanceAs (Decidable (_ ∧ _))
  | .int _ => inferInstanceAs (Decidable False)
  | .big _ => inferInstanceAs (Decidable False)

theorem exact_eq_nan_iff (a : Number) : a.exact = .nan ↔ a.IsNan := by
  cases a with
  | int n => exact iff_of_false Exact.noConfusion id
  | big n => exact iff_of_false Exact.noConfusion id
  | float x =>
    refine Iff.trans ?_ (Binary64.ofFloat_eq_nan_iff x)
    show Exact.ofBinary64 (.ofFloat x) = .nan ↔ _
    cases Binary64.ofFloat x with
    | nan => exact iff_of_true rfl rfl
    | infinite s => exact iff_of_false Exact.noConfusion Binary64.noConfusion
    | finite s m e => exact iff_of_false (Exact.ofBinary64_finite_ne_nan s m e) Binary64.noConfusion

theorem place_of_rational? {a : Number} {q : ℚ} (h : a.rational? = some q) :
    a.exact ≠ .nan ∧ a.exact.place = Exact.onLine q := by
  cases a with
  | int n =>
    cases h
    exact ⟨Exact.noConfusion, Exact.place_integer _⟩
  | big n =>
    cases h
    exact ⟨Exact.noConfusion, Exact.place_integer _⟩
  | float x =>
    by_cases hspecial : Binary64.biased x.toBits.toNat = 2047
    · rw [rational?, if_pos hspecial] at h
      cases h
    · rw [rational?, if_neg hspecial, Option.some.injEq] at h
      obtain ⟨negative, m, e, hread, hdenoted⟩ := Binary64.ofFloat_of_finite hspecial
      have hexact : (Number.float x).exact = .ofBinary64 (.finite negative m e) :=
        congrArg Exact.ofBinary64 hread
      rw [hexact, ← h, hdenoted]
      exact ⟨Exact.ofBinary64_finite_ne_nan _ _ _, Exact.place_ofBinary64_finite _ _ _⟩

/-- A number that stands for a rational is finite, and means that rational. -/
theorem isFinite_of_rational? {a : Number} {q : ℚ} (h : a.rational? = some q) :
    a.exact.IsFinite ∧ a.exact.rational = q := by
  obtain ⟨hnan, hplace⟩ := place_of_rational? h
  rcases Exact.isFinite_or_infinite hnan with hfinite | ⟨s, hs⟩
  · rw [Exact.place_of_isFinite hfinite] at hplace
    exact ⟨hfinite, Exact.onLine_strictMono.injective hplace⟩
  · rw [hs] at hplace
    exact absurd hplace (Exact.place_infinite_ne_onLine s q)

/-! ## the comparison of finite numbers -/

/-- A finite number with a fractional part keeps its place, which is near zero. -/
theorem near_of_fraction {a : Number} (hfinite : a.exact.IsFinite)
    (hinteger : ∀ n, a.exact ≠ .integer n) :
    a.exact.clamped = Exact.onLine a.exact.rational ∧ |a.exact.rational| < 2 ^ 53 := by
  have hplace : a.exact.clamped = Exact.onLine a.exact.rational := by
    rw [Exact.clamped, Exact.saturate_of_ne_integer hinteger, Exact.place_of_isFinite hfinite]
  have hapart := (apart_toFloat hfinite.ne_nan hinteger).2
  rw [hplace] at hapart
  exact ⟨hplace, hapart.abs_rational_lt⟩

/-- Finite numbers compare as their rationals do. -/
theorem compare?_of_isFinite {a b : Number} (ha : a.exact.IsFinite) (hb : b.exact.IsFinite) :
    a.compare? b = some (cmp a.exact.rational b.exact.rational) := by
  rcases compare?_cases a b with ⟨hnan, -⟩ | ⟨hnan, -⟩ | ⟨m, n, hm, hn, hcmp⟩ | ⟨-, -, hint, hcmp⟩
  · exact absurd hnan ha.ne_nan
  · exact absurd (iff_of_false ha.ne_nan hb.ne_nan) hnan
  · rw [hcmp, hm, hn, Exact.rational_integer, Exact.rational_integer,
      Int.cast_strictMono.cmp_map_eq]
  · rw [hcmp]
    by_cases hinteger : ∃ m, a.exact = .integer m
    · obtain ⟨m, hm⟩ := hinteger
      obtain ⟨hplace, hnear⟩ := near_of_fraction hb fun n => hint m n hm
      rw [hplace, ha.cmp_clamped hnear]
    · obtain ⟨hplace, hnear⟩ := near_of_fraction ha (not_exists.1 hinteger)
      rw [hplace, ← cmp_swap, hb.cmp_clamped hnear, cmp_swap]

/-- **Comparison is exact on finite numbers**: two numbers that stand for rationals are equal
exactly when these are, and compare as these do; and a not-a-number is not ordered against any
other number. -/
theorem comparison_exact (a b : Number) :
    (∀ p q, a.rational? = some p → b.rational? = some q →
      ((a == b) = true ↔ p = q) ∧ a.compare? b = some (cmp p q)) ∧
    (a.IsNan → ¬ b.IsNan → a.compare? b = none ∧ b.compare? a = none) := by
  refine ⟨?_, ?_⟩
  · intro p q hp hq
    obtain ⟨ha, rfl⟩ := isFinite_of_rational? hp
    obtain ⟨hb, rfl⟩ := isFinite_of_rational? hq
    refine ⟨?_, compare?_of_isFinite ha hb⟩
    rw [beq_eq_true_iff]
    exact ⟨congrArg Exact.rational, Exact.eq_of_rational_eq a.lowest_exact b.lowest_exact ha hb⟩
  · intro hnan hother
    have hnone : a.compare? b = none := by
      rw [← exact_eq_nan_iff] at hnan hother
      rcases compare?_cases a b with ⟨-, hb, -⟩ | ⟨-, hcmp⟩ | ⟨m, n, hm, -⟩ | ⟨ha, -⟩
      · exact absurd hb hother
      · exact hcmp
      · cases hnan.symm.trans hm
      · exact absurd hnan ha
    rw [compare?_swap a b, hnone]
    exact ⟨rfl, rfl⟩

/-- The float `2 ^ 53` is below the integer that follows it, although that one is rounded to it; and
a not-a-number is not ordered against an infinity. -/
theorem comparison_exact_next :
    let power := Number.float (Float.ofBits 0x4340000000000000)
    let next := Number.int 9007199254740993
    let nan := Number.float (Float.ofBits 0x7ff8000000000000)
    let infinity := Number.float (Float.ofBits 0x7ff0000000000000)
    power.rational? = some (2 ^ 53) ∧ next.rational? = some (2 ^ 53 + 1) ∧
    (power == next) = false ∧ power.compare? next = some .lt ∧
    nan.IsNan ∧ ¬ infinity.IsNan ∧ nan.compare? infinity = none := by
  intro power next nan infinity
  have hpower : power.rational? = some (2 ^ 53) := by decide +kernel
  have hnext : next.rational? = some (2 ^ 53 + 1) := by decide +kernel
  have hnan : nan.IsNan := by decide +kernel
  have hinfinity : ¬ infinity.IsNan := by decide +kernel
  obtain ⟨hequal, hcompare⟩ := (comparison_exact power next).1 _ _ hpower hnext
  refine ⟨hpower, hnext, ?_, ?_, hnan, hinfinity, ?_⟩
  · rw [← Bool.not_eq_true, hequal]
    norm_num
  · rw [hcompare, (cmp_eq_lt_iff _ _).2 (by norm_num)]
  · exact ((comparison_exact nan infinity).2 hnan hinfinity).1

end Number

end Sexpr
