import Mathlib
import Sexpr.Proofs.Rounding

/-!
# Sexpr.Proofs.RoundedComparison

Rounding does not show in a comparison, unless both numbers are integers.

An integer of more than 53 bits is rounded when it is compared with a number that is none.  That
other number is an infinity or a float with a fractional part, and so smaller than `2 ^ 53`:

```
-∞    …  rounded  …   -2 ^ 53    …  fractions  …   2 ^ 53   …  rounded  …    +∞
```

The rounded integer stands on the same side of both (`Exact.SameSide`), and it becomes an infinity
just if it is beyond the floats.  So a comparison of the floats is one of the clamped places
(`Number.compareFloats_toFloat`).
-/

namespace Sexpr

namespace Exact

/-! ## what a comparison can tell apart -/

/-- Places that are the same, or both of them far from zero on one side and no end of the line. -/
inductive SameSide : Line → Line → Prop
  | refl (p : Line) : SameSide p p
  | above {q r : ℚ} (hq : 2 ^ 53 ≤ q) (hr : 2 ^ 53 ≤ r) : SameSide (onLine q) (onLine r)
  | below {q r : ℚ} (hq : q ≤ -2 ^ 53) (hr : r ≤ -2 ^ 53) : SameSide (onLine q) (onLine r)

/-- An end of the line, or a place near zero. -/
inductive Apart : Line → Prop
  | low : Apart ⊥
  | high : Apart ⊤
  | near {q : ℚ} (h : |q| < 2 ^ 53) : Apart (onLine q)

theorem Apart.abs_rational_lt {q : ℚ} (h : Apart (onLine q)) : |q| < 2 ^ 53 := by
  generalize hp : onLine q = p at h
  cases h with
  | low => exact absurd hp (bot_lt_onLine q).ne'
  | high => exact absurd hp (onLine_lt_top q).ne
  | near h => rwa [onLine_strictMono.injective hp]

variable {p p' p'' : Line}

theorem SameSide.trans (h : SameSide p p') (h' : SameSide p' p'') : SameSide p p'' := by
  cases h with
  | refl => exact h'
  | above hq hr =>
    generalize hp : onLine _ = p' at h'
    cases h' with
    | refl => exact hp ▸ .above hq hr
    | above hq' hr' => exact .above hq hr'
    | below hq' hr' =>
      cases onLine_strictMono.injective hp
      linarith
  | below hq hr =>
    generalize hp : onLine _ = p' at h'
    cases h' with
    | refl => exact hp ▸ .below hq hr
    | above hq' hr' =>
      cases onLine_strictMono.injective hp
      linarith
    | below hq' hr' => exact .below hq hr'

/-- Places on the same side are in the same order to what is apart from them. -/
theorem SameSide.cmp_eq (h : SameSide p p') (hapart : Apart p'') : cmp p p'' = cmp p' p'' := by
  cases h with
  | refl => rfl
  | @above q r hq hr =>
    cases hapart with
    | low => simp
    | high => simp
    | @near t ht =>
      have hlt := (abs_lt.1 ht).2
      rw [cmp_onLine, cmp_onLine, (cmp_eq_gt_iff q t).2 (by linarith),
        (cmp_eq_gt_iff r t).2 (by linarith)]
  | @below q r hq hr =>
    cases hapart with
    | low => simp
    | high => simp
    | @near t ht =>
      have hlt := (abs_lt.1 ht).1
      rw [cmp_onLine, cmp_onLine, (cmp_eq_lt_iff q t).2 (by linarith),
        (cmp_eq_lt_iff r t).2 (by linarith)]

/-! ## naturals and their negatives -/

theorem clamped_of_lt {k : Nat} (h : k < floatOverflow) :
    (integer k).clamped = onLine k ∧ (integer (-k)).clamped = onLine (-k) := by
  have hfits : ∀ {n : Int}, n.natAbs = k → ¬ ∃ s, beyond s n = true := by
    rintro n rfl ⟨s, hs⟩
    exact absurd (beyond_eq_true_iff.1 hs).1 (Nat.not_le.2 h)
  rw [clamped, clamped, saturate_of_not_beyond (hfits (Int.natAbs_natCast k)),
    saturate_of_not_beyond (hfits (by omega)), place_integer, place_integer]
  exact ⟨congrArg onLine (Int.cast_natCast k), congrArg onLine (by push_cast; rfl)⟩

theorem clamped_of_le {k : Nat} (h : floatOverflow ≤ k) :
    (integer k).clamped = ⊤ ∧ (integer (-k)).clamped = ⊥ := by
  have hhigh : beyond false k = true := (beyond_false_iff k).2 (by omega)
  have hlow : beyond true (-k) = true := (beyond_true_iff (-k)).2 (by omega)
  exact ⟨clamped_of_beyond hhigh, clamped_of_beyond hlow⟩

end Exact

namespace Binary64

open Float.Model Float.Model.UnpackedFloat Exact

variable {u : UnpackedFloat} {n : Nat}

theorem Converts.ne_notANumber (h : Converts n u) : u ≠ .notANumber ∧ u.neg ≠ .notANumber := by
  cases h <;> exact ⟨UnpackedFloat.noConfusion, UnpackedFloat.noConfusion⟩

/-- What is made of a natural stands on its side, and so does its negative. -/
theorem Converts.sameSide (h : Converts n u) :
    SameSide (placeOf u) (integer n).clamped ∧ SameSide (placeOf u.neg) (integer (-n)).clamped := by
  cases h with
  | zero =>
    obtain ⟨hpos, hneg⟩ := clamped_of_lt floatOverflow_pos
    rw [hpos, hneg, UnpackedFloat.neg, placeOf_zero, placeOf_zero, Nat.cast_zero, neg_zero]
    exact ⟨.refl _, .refl _⟩
  | exact hm hlt hvalue =>
    have hsmall : 2 ^ 53 ≤ floatOverflow := by decide +kernel
    obtain ⟨hpos, hneg⟩ := clamped_of_lt (hlt.trans_le hsmall)
    rw [hpos, hneg, ← hvalue, placeOf_positive]
    exact ⟨.refl _, placeOf_negative hm ▸ .refl _⟩
  | rounded hm hle hlt hvalue =>
    obtain ⟨hpos, hneg⟩ := clamped_of_lt hlt
    have hle : (2 : ℚ) ^ 53 ≤ n := by exact_mod_cast hle
    rw [hpos, hneg, placeOf_positive]
    refine ⟨.above hvalue hle, ?_⟩
    rw [UnpackedFloat.neg]
    exact placeOf_negative hm ▸ .below (neg_le_neg hvalue) (neg_le_neg hle)
  | overflow hle =>
    obtain ⟨hpos, hneg⟩ := clamped_of_le hle
    rw [hpos, hneg]
    exact ⟨.refl _, .refl _⟩

end Binary64

namespace Number

open Exact

/-! ## integers -/

/-- A float stands for a place as far as a comparison can tell. -/
structure StandsFor (x : Float) (c : Line) : Prop where
  ne_nan : (Number.float x).exact ≠ .nan
  sameSide : SameSide (Number.float x).exact.place c

theorem standsFor_ofInt (n : Int) : StandsFor (Float.ofInt n) (integer n).clamped := by
  cases n with
  | ofNat n =>
    have hconverts := Binary64.converts_ofNat n
    refine ⟨(exact_float_eq_nan_iff _).not.2 hconverts.ne_notANumber.1, ?_⟩
    rw [place_exact_float]
    exact hconverts.sameSide.1
  | negSucc n =>
    have hconverts := Binary64.converts_ofNat (n + 1)
    have hneg : (Float.ofInt (.negSucc n)).toModel.unpack =
        (Float.ofNat (n + 1)).toModel.unpack.neg :=
      Binary64.unpack_neg hconverts.ne_notANumber.1
    constructor
    · rw [Ne, exact_float_eq_nan_iff, hneg]
      exact hconverts.ne_notANumber.2
    · rw [place_exact_float, hneg]
      exact hconverts.sameSide.2

/-! ## leading bits -/

theorem leading_of_lt {k : Nat} (h : k < 2 ^ 64) : leading k = k := by
  have hlog : k.log2 < 64 := by
    rcases Nat.eq_zero_or_pos k with rfl | hpos
    · decide
    · exact (Nat.log2_lt hpos.ne').2 h
  have hdrop : k.log2 - 63 = 0 := by omega
  have hdigits : k.log2 / 64 = 0 := by omega
  simp [leading, hdrop, hdigits]

/-- The leading bits are kept, but the last of them may be set. -/
theorem leading_eq (k : Nat) :
    ∃ kept, leading k = kept * 2 ^ (k.log2 - 63) ∧
      (kept = k / 2 ^ (k.log2 - 63) ∨
        kept = k / 2 ^ (k.log2 - 63) + 1 ∧ k / 2 ^ (k.log2 - 63) % 2 = 0) := by
  unfold leading
  simp only [Nat.pow_eq]
  split
  · next hset =>
    have heven := (Bool.and_eq_true_iff.1 hset).2
    exact ⟨_, rfl, .inr ⟨rfl, of_decide_eq_true heven⟩⟩
  · exact ⟨_, rfl, .inl rfl⟩

/-- The leading bits are as many as the number has, and beyond the floats just if the number is. -/
theorem leading_bounds {k : Nat} (h : 2 ^ 64 ≤ k) :
    2 ^ 64 ≤ leading k ∧ (floatOverflow ≤ leading k ↔ floatOverflow ≤ k) := by
  have hpos : 0 < k := (Nat.two_pow_pos 64).trans_le h
  have hbits : 64 ≤ k.log2 := (Nat.le_log2 hpos.ne').2 h
  obtain ⟨hlow, hhigh⟩ := Binary64.quotient_bounds hpos (show 63 ≤ k.log2 by omega)
  obtain ⟨kept, hleading, hkept⟩ := leading_eq k
  have hlog : (leading k).log2 = k.log2 := by
    have hsame := Binary64.log2_mul_two_pow (show 2 ^ 63 ≤ kept by omega) (by omega) (k.log2 - 63)
    rw [hleading]
    omega
  constructor
  · have hne : leading k ≠ 0 := by
      intro hzero
      rw [hzero, Nat.log2_zero] at hlog
      omega
    rw [← Nat.le_log2 hne, hlog]
    exact hbits
  rcases Nat.lt_trichotomy k.log2 1023 with hshort | hequal | hlong
  · exact iff_of_false (Binary64.lt_floatOverflow_of_log2_lt (by omega)).not_ge
      (Binary64.lt_floatOverflow_of_log2_lt hshort).not_ge
  · -- the bound is even in the leading bits, so setting the last one does not reach it
    have hover : floatOverflow = (2 ^ 64 - 2 ^ 10) * 2 ^ 960 := by decide +kernel
    have hdropped : 1023 - 63 = 960 := rfl
    rw [hequal, hdropped] at hleading hkept
    rw [hover, hleading, Nat.mul_le_mul_right_iff (Nat.two_pow_pos 960),
      ← Nat.le_div_iff_mul_le (Nat.two_pow_pos 960)]
    clear hleading
    omega
  · exact iff_of_true (Binary64.floatOverflow_le_of_lt_log2 (by omega))
      (Binary64.floatOverflow_le_of_lt_log2 hlong)

theorem sameSide_leading (k : Nat) :
    SameSide (integer (leading k)).clamped (integer k).clamped ∧
      SameSide (integer (-leading k)).clamped (integer (-k)).clamped := by
  rcases Nat.lt_or_ge k (2 ^ 64) with hlt | hge
  · rw [leading_of_lt hlt]
    exact ⟨.refl _, .refl _⟩
  · obtain ⟨hlarge, hover⟩ := leading_bounds hge
    by_cases hbeyond : floatOverflow ≤ k
    · obtain ⟨hpos, hneg⟩ := clamped_of_le hbeyond
      obtain ⟨hpos', hneg'⟩ := clamped_of_le (hover.2 hbeyond)
      rw [hpos, hneg, hpos', hneg']
      exact ⟨.refl _, .refl _⟩
    · obtain ⟨hpos, hneg⟩ := clamped_of_lt (Nat.lt_of_not_le hbeyond)
      obtain ⟨hpos', hneg'⟩ := clamped_of_lt (Nat.lt_of_not_le (hover.not.2 hbeyond))
      have hfar : ∀ {j : Nat}, 2 ^ 64 ≤ j → (2 : ℚ) ^ 53 ≤ j := fun h => by
        exact_mod_cast (show 2 ^ 53 ≤ 2 ^ 64 by norm_num).trans h
      rw [hpos, hneg, hpos', hneg']
      exact ⟨.above (hfar hlarge) (hfar hge),
        .below (neg_le_neg (hfar hlarge)) (neg_le_neg (hfar hge))⟩

/-- An integer is rounded to a float that stands for it. -/
theorem standsFor_of_integer? {a : Number} {n : Int} (h : a.integer? = some n) :
    StandsFor a.toFloat (integer n).clamped := by
  cases a with
  | int m =>
    cases h
    exact standsFor_ofInt m.toInt
  | big m =>
    obtain rfl : m = n := Option.some.inj h
    obtain ⟨hne, hside⟩ := standsFor_ofInt (signed (m < 0) (leading m.natAbs))
    refine ⟨hne, hside.trans ?_⟩
    obtain ⟨hpos, hneg⟩ := sameSide_leading m.natAbs
    by_cases hm : m < 0
    · have hm' : -(m.natAbs : Int) = m := by omega
      rw [hm'] at hneg
      rw [signed, decide_eq_true hm, if_pos rfl]
      exact hneg
    · have hm' : (m.natAbs : Int) = m := by omega
      rw [hm'] at hpos
      rw [signed, decide_eq_false hm, if_neg Bool.false_ne_true]
      exact hpos
  | float x => cases h

/-! ## floats -/

/-- A finite float has no more than 53 bits and the largest exponent. -/
theorem natAbs_lt_floatOverflow {negative : Bool} {m : Nat} {e n : Int} (h : Binary64.Canonical m e)
    (hn : (n : ℚ) = signed negative m * 2 ^ e) : n.natAbs < floatOverflow := by
  have habs : (n.natAbs : ℚ) = m * 2 ^ e := by
    rw [Nat.cast_natAbs, Int.cast_abs, hn, abs_mul, abs_signed,
      abs_of_pos (show (0 : ℚ) < 2 ^ e by positivity)]
  have hle : (n.natAbs : ℚ) ≤ ((2 ^ 53 - 1) * 2 ^ 971 : Nat) := by
    rw [habs]
    calc (m : ℚ) * 2 ^ e
      _ ≤ ((2 ^ 53 - 1 : Nat) : ℚ) * 2 ^ (971 : Int) := by
          gcongr
          · exact Nat.le_sub_one_of_lt h.lt
          · norm_num
          · exact h.le_maxExponent
      _ = ((2 ^ 53 - 1) * 2 ^ 971 : Nat) := by
          rw [Nat.cast_mul, Nat.cast_pow, Nat.cast_ofNat]
          rfl
  have hmax : (2 ^ 53 - 1) * 2 ^ 971 < floatOverflow := by decide +kernel
  exact (Nat.cast_le.1 hle).trans_lt hmax

/-- No float means an integer beyond the floats. -/
theorem clamped_exact_float (x : Float) :
    (Number.float x).exact.clamped = (Number.float x).exact.place := by
  by_cases hinteger : ∃ n, (Number.float x).exact = .integer n
  · obtain ⟨n, hn⟩ := hinteger
    have hexact : ofBinary64 (.ofFloat x) = .integer n := hn
    rw [hn]
    cases hb : Binary64.ofFloat x with
    | finite negative m e =>
      rw [hb] at hexact
      have hplace := place_ofBinary64_finite negative m e
      rw [hexact, place_integer] at hplace
      have hlt := natAbs_lt_floatOverflow (Binary64.canonical_of_ofFloat hb)
        (onLine_strictMono.injective hplace)
      rw [clamped, saturate, if_neg (Nat.not_le.2 hlt)]
    | _ =>
      rw [hb] at hexact
      cases hexact
  · rw [clamped, saturate_of_ne_integer (not_exists.1 hinteger)]

/-- A float with a fractional part is near zero. -/
theorem apart_exact_float {x : Float} (hnan : (Number.float x).exact ≠ .nan)
    (hinteger : ∀ n, (Number.float x).exact ≠ .integer n) :
    Apart (Number.float x).exact.place := by
  show Apart (ofBinary64 (.ofFloat x)).place
  replace hnan : ofBinary64 (.ofFloat x) ≠ .nan := hnan
  replace hinteger : ∀ n, ofBinary64 (.ofFloat x) ≠ .integer n := hinteger
  cases hb : Binary64.ofFloat x with
  | nan =>
    rw [hb] at hnan
    exact absurd rfl hnan
  | infinite negative =>
    cases negative with
    | false => exact .high
    | true => exact .low
  | finite negative m e =>
    rw [hb] at hinteger
    cases e with
    | ofNat e => exact absurd rfl (hinteger _)
    | negSucc e =>
      rw [place_ofBinary64_finite]
      refine .near ?_
      have hlt : (m : ℚ) < 2 ^ 53 := by exact_mod_cast (Binary64.canonical_of_ofFloat hb).lt
      rw [abs_mul, abs_signed, abs_of_pos (show (0 : ℚ) < 2 ^ Int.negSucc e by positivity)]
      calc (m : ℚ) * 2 ^ Int.negSucc e
        _ ≤ m * 1 := by
            gcongr
            exact zpow_le_one_of_nonpos₀ one_le_two (Int.negSucc_lt_zero e).le
        _ = m := mul_one _
        _ < 2 ^ 53 := hlt

/-- Every number is rounded to a float that stands for it. -/
theorem standsFor_toFloat {a : Number} (h : a.exact ≠ .nan) :
    StandsFor a.toFloat a.exact.clamped := by
  cases a with
  | int n => exact standsFor_of_integer? rfl
  | big n => exact standsFor_of_integer? rfl
  | float x => exact ⟨h, clamped_exact_float x ▸ .refl _⟩

theorem apart_toFloat {a : Number} (hnan : a.exact ≠ .nan) (hinteger : ∀ n, a.exact ≠ .integer n) :
    (Number.float a.toFloat).exact.place = a.exact.clamped ∧ Apart a.exact.clamped := by
  cases a with
  | int n => exact absurd rfl (hinteger _)
  | big n => exact absurd rfl (hinteger _)
  | float x =>
    rw [clamped_exact_float]
    exact ⟨rfl, apart_exact_float hnan hinteger⟩

/-- Rounding does not show in a comparison, unless both numbers are integers. -/
theorem compareFloats_toFloat {a b : Number} (ha : a.exact ≠ .nan) (hb : b.exact ≠ .nan)
    (hintegers : ∀ m n, a.exact = .integer m → b.exact ≠ .integer n) :
    compareFloats a.toFloat b.toFloat = some (cmp a.exact.clamped b.exact.clamped) := by
  obtain ⟨hane, haside⟩ := standsFor_toFloat ha
  obtain ⟨hbne, hbside⟩ := standsFor_toFloat hb
  rw [compareFloats_eq_cmp hane hbne]
  by_cases hinteger : ∃ m, a.exact = .integer m
  · obtain ⟨m, hm⟩ := hinteger
    obtain ⟨hplace, hapart⟩ := apart_toFloat hb fun n => hintegers m n hm
    rw [hplace, haside.cmp_eq hapart]
  · obtain ⟨hplace, hapart⟩ := apart_toFloat ha (not_exists.1 hinteger)
    rw [hplace, ← cmp_swap, hbside.cmp_eq hapart, cmp_swap]

end Number

end Sexpr
