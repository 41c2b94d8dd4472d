import Mathlib
import Sexpr.Proofs.Floats

/-!
# Sexpr.Proofs.Rounding

How a natural becomes a float.

The model of `Float` shifts a mantissa to 53 bits, one bit after another, and rounds by the bits
that went out at its end: down below one half, and up from there on if the mantissa is odd
(`Binary64.nearest`).  A mantissa that is rounded up to `2 ^ 53` is kept as half of that with the
next exponent (`Binary64.Kept`).  So a natural `n` becomes (`Binary64.Converts`)

* `n` itself below `2 ^ 53`;
* a finite float of at least `2 ^ 53` below `Exact.floatOverflow`;
* the positive infinity from there on.
-/

namespace Sexpr

namespace Binary64

open Float.Model Float.Model.UnpackedFloat

/-! ## shifts -/

/-- A mantissa with nothing behind it. -/
def exactly (n : Nat) : ExtendedMantissa := ⟨n, false, false⟩

theorem shiftRight_succ (em : ExtendedMantissa) (k : Nat) :
    em >>> (k + 1) = (em >>> k).shiftRightOne := rfl

theorem shiftRight_succ_left (em : ExtendedMantissa) (k : Nat) :
    em >>> (k + 1) = em.shiftRightOne >>> k := by
  induction k with
  | zero => rfl
  | succ k ih => rw [shiftRight_succ, ih, ← shiftRight_succ]

theorem mantissa_shiftRight (n k : Nat) : (exactly n >>> k).mantissa = n / 2 ^ k := by
  induction k with
  | zero => exact (Nat.div_one n).symm
  | succ k ih =>
    rw [shiftRight_succ, ExtendedMantissa.shiftRightOne, ih, Nat.div_div_eq_div_mul, ← Nat.pow_succ]

/-- The bit behind the mantissa is set from one half on. -/
theorem roundBit_shiftRight (n k : Nat) :
    (exactly n >>> k).roundBit = true ↔ 2 ^ k ≤ 2 * (n % 2 ^ k) := by
  cases k with
  | zero => exact iff_of_false Bool.false_ne_true (by omega)
  | succ k =>
    have hmod : n % 2 ^ (k + 1) = n % 2 ^ k + 2 ^ k * (n / 2 ^ k % 2) := by
      rw [Nat.pow_succ, Nat.mod_mul]
    have hlt : n % 2 ^ k < 2 ^ k := Nat.mod_lt _ (Nat.two_pow_pos k)
    rw [shiftRight_succ, ExtendedMantissa.shiftRightOne, mantissa_shiftRight, hmod, Nat.pow_succ]
    rcases Nat.mod_two_eq_zero_or_one (n / 2 ^ k) with heven | hodd
    · simp only [heven, bne_self_eq_false, Bool.false_eq_true, mul_zero, add_zero, false_iff]
      omega
    · simp only [hodd, bne_iff_ne, ne_eq, one_ne_zero, not_false_eq_true, mul_one, true_iff]
      omega

/-! ## the nearest mantissa -/

section

variable {em : ExtendedMantissa}

theorem roundedMantissa_of_down (h : em.roundBit = false) : em.roundedMantissa = em.mantissa := by
  obtain ⟨m, r, s⟩ := em
  cases h
  cases s <;> rfl

theorem roundedMantissa_of_odd (h : em.roundBit = true) (hodd : em.mantissa % 2 = 1) :
    em.roundedMantissa = em.mantissa + 1 := by
  obtain ⟨m, r, s⟩ := em
  cases h
  cases s
  · exact congrArg (m + ·) hodd
  · rfl

theorem roundedMantissa_bounds (em : ExtendedMantissa) :
    em.mantissa ≤ em.roundedMantissa ∧ em.roundedMantissa ≤ em.mantissa + 1 := by
  obtain ⟨m, r, s⟩ := em
  have hmod := Nat.mod_lt m Nat.two_pos
  cases r <;> cases s <;> simp only [ExtendedMantissa.roundedMantissa, ExtendedMantissa.accuracy,
    Accuracy.roundToNearestEven] <;> omega

end

variable {n k : Nat} {e : Int}

/-- A quotient by a power of two, rounded to the nearest natural. -/
def nearest (n k : Nat) : Nat := (exactly n >>> k).roundedMantissa

theorem nearest_bounds (n k : Nat) : n / 2 ^ k ≤ nearest n k ∧ nearest n k ≤ n / 2 ^ k + 1 := by
  rw [← mantissa_shiftRight]
  exact roundedMantissa_bounds _

theorem nearest_of_lt (h : 2 * (n % 2 ^ k) < 2 ^ k) : nearest n k = n / 2 ^ k := by
  have hdown : (exactly n >>> k).roundBit = false := by
    rw [← Bool.not_eq_true, roundBit_shiftRight]
    omega
  rw [nearest, roundedMantissa_of_down hdown, mantissa_shiftRight]

theorem nearest_of_odd (h : 2 ^ k ≤ 2 * (n % 2 ^ k)) (hodd : n / 2 ^ k % 2 = 1) :
    nearest n k = n / 2 ^ k + 1 := by
  rw [← mantissa_shiftRight] at *
  exact roundedMantissa_of_odd ((roundBit_shiftRight n k).2 h) hodd

/-- Zeros behind a number do not matter. -/
theorem nearest_mul_two_pow (n k j : Nat) : nearest (n * 2 ^ j) (k + j) = nearest n k := by
  induction j with
  | zero => rw [Nat.pow_zero, Nat.mul_one, Nat.add_zero]
  | succ j ih =>
    have hhalf : (exactly (n * 2 ^ (j + 1))).shiftRightOne = exactly (n * 2 ^ j) := by
      rw [Nat.pow_succ, ← Nat.mul_assoc]
      simp [exactly, ExtendedMantissa.shiftRightOne]
    rw [nearest, ← Nat.add_assoc, shiftRight_succ_left, hhalf]
    exact ih

/-- A mantissa of all ones is rounded up from one half on. -/
theorem nearest_eq_two_pow_iff (h : n < 2 ^ 53 * 2 ^ (k + 1)) :
    nearest n (k + 1) = 2 ^ 53 ↔ (2 ^ 53 - 1) * 2 ^ (k + 1) + 2 ^ k ≤ n := by
  have hunit : 2 ^ (k + 1) = 2 * 2 ^ k := Nat.pow_succ'
  have hpos := Nat.two_pow_pos k
  obtain ⟨hle, hge⟩ := nearest_bounds n (k + 1)
  have hlt : n / 2 ^ (k + 1) < 2 ^ 53 := (Nat.div_lt_iff_lt_mul (Nat.two_pow_pos _)).2 h
  have hdiv := Nat.div_add_mod n (2 ^ (k + 1))
  constructor
  · intro hnearest
    have hones : n / 2 ^ (k + 1) = 2 ^ 53 - 1 := by omega
    by_contra hbelow
    have hdown : 2 * (n % 2 ^ (k + 1)) < 2 ^ (k + 1) := by
      rw [hones] at hdiv
      omega
    rw [nearest_of_lt hdown] at hnearest
    omega
  · intro hover
    have hones : n / 2 ^ (k + 1) = 2 ^ 53 - 1 := by
      have hdivle : 2 ^ 53 - 1 ≤ n / 2 ^ (k + 1) :=
        (Nat.le_div_iff_mul_le (Nat.two_pow_pos _)).2 (by omega)
      omega
    have hup : 2 ^ (k + 1) ≤ 2 * (n % 2 ^ (k + 1)) := by
      rw [hones] at hdiv
      omega
    rw [nearest_of_odd hup (by omega)]
    omega

/-! ## leading bits -/

theorem quotient_bounds (hpos : 0 < n) (hk : k ≤ n.log2) :
    2 ^ k ≤ n / 2 ^ (n.log2 - k) ∧ n / 2 ^ (n.log2 - k) < 2 ^ (k + 1) := by
  have hlow := Nat.log2_self_le hpos.ne'
  have hhigh := Nat.lt_log2_self (n := n)
  constructor
  · rw [Nat.le_div_iff_mul_le (Nat.two_pow_pos _), ← Nat.pow_add, Nat.add_sub_cancel' hk]
    exact hlow
  · rw [Nat.div_lt_iff_lt_mul (Nat.two_pow_pos _), ← Nat.pow_add]
    exact hhigh.trans_eq (congrArg _ (by omega))

theorem log2_mul_two_pow {m j : Nat} (hlow : 2 ^ j ≤ m) (hhigh : m < 2 ^ (j + 1)) (k : Nat) :
    (m * 2 ^ k).log2 = j + k := by
  have hpos := Nat.two_pow_pos j
  rw [Nat.log2_eq_iff (Nat.mul_ne_zero (by omega) (Nat.two_pow_pos k).ne'), Nat.add_right_comm,
    Nat.pow_add, Nat.pow_add]
  exact ⟨Nat.mul_le_mul_right _ hlow, Nat.mul_lt_mul_of_pos_right hhigh (Nat.two_pow_pos k)⟩

/-! ## rounding -/

/-- A rounded mantissa `r` with exponent `t` as it is kept: half of it, if it has a bit too many. -/
structure Kept (r : Nat) (t : Int) (m : Nat) (e : Int) : Prop where
  low : 2 ^ 52 ≤ m
  high : m < 2 ^ 53
  same_or_half : m = r ∧ e = t ∨ m = 2 ^ 52 ∧ r = 2 ^ 53 ∧ e = t + 1

theorem shiftToTargetExponent_eq (hn : 52 ≤ n.log2) (he : -1074 ≤ e) :
    shiftToTargetExponent Format.binary64 n e .exact =
      (exactly n >>> (n.log2 - 52), e + (n.log2 - 52 : Nat)) := by
  have htarget : Format.binary64.targetExponent (totalExponent n e) - e = (n.log2 - 52 : Nat) := by
    show max ((n.log2 : Int) + 1 + e - (53 : Nat)) (-1074) - e = _
    omega
  have hshift : (Format.binary64.targetExponent (totalExponent n e) - e).toNat = n.log2 - 52 := by
    rw [htarget, Int.toNat_natCast]
  unfold shiftToTargetExponent shiftToExponent
  simp only [hshift]
  rfl

/-- A number that is no subnormal one is kept with its nearest mantissa. -/
theorem roundWithAccuracy_eq (s : Sign) (hn : 52 ≤ n.log2) (he : -1074 ≤ e) {r : Nat}
    (hr : nearest n (n.log2 - 52) = r) :
    ∃ m e' hm, roundWithAccuracy Format.binary64 s n e .exact = .finite s m e' hm ∧
      Kept r (e + (n.log2 - 52 : Nat)) m e' := by
  have hpos : 0 < n := by
    rcases Nat.eq_zero_or_pos n with rfl | hpos
    · cases hn
    · exact hpos
  obtain ⟨hlow, hhigh⟩ := quotient_bounds hpos hn
  obtain ⟨hle, hge⟩ := nearest_bounds n (n.log2 - 52)
  rw [hr] at hle hge
  have hlog : 52 ≤ r.log2 := (Nat.le_log2 (by omega)).2 (by omega)
  have hround : roundWithAccuracy Format.binary64 s n e .exact =
      if h : r / 2 ^ (r.log2 - 52) = 0 then .zero s
      else .finite s (r / 2 ^ (r.log2 - 52)) (e + (n.log2 - 52 : Nat) + (r.log2 - 52 : Nat))
        (Nat.pos_of_ne_zero h) := by
    have hnearest : (exactly n >>> (n.log2 - 52)).roundedMantissa = r := hr
    have he' : -1074 ≤ e + (n.log2 - 52 : Nat) := by omega
    simp only [roundWithAccuracy, shiftToTargetExponent_eq hn he, hnearest,
      shiftToTargetExponent_eq hlog he', mantissa_shiftRight]
  -- the second shift is by one bit or by none
  rcases Nat.lt_or_eq_of_le (show r ≤ 2 ^ 53 by omega) with hlt | rfl
  · have hfits : r.log2 - 52 = 0 := by
      have hlog' := (Nat.log2_lt (by omega)).2 hlt
      omega
    simp only [hfits, Nat.pow_zero, Nat.div_one] at hround
    rw [dif_neg (by omega)] at hround
    exact ⟨r, _, _, hround, by omega, hlt, .inl ⟨rfl, by omega⟩⟩
  · have hcarry : (2 ^ 53).log2 - 52 = 1 := by rw [Nat.log2_two_pow]
    have hhalf : 2 ^ 53 / 2 ^ 1 = 2 ^ 52 := by norm_num
    simp only [hcarry, hhalf] at hround
    rw [dif_neg (by norm_num)] at hround
    exact ⟨2 ^ 52, _, _, hround, le_rfl, by norm_num, .inr ⟨rfl, rfl, rfl⟩⟩

/-- A number of 53 bits with zeros behind them is kept as it is. -/
theorem roundWithAccuracy_of_fits (s : Sign) {m : Nat} (k : Nat) (hlow : 2 ^ 52 ≤ m)
    (hhigh : m < 2 ^ 53) (he : -1074 ≤ e) :
    roundWithAccuracy Format.binary64 s (m * 2 ^ k) e .exact =
      .finite s m (e + k) (Nat.pos_of_ne_zero (by omega)) := by
  have hlog : (m * 2 ^ k).log2 = 52 + k := log2_mul_two_pow hlow hhigh k
  have hnearest : nearest (m * 2 ^ k) ((m * 2 ^ k).log2 - 52) = m := by
    have hk : (m * 2 ^ k).log2 - 52 = k := by omega
    rw [hk, nearest_of_lt (by simp), Nat.mul_div_cancel m (Nat.two_pow_pos k)]
  obtain ⟨m', e', hm', hround, -, -, ⟨rfl, rfl⟩ | ⟨-, rfl, -⟩⟩ :=
    roundWithAccuracy_eq s (by omega) he hnearest
  · rw [hround, UnpackedFloat.finite.injEq]
    exact ⟨rfl, rfl, by omega⟩
  · omega

/-! ## naturals of at most 53 bits -/

/-- A natural as it is kept: with zeros behind it that make its bits 53. -/
def aligned (n : Nat) (hpos : 0 < n) : UnpackedFloat :=
  .finite .positive (n * 2 ^ (52 - n.log2)) (n.log2 - 52) (Nat.mul_pos hpos (Nat.two_pow_pos _))

section

variable (hpos : 0 < n) (h : n < 2 ^ 53)
include hpos h

theorem aligned_bounds : 2 ^ 52 ≤ n * 2 ^ (52 - n.log2) ∧ n * 2 ^ (52 - n.log2) < 2 ^ 53 := by
  have hlog := (Nat.log2_lt hpos.ne').2 h
  have hlow := Nat.log2_self_le hpos.ne'
  have hhigh := Nat.lt_log2_self (n := n)
  constructor
  · calc 2 ^ 52
      _ = 2 ^ (n.log2 + (52 - n.log2)) := congrArg _ (by omega)
      _ = 2 ^ n.log2 * 2 ^ (52 - n.log2) := Nat.pow_add ..
      _ ≤ n * 2 ^ (52 - n.log2) := Nat.mul_le_mul_right _ hlow
  · calc n * 2 ^ (52 - n.log2)
      _ < 2 ^ (n.log2 + 1) * 2 ^ (52 - n.log2) :=
          Nat.mul_lt_mul_of_pos_right hhigh (Nat.two_pow_pos _)
      _ = 2 ^ (n.log2 + 1 + (52 - n.log2)) := (Nat.pow_add ..).symm
      _ = 2 ^ 53 := congrArg _ (by omega)

theorem unpack_pack_aligned : (Float.Model.pack (aligned n hpos)).unpack = aligned n hpos := by
  obtain ⟨hlow, hhigh⟩ := aligned_bounds hpos h
  have hlog := (Nat.log2_lt hpos.ne').2 h
  exact unpack_pack_of_canonical _ _ ⟨hhigh, by omega, by omega, .inl hlow⟩

theorem round_eq_aligned :
    UnpackedFloat.round Format.binary64 .positive n 0 = aligned n hpos := by
  obtain ⟨hlow, hhigh⟩ := aligned_bounds hpos h
  have hlog := (Nat.log2_lt hpos.ne').2 h
  have hshift : (0 - Format.binary64.targetExponent (totalExponent n 0)).toNat = 52 - n.log2 := by
    show (0 - max ((n.log2 : Int) + 1 + 0 - (53 : Nat)) (-1074)).toNat = _
    omega
  have hfits := roundWithAccuracy_of_fits .positive 0 hlow hhigh
    (show (-1074 : Int) ≤ 0 - (52 - n.log2 : Nat) by omega)
  rw [Nat.pow_zero, Nat.mul_one] at hfits
  simp only [UnpackedFloat.round, decreaseExponent, hshift, Nat.shiftLeft_eq, hfits, aligned,
    UnpackedFloat.finite.injEq]
  exact ⟨trivial, trivial, by omega⟩

theorem unpack_ofUInt64 : (Float.Model.ofUInt64 n.toUInt64).unpack = aligned n hpos := by
  have hword : n.toUInt64.toNat = n := by
    rw [Nat.toUInt64_eq, UInt64.toNat_ofNat']
    omega
  have hcompare : compare (n : Int) 0 = .gt := compare_gt_iff_gt.2 (by omega)
  have hread : UnpackedFloat.ofUInt64 Format.binary64 n.toUInt64 =
      UnpackedFloat.round Format.binary64 .positive n 0 := by
    unfold UnpackedFloat.ofUInt64 UnpackedFloat.ofNat UnpackedFloat.ofInt UnpackedFloat.normalize
    rw [hword, hcompare]
    rfl
  rw [Float.Model.ofUInt64, hread, round_eq_aligned hpos h, unpack_pack_aligned hpos h]

/-- Up to 53 bits a natural is converted as a word, and multiplied by one. -/
theorem unpack_ofNat_of_lt : (Float.ofNat n).toModel.unpack = aligned n hpos := by
  have hone : (Float.exactlyRepresentablePowersOfTen[0]).toModel.unpack =
      .finite .positive (2 ^ 52) (-52) (Nat.two_pow_pos 52) := by rfl
  have hofNat : (Float.ofNat n).toModel = Float.Model.pack (UnpackedFloat.mul Format.binary64
      (Float.Model.ofUInt64 n.toUInt64).unpack
      (Float.exactlyRepresentablePowersOfTen[0]).toModel.unpack) := by
    show (Float.ofScientific n false 0).toModel = _
    unfold Float.ofScientific
    rw [dif_pos ⟨h, by decide⟩]
    rfl
  have hmul : UnpackedFloat.mul Format.binary64 (aligned n hpos)
      (.finite .positive (2 ^ 52) (-52) (Nat.two_pow_pos 52)) = aligned n hpos := by
    obtain ⟨hlow, hhigh⟩ := aligned_bounds hpos h
    have hlog := (Nat.log2_lt hpos.ne').2 h
    refine (roundWithAccuracy_of_fits .positive 52 hlow hhigh (by omega)).trans ?_
    rw [aligned, UnpackedFloat.finite.injEq]
    exact ⟨rfl, rfl, by omega⟩
  rw [hofNat, unpack_ofUInt64 hpos h, hone, hmul, unpack_pack_aligned hpos h]

end

/-! ## larger naturals -/

/-- A natural of more bits is rounded with 53 zeros behind it. -/
theorem ofNat_of_le (h : 2 ^ 53 ≤ n) :
    ∃ m e hm, (Float.ofNat n).toModel = Float.Model.pack (.finite .positive m e hm) ∧
      Kept (nearest n (n.log2 - 52)) (n.log2 - 52) m e := by
  have hlog : 53 ≤ n.log2 := (Nat.le_log2 (by omega)).2 h
  have hofNat : (Float.ofNat n).toModel = Float.Model.ofScientific n 0 := by
    show (Float.ofScientific n false 0).toModel = _
    unfold Float.ofScientific
    rw [dif_neg (by omega)]
    rfl
  have hscientific : UnpackedFloat.ofScientific Format.binary64 n 0 =
      roundWithAccuracy Format.binary64 .positive (n * 2 ^ 53) (-53) .exact := by
    have hcapacity : (0 : Int) ≤ 2 ^ Format.binary64.exponentBits := by positivity
    unfold UnpackedFloat.ofScientific
    rw [dif_neg (by omega), if_neg (by decide), if_neg (by omega), if_pos le_rfl,
      ← Nat.shiftLeft_eq]
    simp [UnpackedFloat.mul]
    rfl
  have hshifted : (n * 2 ^ 53).log2 = n.log2 + 53 :=
    log2_mul_two_pow (Nat.log2_self_le (by omega)) Nat.lt_log2_self 53
  have hnearest : nearest (n * 2 ^ 53) ((n * 2 ^ 53).log2 - 52) = nearest n (n.log2 - 52) := by
    have hbits : (n * 2 ^ 53).log2 - 52 = n.log2 - 52 + 53 := by omega
    rw [hbits, nearest_mul_two_pow]
  obtain ⟨m, e, hm, hround, hkept⟩ := roundWithAccuracy_eq .positive
    (show 52 ≤ (n * 2 ^ 53).log2 by omega) (show (-1074 : Int) ≤ -53 by decide) hnearest
  have hexponent : -53 + (((n * 2 ^ 53).log2 - 52 : Nat) : Int) = n.log2 - 52 := by omega
  rw [hexponent] at hkept
  exact ⟨m, e, hm, by rw [hofNat, Float.Model.ofScientific, hscientific, hround], hkept⟩

theorem floatOverflow_eq : Exact.floatOverflow = (2 ^ 53 - 1) * 2 ^ (970 + 1) + 2 ^ 970 := by
  decide +kernel

theorem lt_floatOverflow_of_log2_lt (h : n.log2 < 1023) : n < Exact.floatOverflow := by
  have hle : 2 ^ 1023 ≤ Exact.floatOverflow := by decide +kernel
  calc n
    _ < 2 ^ (n.log2 + 1) := Nat.lt_log2_self
    _ ≤ 2 ^ 1023 := pow_le_pow_right₀ one_le_two h
    _ ≤ Exact.floatOverflow := hle

theorem floatOverflow_le_of_lt_log2 (h : 1023 < n.log2) : Exact.floatOverflow ≤ n := by
  have hle : Exact.floatOverflow ≤ 2 ^ 1024 := by decide +kernel
  have hne : n ≠ 0 := by
    rintro rfl
    cases h
  calc Exact.floatOverflow
    _ ≤ 2 ^ 1024 := hle
    _ ≤ 2 ^ n.log2 := pow_le_pow_right₀ one_le_two h
    _ ≤ n := Nat.log2_self_le hne

/-- The exponent is too large just for what is beyond the floats. -/
theorem exponent_lt_iff {m : Nat} (h : Kept (nearest n (n.log2 - 52)) (n.log2 - 52) m e) :
    971 < e ↔ Exact.floatOverflow ≤ n := by
  obtain ⟨-, hhigh, hcases⟩ := h
  rcases Nat.lt_trichotomy n.log2 1023 with hlt | heq | hgt
  · exact iff_of_false (by omega) (lt_floatOverflow_of_log2_lt hlt).not_ge
  · -- here rounding up decides
    have htop : 2 ^ (1023 + 1) = 2 ^ 53 * 2 ^ (970 + 1) := by decide +kernel
    have hfits : n < 2 ^ 53 * 2 ^ (970 + 1) := by
      rw [← htop, ← heq]
      exact Nat.lt_log2_self
    rw [floatOverflow_eq, ← nearest_eq_two_pow_iff hfits]
    clear hfits
    have hbits : 1023 - 52 = 970 + 1 := rfl
    rw [heq, hbits] at hcases
    omega
  · exact iff_of_true (by omega) (floatOverflow_le_of_lt_log2 hgt)

/-! ## conversions -/

/-- What a natural becomes. -/
inductive Converts : Nat → UnpackedFloat → Prop
  | zero : Converts 0 (.zero .positive)
  | exact {n m : Nat} {e : Int} (hm : 0 < m) (hlt : n < 2 ^ 53) (hvalue : (m : ℚ) * 2 ^ e = n) :
      Converts n (.finite .positive m e hm)
  | rounded {n m : Nat} {e : Int} (hm : 0 < m) (hle : 2 ^ 53 ≤ n) (hlt : n < Exact.floatOverflow)
      (hvalue : (2 : ℚ) ^ 53 ≤ m * 2 ^ e) : Converts n (.finite .positive m e hm)
  | overflow {n : Nat} (hle : Exact.floatOverflow ≤ n) : Converts n (.infinity .positive)

theorem converts_ofNat (n : Nat) : Converts n (Float.ofNat n).toModel.unpack := by
  rcases Nat.eq_zero_or_pos n with rfl | hpos
  · exact .zero
  rcases Nat.lt_or_ge n (2 ^ 53) with hlt | hge
  · have hlog := (Nat.log2_lt hpos.ne').2 hlt
    have hexponent : (n.log2 : Int) - 52 = -((52 - n.log2 : Nat) : Int) := by omega
    rw [unpack_ofNat_of_lt hpos hlt]
    refine .exact _ hlt ?_
    rw [hexponent, zpow_neg, zpow_natCast]
    push_cast
    field_simp
  · obtain ⟨m, e, hm, hofNat, hkept⟩ := ofNat_of_le hge
    have hover := exponent_lt_iff hkept
    obtain ⟨hlow, hhigh, hcases⟩ := hkept
    have hlog : 53 ≤ n.log2 := (Nat.le_log2 hpos.ne').2 hge
    rw [hofNat]
    by_cases hlarge : Exact.floatOverflow ≤ n
    · rw [unpack_pack_of_lt _ hm (hover.2 hlarge)]
      exact .overflow hlarge
    · have hexponent : ¬ 971 < e := hover.not.2 hlarge
      rw [unpack_pack_of_canonical _ hm ⟨hhigh, by omega, by omega, .inl hlow⟩]
      refine .rounded hm hge (Nat.lt_of_not_le hlarge) ?_
      calc (2 : ℚ) ^ 53
        _ = 2 ^ 52 * 2 ^ (1 : ℤ) := by norm_num
        _ ≤ m * 2 ^ e := by
            gcongr
            · exact_mod_cast hlow
            · norm_num
            · omega

theorem unpack_neg {x : Float} (h : x.toModel.unpack ≠ .notANumber) :
    x.neg.toModel.unpack = x.toModel.unpack.neg := by
  have hcanonical := isCanonical_unpack x
  have hneg : x.neg.toModel = Float.Model.pack x.toModel.unpack.neg := rfl
  rw [hneg]
  cases hu : x.toModel.unpack with
  | notANumber => exact absurd hu h
  | infinity s => exact unpack_pack_infinity _
  | zero s => exact unpack_pack_zero _
  | finite s m e hm =>
    rw [hu] at hcanonical
    exact unpack_pack_of_canonical _ hm hcanonical

end Binary64

end Sexpr
