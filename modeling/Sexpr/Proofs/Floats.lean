import Mathlib
import Sexpr.Proofs.NumberLine

/-!
# Sexpr.Proofs.Floats

The order of floats is the order of what they mean.

`Binary64.ofFloat` reads the bits of a float just as the model of `Float` unpacks them
(`Binary64.ofFloat_eq_ofUnpacked`), and nothing is lost by packing a float whose mantissa and
exponent are as they are kept (`Binary64.Canonical`):

```
2 ^ 52 ≤ m < 2 ^ 53  and  -1074 ≤ e ≤ 971,   or   m < 2 ^ 52  and  e = -1074
```

The model compares exponents first and mantissas next.  For canonical floats that is the order of
`m * 2 ^ e`, so floats are compared as their places on the line are (`Number.compareFloats_eq_cmp`).
-/

namespace Sexpr

namespace Binary64

open Float.Model Float.Model.UnpackedFloat

/-! ## unpacking -/

/-- Whether the sign is the negative one. -/
def isNegative (s : Sign) : Bool := s == .negative

/-- What an unpacked float says. -/
def ofUnpacked : UnpackedFloat → Binary64
  | .notANumber => .nan
  | .infinity s => .infinite (isNegative s)
  | .zero s => .finite (isNegative s) 0 minExponent
  | .finite s m e _ => .finite (isNegative s) m e

theorem toNat_unpackMantissa (b : BitVec Format.binary64.numBits) :
    (unpackMantissa b).toNat = b.toNat % 2 ^ 52 := by
  simp [unpackMantissa_def]

theorem toNat_unpackExponent (b : BitVec Format.binary64.numBits) :
    (unpackExponent b).toNat = b.toNat / 2 ^ 52 % 2 ^ 11 := by
  simp [unpackExponent_def, Nat.shiftRight_eq_div_pow]

theorem toNat_unpackSign (b : BitVec Format.binary64.numBits) :
    (unpackSign b).toNat = b.toNat / 2 ^ 63 % 2 := by
  simp [unpackSign_def, Nat.shiftRight_eq_div_pow]

theorem isNegative_ofBitVec (b : BitVec Format.binary64.numBits) :
    isNegative (Sign.ofBitVec (unpackSign b)) = decide (2 ^ 63 ≤ b.toNat) := by
  have hlt : b.toNat < 2 ^ 64 := b.isLt
  have hsign := toNat_unpackSign b
  by_cases hneg : 2 ^ 63 ≤ b.toNat
  · have hone : unpackSign b ≠ 0#1 := by
      intro hzero
      rw [hzero, BitVec.toNat_zero] at hsign
      omega
    rw [Sign.ofBitVec, if_neg hone, decide_eq_true hneg]
    rfl
  · have hzero : unpackSign b = 0#1 := by
      apply BitVec.eq_of_toNat_eq
      rw [hsign, BitVec.toNat_zero]
      omega
    rw [Sign.ofBitVec, if_pos hzero, decide_eq_false hneg]
    rfl

/-- The hidden bit stands above the fraction. -/
theorem toNat_one_append (m : BitVec 52) : (1#1 ++ m).toNat = 2 ^ 52 + m.toNat := by
  rw [BitVec.toNat_append, ← Nat.shiftLeft_add_eq_or_of_lt m.isLt]
  rfl

/-- Reading the bits is unpacking. -/
theorem ofFloat_eq_ofUnpacked (x : Float) : ofFloat x = ofUnpacked x.toModel.unpack := by
  obtain ⟨b, hb⟩ : ∃ b : BitVec Format.binary64.numBits, b = x.toModel.toBits.toBitVec := ⟨_, rfl⟩
  have hbits : x.toBits.toNat = b.toNat := by rw [hb]; rfl
  have hspecial : (unpackExponent b).toNat = 2047 ↔ unpackExponent b = -1#11 := by
    rw [← BitVec.toNat_inj]
    rfl
  have hsubnormal : (unpackExponent b).toNat = 0 ↔ unpackExponent b = 0#11 := by
    rw [← BitVec.toNat_inj]
    rfl
  have hzero : (unpackMantissa b).toNat = 0 ↔ unpackMantissa b = 0#52 := by
    rw [← BitVec.toNat_inj]
    rfl
  have hbias : (Format.binary64.exponentBias : ℤ) = 1023 := by decide
  unfold ofFloat Float.Model.unpack UnpackedFloat.unpack
  rw [← hb, hbits]
  -- both sides now ask the same questions about the fields
  simp only [fractionBits, Nat.pow_eq, ← isNegative_ofBitVec, ← toNat_unpackExponent,
    ← toNat_unpackMantissa, hspecial, hsubnormal, hzero]
  by_cases hones : unpackExponent b = -1#11
  · simp only [if_pos hones]
    split <;> rfl
  · simp only [if_neg hones]
    by_cases hzeros : unpackExponent b = 0#11
    · simp only [if_pos hzeros]
      split
      · next hfraction =>
        rw [hfraction]
        rfl
      · rw [hzeros, hbias]
        rfl
    · simp only [if_neg hzeros, ofUnpacked]
      rw [toNat_one_append, hbias, minExponent]
      congr 1
      omega

/-! ## packing -/

/-- Mantissa and exponent of a float, as they are kept: all bits of the mantissa are used unless the
exponent is the least one. -/
structure Canonical (m : Nat) (e : Int) : Prop where
  lt : m < 2 ^ 53
  minExponent_le : -1074 ≤ e
  le_maxExponent : e ≤ 971
  normal : 2 ^ 52 ≤ m ∨ e = -1074

section

variable (s : Sign)

theorem unpack_special (m : BitVec 52) :
    UnpackedFloat.unpack Format.binary64 (packComponents Format.binary64 s (-1#11) m) =
      if m = 0#52 then .infinity s else .notANumber := by
  unfold UnpackedFloat.unpack
  simp only [unpackExponent_packComponents, unpackMantissa_packComponents,
    unpackSign_packComponents, Sign.ofBitVec_toBitVec, if_true]

theorem unpack_subnormal (m : BitVec 52) :
    UnpackedFloat.unpack Format.binary64 (packComponents Format.binary64 s 0#11 m) =
      if h : m = 0#52 then .zero s
      else .finite s m.toNat (-1074)
        (Nat.pos_of_ne_zero fun hm => h (BitVec.eq_of_toNat_eq hm)) := by
  have hne : ¬ 0#11 = -1#11 := by decide
  unfold UnpackedFloat.unpack
  simp only [unpackExponent_packComponents, unpackMantissa_packComponents,
    unpackSign_packComponents, Sign.ofBitVec_toBitVec, if_neg hne, if_true]
  rfl

theorem unpack_normal {e : BitVec 11} (m : BitVec 52) (hzero : e ≠ 0#11) (hones : e ≠ -1#11) :
    UnpackedFloat.unpack Format.binary64 (packComponents Format.binary64 s e m) =
      .finite s (2 ^ 52 + m.toNat) (e.toNat - 1075) (Nat.add_pos_left (by decide) _) := by
  unfold UnpackedFloat.unpack
  simp only [unpackExponent_packComponents, unpackMantissa_packComponents,
    unpackSign_packComponents, Sign.ofBitVec_toBitVec, if_neg hzero, if_neg hones, toNat_one_append]
  rfl

theorem unpack_pack (u : UnpackedFloat) :
    (Float.Model.pack u).unpack =
      UnpackedFloat.unpack Format.binary64 (UnpackedFloat.pack Format.binary64 u) := rfl

theorem unpack_pack_infinity : (Float.Model.pack (.infinity s)).unpack = .infinity s :=
  (unpack_special s 0).trans (if_pos rfl)

theorem unpack_pack_zero : (Float.Model.pack (.zero s)).unpack = .zero s := unpack_packedZero

variable {m : Nat} {e : Int} (hm : 0 < m)

/-- An exponent that is too large gives an infinity. -/
theorem unpack_pack_of_lt (h : 971 < e) :
    (Float.Model.pack (.finite s m e hm)).unpack = .infinity s := by
  have hover : 2 ^ 11 ≤ (e + (1023 : Nat) + (52 : Nat)).toNat + 1 := by omega
  have hpack : UnpackedFloat.pack Format.binary64 (.finite s m e hm) =
      packedInfinity Format.binary64 s := if_pos hover
  rw [unpack_pack, hpack]
  exact (unpack_special s 0).trans (if_pos rfl)

/-- Nothing is lost by packing what is kept. -/
theorem unpack_pack_of_canonical (h : Canonical m e) :
    (Float.Model.pack (.finite s m e hm)).unpack = .finite s m e hm := by
  obtain ⟨hlt, hmin, hmax, hnormal⟩ := h
  have hover : ¬ 2 ^ 11 ≤ (e + (1023 : Nat) + (52 : Nat)).toNat + 1 := by omega
  have hbits : m.log2 + 1 = 1 + 52 ↔ 2 ^ 52 ≤ m := by
    have hup := (Nat.log2_lt hm.ne').2 hlt
    have hlow : 52 ≤ m.log2 ↔ 2 ^ 52 ≤ m := Nat.le_log2 hm.ne'
    omega
  by_cases hlow : 2 ^ 52 ≤ m
  · have hpack : UnpackedFloat.pack Format.binary64 (.finite s m e hm) =
        packComponents Format.binary64 s (BitVec.ofNat 11 (e + (1023 : Nat) + (52 : Nat)).toNat)
          (BitVec.ofNat 52 m) := (if_neg hover).trans (if_pos (hbits.2 hlow))
    have hexp : (BitVec.ofNat 11 (e + (1023 : Nat) + (52 : Nat)).toNat).toNat =
        (e + (1023 : Nat) + (52 : Nat)).toNat := by
      rw [BitVec.toNat_ofNat]
      omega
    rw [unpack_pack, hpack]
    refine (unpack_normal s _ ?_ ?_).trans ?_
    · rw [← BitVec.toNat_inj.ne, hexp]
      show _ ≠ 0
      omega
    · rw [← BitVec.toNat_inj.ne, hexp]
      show _ ≠ 2047
      omega
    · rw [UnpackedFloat.finite.injEq, hexp, BitVec.toNat_ofNat]
      refine ⟨rfl, ?_, ?_⟩ <;> omega
  · have hpack : UnpackedFloat.pack Format.binary64 (.finite s m e hm) =
        packComponents Format.binary64 s 0#11 (BitVec.ofNat 52 m) :=
      (if_neg hover).trans (if_neg (hbits.not.2 hlow))
    have hmant : (BitVec.ofNat 52 m).toNat = m := by
      rw [BitVec.toNat_ofNat]
      omega
    rw [unpack_pack, hpack]
    refine (unpack_subnormal s _).trans ((dif_neg ?_).trans ?_)
    · rw [← BitVec.toNat_inj, hmant]
      exact hm.ne'
    · rw [UnpackedFloat.finite.injEq, hmant]
      refine ⟨rfl, rfl, ?_⟩
      omega

end

end Binary64

namespace Exact

/-! ## the value of a float -/

/-- Lowest terms keep the value. -/
theorem rational_reduce (k m : Nat) : ((reduce k m).1 : ℚ) / 2 ^ (reduce k m).2 = m / 2 ^ k := by
  induction k generalizing m with
  | zero => rfl
  | succ k ih =>
    unfold reduce
    split
    · next heven =>
      obtain ⟨d, rfl⟩ := Nat.dvd_of_mod_eq_zero heven
      rw [ih, Nat.mul_div_cancel_left d Nat.two_pos, pow_succ]
      push_cast
      field_simp
    · rfl

theorem signed_cast (negative : Bool) (m : Nat) :
    (signed negative m : ℚ) = if negative then -(m : ℚ) else m := by
  cases negative <;> simp [signed]

theorem abs_signed (negative : Bool) (m : Nat) : |(signed negative m : ℚ)| = m := by
  cases negative <;> simp [signed]

/-- A finite float means its mantissa times a power of two. -/
theorem place_ofBinary64_finite (negative : Bool) (m : Nat) (e : Int) :
    (ofBinary64 (.finite negative m e)).place = onLine (signed negative m * 2 ^ e) := by
  cases e with
  | ofNat e =>
    rw [ofBinary64, place_integer, signed_cast, signed_cast]
    cases negative <;> simp
  | negSucc e =>
    have hvalue := rational_reduce (e + 1) m
    simp only [ofBinary64]
    rcases hreduce : reduce (e + 1) m with ⟨n, k⟩
    rw [hreduce] at hvalue
    have hrational : (signed negative n : ℚ) / 2 ^ k = signed negative m * 2 ^ Int.negSucc e := by
      rw [zpow_negSucc, ← div_eq_mul_inv, signed_cast, signed_cast]
      cases negative
      · exact hvalue
      · simpa [neg_div] using hvalue
    cases k with
    | zero => rw [← hrational, place_integer, pow_zero, div_one]
    | succ k =>
      rw [← hrational]
      rfl

theorem ofBinary64_finite_ne_nan (negative : Bool) (m : Nat) (e : Int) :
    ofBinary64 (.finite negative m e) ≠ .nan := by
  cases e with
  | ofNat e => exact Exact.noConfusion
  | negSucc e =>
    simp only [ofBinary64]
    rcases reduce (e + 1) m with ⟨n, _ | k⟩ <;> exact Exact.noConfusion

end Exact

namespace Binary64

open Float.Model Float.Model.UnpackedFloat

/-! ## the order -/

/-- Where an unpacked float stands on the line. -/
def placeOf (u : UnpackedFloat) : Exact.Line := (Exact.ofBinary64 (ofUnpacked u)).place

theorem canonical_of_ofFloat {x : Float} {negative : Bool} {m : Nat} {e : Int}
    (h : ofFloat x = .finite negative m e) : Canonical m e := by
  have hfraction : x.toBits.toNat % Nat.pow 2 fractionBits < 2 ^ 52 :=
    Nat.mod_lt _ (by decide)
  have hbiased : x.toBits.toNat / Nat.pow 2 fractionBits % Nat.pow 2 11 < 2 ^ 11 :=
    Nat.mod_lt _ (by decide)
  have hhidden : Nat.pow 2 fractionBits = 2 ^ 52 := rfl
  unfold ofFloat at h
  dsimp only at h
  split at h
  · split at h <;> cases h
  · split at h
    · cases h
      exact ⟨by omega, le_rfl, by decide, .inr rfl⟩
    · cases h
      unfold minExponent
      exact ⟨by omega, by omega, by omega, .inl (by omega)⟩

variable {m m' : Nat} {e e' : Int}

/-- The larger exponent belongs to the larger number. -/
theorem Canonical.lt_of_exponent_lt (h : Canonical m e) (h' : Canonical m' e') (hlt : e < e') :
    (m : ℚ) * 2 ^ e < m' * 2 ^ e' := by
  have hnormal : 2 ^ 52 ≤ m' := by
    have hmin := h.minExponent_le
    have hor := h'.normal
    omega
  calc (m : ℚ) * 2 ^ e
    _ < 2 ^ 53 * 2 ^ e := by
        gcongr
        exact_mod_cast h.lt
    _ = 2 ^ 52 * 2 ^ (e + 1) := by
        rw [zpow_add₀ two_ne_zero]
        ring
    _ ≤ m' * 2 ^ e' := by
        gcongr
        · exact_mod_cast hnormal
        · norm_num
        · omega

/-- Exponents are compared first, mantissas next. -/
theorem Canonical.then_compare_eq_cmp (h : Canonical m e) (h' : Canonical m' e') :
    (compare e e').then (compare m m') = cmp ((m : ℚ) * 2 ^ e) (m' * 2 ^ e') := by
  rcases lt_trichotomy e e' with hlt | rfl | hgt
  · rw [compare_lt_iff_lt.2 hlt, (cmp_eq_lt_iff _ _).2 (h.lt_of_exponent_lt h' hlt)]
    rfl
  · have hpos : (0 : ℚ) < 2 ^ e := by positivity
    rw [compare_eq_iff_eq.2 rfl, cmp_mul_pos_right hpos, Nat.strictMono_cast.cmp_map_eq,
      cmp_eq_compare]
    rfl
  · rw [compare_gt_iff_gt.2 hgt, (cmp_eq_gt_iff _ _).2 (h'.lt_of_exponent_lt h hgt)]
    rfl

/-- All bits of the mantissa of a finite float are used, unless its exponent is the least one. -/
def IsCanonical : UnpackedFloat → Prop
  | .finite _ m e _ => Canonical m e
  | _ => True

theorem isCanonical_unpack (x : Float) : IsCanonical x.toModel.unpack := by
  have hread := ofFloat_eq_ofUnpacked x
  cases hu : x.toModel.unpack with
  | finite s m e hm =>
    rw [hu] at hread
    exact canonical_of_ofFloat hread
  | _ => exact trivial

@[simp] theorem placeOf_infinity_positive : placeOf (.infinity .positive) = ⊤ := rfl

@[simp] theorem placeOf_infinity_negative : placeOf (.infinity .negative) = ⊥ := rfl

@[simp] theorem placeOf_zero (s : Sign) : placeOf (.zero s) = Exact.onLine 0 := by
  rw [placeOf, ofUnpacked, Exact.place_ofBinary64_finite]
  cases s <;> simp [isNegative, Exact.signed]

@[simp] theorem placeOf_positive (hm : 0 < m) :
    placeOf (.finite .positive m e hm) = Exact.onLine (m * 2 ^ e) :=
  Exact.place_ofBinary64_finite false m e

@[simp] theorem placeOf_negative (hm : 0 < m) :
    placeOf (.finite .negative m e hm) = Exact.onLine (-(m * 2 ^ e)) := by
  rw [placeOf, ofUnpacked, Exact.place_ofBinary64_finite]
  simp [isNegative, Exact.signed]

theorem compare_zero_finite (s t : Sign) (hm : 0 < m) :
    (UnpackedFloat.zero s).compare (.finite t m e hm) =
      some (cmp (placeOf (.zero s)) (placeOf (.finite t m e hm))) := by
  have hpos : (0 : ℚ) < m * 2 ^ e := by positivity
  cases t with
  | negative => simp [UnpackedFloat.compare, (cmp_eq_gt_iff _ _).2 (neg_neg_of_pos hpos)]
  | positive => simp [UnpackedFloat.compare, (cmp_eq_lt_iff _ _).2 hpos]

theorem compare_finite_zero (s t : Sign) (hm : 0 < m) :
    (UnpackedFloat.finite s m e hm).compare (.zero t) =
      some (cmp (placeOf (.finite s m e hm)) (placeOf (.zero t))) := by
  have hpos : (0 : ℚ) < m * 2 ^ e := by positivity
  cases s with
  | negative => simp [UnpackedFloat.compare, (cmp_eq_lt_iff _ _).2 (neg_neg_of_pos hpos)]
  | positive => simp [UnpackedFloat.compare, (cmp_eq_gt_iff _ _).2 hpos]

theorem compare_finite_finite (h : Canonical m e) (h' : Canonical m' e') (s t : Sign) (hm : 0 < m)
    (hm' : 0 < m') :
    (UnpackedFloat.finite s m e hm).compare (.finite t m' e' hm') =
      some (cmp (placeOf (.finite s m e hm)) (placeOf (.finite t m' e' hm'))) := by
  have hpos : (0 : ℚ) < m * 2 ^ e := by positivity
  have hpos' : (0 : ℚ) < m' * 2 ^ e' := by positivity
  have hthen := h.then_compare_eq_cmp h'
  cases s <;> cases t
  · have hneg : cmp (-(m * 2 ^ e : ℚ)) (-(m' * 2 ^ e')) = cmp (m' * 2 ^ e' : ℚ) (m * 2 ^ e) :=
      StrictAnti.cmp_map_eq (fun _ _ => neg_lt_neg) _ _
    simp [UnpackedFloat.compare, hthen, hneg, cmp_swap]
  · have hlt : -(m * 2 ^ e : ℚ) < m' * 2 ^ e' := by linarith
    simp [UnpackedFloat.compare, (cmp_eq_lt_iff _ _).2 hlt]
  · have hlt : -(m' * 2 ^ e' : ℚ) < m * 2 ^ e := by linarith
    simp [UnpackedFloat.compare, (cmp_eq_gt_iff _ _).2 hlt]
  · simp [UnpackedFloat.compare, hthen]

/-- The order of unpacked floats is the one of their places. -/
theorem compare_eq_cmp {u v : UnpackedFloat} (hu : IsCanonical u) (hv : IsCanonical v)
    (hunan : u ≠ .notANumber) (hvnan : v ≠ .notANumber) :
    u.compare v = some (cmp (placeOf u) (placeOf v)) := by
  cases u with
  | notANumber => exact absurd rfl hunan
  | infinity s =>
    cases v with
    | notANumber => exact absurd rfl hvnan
    | infinity t => cases s <;> cases t <;> simp [UnpackedFloat.compare] <;> rfl
    | zero t => cases s <;> simp [UnpackedFloat.compare]
    | finite t m' e' hm' => cases s <;> cases t <;> simp [UnpackedFloat.compare]
  | zero s =>
    cases v with
    | notANumber => exact absurd rfl hvnan
    | infinity t => cases t <;> simp [UnpackedFloat.compare]
    | zero t => simp [UnpackedFloat.compare]
    | finite t m' e' hm' => exact compare_zero_finite s t hm'
  | finite s m e hm =>
    cases v with
    | notANumber => exact absurd rfl hvnan
    | infinity t => cases s <;> cases t <;> simp [UnpackedFloat.compare]
    | zero t => exact compare_finite_zero s t hm
    | finite t m' e' hm' => exact compare_finite_finite hu hv s t hm hm'

end Binary64

namespace Number

open Float.Model

variable {x y : Float}

theorem place_exact_float (x : Float) :
    (Number.float x).exact.place = Binary64.placeOf x.toModel.unpack :=
  congrArg (fun b => (Exact.ofBinary64 b).place) (Binary64.ofFloat_eq_ofUnpacked x)

theorem exact_float_eq_nan_iff (x : Float) :
    (Number.float x).exact = .nan ↔ x.toModel.unpack = .notANumber := by
  have hread : (Number.float x).exact = Exact.ofBinary64 (.ofUnpacked x.toModel.unpack) :=
    congrArg Exact.ofBinary64 (Binary64.ofFloat_eq_ofUnpacked x)
  rw [hread]
  cases x.toModel.unpack with
  | notANumber => exact iff_of_true rfl rfl
  | infinity s => exact iff_of_false Exact.noConfusion UnpackedFloat.noConfusion
  | zero s => exact iff_of_false (Exact.ofBinary64_finite_ne_nan _ _ _) UnpackedFloat.noConfusion
  | finite s m e hm =>
    exact iff_of_false (Exact.ofBinary64_finite_ne_nan _ _ _) UnpackedFloat.noConfusion

/-- The order of floats is the one of their places. -/
theorem float_le_iff (hx : (Number.float x).exact ≠ .nan) (hy : (Number.float y).exact ≠ .nan) :
    x ≤ y ↔ (Number.float x).exact.place ≤ (Number.float y).exact.place := by
  have hcompare := Binary64.compare_eq_cmp (Binary64.isCanonical_unpack x)
    (Binary64.isCanonical_unpack y) ((exact_float_eq_nan_iff x).not.1 hx)
    ((exact_float_eq_nan_iff y).not.1 hy)
  have hle : x ≤ y ↔ (x.toModel.unpack.compare y.toModel.unpack).any Ordering.isLE = true :=
    decide_eq_true_iff
  rw [hle, hcompare, Option.any_some, isLE_cmp_iff, place_exact_float, place_exact_float]

theorem compareFloats_eq_cmp (hx : (Number.float x).exact ≠ .nan)
    (hy : (Number.float y).exact ≠ .nan) :
    compareFloats x y =
      some (cmp (Number.float x).exact.place (Number.float y).exact.place) := by
  unfold compareFloats
  simp only [float_le_iff hx hy, float_le_iff hy hx]
  rcases lt_trichotomy (Number.float x).exact.place (Number.float y).exact.place with
    hlt | heq | hgt
  · simp [hlt.le, hlt.not_ge, (cmp_eq_lt_iff _ _).2 hlt]
  · simp [heq]
  · simp [hgt.le, hgt.not_ge, (cmp_eq_gt_iff _ _).2 hgt]

end Number

end Sexpr
