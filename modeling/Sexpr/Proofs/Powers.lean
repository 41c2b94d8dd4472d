import Mathlib
import Sexpr.Proofs.NumberOrder

/-!
# Sexpr.Proofs.Powers

What an integer power gives, and how large it can be.

The size of a power is estimated before it is computed, by the exponent times the whole part of the
base's logarithm, and the power is *admitted* when the estimate is within the limit.  An admitted
power is exact and any other is refused (`Number.power_int`), whatever words the estimate and the
exponent are held in.  The estimate is a lower bound of the size:

* `Number.two_pow_lt_of_not_admitted`: only powers beyond `2 ^ powerBitLimit` are refused;
* `Number.natAbs_pow_le_of_admitted`: but not all of them are, for an admitted power can be as
  large as `3 ^ powerBitLimit`.

All this is about exponents held as `int`.  The power by a `big` exponent is a float
(`Number.power_big`), so that equal exponents can give different powers.
-/

namespace Sexpr

namespace Number

variable {a b c : Number} {base : Int} {n : Nat} {e : Int64}

/-! ## integers and their normal form -/

theorem int_or_big {m : Int} (h : b.integer? = some m) :
    (∃ e : Int64, b = .int e ∧ e.toInt = m) ∨ b = .big m := by
  cases b with
  | int e => exact .inl ⟨e, rfl, Option.some.inj h⟩
  | big k => exact .inr (congrArg big (Option.some.inj h))
  | float x => cases h

/-- An integer in the representation that its size asks for. -/
def Normal : Number → Prop
  | .int _ => True
  | .big m => m < Int64.minValue.toInt ∨ Int64.maxValue.toInt < m
  | .float _ => False

theorem normal_ofInt (m : Int) : (ofInt m).Normal := by
  have hlow : Int64.minValue.toInt = -Int.pow 2 63 := by decide
  have hhigh : Int64.maxValue.toInt = Int.pow 2 63 - 1 := by decide
  unfold ofInt
  split
  · exact trivial
  · next hfits =>
    simp only [fitsInt, decide_eq_true_eq] at hfits
    simp only [Normal]
    omega

@[simp] theorem integer?_ofInt (m : Int) : (ofInt m).integer? = some m := by
  unfold ofInt
  split
  · next hfits =>
    simp only [fitsInt, decide_eq_true_eq] at hfits
    rw [integer?, Int64.toInt_ofInt_of_le hfits.1 hfits.2]
  · rfl

/-! ## integer powers -/

theorem powInt_eq_pow (base : Int) (n : Nat) : powInt base n = base ^ n := by
  have habs : ((base.natAbs.pow n : Nat) : Int) = |base| ^ n := by
    rw [Nat.pow_eq, Nat.cast_pow, Int.natCast_natAbs]
  unfold powInt Exact.signed
  rw [habs]
  by_cases hneg : base < 0
  · rw [abs_of_neg hneg]
    cases Nat.even_or_odd n with
    | inl heven => rw [if_neg (by simp [Nat.even_iff.1 heven]), heven.neg_pow]
    | inr hodd => rw [if_pos (by simp [hneg, Nat.odd_iff.1 hodd]), hodd.neg_pow, neg_neg]
  · rw [if_neg (by simp [hneg]), abs_of_nonneg (not_lt.1 hneg)]

/-- The powers of `0`, `1` and `-1` are told by the parity of the exponent. -/
theorem trivial_pow (h : base.natAbs ≤ 1) (n : Nat) :
    (if n = 0 then 1 else if n % 2 = 0 then (base.natAbs : Int) else base) = base ^ n := by
  have hbase : base = 0 ∨ base = 1 ∨ base = -1 := by omega
  rcases hbase with rfl | rfl | rfl
  · by_cases hn : n = 0 <;> simp [hn]
  · simp
  · cases Nat.even_or_odd n with
    | inl heven => simp [heven.neg_one_pow, Nat.even_iff.1 heven]
    | inr hodd => simp [hodd.neg_one_pow, Nat.odd_iff.1 hodd, hodd.pos.ne']

/-! ## admitted powers -/

/-- The estimate of the size is within the limit.  The trivial bases pass without one. -/
def Admitted (base : Int) (n : Nat) : Prop :=
  base.natAbs ≤ 1 ∨ base.natAbs.log2 * n ≤ powerBitLimit

instance (base : Int) (n : Nat) : Decidable (Admitted base n) :=
  inferInstanceAs (Decidable (_ ∨ _))

/-- The limit is far below the largest word, so a product that is cut off is beyond it anyway. -/
theorem powerBitLimit_lt_wordProduct_iff (m n : Nat) :
    powerBitLimit < wordProduct m n ↔ powerBitLimit < m * n := by
  have hword : powerBitLimit < Nat.pow 2 64 - 1 := by decide
  rw [wordProduct, lt_min_iff]
  exact and_iff_left hword

theorem log2_pos (h : 1 < base.natAbs) : 0 < base.natAbs.log2 := by
  by_contra hzero
  have hlt : base.natAbs < 2 ^ (base.natAbs.log2 + 1) := Nat.lt_log2_self
  rw [Nat.eq_zero_of_not_pos hzero] at hlt
  omega

/-- The exponent of an admitted power is at most the limit, so it is a word of 32 bits. -/
theorem toNat_toUInt32 (hbase : 1 < base.natAbs) (h : Admitted base n) :
    n.toUInt32.toNat = n := by
  have hsize : base.natAbs.log2 * n ≤ powerBitLimit := h.resolve_left (by omega)
  have hle : n ≤ powerBitLimit := (Nat.le_mul_of_pos_left n (log2_pos hbase)).trans hsize
  have hword : powerBitLimit < 2 ^ 32 := by decide
  rw [Nat.toUInt32_eq, UInt32.toNat_ofNat_of_lt' (hle.trans_lt hword)]

theorem integerPower_eq (a : Number) (base : Int) (n : Nat) :
    integerPower a base n =
      if Admitted base n then .ok (ofInt (base ^ n)) else .error (.powerTooLarge a n) := by
  unfold integerPower
  by_cases hbase : base.natAbs ≤ 1
  · have hadmitted : Admitted base n := .inl hbase
    rw [if_pos hbase, if_pos hadmitted, trivial_pow hbase]
  · rw [if_neg hbase]
    simp only [powerBitLimit_lt_wordProduct_iff]
    by_cases hsize : base.natAbs.log2 * n ≤ powerBitLimit
    · have hadmitted : Admitted base n := .inr hsize
      rw [if_neg (by omega), if_pos hadmitted, powInt_eq_pow,
        toNat_toUInt32 (not_le.1 hbase) hadmitted]
    · have hrefused : ¬ Admitted base n := not_or.2 ⟨hbase, hsize⟩
      rw [if_pos (by omega), if_neg hrefused]

/-- The fault of a power that is refused. -/
def refusal (a : Number) (n : Nat) : Fault := { location := "pow", cause := .powerTooLarge a n }

/-- **Integer powers**: exact where they are admitted, refused elsewhere. -/
theorem power_int (ha : a.integer? = some base) (he : 0 ≤ e.toInt) :
    a.power (.int e) =
      if Admitted base e.toInt.toNat then .ok (ofInt (base ^ e.toInt.toNat))
      else .error (refusal a e.toInt.toNat) := by
  have hpow : a.pow (.int e) = integerPower a base e.toInt.toNat := by
    simp only [pow, ha, if_pos he]
  rw [power, hpow, integerPower_eq]
  split <;> rfl

/-! ## sizes -/

theorem natAbs_pow_le_two_pow (h : base.natAbs ≤ 1) (n k : Nat) : (base ^ n).natAbs ≤ 2 ^ k := by
  rw [Int.natAbs_pow]
  exact (pow_le_one₀ (Nat.zero_le _) h).trans Nat.one_le_two_pow

/-- The estimate never exceeds the size. -/
theorem two_pow_lt_of_not_admitted (h : ¬ Admitted base n) :
    2 ^ powerBitLimit < (base ^ n).natAbs := by
  obtain ⟨hbase, hsize⟩ := not_or.1 h
  have hne : base.natAbs ≠ 0 := by omega
  calc 2 ^ powerBitLimit < 2 ^ (base.natAbs.log2 * n) :=
        Nat.pow_lt_pow_right (by decide) (not_le.1 hsize)
    _ = (2 ^ base.natAbs.log2) ^ n := Nat.pow_mul ..
    _ ≤ base.natAbs ^ n := Nat.pow_le_pow_left (Nat.log2_self_le hne) n
    _ = (base ^ n).natAbs := (Int.natAbs_pow base n).symm

theorem two_pow_succ_le (k : Nat) : 2 ^ (k + 1) ≤ 3 ^ k + 1 := by
  induction k with
  | zero => decide
  | succ k ih =>
    have hpos : 1 ≤ 3 ^ k := Nat.one_le_pow k 3 (by decide)
    rw [pow_succ 2, pow_succ 3]
    omega

theorem le_three_pow_log2 (m : Nat) : m ≤ 3 ^ m.log2 := by
  have hlt : m < 2 ^ (m.log2 + 1) := Nat.lt_log2_self
  have hle := two_pow_succ_le m.log2
  omega

/-- How far the size can exceed the estimate. -/
theorem natAbs_pow_le_of_admitted (h : Admitted base n) :
    (base ^ n).natAbs ≤ 3 ^ powerBitLimit := by
  cases h with
  | inl hbase =>
    calc (base ^ n).natAbs ≤ 2 ^ powerBitLimit := natAbs_pow_le_two_pow hbase n powerBitLimit
      _ ≤ 3 ^ powerBitLimit := Nat.pow_le_pow_left (by decide) powerBitLimit
  | inr hsize =>
    calc (base ^ n).natAbs = base.natAbs ^ n := Int.natAbs_pow base n
      _ ≤ (3 ^ base.natAbs.log2) ^ n := Nat.pow_le_pow_left (le_three_pow_log2 _) n
      _ = 3 ^ (base.natAbs.log2 * n) := (Nat.pow_mul ..).symm
      _ ≤ 3 ^ powerBitLimit := Nat.pow_le_pow_right (by decide) hsize

/-- The size of a power, by the logarithm of its base. -/
theorem two_pow_lt_natAbs_pow_iff (base : Int) (n k : Nat) :
    2 ^ k < (base ^ n).natAbs ↔ (k : ℝ) < n * Real.logb 2 base.natAbs := by
  by_cases hzero : base.natAbs = 0
  · have hle := natAbs_pow_le_two_pow (show base.natAbs ≤ 1 by omega) n k
    exact iff_of_false hle.not_gt (by simp [hzero])
  · have hpos : 0 < base.natAbs := Nat.pos_of_ne_zero hzero
    have hreal : (0 : ℝ) < base.natAbs := by exact_mod_cast hpos
    rw [Int.natAbs_pow, ← Real.logb_pow, Real.lt_logb_iff_rpow_lt (by norm_num) (by positivity),
      Real.rpow_natCast]
    exact_mod_cast Iff.rfl

/-! ## what is refused and what is not -/

/-- A fault which says that a power is too large. -/
structure Refuses (f : Fault) (a : Number) (n : Nat) : Prop where
  category : f.cause.category = .value
  location : f.location = "pow"
  message : f.message = "result too large for " ++ a.text ++ " ^ " ++ n.repr

theorem refuses_refusal (a : Number) (n : Nat) : Refuses (refusal a n) a n := ⟨rfl, rfl, rfl⟩

/-- A power comes out exact and in normal form, or it is refused for its size. -/
theorem exact_or_refused (ha : a.integer? = some base) (he : 0 ≤ e.toInt) :
    (∃ r, a.power (.int e) = .ok r ∧ r.Normal ∧ r.integer? = some (base ^ e.toInt.toNat)) ∨
    ∃ f, a.power (.int e) = .error f ∧ Refuses f a e.toInt.toNat ∧
      2 ^ powerBitLimit < (base ^ e.toInt.toNat).natAbs := by
  rw [power_int ha he]
  split
  · exact .inl ⟨_, rfl, normal_ofInt _, integer?_ofInt _⟩
  · next hrefused =>
    exact .inr ⟨_, rfl, refuses_refusal _ _, two_pow_lt_of_not_admitted hrefused⟩

theorem power_int_eq_ok_iff (ha : a.integer? = some base) (he : 0 ≤ e.toInt) (r : Number) :
    a.power (.int e) = .ok r ↔
      Admitted base e.toInt.toNat ∧ r = ofInt (base ^ e.toInt.toNat) := by
  rw [power_int ha he]
  split <;> simp_all [eq_comm]

/-- **Powers are exact unless they are refused**: an integer to the power of an `int` that is not
negative gives the exact power in normal form, or the fault that it is too large; the fault is
raised only for a power beyond `2 ^ powerBitLimit`, and never for the bases `0`, `1` and `-1`;
and where the exponent is narrowed to a word of 32 bits, nothing of it is lost. -/
theorem power_int_exact (ha : a.integer? = some base) (he : 0 ≤ e.toInt) :
    ((∃ r, a.power (.int e) = .ok r ∧ r.Normal ∧ r.integer? = some (base ^ e.toInt.toNat)) ∨
      ∃ f, a.power (.int e) = .error f ∧ Refuses f a e.toInt.toNat ∧
        2 ^ powerBitLimit < (base ^ e.toInt.toNat).natAbs) ∧
    (base.natAbs ≤ 1 → ∃ r, a.power (.int e) = .ok r) ∧
    (base = 0 → e = 0 → a.power (.int e) = .ok (.int 1)) ∧
    (1 < base.natAbs → (∃ r, a.power (.int e) = .ok r) →
      e.toInt.toNat.toUInt32.toNat = e.toInt.toNat) := by
  refine ⟨exact_or_refused ha he, ?_, ?_, ?_⟩
  · intro hbase
    exact ⟨_, (power_int_eq_ok_iff ha he _).2 ⟨.inl hbase, rfl⟩⟩
  · rintro rfl rfl
    have hfits : fitsInt 1 = true := by decide
    have hone : ofInt (0 ^ (0 : Int64).toInt.toNat) = .int 1 := if_pos hfits
    exact (power_int_eq_ok_iff ha he _).2 ⟨.inl (by decide), hone.symm⟩
  · rintro hbase ⟨r, hr⟩
    exact toNat_toUInt32 hbase ((power_int_eq_ok_iff ha he r).1 hr).1

/-- Minus two to the power of 63 is the least `int`. -/
theorem power_int_exact_least :
    (Number.big (-2)).integer? = some (-2) ∧ 0 ≤ (63 : Int64).toInt ∧
    (Number.big (-2)).power (.int 63) = .ok (.int Int64.minValue) := by
  have hbase : (Number.big (-2)).integer? = some (-2) := rfl
  have hexponent : 0 ≤ (63 : Int64).toInt := by decide
  have hleast : (-2 : Int) ^ (63 : Int64).toInt.toNat = Int64.minValue.toInt := by decide
  have hpower := (power_int_exact hbase hexponent).1
  rw [hleast] at hpower
  refine ⟨hbase, hexponent, ?_⟩
  rcases hpower with ⟨r, hr, hnormal, hinteger⟩ | ⟨f, -, -, hlarge⟩
  · rcases int_or_big hinteger with ⟨m, rfl, hm⟩ | rfl
    · rw [hr, Int64.toInt_inj.1 hm]
    · simp only [Normal] at hnormal
      exact absurd hnormal (by decide)
  · have hsmall : Int64.minValue.toInt.natAbs = 2 ^ 63 := by decide
    have hle : 2 ^ 63 ≤ 2 ^ powerBitLimit := Nat.pow_le_pow_right (by decide) (by decide)
    rw [hsmall] at hlarge
    exact absurd hlarge hle.not_gt

/-- Zero or a power of two, with either sign. -/
def IsBinary (base : Int) : Prop := base = 0 ∨ ∃ k, base.natAbs = 2 ^ k

theorem natAbs_pow_le_of_isBinary (hbase : IsBinary base) (h : Admitted base n) :
    (base ^ n).natAbs ≤ 2 ^ powerBitLimit := by
  cases h with
  | inl hone => exact natAbs_pow_le_two_pow hone n powerBitLimit
  | inr hsize =>
    cases hbase with
    | inl hzero => exact natAbs_pow_le_two_pow (by omega) n powerBitLimit
    | inr hpower =>
      obtain ⟨k, hk⟩ := hpower
      rw [hk, Nat.log2_two_pow] at hsize
      rw [Int.natAbs_pow, hk, ← Nat.pow_mul]
      exact Nat.pow_le_pow_right (by decide) hsize

/-- **How wide a power can get**: the power passes `2 ^ powerBitLimit` without being refused exactly
when the whole part of the base's logarithm, times the exponent, is within the limit and the
logarithm itself, times the exponent, is not.  Powers of powers of two never do.  No power passes
`3 ^ powerBitLimit`. -/
theorem power_int_width (ha : a.integer? = some base) (he : 0 ≤ e.toInt) :
    ((∃ r m, a.power (.int e) = .ok r ∧ r.integer? = some m ∧ 2 ^ powerBitLimit < m.natAbs) ↔
      base.natAbs.log2 * e.toInt.toNat ≤ powerBitLimit ∧
        (powerBitLimit : ℝ) < e.toInt.toNat * Real.logb 2 base.natAbs) ∧
    (∀ r, a.power (.int e) = .ok r → ∃ m, r.integer? = some m ∧ m.natAbs ≤ 3 ^ powerBitLimit ∧
      (IsBinary base → m.natAbs ≤ 2 ^ powerBitLimit)) := by
  simp only [power_int_eq_ok_iff ha he, ← two_pow_lt_natAbs_pow_iff]
  constructor
  · constructor
    · rintro ⟨_, m, ⟨hadmitted, rfl⟩, hm, hlarge⟩
      cases (integer?_ofInt _).symm.trans hm
      refine ⟨hadmitted.resolve_left fun hone => ?_, hlarge⟩
      -- a trivial base has no power that large
      exact absurd hlarge (natAbs_pow_le_two_pow hone _ _).not_gt
    · rintro ⟨hsize, hlarge⟩
      exact ⟨_, _, ⟨.inr hsize, rfl⟩, integer?_ofInt _, hlarge⟩
  · rintro _ ⟨hadmitted, rfl⟩
    exact ⟨_, integer?_ofInt _, natAbs_pow_le_of_admitted hadmitted,
      fun hbase => natAbs_pow_le_of_isBinary hbase hadmitted⟩

/-- Three to the power of the limit is within the larger bound. -/
theorem power_int_width_three :
    (Number.int 3).integer? = some 3 ∧ 0 ≤ (1048576 : Int64).toInt ∧
    ∃ r m, (Number.int 3).power (.int 1048576) = .ok r ∧ r.integer? = some m ∧
      m.natAbs ≤ 3 ^ powerBitLimit := by
  have hbase : (Number.int 3).integer? = some 3 := rfl
  have hexponent : 0 ≤ (1048576 : Int64).toInt := by decide
  have hadmitted : Admitted 3 (1048576 : Int64).toInt.toNat := .inr (by decide)
  have hr := (power_int_eq_ok_iff hbase hexponent _).2 ⟨hadmitted, rfl⟩
  obtain ⟨m, hm, hle, -⟩ := (power_int_width hbase hexponent).2 _ hr
  exact ⟨hbase, hexponent, _, m, hr, hm, hle⟩

/-- Three to the power of the limit is not refused. -/
theorem power_three_exceeds_limit :
    ∃ r m, (Number.int 3).power (.int 1048576) = .ok r ∧ r.integer? = some m ∧
      2 ^ powerBitLimit < m.natAbs := by
  have hbase : (Number.int 3).integer? = some 3 := rfl
  have hexponent : (1048576 : Int64).toInt.toNat = powerBitLimit := by decide
  have hadmitted : Admitted 3 powerBitLimit := .inr (by decide)
  refine ⟨_, 3 ^ powerBitLimit, (power_int_eq_ok_iff hbase (by decide) _).2 ⟨?_, rfl⟩, ?_, ?_⟩
  · rw [hexponent]
    exact hadmitted
  · rw [hexponent, integer?_ofInt]
  · rw [Int.natAbs_pow]
    exact Nat.pow_lt_pow_left (by decide) (by decide)

/-! ## exponents of any size -/

/-- Whether a number is held as an integer of any size. -/
def isBig : Number → Bool
  | .big _ => true
  | _ => false

theorem exact_of_integer? {m : Int} (h : b.integer? = some m) : b.exact = .integer m := by
  rcases int_or_big h with ⟨e, rfl, rfl⟩ | rfl <;> rfl

theorem power_big (a : Number) (m : Int) :
    a.power (.big m) = .ok (.float (a.toFloat.pow (Number.big m).toFloat)) := by
  cases h : a.integer? <;> simp [power, pow, h, Except.mapError]

/-- Outcomes that agree: equal numbers, or faults of one category. -/
def Agree : Except Fault Number → Except Fault Number → Prop
  | .ok r, .ok s => (r == s) = true
  | .error f, .error g => f.cause.category = g.cause.category
  | _, _ => False

theorem agree_refl (o : Except Fault Number) : Agree o o := by
  cases o with
  | ok r => exact (beq_eq_true_iff r r).2 rfl
  | error f => rfl

theorem agree_comm (o p : Except Fault Number) : Agree o p ↔ Agree p o := by
  cases o with
  | ok r =>
    cases p with
    | ok s =>
      simp only [Agree, beq_eq_true_iff]
      exact eq_comm
    | error g => exact Iff.rfl
  | error f =>
    cases p with
    | ok s => exact Iff.rfl
    | error g => exact eq_comm

/-- An exponent held in the one way and in the other. -/
theorem agree_int_big_iff (ha : a.integer? = some base) (he : e.toInt = n) :
    Agree (a.power (.int e)) (a.power (.big n)) ↔ Admitted base n ∧
      (Number.float (a.toFloat.pow (Number.big n).toFloat)).exact = .integer (base ^ n) := by
  have hn : e.toInt.toNat = n := by omega
  rw [power_int ha (by omega), power_big, hn]
  split
  · next hadmitted =>
    simp only [Agree, beq_eq_true_iff, exact_of_integer? (integer?_ofInt _), hadmitted, true_and]
    exact eq_comm
  · next hrefused => simp [Agree, hrefused]

/-- **The representation of an exponent decides what a power is**: by an `int` that is not negative
it is an integer or refused for its size, and by a `big` it is a float.  So equal exponents give
equal powers exactly when they are held in one way, or when the float happens to be the
integer and the integer is not refused. -/
theorem power_by_representation {m : Int} (ha : a.integer? = some base)
    (hb : b.integer? = some (n : Int)) (hc : c.integer? = some m) (heq : (b == c) = true) :
    (b.isBig = false →
      (∃ r, a.power b = .ok r ∧ r.Normal ∧ r.integer? = some (base ^ n)) ∨
        ∃ f, a.power b = .error f ∧ Refuses f a n) ∧
    (b.isBig = true → ∃ x, a.power b = .ok (.float x)) ∧
    (Agree (a.power b) (a.power c) ↔ b.isBig = c.isBig ∨ Admitted base n ∧
      (Number.float (a.toFloat.pow (Number.big n).toFloat)).exact = .integer (base ^ n)) := by
  obtain rfl : (n : Int) = m := by
    have hexact := (beq_eq_true_iff b c).1 heq
    rw [exact_of_integer? hb, exact_of_integer? hc] at hexact
    exact Exact.integer.inj hexact
  rcases int_or_big hb with ⟨e, rfl, he⟩ | rfl
  · have hn : e.toInt.toNat = n := by omega
    refine ⟨fun _ => ?_, fun h => (Bool.false_ne_true h).elim, ?_⟩
    · have hpower := exact_or_refused ha (show 0 ≤ e.toInt by omega)
      rw [hn] at hpower
      exact hpower.imp_right fun ⟨f, hf, hrefuses, _⟩ => ⟨f, hf, hrefuses⟩
    · rcases int_or_big hc with ⟨e', rfl, he'⟩ | rfl
      · obtain rfl : e = e' := Int64.toInt_inj.1 (he.trans he'.symm)
        exact iff_of_true (agree_refl _) (.inl rfl)
      · rw [agree_int_big_iff ha he]
        simp [isBig]
  · refine ⟨fun h => (Bool.false_ne_true h.symm).elim, fun _ => ⟨_, power_big a n⟩, ?_⟩
    rcases int_or_big hc with ⟨e, rfl, he⟩ | rfl
    · rw [agree_comm, agree_int_big_iff ha he]
      simp [isBig]
    · exact iff_of_true (agree_refl _) (.inl rfl)

theorem power_by_representation_cube :
    (Number.int 2).integer? = some 2 ∧ (Number.int 3).integer? = some ((3 : Nat) : Int) ∧
    (Number.big 3).integer? = some 3 ∧ (Number.int 3 == Number.big 3) = true ∧
    (Agree ((Number.int 2).power (.int 3)) ((Number.int 2).power (.big 3)) ↔
      Number.isBig (.int 3) = Number.isBig (.big 3) ∨ Admitted 2 3 ∧
        (Number.float ((Number.int 2).toFloat.pow (Number.big (3 : Nat)).toFloat)).exact =
          .integer (2 ^ 3)) :=
  ⟨rfl, rfl, rfl, rfl, (power_by_representation rfl rfl rfl rfl).2.2⟩

/-- One to the power of an integer beyond the `int`s is a float, and ten to a power that is refused
for an `int` exponent is not refused for the equal `big` one. -/
theorem power_big_not_integer :
    (∃ x, (Number.int 1).power (.big (2 ^ 63)) = .ok (.float x)) ∧
    (Number.int 4000000000 == Number.big 4000000000) = true ∧
    ¬ Agree ((Number.int 10).power (.int 4000000000))
      ((Number.int 10).power (.big 4000000000)) := by
  have hbase : (Number.int 10).integer? = some 10 := rfl
  have hexponent : (4000000000 : Int64).toInt = (4000000000 : Nat) := by decide
  have hrefused : ¬ Admitted 10 4000000000 := by decide
  refine ⟨⟨_, power_big _ _⟩, by decide, fun h => hrefused ?_⟩
  exact ((agree_int_big_iff hbase hexponent).1 h).1

end Number

end Sexpr
