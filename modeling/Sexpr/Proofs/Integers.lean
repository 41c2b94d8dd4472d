import Mathlib
import Sexpr.Proofs.Powers

/-!
# Sexpr.Proofs.Integers

Arithmetic of integers is exact, whichever way it takes.

Two words are combined as words, and where that overflows, or where one of the operands is no word,
as integers of any size.  A checked operation on words has no result but the exact one
(`Number.Computes`), so the way does not show: an operation gives the exact integer in normal form
(`Number.lift_of_integer?`).  The same holds of the remainder, and of a quotient that leaves none:

* `Number.remainder_of_integer?`: the remainder, refused where the divisor is zero;
* `Number.divide_of_integer?`: the quotient, a float where something remains.
-/

namespace Sexpr

namespace Number

variable {a b : Number} {m n : Int}

/-! ## words -/

/-- An operation on words has no result but the exact one. -/
def Computes (wordOp : Int64 → Int64 → Option Int64) (exactOp : Int → Int → Int) : Prop :=
  ∀ x y r, wordOp x y = some r → r.toInt = exactOp x.toInt y.toInt

theorem computes_checked {overflows : Int64 → Int64 → Bool} {op : Int64 → Int64 → Int64}
    {exactOp : Int → Int → Int}
    (h : ∀ x y, overflows x y = false → (op x y).toInt = exactOp x.toInt y.toInt) :
    Computes (checked overflows op) exactOp := by
  intro x y r hr
  unfold checked at hr
  split at hr
  · cases hr
  · next hfits =>
    cases hr
    exact h x y (Bool.eq_false_iff.2 hfits)

theorem computes_checkedAdd : Computes checkedAdd (· + ·) :=
  computes_checked fun _ _ h => BitVec.toInt_add_of_not_saddOverflow (by simp [h])

theorem computes_checkedSub : Computes checkedSub (· - ·) :=
  computes_checked fun _ _ h => BitVec.toInt_sub_of_not_ssubOverflow (by simp [h])

theorem computes_checkedMul : Computes checkedMul (· * ·) :=
  computes_checked fun _ _ h => BitVec.toInt_mul_of_not_smulOverflow (by simp [h])

/-- The quotient of the least word by `-1` is the only one that is too large. -/
theorem computes_checkedDiv : Computes checkedDiv Int.tdiv := by
  refine computes_checked fun x y h => ?_
  simp only [divisionOverflows, Bool.or_eq_false_iff, Bool.and_eq_false_iff, beq_eq_false_iff_ne]
    at h
  rcases h.2 with hleast | hminus
  · exact Int64.toInt_div_of_ne_left x y hleast
  · exact Int64.toInt_div_of_ne_right x y hminus

theorem computes_checkedRem : Computes checkedRem Int.tmod :=
  computes_checked fun x y _ => Int64.toInt_mod x y

theorem ofInt_toInt (r : Int64) : ofInt r.toInt = .int r := by
  have hfits : fitsInt r.toInt = true := decide_eq_true ⟨r.le_toInt, r.toInt_lt⟩
  rw [ofInt, if_pos hfits, Int64.ofInt_toInt]

/-! ## sums, differences and products -/

/-- A number holds an integer, in the representation that its size asks for. -/
structure Holds (r : Number) (k : Int) : Prop where
  integer : r.integer? = some k
  normal : r.Normal

theorem holds_ofInt (k : Int) : (ofInt k).Holds k := ⟨integer?_ofInt k, normal_ofInt k⟩

theorem Holds.ne_float {r : Number} {k : Int} (h : r.Holds k) (x : Float) : r ≠ .float x := by
  rintro rfl
  cases h.integer

/-- Two integers give the exact result in normal form, by words or not. -/
theorem lift_of_integer? {wordOp : Int64 → Int64 → Option Int64} {exactOp : Int → Int → Int}
    {floatOp : Float → Float → Float} (hword : Computes wordOp exactOp)
    (ha : a.integer? = some m) (hb : b.integer? = some n) :
    lift wordOp exactOp floatOp a b = ofInt (exactOp m n) := by
  unfold lift
  split
  · next x y =>
    cases ha
    cases hb
    split
    · next r hr => rw [← hword x y r hr, ofInt_toInt]
    · rfl
  · simp only [ha, hb]

theorem holds_lift {wordOp : Int64 → Int64 → Option Int64} {exactOp : Int → Int → Int}
    {floatOp : Float → Float → Float} (hword : Computes wordOp exactOp)
    (ha : a.integer? = some m) (hb : b.integer? = some n) :
    (lift wordOp exactOp floatOp a b).Holds (exactOp m n) := by
  rw [lift_of_integer? hword ha hb]
  exact holds_ofInt _

/-! ## remainders and quotients -/

theorem isZero_iff (hb : b.integer? = some n) : b.isZero = true ↔ n = 0 := by
  rw [isZero, exact_of_integer? hb, decide_eq_true_eq, Exact.integer.injEq]

theorem remainder_of_integer? (ha : a.integer? = some m) (hb : b.integer? = some n) :
    a.remainder b =
      if n = 0 then .error (.ofArithmetic .remainderByZero) else .ok (ofInt (m.tmod n)) := by
  simp only [remainder, rem, isZero_iff hb, lift_of_integer? computes_checkedRem ha hb]
  split <;> rfl

/-- A quotient by words is exact, and there is one only where nothing remains. -/
theorem wordQuotient?_eq_some {q : Number} (ha : a.integer? = some m) (hb : b.integer? = some n)
    (h : wordQuotient? a b = some q) : m.tmod n = 0 ∧ q = ofInt (m.tdiv n) := by
  unfold wordQuotient? at h
  split at h
  · next x y =>
    cases ha
    cases hb
    split at h
    · next hrem =>
      refine ⟨(computes_checkedRem x y 0 hrem).symm, ?_⟩
      split at h
      · next r hr =>
        cases h
        rw [← computes_checkedDiv x y r hr, ofInt_toInt]
      · exact (Option.some.inj h).symm
    · cases h
  · cases h

theorem divide_of_integer? (ha : a.integer? = some m) (hb : b.integer? = some n) :
    a.divide b =
      if n = 0 then .error (.ofArithmetic .divisionByZero)
      else if n ∣ m then .ok (ofInt (m.tdiv n))
      else .ok (.float (a.toFloat / b.toFloat)) := by
  simp only [divide, div, isZero_iff hb, Int.dvd_iff_tmod_eq_zero]
  split
  · rfl
  · cases hword : wordQuotient? a b with
    | some q =>
      obtain ⟨hrem, rfl⟩ := wordQuotient?_eq_some ha hb hword
      rw [if_pos hrem]
      rfl
    | none =>
      simp only [ha, hb]
      split <;> rfl

/-- What is left of `m` after a division by `n`, with the sign of `m`. -/
structure IsRemainder (m n k : Int) : Prop where
  dvd_sub : n ∣ m - k
  natAbs_lt : k.natAbs < n.natAbs
  sign_eq : k = 0 ∨ k.sign = m.sign

theorem isRemainder_tmod (m : Int) (hn : n ≠ 0) : IsRemainder m n (m.tmod n) where
  dvd_sub := Int.dvd_self_sub_tmod
  natAbs_lt := by
    rw [Int.natAbs_tmod]
    exact Nat.mod_lt _ (Int.natAbs_pos.2 hn)
  sign_eq := by
    by_cases hdvd : n ∣ m
    · exact .inl (Int.tmod_eq_zero_of_dvd hdvd)
    · exact .inr (by rw [Int.sign_tmod, if_neg hdvd])

/-- The fault of a division by zero. -/
structure RefusesZero (f : Fault) (name : String) : Prop where
  category : f.cause.category = .value
  location : f.location = name
  message : f.message = "division by zero"

/-- **Arithmetic of integers**: sums, differences and products are exact and in normal form; so are
the remainder, which has the sign of the dividend, and the quotient of a division without
remainder; a division is refused exactly when the divisor is zero, and its quotient is a float
exactly when something remains. -/
theorem integer_arithmetic_exact (ha : a.integer? = some m) (hb : b.integer? = some n) :
    (a.add b).Holds (m + n) ∧ (a.sub b).Holds (m - n) ∧ (a.mul b).Holds (m * n) ∧
    ((∃ f, a.remainder b = .error f) ↔ n = 0) ∧
    (∀ f, a.remainder b = .error f → RefusesZero f "mod") ∧
    (n ≠ 0 → ∃ r k, a.remainder b = .ok r ∧ r.Holds k ∧ IsRemainder m n k) ∧
    ((∃ f, a.divide b = .error f) ↔ n = 0) ∧
    (∀ f, a.divide b = .error f → RefusesZero f "/") ∧
    (n ≠ 0 → n ∣ m → ∃ r q, a.divide b = .ok r ∧ r.Holds q ∧ m = n * q) ∧
    ((∃ x, a.divide b = .ok (.float x)) ↔ n ≠ 0 ∧ ¬ n ∣ m) := by
  refine ⟨holds_lift computes_checkedAdd ha hb, holds_lift computes_checkedSub ha hb,
    holds_lift computes_checkedMul ha hb, ?_⟩
  rw [remainder_of_integer? ha hb, divide_of_integer? ha hb]
  by_cases hn : n = 0
  · simp only [hn, if_true]
    have hrefuses : ∀ e name, RefusesZero (.ofArithmetic e) name →
        ∀ f, (Except.error (.ofArithmetic e) : Except Fault Number) = .error f →
          RefusesZero f name := by
      rintro e name he f ⟨⟩
      exact he
    exact ⟨by simp, hrefuses _ _ ⟨rfl, rfl, rfl⟩, by simp, by simp, hrefuses _ _ ⟨rfl, rfl, rfl⟩,
      by simp, by simp⟩
  · simp only [hn, if_false]
    refine ⟨by simp, by simp, fun _ => ⟨_, _, rfl, holds_ofInt _, isRemainder_tmod m hn⟩, ?_⟩
    by_cases hdvd : n ∣ m
    · simp only [hdvd, if_true]
      refine ⟨by simp, by simp, fun _ _ => ⟨_, _, rfl, holds_ofInt _, ?_⟩, ?_⟩
      · exact (Int.mul_tdiv_cancel' hdvd).symm
      · simp only [Except.ok.injEq, not_true, and_false, iff_false, not_exists]
        exact (holds_ofInt _).ne_float
    · simp [hn, hdvd]

/-- The least word divided by `-1` is no word any more, and the remainder is zero. -/
theorem integer_arithmetic_exact_least :
    (Number.int Int64.minValue).integer? = some Int64.minValue.toInt ∧
    (Number.int (-1)).integer? = some (-1) ∧
    (∃ r, (Number.int Int64.minValue).divide (.int (-1)) = .ok r ∧
      r.Holds 9223372036854775808) ∧
    ∃ r, (Number.int Int64.minValue).remainder (.int (-1)) = .ok r ∧ r.Holds 0 := by
  have hleast : (Number.int Int64.minValue).integer? = some Int64.minValue.toInt := rfl
  have hminus : (Number.int (-1)).integer? = some (-1) := rfl
  obtain ⟨-, -, -, -, -, hrem, -, -, hdiv, -⟩ := integer_arithmetic_exact hleast hminus
  obtain ⟨r, k, hr, hk, hremainder⟩ := hrem (by decide)
  obtain ⟨q, j, hq, hj, hexact⟩ := hdiv (by decide) (by decide)
  obtain rfl : k = 0 := by
    have hlt := hremainder.natAbs_lt
    omega
  obtain rfl : j = 9223372036854775808 := by
    have hvalue : Int64.minValue.toInt = -9223372036854775808 := by decide
    omega
  exact ⟨hleast, hminus, ⟨q, hq, hj⟩, r, hr, hk⟩

end Number

end Sexpr
