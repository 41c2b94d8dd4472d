import Mathlib
import Sexpr.Number.Basic

/-!
# Sexpr.Proofs.NumberLine

Where numbers stand on the line.

The meaning of a number has a place on the rational line with both infinities (`Exact.place`).
Fractions are in lowest terms (`Exact.Lowest`), so numbers that mean different things stand at
different places (`Exact.eq_of_place_eq`).

A float can hold no integer whose magnitude is `Exact.floatOverflow` or more.  Such an integer is
`Exact.beyond` the floats, and its *clamped* place is the end of the line on its side.
-/

namespace Sexpr

namespace Exact

/-! ## the line -/

/-- The rational line with both infinities. -/
abbrev Line : Type := WithBot (WithTop ℚ)

/-- A rational on the line. -/
def onLine (q : ℚ) : Line := ((q : WithTop ℚ) : WithBot (WithTop ℚ))

theorem bot_lt_onLine (q : ℚ) : ⊥ < onLine q := WithBot.bot_lt_coe _

theorem onLine_lt_top (q : ℚ) : onLine q < ⊤ := WithBot.coe_lt_coe.2 (WithTop.coe_lt_top q)

theorem onLine_strictMono : StrictMono onLine :=
  WithBot.coe_strictMono.comp WithTop.coe_strictMono

@[simp] theorem cmp_onLine (p q : ℚ) : cmp (onLine p) (onLine q) = cmp p q :=
  onLine_strictMono.cmp_map_eq p q

@[simp] theorem cmp_bot_onLine (q : ℚ) : cmp ⊥ (onLine q) = .lt :=
  (cmp_eq_lt_iff _ _).2 (bot_lt_onLine q)

@[simp] theorem cmp_onLine_bot (q : ℚ) : cmp (onLine q) ⊥ = .gt :=
  (cmp_eq_gt_iff _ _).2 (bot_lt_onLine q)

@[simp] theorem cmp_top_onLine (q : ℚ) : cmp ⊤ (onLine q) = .gt :=
  (cmp_eq_gt_iff _ _).2 (onLine_lt_top q)

@[simp] theorem cmp_onLine_top (q : ℚ) : cmp (onLine q) ⊤ = .lt :=
  (cmp_eq_lt_iff _ _).2 (onLine_lt_top q)

@[simp] theorem cmp_bot_top : cmp (⊥ : Line) ⊤ = .lt := (cmp_eq_lt_iff _ _).2 bot_lt_top

@[simp] theorem cmp_top_bot : cmp (⊤ : Line) ⊥ = .gt := (cmp_eq_gt_iff _ _).2 bot_lt_top

/-- Numerator and scale of a finite number. -/
def ratio : Exact → Int × Nat
  | .integer n => (n, 0)
  | .fraction m k => (m, k)
  | _ => (0, 0)

/-- The rational that a finite number means. -/
def rational (x : Exact) : ℚ := x.ratio.1 / 2 ^ x.ratio.2

/-- Where a number stands on the line. -/
def place : Exact → Line
  | .infinite true => ⊥
  | .infinite false => ⊤
  | x => onLine x.rational

theorem rational_integer (n : Int) : (integer n).rational = n := by
  simp [rational, ratio]

theorem place_integer (n : Int) : (integer n).place = onLine n :=
  congrArg onLine (rational_integer n)

/-! ## lowest terms -/

/-- Fractions are in lowest terms and no integers. -/
def Lowest : Exact → Prop
  | .fraction m k => m % 2 = 1 ∧ 0 < k
  | _ => True

/-- What is left of a numerator is odd, unless the scale is used up. -/
theorem reduce_odd (k m : Nat) : (reduce k m).2 = 0 ∨ (reduce k m).1 % 2 = 1 := by
  induction k generalizing m with
  | zero => exact .inl rfl
  | succ k ih =>
    unfold reduce
    split
    · exact ih (m / 2)
    · next hodd => exact .inr (by simpa using hodd)

theorem signed_odd {n : Nat} (h : n % 2 = 1) (negative : Bool) : signed negative n % 2 = 1 := by
  unfold signed
  split <;> omega

theorem lowest_ofBinary64 (b : Binary64) : (ofBinary64 b).Lowest := by
  cases b with
  | nan => exact trivial
  | infinite negative => exact trivial
  | finite negative m e =>
    cases e with
    | ofNat e => exact trivial
    | negSucc e =>
      have hodd := reduce_odd (e + 1) m
      simp only [ofBinary64]
      rcases hreduce : reduce (e + 1) m with ⟨n, k⟩
      rw [hreduce] at hodd
      cases k with
      | zero => exact trivial
      | succ k =>
        rcases hodd with hzero | hodd
        · cases hzero
        · exact ⟨signed_odd hodd negative, Nat.succ_pos k⟩

/-- An odd numerator and its scale can be read off a fraction. -/
theorem eq_of_odd_of_mul_eq {m n : Int} {k l : Nat} (hm : m % 2 = 1) (hn : n % 2 = 1)
    (h : m * 2 ^ l = n * 2 ^ k) : m = n ∧ k = l := by
  -- the larger scale would make the numerator on its side even
  have hle : ∀ {m n : Int} {k l : Nat}, n % 2 = 1 → m * 2 ^ l = n * 2 ^ k → l ≤ k := by
    intro m n k l hn h
    by_contra hlt
    obtain ⟨d, rfl⟩ := Nat.exists_eq_add_of_lt (not_le.1 hlt)
    have heven : n = 2 * (m * 2 ^ d) := by
      have hpow : (2 : Int) ^ k ≠ 0 := by positivity
      apply mul_right_cancel₀ hpow
      rw [← h]
      ring
    omega
  obtain rfl : k = l := le_antisymm (hle hm h.symm) (hle hn h)
  have hpow : (2 : Int) ^ k ≠ 0 := by positivity
  exact ⟨mul_right_cancel₀ hpow h, rfl⟩

theorem mul_eq_of_rational_eq {x y : Exact} (h : x.rational = y.rational) :
    x.ratio.1 * 2 ^ y.ratio.2 = y.ratio.1 * 2 ^ x.ratio.2 := by
  unfold rational at h
  rw [div_eq_div_iff (by positivity) (by positivity)] at h
  exact_mod_cast h

/-- An integer or a fraction. -/
def IsFinite : Exact → Prop
  | .integer _ => True
  | .fraction .. => True
  | _ => False

theorem IsFinite.ne_nan {x : Exact} (h : x.IsFinite) : x ≠ .nan := by
  rintro rfl
  exact h

theorem place_of_isFinite {x : Exact} (h : x.IsFinite) : x.place = onLine x.rational := by
  cases x with
  | nan => exact h.elim
  | infinite s => exact h.elim
  | integer n => rfl
  | fraction m k => rfl

theorem isFinite_or_infinite {x : Exact} (h : x ≠ .nan) : x.IsFinite ∨ ∃ s, x = .infinite s := by
  cases x with
  | nan => exact absurd rfl h
  | infinite s => exact .inr ⟨s, rfl⟩
  | integer n => exact .inl trivial
  | fraction m k => exact .inl trivial

/-- The ends of the line are taken by the infinities alone. -/
theorem place_infinite_ne_onLine (s : Bool) (q : ℚ) : (infinite s).place ≠ onLine q := by
  cases s with
  | false => exact (onLine_lt_top q).ne'
  | true => exact (bot_lt_onLine q).ne

theorem place_infinite_injective {s t : Bool} (h : (infinite s).place = (infinite t).place) :
    s = t := by
  cases s <;> cases t <;> simp_all [place]

/-- Finite numbers in lowest terms that mean the same rational are the same. -/
theorem eq_of_rational_eq {x y : Exact} (hx : x.Lowest) (hy : y.Lowest) (hfinx : x.IsFinite)
    (hfiny : y.IsFinite) (h : x.rational = y.rational) : x = y := by
  have hmul := mul_eq_of_rational_eq h
  -- an integer has the scale 0, where the numerator may be even
  have heven : ∀ {m n : Int} {k : Nat}, 0 < k → n * 2 ^ k = m * 2 ^ 0 → m % 2 = 0 := by
    intro m n k hk h
    obtain ⟨d, rfl⟩ := Nat.exists_eq_add_of_lt hk
    have htwice : m = 2 * (n * 2 ^ d) := by
      rw [pow_zero, mul_one] at h
      rw [← h]
      ring
    omega
  cases x with
  | nan => exact hfinx.elim
  | infinite s => exact hfinx.elim
  | integer m =>
    cases y with
    | nan => exact hfiny.elim
    | infinite s => exact hfiny.elim
    | integer n => simpa [ratio] using hmul
    | fraction n l =>
      have hzero : n % 2 = 0 := heven hy.2 hmul
      have hone : n % 2 = 1 := hy.1
      omega
  | fraction m k =>
    cases y with
    | nan => exact hfiny.elim
    | infinite s => exact hfiny.elim
    | integer n =>
      have hzero : m % 2 = 0 := heven hx.2 hmul.symm
      have hone : m % 2 = 1 := hx.1
      omega
    | fraction n l =>
      obtain ⟨rfl, rfl⟩ := eq_of_odd_of_mul_eq hx.1 hy.1 hmul
      rfl

/-- Numbers in lowest terms stand at places of their own. -/
theorem eq_of_place_eq {x y : Exact} (hx : x.Lowest) (hy : y.Lowest) (hnanx : x ≠ .nan)
    (hnany : y ≠ .nan) (h : x.place = y.place) : x = y := by
  rcases isFinite_or_infinite hnanx with hfinx | ⟨s, rfl⟩
  · rw [place_of_isFinite hfinx] at h
    rcases isFinite_or_infinite hnany with hfiny | ⟨t, rfl⟩
    · rw [place_of_isFinite hfiny] at h
      exact eq_of_rational_eq hx hy hfinx hfiny (onLine_strictMono.injective h)
    · exact absurd h.symm (place_infinite_ne_onLine t _)
  · rcases isFinite_or_infinite hnany with hfiny | ⟨t, rfl⟩
    · rw [place_of_isFinite hfiny] at h
      exact absurd h (place_infinite_ne_onLine s _)
    · rw [place_infinite_injective h]

/-! ## integers beyond the floats -/

/-- The least integer that is too large for a float: half a unit of the last place above
the largest finite one. -/
def floatOverflow : Nat := Nat.pow 2 1024 - Nat.pow 2 970

/-- Whether an integer is too large for a float, on the given side of zero. -/
def beyond (negative : Bool) (n : Int) : Bool :=
  decide (floatOverflow ≤ n.natAbs) && negative == decide (n < 0)

theorem beyond_eq_true_iff {s : Bool} {n : Int} :
    beyond s n = true ↔ floatOverflow ≤ n.natAbs ∧ s = decide (n < 0) := by
  simp only [beyond, Bool.and_eq_true, decide_eq_true_eq, beq_iff_eq]

theorem floatOverflow_pos : 0 < floatOverflow := by decide +kernel

theorem beyond_false_iff (n : Int) : beyond false n = true ↔ (floatOverflow : Int) ≤ n := by
  have hpos := floatOverflow_pos
  rw [beyond_eq_true_iff, Bool.false_eq, decide_eq_false_iff_not]
  omega

theorem beyond_true_iff (n : Int) : beyond true n = true ↔ n ≤ -(floatOverflow : Int) := by
  have hpos := floatOverflow_pos
  rw [beyond_eq_true_iff, Bool.true_eq, decide_eq_true_eq]
  omega

/-- An integer outside the range of the floats as the infinity on its side. -/
def saturate : Exact → Exact
  | .integer n => if floatOverflow ≤ n.natAbs then .infinite (decide (n < 0)) else .integer n
  | x => x

theorem saturate_of_beyond {s : Bool} {n : Int} (h : beyond s n = true) :
    saturate (.integer n) = .infinite s := by
  obtain ⟨hover, rfl⟩ := beyond_eq_true_iff.1 h
  rw [saturate, if_pos hover]

theorem saturate_of_not_beyond {n : Int} (h : ¬ ∃ s, beyond s n = true) :
    saturate (.integer n) = .integer n := by
  have hfits : ¬ floatOverflow ≤ n.natAbs := fun hover =>
    h ⟨_, beyond_eq_true_iff.2 ⟨hover, rfl⟩⟩
  rw [saturate, if_neg hfits]

theorem saturate_of_ne_integer {x : Exact} (h : ∀ n, x ≠ .integer n) : x.saturate = x := by
  cases x with
  | integer n => exact absurd rfl (h n)
  | _ => rfl

/-- Saturation keeps a number as it is or makes an infinity of it. -/
theorem saturate_eq_self_or_infinite (x : Exact) :
    x.saturate = x ∨ ∃ s, x.saturate = .infinite s := by
  by_cases hx : ∃ n, x = .integer n
  · obtain ⟨n, rfl⟩ := hx
    by_cases hn : ∃ s, beyond s n = true
    · exact .inr (hn.imp fun _ => saturate_of_beyond)
    · exact .inl (saturate_of_not_beyond hn)
  · exact .inl (saturate_of_ne_integer (not_exists.1 hx))

/-! ## clamped places -/

/-- The place of a number, where an integer beyond the floats has moved to its end of the line. -/
def clamped (x : Exact) : Line := x.saturate.place

theorem clamped_of_beyond {s : Bool} {n : Int} (h : beyond s n = true) :
    (integer n).clamped = (infinite s).place := by
  rw [clamped, saturate_of_beyond h]

theorem clamped_integer (n : Int) :
    (integer n).clamped =
      if beyond false n then ⊤ else if beyond true n then ⊥ else onLine n := by
  split_ifs with hhigh hlow
  · exact clamped_of_beyond hhigh
  · exact clamped_of_beyond hlow
  · have hfits : ¬ ∃ s, beyond s n = true := by
      rw [Bool.exists_bool]
      exact not_or.2 ⟨hhigh, hlow⟩
    rw [clamped, saturate_of_not_beyond hfits, place_integer]

end Exact

namespace Number

theorem lowest_exact (a : Number) : a.exact.Lowest := by
  cases a with
  | int n => exact trivial
  | big n => exact trivial
  | float x => exact Exact.lowest_ofBinary64 _

theorem isLE_cmp_iff {α : Type} [LinearOrder α] (x y : α) : (cmp x y).isLE = true ↔ x ≤ y :=
  Ordering.isLE_iff_ne_gt.trans (cmp_compares x y).ne_gt

end Number

end Sexpr
