import Mathlib
import Sexpr.Primitive.Call
import Sexpr.Proofs.RoundedComparison

/-!
# Sexpr.Proofs.NumberOrder

How far the comparison of numbers is an order that agrees with their equality.

Two integers are compared by their values, and other numbers by their clamped places: against
anything but an integer, one that is too large for a float counts as the infinity on its side.  So
an infinity compares equal to many integers that differ from each other and from it:

* `Number.compare?_eq_some_eq_iff`: numbers that compare equal are equal or *merge*: one is an
  infinity and the other an integer beyond the floats on that side;
* `Number.stands_isLE_trans_iff`: `a ≤ b ≤ c` gives `a ≤ c` unless `a` *overtakes* `c`: `b` is an
  infinity with which both of them merge, and `c` is the smaller one;
* `Number.pairwise_iff_of_chain`: a chain of comparisons relates all its numbers exactly when no
  triple of it fails in this way.
-/

namespace Sexpr

namespace Exact

/-! ## what clamping makes equal -/

/-- An infinity and an integer beyond the floats on its side. -/
def merges : Exact → Exact → Bool
  | .integer n, .infinite s => beyond s n
  | .infinite s, .integer n => beyond s n
  | _, _ => false

theorem merges_comm (x y : Exact) : x.merges y = y.merges x := by
  cases x <;> cases y <;> rfl

theorem saturate_integer_eq_iff {n : Int} {y : Exact} (hy : ∀ m, y ≠ .integer m) :
    saturate (.integer n) = y ↔ (integer n).merges y = true := by
  constructor
  · intro h
    by_cases hn : ∃ s, beyond s n = true
    · obtain ⟨s, hs⟩ := hn
      rw [← h, saturate_of_beyond hs]
      exact hs
    · exact absurd (saturate_of_not_beyond hn ▸ h).symm (hy n)
  · intro h
    cases y with
    | infinite s => exact saturate_of_beyond h
    | _ => cases h

/-- Saturation makes equal no numbers but those that merge, unless both are integers. -/
theorem saturate_eq_saturate_iff {x y : Exact} (h : ∀ m n, x = .integer m → y ≠ .integer n) :
    x.saturate = y.saturate ↔ x = y ∨ x.merges y = true := by
  by_cases hx : ∃ m, x = .integer m
  · obtain ⟨m, rfl⟩ := hx
    have hy : ∀ n, y ≠ .integer n := fun n => h m n rfl
    rw [saturate_of_ne_integer hy, saturate_integer_eq_iff hy, or_iff_right (hy m).symm]
  · have hx : ∀ m, x ≠ .integer m := not_exists.1 hx
    rw [saturate_of_ne_integer hx]
    by_cases hy : ∃ n, y = .integer n
    · obtain ⟨n, rfl⟩ := hy
      rw [eq_comm, saturate_integer_eq_iff hx, merges_comm, or_iff_right (hx n)]
    · have hmerges : x.merges y = false := by
        cases x <;> cases y <;> simp_all [merges]
      rw [saturate_of_ne_integer (not_exists.1 hy), hmerges]
      simp

theorem clamped_eq_clamped_iff {x y : Exact} (hx : x.Lowest) (hy : y.Lowest) (hnanx : x ≠ .nan)
    (hnany : y ≠ .nan) (h : ∀ m n, x = .integer m → y ≠ .integer n) :
    x.clamped = y.clamped ↔ x = y ∨ x.merges y = true := by
  have hlowest : ∀ {z : Exact}, z.Lowest → z ≠ .nan → z.saturate.Lowest ∧ z.saturate ≠ .nan := by
    intro z hz hnan
    rcases saturate_eq_self_or_infinite z with hself | ⟨s, hs⟩
    · rw [hself]
      exact ⟨hz, hnan⟩
    · rw [hs]
      exact ⟨trivial, Exact.noConfusion⟩
  rw [← saturate_eq_saturate_iff h]
  obtain ⟨hx, hnanx⟩ := hlowest hx hnanx
  obtain ⟨hy, hnany⟩ := hlowest hy hnany
  exact ⟨eq_of_place_eq hx hy hnanx hnany, congrArg place⟩

/-- Integers keep their order, and those beyond the floats on one side share a place. -/
theorem clamped_integer_le_iff (m n : Int) :
    (integer m).clamped ≤ (integer n).clamped ↔
      m ≤ n ∨ ∃ s, beyond s m = true ∧ beyond s n = true := by
  have hpos := floatOverflow_pos
  simp only [clamped_integer, Bool.exists_bool, beyond_false_iff, beyond_true_iff]
  split_ifs with hm hn hn' hm' hn hn' hn hn'
  · exact iff_of_true le_rfl (by omega)
  · exact iff_of_false bot_lt_top.not_ge (by omega)
  · exact iff_of_false (onLine_lt_top _).not_ge (by omega)
  · exact iff_of_true bot_le (by omega)
  · exact iff_of_true bot_le (by omega)
  · exact iff_of_true bot_le (by omega)
  · exact iff_of_true le_top (by omega)
  · exact iff_of_false (bot_lt_onLine _).not_ge (by omega)
  · rw [onLine_strictMono.le_iff_le, Int.cast_le]
    omega

/-- Only an infinity shares the end of the line with an integer. -/
theorem eq_infinite_of_clamped_eq {x : Exact} {s : Bool} (hnan : x ≠ .nan)
    (hint : ∀ n, x ≠ .integer n) (h : x.clamped = (infinite s).place) : x = .infinite s := by
  rw [clamped, saturate_of_ne_integer hint] at h
  rcases isFinite_or_infinite hnan with hfin | ⟨t, rfl⟩
  · rw [place_of_isFinite hfin] at h
    exact absurd h.symm (place_infinite_ne_onLine s _)
  · rw [place_infinite_injective h]

/-! ## at most -/

/-- An infinity between two integers that merge with it, the larger of them in front. -/
def overtakes : Exact → Exact → Exact → Bool
  | .integer m, .infinite s, .integer n => decide (n < m) && beyond s m && beyond s n
  | _, _, _ => false

theorem overtakes_eq_true_iff {x y z : Exact} :
    x.overtakes y z = true ↔ ∃ m s n, x = .integer m ∧ y = .infinite s ∧ z = .integer n ∧
      n < m ∧ beyond s m = true ∧ beyond s n = true := by
  cases x <;> cases y <;> cases z <;> simp [overtakes, and_assoc]

/-- What it takes that one number is at most another. -/
structure AtMost (x y : Exact) : Prop where
  nan_iff : x = .nan ↔ y = .nan
  clamped_le : x.clamped ≤ y.clamped
  integer_le : ∀ m n, x = .integer m → y = .integer n → m ≤ n

/-- Being at most is transitive except where an infinity lets an integer overtake another. -/
theorem AtMost.trans_iff {x y z : Exact} (hxy : x.AtMost y) (hyz : y.AtMost z) :
    x.AtMost z ↔ x.overtakes y z = false := by
  rw [← Bool.not_eq_true, overtakes_eq_true_iff]
  constructor
  · rintro hxz ⟨m, s, n, hx, -, hz, hlt, -⟩
    have hle := hxz.integer_le m n hx hz
    omega
  · intro hnot
    refine ⟨hxy.nan_iff.trans hyz.nan_iff, hxy.clamped_le.trans hyz.clamped_le, ?_⟩
    rintro m n rfl rfl
    by_contra hlt
    -- the integers share a place, so it is an end of the line and `y` stands there too
    obtain ⟨s, hm, hn⟩ := (clamped_integer_le_iff m n).1
      (hxy.clamped_le.trans hyz.clamped_le) |>.resolve_left hlt
    have hend : y.clamped = (infinite s).place := by
      apply le_antisymm
      · exact hyz.clamped_le.trans_eq (clamped_of_beyond hn)
      · exact (clamped_of_beyond hm).symm.trans_le hxy.clamped_le
    have hnan : y ≠ .nan := fun hy => Exact.noConfusion (hxy.nan_iff.2 hy)
    have hint : ∀ k, y ≠ .integer k := by
      rintro k rfl
      have hmk := hxy.integer_le m k rfl rfl
      have hkn := hyz.integer_le k n rfl rfl
      omega
    exact hnot ⟨m, s, n, rfl, eq_infinite_of_clamped_eq hnan hint hend, rfl, by omega, hm, hn⟩

end Exact

namespace Number

/-! ## the comparison -/

/-- Every way that a comparison can go. -/
theorem compare?_cases (a b : Number) :
    (a.exact = .nan ∧ b.exact = .nan ∧ a.compare? b = some .eq) ∨
    (¬ (a.exact = .nan ↔ b.exact = .nan) ∧ a.compare? b = none) ∨
    (∃ m n, a.exact = .integer m ∧ b.exact = .integer n ∧ a.compare? b = some (cmp m n)) ∨
    (a.exact ≠ .nan ∧ b.exact ≠ .nan ∧
      (∀ m n, a.exact = .integer m → b.exact ≠ .integer n) ∧
      a.compare? b = some (cmp a.exact.clamped b.exact.clamped)) := by
  unfold compare?
  split
  · next ha hb => exact .inl ⟨ha, hb, rfl⟩
  · next ha hb => exact .inr (.inl ⟨fun h => hb (h.1 ha), rfl⟩)
  · next hb ha => exact .inr (.inl ⟨fun h => ha (h.2 hb), rfl⟩)
  · next m n ha hb => exact .inr (.inr (.inl ⟨m, n, ha, hb, by rw [cmp_eq_compare]⟩))
  · next ha hb _ hint =>
    exact .inr (.inr (.inr ⟨ha, hb, hint, compareFloats_toFloat ha hb hint⟩))

theorem compareFloats_swap (x y : Float) :
    compareFloats y x = (compareFloats x y).map Ordering.swap := by
  unfold compareFloats
  cases decide (x ≤ y) <;> cases decide (y ≤ x) <;> rfl

theorem compare?_swap (a b : Number) : b.compare? a = (a.compare? b).map Ordering.swap := by
  unfold compare?
  cases a.exact <;> cases b.exact <;>
    simp [compareFloats_swap a.toFloat, cmp_swap, ← cmp_eq_compare]

/-- One of the numbers is an infinity, and the other an integer beyond the floats on that side. -/
def merges (a b : Number) : Bool := a.exact.merges b.exact

/-- The middle number is an infinity, and the others are integers that merge with it, the larger
one in front. -/
def overtakes (a b c : Number) : Bool := a.exact.overtakes b.exact c.exact

/-- Numbers that compare equal are equal or merge. -/
theorem compare?_eq_some_eq_iff (a b : Number) :
    a.compare? b = some .eq ↔ a.exact = b.exact ∨ a.merges b = true := by
  unfold merges
  rcases compare?_cases a b with ⟨ha, hb, hcmp⟩ | ⟨hnan, hcmp⟩ | ⟨m, n, ha, hb, hcmp⟩ |
    ⟨ha, hb, hint, hcmp⟩
  · rw [ha, hb]
    exact iff_of_true hcmp (.inl rfl)
  · rw [hcmp]
    refine iff_of_false (by simp) ?_
    rintro (heq | hmerges)
    · exact hnan (heq ▸ Iff.rfl)
    · apply hnan
      generalize a.exact = x, b.exact = y at hmerges ⊢
      cases x <;> cases y <;> simp_all [Exact.merges]
  · rw [ha, hb, hcmp, Option.some_inj, cmp_eq_eq_iff]
    simp [Exact.merges]
  · rw [hcmp, Option.some_inj, cmp_eq_eq_iff,
      Exact.clamped_eq_clamped_iff a.lowest_exact b.lowest_exact ha hb hint]

theorem beq_eq_true_iff (a b : Number) : (a == b) = true ↔ a.exact = b.exact :=
  decide_eq_true_iff

/-- Comparing equal is equality just where nothing merges. -/
theorem compare?_agrees_iff (a b : Number) :
    (a.compare? b = some .eq ↔ (a == b) = true) ↔ a.merges b = false := by
  have hdistinct : a.merges b = true → a.exact ≠ b.exact := by
    unfold merges
    intro hmerges heq
    rw [heq] at hmerges
    cases hb : b.exact <;> rw [hb] at hmerges <;> cases hmerges
  rw [compare?_eq_some_eq_iff, beq_eq_true_iff, ← Bool.not_eq_true]
  constructor
  · intro h hmerges
    exact hdistinct hmerges (h.1 (.inr hmerges))
  · intro h
    exact or_iff_left h

/-! ## chains of comparisons -/

/-- The comparison has an answer, and it passes the test. -/
def Stands (test : Ordering → Bool) (a b : Number) : Prop := (a.compare? b).any test = true

instance (test : Ordering → Bool) (a b : Number) : Decidable (Stands test a b) :=
  inferInstanceAs (Decidable (_ = true))

theorem stands_isLE_iff (a b : Number) : Stands Ordering.isLE a b ↔ a.exact.AtMost b.exact := by
  unfold Stands
  rcases compare?_cases a b with ⟨ha, hb, hcmp⟩ | ⟨hnan, hcmp⟩ | ⟨m, n, ha, hb, hcmp⟩ |
    ⟨ha, hb, hint, hcmp⟩
  · rw [ha, hb, hcmp]
    refine iff_of_true rfl ⟨Iff.rfl, le_rfl, ?_⟩
    intro m n h
    cases h
  · rw [hcmp]
    exact iff_of_false (by simp) fun h => hnan h.nan_iff
  · rw [ha, hb, hcmp, Option.any_some, isLE_cmp_iff]
    refine ⟨fun hle => ⟨by simp, (Exact.clamped_integer_le_iff m n).2 (.inl hle), ?_⟩,
      fun h => h.integer_le m n rfl rfl⟩
    rintro m n ⟨⟩ ⟨⟩
    exact hle
  · rw [hcmp, Option.any_some, isLE_cmp_iff]
    exact ⟨fun hle => ⟨iff_of_false ha hb, hle, fun m n hm hn => absurd hn (hint m n hm)⟩,
      fun h => h.clamped_le⟩

theorem stands_isEq_iff (a b : Number) :
    Stands Ordering.isEq a b ↔ Stands Ordering.isLE a b ∧ Stands Ordering.isLE b a := by
  unfold Stands
  rw [compare?_swap a b]
  cases a.compare? b with
  | none => simp
  | some o => cases o <;> simp

/-- `a ≤ b ≤ c` gives `a ≤ c` unless `a` overtakes `c`. -/
theorem stands_isLE_trans_iff {a b c : Number} (hab : Stands Ordering.isLE a b)
    (hbc : Stands Ordering.isLE b c) : Stands Ordering.isLE a c ↔ a.overtakes b c = false := by
  rw [stands_isLE_iff] at *
  exact hab.trans_iff hbc

/-- `a = b = c` gives `a = c` unless one of `a` and `c` overtakes the other. -/
theorem stands_isEq_trans_iff {a b c : Number} (hab : Stands Ordering.isEq a b)
    (hbc : Stands Ordering.isEq b c) :
    Stands Ordering.isEq a c ↔ a.overtakes b c = false ∧ c.overtakes b a = false := by
  rw [stands_isEq_iff] at *
  rw [stands_isLE_trans_iff hab.1 hbc.1, stands_isLE_trans_iff hbc.2 hab.2]

/-- Where transitivity holds at certain triples only, a chain relates all its numbers exactly when
every triple in it is one of those. -/
theorem pairwise_iff_of_chain {test : Ordering → Bool} {fine : Number → Number → Number → Prop}
    (htrans : ∀ {x y z}, Stands test x y → Stands test y z → (Stands test x z ↔ fine x y z))
    {xs : List Number} (h : Primitive.chain test xs = true) :
    xs.Pairwise (Stands test) ↔ ∀ x y z, [x, y, z].Sublist xs → fine x y z := by
  constructor
  · intro hpair x y z hsub
    have hthree := hpair.sublist hsub
    simp only [List.pairwise_cons, List.mem_cons, forall_eq_or_imp] at hthree
    exact (htrans hthree.1.1 hthree.2.1.1).1 hthree.1.2.1
  · intro hfine
    fun_induction Primitive.chain test xs with
    | case1 x y rest ih =>
      obtain ⟨hxy, hrest⟩ := Bool.and_eq_true_iff.1 h
      have hpair := ih hrest fun _ _ _ hsub => hfine _ _ _ (hsub.cons x)
      refine List.pairwise_cons.2 ⟨?_, hpair⟩
      rintro z (_ | ⟨_, hz⟩)
      · exact hxy
      · have hsub : [x, y, z].Sublist (x :: y :: rest) :=
          .cons_cons x (.cons_cons y (List.singleton_sublist.2 hz))
        exact (htrans hxy (List.rel_of_pairwise_cons hpair hz)).2 (hfine x y z hsub)
    | case2 xs hshort =>
      rcases xs with _ | ⟨x, _ | ⟨y, rest⟩⟩
      · exact .nil
      · exact List.pairwise_singleton _ _
      · exact absurd rfl (hshort x y rest)

/-! ## the functions that compare -/

theorem numbers_map_number (name : String) (xs : List Number) :
    Primitive.numbers name (xs.map .number) = .ok xs := by
  unfold Primitive.numbers
  induction xs with
  | nil => rfl
  | cons x xs ih =>
    rw [List.map_cons, List.mapM_cons, ih]
    rfl

theorem comparison_map_number (name : String) (test : Ordering → Bool) (xs : List Number) :
    Primitive.comparison name test (xs.map .number) = .ok (.bool (Primitive.chain test xs)) := by
  rw [Primitive.comparison, numbers_map_number]
  rfl

theorem call_le (library : Library) (xs : List Number) :
    Primitive.call library .le (xs.map .number) =
      pure (.bool (Primitive.chain Ordering.isLE xs)) :=
  congrArg (fun answer => (liftM answer : Attempt Value)) (comparison_map_number "<=" _ xs)

theorem call_numEq (library : Library) (xs : List Number) :
    Primitive.call library .numEq (xs.map .number) =
      pure (.bool (Primitive.chain Ordering.isEq xs)) :=
  congrArg (fun answer => (liftM answer : Attempt Value)) (comparison_map_number "=" _ xs)

theorem call_eq (library : Library) (a b : Number) :
    Primitive.call library .eq [.number a, .number b] = pure (.bool (a == b)) := rfl

theorem pure_bool_inj {p q : Bool} :
    (pure (.bool p) : Attempt Value) = pure (.bool q) ↔ p = q := by
  constructor
  · intro h
    have hrun : (Except.ok (.bool p) : Except Fault Value) = .ok (.bool q) :=
      congrArg Prod.fst (congrFun h 0)
    simpa using hrun
  · rintro rfl
    rfl

/-- The two functions that test numbers for equality agree just where nothing merges. -/
theorem call_numEq_eq_call_eq_iff (library : Library) (a b : Number) :
    Primitive.call library .numEq [.number a, .number b] =
        Primitive.call library .eq [.number a, .number b] ↔
      a.merges b = false := by
  have hpair : Primitive.chain Ordering.isEq [a, b] = true ↔ a.compare? b = some .eq := by
    simp only [Primitive.chain, Bool.and_true]
    cases a.compare? b with
    | none => simp
    | some o => cases o <;> simp
  rw [← compare?_agrees_iff, ← hpair, ← Bool.eq_iff_iff, call_eq, ← pure_bool_inj, ← call_numEq]
  rfl

/-- **Comparison is an order as far as infinities and large integers are kept apart**: two numbers
compare the other way round when they are swapped; they compare equal exactly when they are
equal, and the functions for both agree, unless they merge; `a ≤ b ≤ c` gives `a ≤ c` unless `a`
overtakes `c`; and a chain that is true holds between any two of its numbers
unless one overtakes another in it. -/
theorem comparison_partial_order (library : Library) (a b c : Number) (xs : List Number) :
    b.compare? a = (a.compare? b).map Ordering.swap ∧
    ((a.compare? b = some .eq ↔ (a == b) = true) ↔ a.merges b = false) ∧
    (Stands Ordering.isLE a b → Stands Ordering.isLE b c →
      (Stands Ordering.isLE a c ↔ a.overtakes b c = false)) ∧
    (Primitive.call library .numEq [.number a, .number b] =
        Primitive.call library .eq [.number a, .number b] ↔
      a.merges b = false) ∧
    (Primitive.call library .le (xs.map .number) = pure (.bool true) →
      (xs.Pairwise (Stands Ordering.isLE) ↔
        ∀ x y z, [x, y, z].Sublist xs → x.overtakes y z = false)) ∧
    (Primitive.call library .numEq (xs.map .number) = pure (.bool true) →
      (xs.Pairwise (Stands Ordering.isEq) ↔
        ∀ x y z, [x, y, z].Sublist xs → x.overtakes y z = false ∧ z.overtakes y x = false)) := by
  refine ⟨compare?_swap a b, compare?_agrees_iff a b, stands_isLE_trans_iff,
    call_numEq_eq_call_eq_iff library a b, ?_, ?_⟩
  · intro h
    rw [call_le, pure_bool_inj] at h
    exact pairwise_iff_of_chain stands_isLE_trans_iff h
  · intro h
    rw [call_numEq, pure_bool_inj] at h
    exact pairwise_iff_of_chain stands_isEq_trans_iff h

/-- Ten to the four hundredth compares equal to the positive infinity and is not equal to it, and a
chain leads through the infinity to a smaller number. -/
theorem comparison_merges_infinity :
    let huge := Number.big (10 ^ 400)
    let large := Number.big (10 ^ 399)
    let infinity := Number.float (Float.ofBits 0x7ff0000000000000)
    huge.compare? infinity = some .eq ∧ (huge == infinity) = false ∧
    Primitive.call .own .numEq [.number huge, .number infinity] = pure (.bool true) ∧
    Primitive.call .own .eq [.number huge, .number infinity] = pure (.bool false) ∧
    Primitive.call .own .le [.number huge, .number infinity, .number large] = pure (.bool true) ∧
    ¬ Stands Ordering.isLE huge large := by
  intro huge large infinity
  have hequal : Primitive.chain Ordering.isEq [huge, infinity] = true := by decide +kernel
  have hdistinct : (huge == infinity) = false := by decide +kernel
  have hchain : Primitive.chain Ordering.isLE [huge, infinity, large] = true := by decide +kernel
  refine ⟨by decide +kernel, hdistinct, ?_, ?_, ?_, by decide +kernel⟩
  · exact (call_numEq .own [huge, infinity]).trans (pure_bool_inj.2 hequal)
  · exact (call_eq .own huge infinity).trans (pure_bool_inj.2 hdistinct)
  · exact (call_le .own [huge, infinity, large]).trans (pure_bool_inj.2 hchain)

end Number

end Sexpr
