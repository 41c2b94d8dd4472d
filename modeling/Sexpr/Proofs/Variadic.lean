import Mathlib
import Sexpr.Proofs.Calls
import Sexpr.Proofs.Integers

/-!
# Sexpr.Proofs.Variadic

Sums, differences and products of any number of arguments.

All arguments are read before any of them is combined with another, and reading stops at the first
that is no number (`Primitive.numbers_eq`).  Integers are combined from left to right, and each step
gives the exact result in normal form, so the last step does (`Primitive.combine_integers`),
whatever the representations of the arguments are and however large the results on the way.
-/

namespace Sexpr

variable {name : String} {args : List Value} {xs : List Number} {ms : List Int}

/-- The integer that a value holds, unless it is a float or no number. -/
def Value.integer? (v : Value) : Option Int := v.number?.bind Number.integer?

namespace Primitive

/-! ## reading the arguments -/

/-- The fault of an argument that is no number. -/
def notANumber (name : String) (v : Value) : Fault :=
  { location := name, cause := .expected "number" v }

theorem expectNumber_eq (name : String) (v : Value) :
    v.expectNumber name = match v.number? with
      | some x => .ok x
      | none => .error (notANumber name v) := by
  cases v <;> rfl

/-- Arguments are numbers, or the first that is none is reported. -/
theorem numbers_eq (name : String) (args : List Value) :
    numbers name args = match args.find? (·.number?.isNone) with
      | some v => .error (notANumber name v)
      | none => .ok (args.filterMap Value.number?) := by
  unfold numbers
  induction args with
  | nil => rfl
  | cons v args ih =>
    rw [List.mapM_cons, expectNumber_eq, ih]
    cases hv : v.number? with
    | none =>
      rw [List.find?_cons_of_pos (by simp [hv])]
      rfl
    | some x =>
      rw [List.find?_cons_of_neg (by simp [hv]), List.filterMap_cons_some hv]
      cases args.find? (·.number?.isNone) with
      | none => rfl
      | some bad => rfl

/-! ## combining integers -/

/-- Integers combined from left to right; one of them alone is combined with `identity`. -/
def combineInts (identity : Int) (op : Int → Int → Int) : List Int → Int
  | [] => identity
  | [m] => op identity m
  | m :: ms => ms.foldl op m

/-- An operation on numbers that is exact where both are integers. -/
def IsExact (op : Number → Number → Except Fault Number) (exactOp : Int → Int → Int) : Prop :=
  ∀ a b m n, a.integer? = some m → b.integer? = some n → op a b = .ok (.ofInt (exactOp m n))

variable {op : Number → Number → Except Fault Number} {exactOp : Int → Int → Int}

/-- Each step takes a result in normal form to the next. -/
theorem foldlM_integers (hop : IsExact op exactOp)
    (hxs : List.Forall₂ (·.integer? = some ·) xs ms) (k : Int) :
    xs.foldlM op (.ofInt k) = .ok (.ofInt (ms.foldl exactOp k)) := by
  induction hxs generalizing k with
  | nil => rfl
  | @cons x m xs ms hx _ ih =>
    rw [List.foldlM_cons, hop _ x k m (Number.integer?_ofInt k) hx, List.foldl_cons, ← ih]
    rfl

/-- Where there is a step at all the result is in normal form, whatever the first number is. -/
theorem combine_integers (hop : IsExact op exactOp) (identity : Int64)
    (hxs : List.Forall₂ (·.integer? = some ·) xs ms) :
    combine (.int identity) op xs = .ok (.ofInt (combineInts identity.toInt exactOp ms)) := by
  cases hxs with
  | nil => rw [combineInts, Number.ofInt_toInt, combine]
  | @cons x m xs ms hx hrest =>
    cases hrest with
    | nil => exact hop _ x identity.toInt m rfl hx
    | @cons y n xs ms hy hrest =>
      show (y :: xs).foldlM op x = _
      rw [List.foldlM_cons, hop x y m n hx hy]
      exact foldlM_integers hop hrest (exactOp m n)

theorem isExact_lift {wordOp : Int64 → Int64 → Option Int64} {floatOp : Float → Float → Float}
    (hword : Number.Computes wordOp exactOp) :
    IsExact (fun a b => .ok (Number.lift wordOp exactOp floatOp a b)) exactOp :=
  fun _ _ _ _ ha hb => congrArg Except.ok (Number.lift_of_integer? hword ha hb)

/-! ## functions that combine numbers -/

/-- A function that combines numbers by an operation which has a result for all of them. -/
structure Combines (p : Primitive) (identity : Int64) (op : Number → Number → Number) : Prop where
  call_eq (library : Library) (args : List Value) :
    p.call library args = liftM (arithmetic p.name identity (fun a b => .ok (op a b)) args)
  allows (v : Value) (args : List Value) : p.arity.allows (v :: args).length = true

theorem combines_add : Combines .add 0 Number.add := ⟨fun _ _ => rfl, fun _ _ => rfl⟩

theorem combines_sub : Combines .sub 0 Number.sub :=
  ⟨fun _ _ => rfl, fun _ _ => by simp [arity, Arity.allows]⟩

theorem combines_mul : Combines .mul 1 Number.mul := ⟨fun _ _ => rfl, fun _ _ => rfl⟩

/-- No operation is asked for anything where an argument is no number. -/
theorem arithmetic_of_not_number {bad : Value}
    (hbad : args.find? (·.number?.isNone) = some bad) (identity : Int64)
    (op : Number → Number → Except Fault Number) :
    arithmetic name identity op args = .error (notANumber name bad) := by
  rw [arithmetic, numbers_eq, hbad]
  rfl

theorem arithmetic_of_numbers (hargs : args.find? (·.number?.isNone) = none) (identity : Int64)
    (op : Number → Number → Except Fault Number) :
    arithmetic name identity op args =
      (combine (.int identity) op (args.filterMap Value.number?)).map .number := by
  rw [arithmetic, numbers_eq, hargs]
  rfl

theorem exists_combine_eq_ok (identity : Number) (op : Number → Number → Number)
    (xs : List Number) : ∃ x, combine identity (fun a b => .ok (op a b)) xs = .ok x := by
  match xs with
  | [] => exact ⟨_, rfl⟩
  | [x] => exact ⟨_, rfl⟩
  | x :: y :: xs => exact ⟨_, List.foldlM_pure⟩

/-- Values that hold integers are numbers that do. -/
theorem filterMap_number? (hargs : List.Forall₂ (·.integer? = some ·) args ms) :
    args.find? (·.number?.isNone) = none ∧
      List.Forall₂ (·.integer? = some ·) (args.filterMap Value.number?) ms := by
  induction hargs with
  | nil => exact ⟨rfl, .nil⟩
  | @cons v m args ms hv _ ih =>
    obtain ⟨x, hx, hm⟩ := Option.bind_eq_some_iff.1 hv
    simp [hx, hm, ih]

/-! ## calls -/

section Calls

variable {host : Host} {ev : Evaluator} {env : Env} {w : World} {id : Ident} {p : Primitive}
  {identity : Int64} {op : Number → Number → Number}

namespace Combines

theorem run_apply (h : Combines p identity op) (hallows : p.arity.allows args.length = true) :
    (apply host ev env (p.toNative id) args).run w =
      (arithmetic p.name identity (fun a b => .ok (op a b)) args, w) := by
  rw [run_apply_toNative, if_pos hallows, h.call_eq, run_attempt_liftM]

theorem run_apply_of_not_number (h : Combines p identity op) {bad : Value}
    (hbad : args.find? (·.number?.isNone) = some bad) :
    (apply host ev env (p.toNative id) args).run w = (.error (notANumber p.name bad), w) := by
  have hallows : p.arity.allows args.length = true := by
    cases args with
    | nil => cases hbad
    | cons v args => exact h.allows v args
  rw [h.run_apply hallows, arithmetic_of_not_number hbad]

/-- Numbers have a result, if any number of them is allowed. -/
theorem exists_run_apply (h : Combines p identity op)
    (hargs : args.find? (·.number?.isNone) = none) (hallows : p.arity.allows args.length = true) :
    ∃ x, (apply host ev env (p.toNative id) args).run w = (.ok (.number x), w) := by
  obtain ⟨x, hx⟩ := exists_combine_eq_ok (.int identity) op (args.filterMap Value.number?)
  exact ⟨x, by rw [h.run_apply hallows, arithmetic_of_numbers hargs, hx]; rfl⟩

/-- Integers have the exact result in normal form. -/
theorem run_apply_integers (h : Combines p identity op) {exactOp : Int → Int → Int}
    (hop : IsExact (fun a b => .ok (op a b)) exactOp)
    (hargs : List.Forall₂ (·.integer? = some ·) args ms)
    (hallows : p.arity.allows args.length = true) :
    (apply host ev env (p.toNative id) args).run w =
      (.ok (.number (.ofInt (combineInts identity.toInt exactOp ms))), w) := by
  obtain ⟨hnumbers, hintegers⟩ := filterMap_number? hargs
  rw [h.run_apply hallows, arithmetic_of_numbers hnumbers, combine_integers hop identity hintegers]
  rfl

end Combines

/-! ## sums, differences and products -/

/-- One integer alone is as good as any list where nothing comes of combining with `identity`. -/
theorem combineInts_eq_foldl {k : Int} {exactOp : Int → Int → Int} (hk : ∀ m, exactOp k m = m)
    (ms : List Int) : combineInts k exactOp ms = ms.foldl exactOp k := by
  match ms with
  | [] => rfl
  | [m] => rfl
  | m :: n :: ms => rw [List.foldl_cons, hk, combineInts]; simp

theorem foldl_sub_eq (ms : List Int) (k : Int) : ms.foldl (· - ·) k = k - ms.sum := by
  induction ms generalizing k with
  | nil => simp
  | cons m ms ih => simp [ih, sub_sub]

theorem run_apply_add (hargs : List.Forall₂ (·.integer? = some ·) args ms) :
    (apply host ev env (add.toNative id) args).run w = (.ok (.number (.ofInt ms.sum)), w) := by
  rw [List.sum_eq_foldl, ← combineInts_eq_foldl zero_add]
  exact combines_add.run_apply_integers (isExact_lift Number.computes_checkedAdd) hargs rfl

theorem run_apply_mul (hargs : List.Forall₂ (·.integer? = some ·) args ms) :
    (apply host ev env (mul.toNative id) args).run w = (.ok (.number (.ofInt ms.prod)), w) := by
  rw [List.prod_eq_foldl, ← combineInts_eq_foldl one_mul]
  exact combines_mul.run_apply_integers (isExact_lift Number.computes_checkedMul) hargs rfl

theorem run_apply_sub {m : Int} (hargs : List.Forall₂ (·.integer? = some ·) args (m :: ms)) :
    (apply host ev env (sub.toNative id) args).run w =
      (.ok (.number (.ofInt (if ms = [] then -m else m - ms.sum))), w) := by
  have hallows : sub.arity.allows args.length = true := by
    cases hargs with
    | cons _ _ => exact combines_sub.allows _ _
  have hcombine : combineInts 0 (· - ·) (m :: ms) = if ms = [] then -m else m - ms.sum := by
    cases ms with
    | nil => simp [combineInts]
    | cons n ms => rw [if_neg (by simp), combineInts, foldl_sub_eq]; simp
  rw [← hcombine]
  exact combines_sub.run_apply_integers (isExact_lift Number.computes_checkedSub) hargs hallows

/-- How a call ends where an argument is no number, and only there: with a fault that names the
function and the first such argument.  It is raised before any operation is asked for a result. -/
structure RefusesNonNumbers (p : Primitive) (args : List Value) (w : World)
    (ending : Except Fault Value × World) : Prop where
  iff : (∃ f, ending.1 = .error f ∧ f.cause.category = .type) ↔ ∃ v ∈ args, v.number? = none
  first {before after : List Value} {bad : Value} : args = before ++ bad :: after →
    (∀ v ∈ before, v.number? ≠ none) → bad.number? = none →
      ending = (.error (notANumber p.name bad), w) ∧
      ∀ identity op, arithmetic p.name identity op args = .error (notANumber p.name bad)
  numbers : (∀ v ∈ args, v.number? ≠ none) →
    (∃ x, ending = (.ok (.number x), w)) ∨ p.arity.allows args.length = false

theorem Combines.refusesNonNumbers (h : Combines p identity op) :
    RefusesNonNumbers p args w ((apply host ev env (p.toNative id) args).run w) where
  iff := by
    cases hfind : args.find? (·.number?.isNone) with
    | some bad =>
      rw [h.run_apply_of_not_number hfind]
      have hbad := List.find?_some hfind
      exact iff_of_true ⟨_, rfl, rfl⟩ ⟨bad, List.mem_of_find?_eq_some hfind, by simpa using hbad⟩
    | none =>
      have hall : ¬ ∃ v ∈ args, v.number? = none := by simpa using hfind
      refine iff_of_false ?_ hall
      rintro ⟨f, hf, htype⟩
      cases hallows : p.arity.allows args.length with
      | true =>
        obtain ⟨x, hx⟩ := h.exists_run_apply hfind hallows
        rw [hx] at hf
        cases hf
      | false =>
        rw [run_apply_toNative, if_neg (by simp [hallows])] at hf
        cases hf
        cases htype
  first {before after bad} hargs hbefore hbad := by
    have hfind : args.find? (·.number?.isNone) = some bad := by
      refine List.find?_eq_some_iff_append.2 ⟨by simp [hbad], before, after, hargs, fun v hv => ?_⟩
      simpa [Option.isSome_iff_ne_none] using hbefore v hv
    exact ⟨h.run_apply_of_not_number hfind, arithmetic_of_not_number hfind⟩
  numbers hall := by
    have hfind : args.find? (·.number?.isNone) = none := by simpa using hall
    cases hallows : p.arity.allows args.length with
    | false => exact .inr rfl
    | true => exact .inl (h.exists_run_apply hfind hallows)

end Calls

/-- **Arithmetic of any number of arguments**: sums, differences and products are refused with a
fault of the right name exactly when an argument is no number.  Integers have the exact sum,
product, negation and difference in normal form, in whatever representations they are given, and
the order of the arguments does not matter for the sum and the product. -/
theorem variadic_arithmetic (host : Host) (w : World) (env : Env) (id : Ident)
    (args : List Value) :
    let call := fun (p : Primitive) (args : List Value) =>
      (World.apply host env (p.toNative id) args).run w
    (∀ p ∈ [add, sub, mul], RefusesNonNumbers p args w (call p args)) ∧
    ∀ ms, List.Forall₂ (·.integer? = some ·) args ms →
      (∃ r, call add args = (.ok (.number r), w) ∧ r.Holds ms.sum) ∧
      (∃ r, call mul args = (.ok (.number r), w) ∧ r.Holds ms.prod) ∧
      (∀ args', args'.Perm args →
        call add args' = call add args ∧ call mul args' = call mul args) ∧
      (∀ m, ms = [m] → ∃ r, call sub args = (.ok (.number r), w) ∧ r.Holds (-m)) ∧
      ∀ m n ns, ms = m :: n :: ns →
        ∃ r, call sub args = (.ok (.number r), w) ∧ r.Holds (m - (n :: ns).sum) := by
  intro call
  have hcall : ∀ p args, call p args =
      (apply host (evaluator host w.headroom) env (p.toNative id) args).run w :=
    fun _ _ => World.run_apply _
  simp only [hcall]
  refine ⟨?_, fun ms hargs => ?_⟩
  · simp only [List.forall_mem_cons]
    exact ⟨combines_add.refusesNonNumbers, combines_sub.refusesNonNumbers,
      combines_mul.refusesNonNumbers, by simp⟩
  · refine ⟨⟨_, run_apply_add hargs, Number.holds_ofInt _⟩,
      ⟨_, run_apply_mul hargs, Number.holds_ofInt _⟩, ?_, ?_, ?_⟩
    · intro args' hperm
      obtain ⟨ms', hargs', hms⟩ := List.perm_comp_forall₂ hperm hargs
      rw [run_apply_add hargs, run_apply_add hargs', run_apply_mul hargs, run_apply_mul hargs',
        hms.sum_eq, hms.prod_eq]
      exact ⟨rfl, rfl⟩
    · rintro m rfl
      exact ⟨_, (run_apply_sub hargs).trans (by rw [if_pos rfl]), Number.holds_ofInt _⟩
    · rintro m n ns rfl
      exact ⟨_, (run_apply_sub hargs).trans (by rw [if_neg (by simp)]), Number.holds_ofInt _⟩

/-- A sum that leaves the words on the way ends as a word, with a small `big` among the arguments;
and the first argument that is no number is the one that is reported. -/
theorem variadic_arithmetic_overflow :
    let std := World.newStandard {} {}
    let args := [.number (.int Int64.maxValue), .number (.big 1), .number (.int (-1))]
    List.Forall₂ (·.integer? = some ·) args [9223372036854775807, 1, -1] ∧
    (∃ r, (World.apply Host.none std.1 (add.toNative 0) args).run std.2 =
      (.ok (.number r), std.2) ∧ r.Holds 9223372036854775807) ∧
    ((World.apply Host.none std.1 (sub.toNative 0) ([.number (.int 1)] ++ .nil :: [.undefined])).run
      std.2).1 = .error (notANumber "-" .nil) := by
  intro std args
  have hargs : List.Forall₂ (·.integer? = some ·) args [9223372036854775807, 1, -1] :=
    .cons (by decide) (.cons rfl (.cons (by decide) .nil))
  obtain ⟨-, hintegers⟩ := variadic_arithmetic Host.none std.2 std.1 0 args
  obtain ⟨hrefuses, -⟩ := variadic_arithmetic Host.none std.2 std.1 0
    ([.number (.int 1)] ++ .nil :: [.undefined])
  obtain ⟨hbad, -⟩ := (hrefuses sub (by simp)).first rfl (by simp [Value.number?]) rfl
  exact ⟨hargs, (hintegers _ hargs).1, congrArg Prod.fst hbad⟩

end Primitive

end Sexpr
