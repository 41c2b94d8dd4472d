import Mathlib
import Sexpr.Primitive.Call
import Sexpr.Proofs.Equalities

/-!
# Sexpr.Proofs.Joining

Lists that are joined.

Joining two lists makes new pairs for the elements of the first, and behind them stands the second
list itself, be it proper, dotted or no list at all (`Value.joins_append`).  So several lists that
are joined one by one end in the last of them:

```
append x₁ (append x₂ (… last))  =  new pairs, then `last`
```

The function of the language puts its arguments in front of an empty list, the last one like the
others.  So the pairs of the last argument are copied and what stands behind them is dropped: the
copy is `equal` to a proper list only (`Value.shape_copy_eq_iff`), and it is the last argument
itself only where that is `nil` (`Value.copy_eq_iff`).
-/

namespace Sexpr

namespace Value

variable {objects items : List Value} {rest v : Value} {n : Ident}

/-! ## spines -/

theorem isPair_eq_false_of_ne (h : ∀ id a d, v = .pair id a d → False) : v.isPair = false := by
  cases v <;> first | rfl | exact (h _ _ _ rfl).elim

theorem elements_leaf (h : v.isPair = false) : v.elements = [] := by
  cases v <;> first | rfl | cases h

theorem length_eq_length_elements (v : Value) : v.length = v.elements.length := by
  fun_induction elements v with
  | case1 id a d ih => simp [length, ih]
  | case2 v hleaf => cases v <;> first | rfl | exact (hleaf _ _ _ rfl).elim

/-! ## elements in front of a value -/

/-- New pairs hold the elements, and behind them stands `rest` itself.  A pair is new when its
identity is not below `since`. -/
def InFront (since : Ident) : List Value → Value → Value → Prop
  | [], rest, v => v = rest
  | x :: items, rest, v => ∃ id d, v = .pair id x d ∧ since ≤ id ∧ InFront since items rest d

theorem inFront_append_iff {more : List Value} :
    InFront n (items ++ more) rest v ↔ ∃ mid, InFront n items mid v ∧ InFront n more rest mid := by
  induction items generalizing v with
  | nil => simp [InFront]
  | cons x items ih =>
    simp only [List.cons_append, InFront, ih]
    constructor
    · rintro ⟨id, d, rfl, hid, mid, hd, hmid⟩
      exact ⟨mid, ⟨id, d, rfl, hid, hd⟩, hmid⟩
    · rintro ⟨mid, ⟨id, d, rfl, hid, hd⟩, hmid⟩
      exact ⟨id, d, rfl, hid, mid, hd, hmid⟩

/-- What stands behind the elements is determined. -/
theorem InFront.unique {rest' : Value} (h : InFront n items rest v) (h' : InFront n items rest' v) :
    rest = rest' := by
  induction items generalizing v with
  | nil => exact h.symm.trans h'
  | cons x items ih =>
    obtain ⟨id, d, rfl, -, hd⟩ := h
    obtain ⟨id', d', hpair, -, hd'⟩ := h'
    cases hpair
    exact ih hd hd'

theorem InFront.mono {m : Ident} (hle : m ≤ n) (h : InFront n items rest v) :
    InFront m items rest v := by
  induction items generalizing v with
  | nil => exact h
  | cons x items ih =>
    obtain ⟨id, d, rfl, hid, hd⟩ := h
    exact ⟨id, d, rfl, hle.trans hid, ih hd⟩

theorem elements_of_inFront (h : InFront n items rest v) : v.elements = items ++ rest.elements := by
  induction items generalizing v with
  | nil => rw [show v = rest from h, List.nil_append]
  | cons x items ih =>
    obtain ⟨id, d, rfl, -, hd⟩ := h
    rw [elements, ih hd, List.cons_append]

theorem isProperList_of_inFront (h : InFront n items rest v) :
    v.isProperList = rest.isProperList := by
  induction items generalizing v with
  | nil => rw [show v = rest from h]
  | cons x items ih =>
    obtain ⟨id, d, rfl, -, hd⟩ := h
    rw [← ih hd]
    rfl

/-- Every value is its elements in front of its end. -/
theorem inFront_elements (v : Value) : InFront 0 v.elements v.tail v := by
  fun_induction elements v with
  | case1 id a d ih => exact ⟨id, d, rfl, Nat.zero_le id, ih⟩
  | case2 v hleaf => cases v <;> first | rfl | exact (hleaf _ _ _ rfl).elim

/-- A proper list is its elements in front of `nil`. -/
theorem inFront_of_isProperList (h : v.isProperList = true) : InFront 0 v.elements .nil v := by
  have hchain := inFront_elements v
  rw [isProperList_eq] at h
  rwa [eq_nil_of_isNil h] at hchain

/-- Values that hold the same elements are `equal` when what stands behind them is. -/
theorem shape_eq_iff_of_inFront {rest' v' : Value} (h : InFront n items rest v)
    (h' : InFront n items rest' v') : v.shape = v'.shape ↔ rest.shape = rest'.shape := by
  induction items generalizing v v' with
  | nil => rw [show v = rest from h, show v' = rest' from h']
  | cons x items ih =>
    obtain ⟨id, d, rfl, -, hd⟩ := h
    obtain ⟨id', d', rfl, -, hd'⟩ := h'
    rw [shape, shape, Shape.pair.injEq, ih hd hd']
    exact and_iff_right rfl

/-! ## copies -/

theorem isProperList_leaf {x : Value} (h : x.isPair = false) : x.isProperList = x.isNil := by
  cases x <;> first | rfl | cases h

theorem shape_nil_eq_iff {x : Value} (h : x.isPair = false) :
    Value.nil.shape = x.shape ↔ x.isNil = true := by
  cases x <;> simp_all [shape, atomKey, leafKey, isNil, isPair]

/-- A copy of the pairs is `equal` to a proper list and to nothing else. -/
theorem shape_copy_eq_iff {x copy : Value} (h : InFront n x.elements .nil copy) :
    copy.shape = x.shape ↔ x.isProperList = true := by
  fun_induction elements x generalizing copy with
  | case1 id a d ih =>
    obtain ⟨id', d', rfl, -, hd⟩ := h
    rw [shape, shape, Shape.pair.injEq, ih hd]
    exact and_iff_right rfl
  | case2 x hleaf =>
    have hpair := isPair_eq_false_of_ne hleaf
    rw [show copy = .nil from h, shape_nil_eq_iff hpair, isProperList_leaf hpair]

/-- A copy of the pairs is the value itself only where there is nothing to copy or drop. -/
theorem copy_eq_iff {x copy : Value} (hx : Stored objects x)
    (h : InFront objects.length x.elements .nil copy) : copy = x ↔ x = .nil := by
  cases x with
  | pair id a d =>
    obtain ⟨id', d', rfl, hid', -⟩ := h
    have hid : id < objects.length := (List.getElem?_eq_some_iff.1 (hx.getElem?_eq rfl)).1
    refine iff_of_false (fun heq => ?_) Value.noConfusion
    cases heq
    exact absurd hid (not_lt.2 hid')
  | _ => rw [show copy = .nil from h, eq_comm]

/-! ## joining -/

/-- A computation that puts elements in front of a value. -/
def Joins (items : List Value) (rest : Value) (c : Fresh Value) : Prop :=
  ∀ n, n ≤ (c.run n).2 ∧ InFront n items rest (c.run n).1

theorem joins_pure (v : Value) : Joins [] v (pure v) := fun _ => ⟨le_rfl, rfl⟩

theorem Joins.bind {more : List Value} {c : Fresh Value} {f : Value → Fresh Value}
    (hc : Joins items rest c) (hf : ∀ v, Joins more v (f v)) :
    Joins (more ++ items) rest (c >>= f) := by
  intro n
  obtain ⟨hle, hv⟩ := hc n
  obtain ⟨hle', hw⟩ := hf (c.run n).1 (c.run n).2
  exact ⟨hle.trans hle', inFront_append_iff.2 ⟨_, hw.mono hle, hv⟩⟩

theorem joins_cons (a d : Value) : Joins [a] d (cons a d) := fun n =>
  ⟨Nat.le_succ n, n, d, rfl, le_rfl, rfl⟩

/-- The elements are put in front of the accumulator one by one, so that they end up reversed. -/
theorem joins_revAppend (x acc : Value) : Joins x.elements.reverse acc (revAppend x acc) := by
  fun_induction revAppend x acc with
  | case1 id a d acc ih =>
    rw [elements, List.reverse_cons]
    exact (joins_cons a acc).bind ih
  | case2 x acc hleaf =>
    rw [elements_leaf (isPair_eq_false_of_ne hleaf)]
    exact joins_pure acc

/-- A second computation that knows what the first one has put in front. -/
theorem Joins.bind_inFront {more : List Value} {last : Value} {c : Fresh Value}
    {f : Value → Fresh Value} (hc : Joins items rest c)
    (hf : ∀ v, InFront 0 items rest v → Joins more last (f v)) : Joins more last (c >>= f) := by
  intro n
  obtain ⟨hle, hv⟩ := hc n
  obtain ⟨hle', hw⟩ := hf (c.run n).1 (hv.mono (Nat.zero_le n)) (c.run n).2
  exact ⟨hle.trans hle', hw.mono hle⟩

/-- What is done with the elements of a value is done with those that were put in front, and with
those of what stands behind. -/
theorem Joins.bind_elements {last : Value} {c : Fresh Value} {f : Value → Fresh Value}
    (hc : Joins items rest c) (g : List Value → List Value)
    (hf : ∀ v, Joins (g v.elements) last (f v)) :
    Joins (g (items ++ rest.elements)) last (c >>= f) :=
  hc.bind_inFront fun v hv => elements_of_inFront hv ▸ hf v

theorem joins_reverse (x : Value) : Joins x.elements.reverse .nil (reverse x) :=
  joins_revAppend x .nil

/-- Reversing twice copies the pairs of the first list onto the second itself. -/
theorem joins_append (x y : Value) : Joins x.elements y (append x y) := by
  unfold append
  split
  · next hnil =>
    rw [eq_nil_of_isNil hnil]
    exact joins_pure y
  · have htwice := (joins_reverse x).bind_elements List.reverse fun v => joins_revAppend v y
    simpa [elements] using htwice

theorem joins_listOnto (items : List Value) (base : Value) :
    Joins items base (listOnto items base) := by
  unfold listOnto
  induction items with
  | nil => exact joins_pure base
  | cons x items ih =>
    rw [List.foldrM_cons]
    exact ih.bind (joins_cons x)

/-- Values that are joined one by one end in the last of them. -/
theorem joins_foldrM (xs : List Value) (last : Value) :
    Joins (xs.flatMap elements) last (xs.foldrM append last) := by
  induction xs with
  | nil => exact joins_pure last
  | cons x xs ih =>
    rw [List.foldrM_cons, List.flatMap_cons]
    exact ih.bind (joins_append x)

/-! ## the function that joins -/

theorem run_call_append (library : Library) (xs : List Value) (n : Ident) :
    ((Primitive.call library .append xs).run.run n).1 = .ok ((appendAll xs).run n).1 := rfl

/-- **The function `append` copies its last argument and drops what it ends in**: it always gives
the elements of all its arguments in front of `nil`, where joining the arguments one by one
gives those of all but the last in front of the last itself.  The two are `equal` exactly when the
last argument is a proper list, and the function ends in the last argument itself exactly when this
is `nil`. -/
theorem call_append_last (library : Library) {last : Value} (hlast : Stored objects last)
    (xs : List Value) :
    ∃ joined chained,
      ((Primitive.call library .append (xs ++ [last])).run.run objects.length).1 = .ok joined ∧
      ((xs.foldrM append last).run objects.length).1 = chained ∧
      (∀ x, xs = [x] → chained = ((append x last).run objects.length).1) ∧
      InFront objects.length ((xs ++ [last]).flatMap elements) .nil joined ∧
      InFront objects.length (xs.flatMap elements) last chained ∧
      (equal joined chained = true ↔ last.isProperList = true) ∧
      (InFront objects.length (xs.flatMap elements) last joined ↔ last = .nil) := by
  refine ⟨_, _, run_call_append library _ _, rfl, ?_, ?_⟩
  · rintro x rfl
    rfl
  · obtain ⟨-, hjoined⟩ := joins_foldrM (xs ++ [last]) .nil objects.length
    obtain ⟨-, hchained⟩ := joins_foldrM xs last objects.length
    refine ⟨hjoined, hchained, ?_⟩
    -- behind the elements of the other arguments stands a copy of the last one
    rw [List.flatMap_append, List.flatMap_singleton, inFront_append_iff] at hjoined
    obtain ⟨copy, hfront, hcopy⟩ := hjoined
    constructor
    · rw [equal_iff_shape]
      exact (shape_eq_iff_of_inFront hfront hchained).trans (shape_copy_eq_iff hcopy)
    · rw [← copy_eq_iff hlast hcopy]
      exact ⟨hfront.unique, fun heq => heq ▸ hfront⟩

/-- A dotted list as the last argument loses its end. -/
theorem call_append_last_dotted :
    let dotted := Value.pair 0 (.symbol "a") (.symbol "b")
    Stored [dotted] dotted ∧
    ∃ joined chained,
      ((Primitive.call .own .append ([dotted] ++ [dotted])).run.run 1).1 = .ok joined ∧
      ((append dotted dotted).run 1).1 = chained ∧ equal joined chained = false := by
  intro dotted
  have hstored : Stored [dotted] dotted := .pair rfl (.simple rfl) (.simple rfl)
  have hdotted : ¬ dotted.isProperList = true := by decide
  obtain ⟨joined, chained, hjoined, -, hchained, -, -, hequal, -⟩ :=
    call_append_last .own hstored [dotted]
  have hdiffer : equal joined chained = false := by
    rw [← Bool.not_eq_true, hequal]
    exact hdotted
  exact ⟨hstored, joined, chained, hjoined, (hchained dotted rfl).symm, hdiffer⟩

/-- A number behind a list of one element is dropped, and one list alone is copied. -/
theorem call_append_drops_tail :
    let one := Value.pair 0 (.number (.int 1)) .nil
    let five := Value.number (.int 5)
    ((Primitive.call .own .append [one, five]).run.run 1).1 =
      .ok (.pair 2 (.number (.int 1)) .nil) ∧
    ((append one five).run 1).1 = .pair 2 (.number (.int 1)) five ∧
    ((Primitive.call .own .append [one]).run.run 1).1 = .ok (.pair 2 (.number (.int 1)) .nil) :=
  ⟨rfl, rfl, rfl⟩

end Value

end Sexpr
