import Mathlib
import Sexpr.Proofs.Joining

/-!
# Sexpr.Proofs.ListLaws

The laws of joining, reversing and membership, for values of every shape.

A computation that puts elements in front of a value is determined by both, up to the identities of
the pairs it makes (`Value.equal_of_joins`).  So the laws of lists of elements are laws of values:

```
append x y  =  elements of x, then y itself
reverse x   =  elements of x from the last to the first, then nil
member x y  =  some element of y is `equal` to x
```

An end other than `nil` is dropped from what is reversed and from the left of what is joined.
It is kept on the right, and it is never an element.
-/

namespace Sexpr

namespace Value

variable {items : List Value} {rest v x e : Value} {n : Ident}

/-! ## spines -/

/-- Steps along the second slots lead past the elements in front. -/
theorem cdr_iterate_of_inFront (h : InFront n items rest v) :
    (· >>= cdr)^[items.length] (Except.ok v) = Except.ok rest := by
  induction items generalizing v with
  | nil => rw [show v = rest from h]; rfl
  | cons x items ih =>
    obtain ⟨id, d, rfl, -, hd⟩ := h
    exact ih hd

/-- The elements and what stands behind them determine a list, up to the identities of its pairs. -/
theorem equal_of_joins {c c' : Fresh Value} (h : Joins items rest c) (h' : Joins items rest c')
    (n m : Ident) : equal (c.run n).1 (c'.run m).1 = true := by
  have hfront := (h n).2.mono (Nat.zero_le n)
  have hfront' := (h' m).2.mono (Nat.zero_le m)
  exact equal_iff_shape.2 ((shape_eq_iff_of_inFront hfront hfront').2 rfl)

/-! ## joining and reversing -/

/-- **Joining is associative, adds lengths and shares its second argument, and reversing turns it
around**, whatever the values are.  Reversing twice gives a value back exactly when it is a proper
list: of any other the end is lost. -/
theorem append_reverse_laws (x y z : Value) (n m : Ident) :
    equal ((do append (← append x y) z : Fresh Value).run n).1
      ((do append x (← append y z) : Fresh Value).run m).1 = true ∧
    ((append x y).run n).1.length = x.length + y.length ∧
    equal ((do reverse (← append x y) : Fresh Value).run n).1
      ((do append (← reverse y) (← reverse x) : Fresh Value).run m).1 = true ∧
    (equal ((do reverse (← reverse x) : Fresh Value).run n).1 x = true ↔ x.isProperList = true) ∧
    (· >>= cdr)^[x.length] (Except.ok ((append x y).run n).1) = Except.ok y := by
  obtain ⟨-, hjoined⟩ := joins_append x y n
  refine ⟨?_, ?_, ?_, ?_, ?_⟩
  · have hleft := (joins_append x y).bind_elements id fun v => joins_append v z
    have hright := (joins_append y z).bind fun v => joins_append x v
    exact equal_of_joins hleft hright n m
  · simp [length_eq_length_elements, elements_of_inFront hjoined]
  · have hleft := (joins_append x y).bind_elements List.reverse joins_reverse
    have hright := (joins_reverse y).bind_elements (· ++ x.elements.reverse) fun v =>
      (joins_reverse x).bind fun w => joins_append v w
    have hsame : (y.elements.reverse ++ elements .nil) ++ x.elements.reverse =
        (x.elements ++ y.elements).reverse := by simp [elements]
    rw [hsame] at hright
    exact equal_of_joins hleft hright n m
  · obtain ⟨-, htwice⟩ := (joins_reverse x).bind_elements List.reverse joins_reverse n
    simp only [elements, List.append_nil, List.reverse_reverse] at htwice
    exact equal_iff_shape.trans (shape_copy_eq_iff htwice)
  · rw [length_eq_length_elements]
    exact cdr_iterate_of_inFront hjoined

/-! ## membership -/

theorem member_eq_any (x v : Value) : member x v = v.elements.any (equal x) := by
  fun_induction member x v with
  | case1 id a d ih => simp [elements, ih]
  | case2 v hleaf => cases v <;> first | rfl | exact (hleaf _ _ _ rfl).elim

/-- Values that are `equal` are `equal` to the same values. -/
theorem equal_congr_left {x' : Value} (h : equal x x' = true) : equal x = equal x' := by
  funext v
  rw [Bool.eq_iff_iff, equal_iff_shape, equal_iff_shape, equal_iff_shape.1 h]

/-- A pair that is no atom is `eq` to itself only. -/
theorem eq_eq_false_of_not_isAtom (hx : x.isAtom = false) (hid : e.objectIdent? ≠ x.objectIdent?) :
    eq x e = false := by
  cases x with
  | pair id a d =>
    have hd : d.isNil = false := hx
    cases e with
    | pair id' b d' =>
      have hne : id ≠ id' := fun heq => hid (by simp [objectIdent?, heq])
      simp [eq, hne, hd]
    | _ => rfl
  | _ => cases hx

/-- **Membership does not depend on how a list was put together**: a joined list has the members of
both parts and a reversed one those of the list, and values that are `equal` are members of the same
lists.  Elements are compared by `equal`.  So a pair that is no atom is found where a list holds
a copy of it, although it is not `eq` to the copy. -/
theorem member_layout {x x' : Value} (h : equal x x' = true) (y z : Value) (n : Ident) :
    member x ((append y z).run n).1 = (member x y || member x z) ∧
    member x ((reverse y).run n).1 = member x y ∧
    member x y = member x' y ∧
    (member x y = true ↔ ∃ e ∈ y.elements, equal x e = true) ∧
    (x.isAtom = false → ∀ e ∈ y.elements, equal x e = true → e.objectIdent? ≠ x.objectIdent? →
      eq x e = false ∧ member x y = true) := by
  obtain ⟨-, hjoined⟩ := joins_append y z n
  obtain ⟨-, hreversed⟩ := joins_reverse y n
  simp only [member_eq_any]
  refine ⟨?_, ?_, ?_, List.any_eq_true, fun hx e he hequal hid => ?_⟩
  · rw [elements_of_inFront hjoined, List.any_append]
  · simp [elements_of_inFront hreversed, elements]
  · rw [equal_congr_left h]
  · exact ⟨eq_eq_false_of_not_isAtom hx hid, List.any_eq_true.2 ⟨e, he, hequal⟩⟩

/-- The pair `(a . 1)` is found in a dotted list that holds `(a . 1.0)`. -/
theorem member_layout_copy :
    let x := Value.pair 0 (.symbol "a") (.number (.int 1))
    let copy := Value.pair 1 (.symbol "a") (.number (.float (Float.ofBits 0x3ff0000000000000)))
    let y := Value.pair 2 copy (.symbol "end")
    equal x copy = true ∧ eq x copy = false ∧ member x y = true ∧ member copy y = true ∧
      member x ((append y .nil).run 3).1 = true ∧ member x ((reverse y).run 3).1 = true := by
  intro x copy y
  have hequal : equal x copy = true := by decide +kernel
  obtain ⟨happend, hreverse, hcongr, -, hcopy⟩ := member_layout hequal y .nil 3
  have hdiffer : copy.objectIdent? ≠ x.objectIdent? := by decide
  obtain ⟨hne, hmember⟩ := hcopy rfl copy List.mem_cons_self hequal hdiffer
  exact ⟨hequal, hne, hmember, hcongr ▸ hmember, by rw [happend, hmember]; rfl,
    hreverse.trans hmember⟩

end Value

end Sexpr
