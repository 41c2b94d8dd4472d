import Mathlib
import Sexpr.Proofs.Copying
import Sexpr.Proofs.Printing
import Sexpr.Proofs.SnapshotReaders

/-!
# Sexpr.Proofs.Layout

What is written of a value, in terms of what is written of the values inside it.

The printer with a stack follows the rule of `Value.layout` at every value
(`Value.render_eq_layout`), and nothing else does: what is inside a value is smaller, so the rule
leaves no choice (`Value.eq_of_layout`).
-/

namespace Sexpr

namespace Value

variable {f g : Value → String}

/-! ## the printer follows the rule -/

theorem render_eq_layout (v : Value) : v.render = v.layout render := by
  have hsame : render = text := funext render_eq_text
  rw [hsame]
  exact text_eq_layout v

/-! ## nothing else follows the rule -/

theorem sizeOf_tail_le (v : Value) : sizeOf v.tail ≤ sizeOf v := by
  fun_induction tail v with
  | case1 id a d ih =>
    rw [pair.sizeOf_spec]
    omega
  | case2 v _ => exact le_rfl

theorem sizeOf_lt_of_mem_elements {x v : Value} (h : x ∈ v.elements) : sizeOf x < sizeOf v := by
  fun_induction elements v with
  | case1 id a d ih =>
    rw [pair.sizeOf_spec]
    rcases List.mem_cons.1 h with rfl | hd
    · omega
    · have := ih hd
      omega
  | case2 v _ => cases h

theorem map_congr_of_sizeOf {xs : List Value} {n : Nat} (hxs : sizeOf xs < n)
    (h : ∀ x : Value, sizeOf x < n → f x = g x) : xs.map f = xs.map g :=
  List.map_congr_left fun x hx => h x ((List.sizeOf_lt_of_mem hx).trans hxs)

/-- The rule asks only for what is written of smaller values. -/
theorem layout_congr {v : Value} (h : ∀ x : Value, sizeOf x < sizeOf v → f x = g x) :
    v.layout f = v.layout g := by
  cases v with
  | pair id a d =>
    have helements : (Value.pair id a d).elements.map f = (Value.pair id a d).elements.map g :=
      List.map_congr_left fun x hx => h x (sizeOf_lt_of_mem_elements hx)
    have hend : f d.tail = g d.tail := by
      apply h
      have := d.sizeOf_tail_le
      rw [pair.sizeOf_spec]
      omega
    rw [layout, layout, helements, dottedEnd, dottedEnd, hend]
  | set id xs =>
    have hxs : sizeOf xs < sizeOf (Value.set id xs) := by simp
    rw [layout, layout, map_congr_of_sizeOf hxs h]
  | array id xs =>
    have hxs : sizeOf xs < sizeOf (Value.array id xs) := by simp
    rw [layout, layout, map_congr_of_sizeOf hxs h]
  | object id es =>
    have hes : sizeOf es < sizeOf (Value.object id es) := by simp
    have hentry : ∀ e ∈ es, e.1 ++ ": " ++ f e.2 = e.1 ++ ": " ++ g e.2 := by
      intro e he
      have hvalue : sizeOf e.2 < sizeOf e := by
        rw [Prod.mk.sizeOf_spec e.1 e.2]
        omega
      rw [h e.2 (hvalue.trans ((List.sizeOf_lt_of_mem he).trans hes))]
    rw [layout, layout, List.map_congr_left hentry]
  | _ => rfl

/-- The rule determines what is written. -/
theorem eq_of_layout (hf : ∀ v, f v = v.layout f) (hg : ∀ v, g v = v.layout g) : f = g := by
  funext v
  induction v using (measure (sizeOf : Value → Nat)).wf.induction with
  | h v ih => rw [hf, hg, layout_congr ih]

/-- **The printer with a stack writes the text of the recursive rule**, at every depth and for every
mix of lists, dotted ends and collections: it is the one function that writes each value by the
rule from what it writes of the values inside.  The entries of an object are held, and so written,
in the order of their keys, whatever entries it was made of. -/
theorem render_recursive (f : Value → String) (entries : List (String × Value)) :
    ((∀ v, f v = v.layout f) ↔ f = render) ∧ Ascending (objectOf entries) := by
  refine ⟨⟨fun hf => eq_of_layout hf render_eq_layout, ?_⟩, ascending_objectOf entries⟩
  rintro rfl
  exact render_eq_layout

end Value

end Sexpr
