import Sexpr.Regexp.Parser
import Sexpr.Regexp.Search
import Sexpr.Value.Equality

/-!
# Sexpr.Library

What the language takes from libraries: regular expressions and hash sets.

A `Library` says which patterns are regular expressions and what they match, and how values are put
into a set and found there.  Nothing is assumed of the regular expressions.  A hash
set is assumed to hold no two equal elements and to find what is equal to an element, if equality is
an equivalence on the values in question and equal values are hashed alike.

`Library.own` is made of the regular expressions of `Sexpr.Regexp`, which cover what is commonly
written, and of sets that look at every element.
-/

namespace Sexpr

namespace Value

/-- What a hash set relies on: on the given values equality is an equivalence, and equal ones are
hashed alike. -/
structure LawfulOn (vs : List Value) : Prop where
  refl : ∀ x ∈ vs, (x == x) = true
  symm : ∀ x ∈ vs, ∀ y ∈ vs, (x == y) = true → (y == x) = true
  trans : ∀ x ∈ vs, ∀ y ∈ vs, ∀ z ∈ vs, (x == y) = true → (y == z) = true → (x == z) = true
  hash : ∀ x ∈ vs, ∀ y ∈ vs, (x == y) = true → x.hashKey = y.hashKey

/-- No two of the given values are equal. -/
def Distinct (vs : List Value) : Prop := vs.Pairwise fun x y => (x == y) = false

theorem LawfulOn.mono {vs us : List Value} (h : LawfulOn vs) (hsub : ∀ u ∈ us, u ∈ vs) :
    LawfulOn us where
  refl x hx := h.refl x (hsub x hx)
  symm x hx y hy := h.symm x (hsub x hx) y (hsub y hy)
  trans x hx y hy z hz := h.trans x (hsub x hx) y (hsub y hy) z (hsub z hz)
  hash x hx y hy := h.hash x (hsub x hx) y (hsub y hy)

/-- Whether an element is equal to `v`. -/
def hasElement (elements : List Value) (v : Value) : Bool := elements.any (· == v)

/-- The elements with `v` among them, in the place of an equal one if there is one. -/
def insertElement (elements : List Value) (v : Value) : List Value :=
  if hasElement elements v then elements.map fun x => if x == v then v else x
  else elements ++ [v]

theorem mem_of_mem_insertElement {elements : List Value} {v x : Value}
    (h : x ∈ insertElement elements v) : x = v ∨ x ∈ elements := by
  unfold insertElement at h
  split at h
  · obtain ⟨y, hy, rfl⟩ := List.mem_map.1 h
    split
    · exact .inl rfl
    · exact .inr hy
  · rcases List.mem_append.1 h with hold | hnew
    · exact .inr hold
    · exact .inl (List.mem_singleton.1 hnew)

/-- Putting a value in the place of the only one that is equal to it. -/
theorem replace_perm {elements : List Value} {v : Value} (hlawful : LawfulOn (v :: elements))
    (hdistinct : Distinct elements) (hhas : ∃ x ∈ elements, (x == v) = true) :
    (elements.map fun x => if x == v then v else x).Perm
      (v :: elements.filter fun x => !(x == v)) := by
  induction elements with
  | nil => simp at hhas
  | cons y ys ih =>
    obtain ⟨hy, hys⟩ := List.pairwise_cons.1 hdistinct
    cases hyv : y == v with
    | true =>
      -- what is equal to `v` is equal to `y`, so nothing behind `y` is
      have hothers : ∀ z ∈ ys, (z == v) = false := by
        intro z hz
        cases hzv : z == v with
        | false => rfl
        | true =>
          have hvz := hlawful.symm z (by simp [hz]) v (by simp) hzv
          have hyz := hlawful.trans y (by simp) v (by simp) z (by simp [hz]) hyv hvz
          rw [hy z hz] at hyz
          cases hyz
      have hmap : (ys.map fun x => if x == v then v else x) = ys := by
        conv => rhs; rw [← List.map_id ys]
        exact List.map_congr_left fun z hz => by simp [hothers z hz]
      have hfilter : (ys.filter fun x => !(x == v)) = ys :=
        List.filter_eq_self.2 fun z hz => by simp [hothers z hz]
      simp [hyv, hmap, hfilter]
    | false =>
      obtain ⟨x, hx, hxv⟩ := hhas
      have hx' : x ∈ ys := by
        rcases List.mem_cons.1 hx with rfl | hx
        · rw [hyv] at hxv
          cases hxv
        · exact hx
      have hperm := ih (hlawful.mono (by simp +contextual)) hys ⟨x, hx', hxv⟩
      simp only [List.map_cons, hyv, List.filter_cons, Bool.not_false, if_true]
      exact (hperm.cons y).trans (.swap v y _)

theorem insertElement_perm {elements : List Value} {v : Value}
    (hlawful : LawfulOn (v :: elements)) (hdistinct : Distinct elements) :
    (insertElement elements v).Perm (v :: elements.filter fun x => !(x == v)) := by
  unfold insertElement
  split
  next hhas => exact replace_perm hlawful hdistinct (List.any_eq_true.1 hhas)
  next hnone =>
    have hall : (elements.filter fun x => !(x == v)) = elements := by
      rw [List.filter_eq_self]
      simpa [hasElement] using hnone
    rw [hall]
    exact List.perm_append_singleton v elements

end Value

/-- The operations that the language takes from libraries.  A set is given by its elements, in the
order in which they are listed. -/
structure Library where
  /-- Whether a text is a regular expression; if not, why. -/
  compile : String → Except String Unit
  /-- Whether a part of a text matches a regular expression. -/
  isMatch : String → String → Bool
  /-- Whether a value is in a set. -/
  contains : List Value → Value → Bool
  /-- A set with one more value.  It takes the place of an equal one. -/
  insert : List Value → Value → List Value
  mem_of_mem_insert {elements : List Value} {v x : Value} :
    x ∈ insert elements v → x = v ∨ x ∈ elements
  contains_iff {elements : List Value} {v : Value} :
    Value.LawfulOn (v :: elements) → Value.Distinct elements →
      (contains elements v = true ↔ ∃ x ∈ elements, (x == v) = true)
  insert_perm {elements : List Value} {v : Value} :
    Value.LawfulOn (v :: elements) → Value.Distinct elements →
      (insert elements v).Perm (v :: elements.filter fun x => !(x == v))

namespace Library

/-- The elements of a set into which the given values were put one after another. -/
def setOf (library : Library) (vs : List Value) : List Value := vs.foldl library.insert []

/-- The library of this project. -/
def own : Library where
  compile source :=
    match Regexp.parse? source with
    | some _ => .ok ()
    | none => .error "not a regular expression"
  isMatch source text := (Regexp.parse? source).any (·.isMatch text)
  contains := Value.hasElement
  insert := Value.insertElement
  mem_of_mem_insert := Value.mem_of_mem_insertElement
  contains_iff _ _ := List.any_eq_true
  insert_perm := Value.insertElement_perm

end Library

end Sexpr
