import Mathlib
import Sexpr.Proofs.Hereditary
import Sexpr.Proofs.Sameness

/-!
# Sexpr.Proofs.Sharing

Values that share objects.

An object gets the next identity when it is made, and its contents never change.  So the objects
that exist at one time form a list, each at the place of its identity, and a value is *stored* in
the list when all objects inside it are there (`Value.Stored`).  Stored objects of one identity have
the same contents, which is why comparisons may stop where an object is compared with itself:

* `Value.sameAll_iff`: the list of pending comparisons, which skips such pairs, gives the answer of
  the comparison slot by slot;
* `Value.Sound.beq_comm` and its like: on values that can exist beside the objects, structural
  equality as it is decided is an equivalence.
-/

namespace Sexpr

namespace Value

/-! ## objects -/

/-- The identity of an object that can be looked into. -/
def objectIdent? : Value → Option Ident
  | .regexp id _ => some id
  | .set id _ => some id
  | .array id _ => some id
  | .object id _ => some id
  | .pair id _ _ => some id
  | _ => none

/-- A value all of whose objects are among the given ones, each at the place of its identity. -/
inductive Stored (objects : List Value) : Value → Prop
  | simple {v : Value} : v.objectIdent? = none → Stored objects v
  | regexp {id : Ident} {source : String} :
    objects[id]? = some (.regexp id source) → Stored objects (.regexp id source)
  | set {id : Ident} {xs : List Value} :
    objects[id]? = some (.set id xs) → (∀ x ∈ xs, Stored objects x) → Stored objects (.set id xs)
  | array {id : Ident} {xs : List Value} :
    objects[id]? = some (.array id xs) → (∀ x ∈ xs, Stored objects x) →
      Stored objects (.array id xs)
  | object {id : Ident} {es : List (String × Value)} :
    objects[id]? = some (.object id es) → (∀ e ∈ es, Stored objects e.2) →
      Stored objects (.object id es)
  | pair {id : Ident} {a d : Value} :
    objects[id]? = some (.pair id a d) → Stored objects a → Stored objects d →
      Stored objects (.pair id a d)

variable {objects : List Value}

namespace Stored

theorem getElem?_eq {v : Value} {id : Ident} (h : Stored objects v)
    (hid : v.objectIdent? = some id) : objects[id]? = some v := by
  cases h with
  | simple hnone => rw [hnone] at hid; cases hid
  | regexp hv => cases hid; exact hv
  | set hv _ => cases hid; exact hv
  | array hv _ => cases hid; exact hv
  | object hv _ => cases hid; exact hv
  | pair hv _ _ => cases hid; exact hv

/-- Objects of one identity have the same contents. -/
theorem eq_of_objectIdent? {a b : Value} {id : Ident} (ha : Stored objects a)
    (hb : Stored objects b) (hida : a.objectIdent? = some id) (hidb : b.objectIdent? = some id) :
    a = b :=
  Option.some.inj ((ha.getElem?_eq hida).symm.trans (hb.getElem?_eq hidb))

theorem slots {id : Ident} {a d : Value} (h : Stored objects (.pair id a d)) :
    Stored objects a ∧ Stored objects d := by
  cases h with
  | simple hnone => cases hnone
  | pair _ ha hd => exact ⟨ha, hd⟩

theorem elements {id : Ident} {xs : List Value} (h : Stored objects (.set id xs)) :
    ∀ x ∈ xs, Stored objects x := by
  cases h with
  | simple hnone => cases hnone
  | set _ hxs => exact hxs

theorem items {id : Ident} {xs : List Value} (h : Stored objects (.array id xs)) :
    ∀ x ∈ xs, Stored objects x := by
  cases h with
  | simple hnone => cases hnone
  | array _ hxs => exact hxs

theorem values {id : Ident} {es : List (String × Value)} (h : Stored objects (.object id es)) :
    ∀ e ∈ es, Stored objects e.2 := by
  cases h with
  | simple hnone => cases hnone
  | object _ hes => exact hes

end Stored

/-! ## the list of pending comparisons -/

/-- All corresponding values of two lists of one length are the same. -/
theorem forall_mem_zip_same_iff {xs ys : List Value} :
    (xs.length = ys.length ∧ ∀ p ∈ xs.zip ys, same p.1 p.2 = true) ↔
      List.Forall₂ (fun x y => same x y = true) xs ys := by
  rw [List.forall₂_iff_zip]
  exact and_congr_right fun _ => ⟨fun h a b => h (a, b), fun h p => h⟩

/-- Objects are compared by their keys and then by their values. -/
theorem forall_mem_zip_entryValues_iff {xs ys : List (String × Value)} :
    (entryKeys xs = entryKeys ys ∧
        ∀ p ∈ (entryValues xs).zip (entryValues ys), same p.1 p.2 = true) ↔
      List.Forall₂ (fun e f => e.1 = f.1 ∧ same e.2 f.2 = true) xs ys := by
  induction xs generalizing ys with
  | nil => cases ys <;> simp [entryKeys, entryValues]
  | cons e xs ih =>
    cases ys with
    | nil => simp [entryKeys]
    | cons f ys =>
      have hkeys : entryKeys (e :: xs) = entryKeys (f :: ys) ↔
          e.1 = f.1 ∧ entryKeys xs = entryKeys ys := by simp [entryKeys]
      have hvalues : (entryValues (e :: xs)).zip (entryValues (f :: ys)) =
          (e.2, f.2) :: (entryValues xs).zip (entryValues ys) := rfl
      rw [List.forall₂_cons, ← ih, hkeys, hvalues, List.forall_mem_cons]
      tauto

/-- The list of pending comparisons gives the answer of the comparisons slot by slot.  A pair is
skipped only where it is compared with itself. -/
theorem sameAll_iff {pending : List (Value × Value)}
    (hstored : ∀ p ∈ pending, Stored objects p.1 ∧ Stored objects p.2) :
    sameAll pending = true ↔ ∀ p ∈ pending, same p.1 p.2 = true := by
  induction pending using sameAll.induct with
  | case1 => simp [sameAll]
  | case2 a d id b e rest ih =>
    obtain ⟨⟨hleft, hright⟩, hrest⟩ := List.forall_mem_cons.1 hstored
    have hcell : Value.pair id a d = .pair id b e := hleft.eq_of_objectIdent? hright rfl rfl
    rw [sameAll, if_pos rfl, ih hrest, List.forall_mem_cons]
    simp only [hcell, same_refl, true_and]
  | case3 i a d j b e rest hne ih =>
    obtain ⟨⟨hleft, hright⟩, hrest⟩ := List.forall_mem_cons.1 hstored
    have hslots : ∀ p ∈ (a, b) :: (d, e) :: rest, Stored objects p.1 ∧ Stored objects p.2 :=
      List.forall_mem_cons.2 ⟨⟨hleft.slots.1, hright.slots.1⟩,
        List.forall_mem_cons.2 ⟨⟨hleft.slots.2, hright.slots.2⟩, hrest⟩⟩
    have hpair : same (.pair i a d) (.pair j b e) = (same a b && same d e) := by rw [same]
    rw [sameAll, if_neg hne, ih hslots]
    simp only [List.forall_mem_cons, hpair, Bool.and_eq_true, and_assoc]
  | case4 i xs j ys rest ihxs ihrest =>
    obtain ⟨⟨hleft, hright⟩, hrest⟩ := List.forall_mem_cons.1 hstored
    have helement : ∀ x (hx : x ∈ xs), ∀ y ∈ ys, sameAll [(x, y)] = true ↔ same x y = true := by
      intro x hx y hy
      have hone := ihxs ⟨x, hx⟩ y
        (List.forall_mem_singleton.2 ⟨hleft.elements x hx, hright.elements y hy⟩)
      rwa [List.forall_mem_singleton] at hone
    have hset : same (.set i xs) (.set j ys) = true ↔
        xs.length = ys.length ∧ ∀ x ∈ xs, ∃ y ∈ ys, sameAll [(x, y)] = true := by
      rw [same, Bool.and_eq_true, beq_iff_eq, sameSubset_iff]
      refine and_congr_right fun _ => forall₂_congr fun x hx => exists_congr fun y => ?_
      exact and_congr_right fun hy => (helement x hx y hy).symm
    rw [sameAll, Bool.and_eq_true, Bool.and_eq_true, ihrest hrest, List.forall_mem_cons, hset]
    simp
  | case5 i xs j ys rest ihxs ihrest =>
    obtain ⟨⟨hleft, hright⟩, hrest⟩ := List.forall_mem_cons.1 hstored
    have hitems : ∀ p ∈ xs.zip ys, Stored objects p.1 ∧ Stored objects p.2 := fun p hp =>
      ⟨hleft.items _ (List.of_mem_zip hp).1, hright.items _ (List.of_mem_zip hp).2⟩
    rw [sameAll, Bool.and_eq_true, Bool.and_eq_true, ihxs hitems, ihrest hrest, beq_iff_eq,
      forall_mem_zip_same_iff, List.forall_mem_cons, same, sameItems_iff]
  | case6 i xs j ys rest ihxs ihrest =>
    obtain ⟨⟨hleft, hright⟩, hrest⟩ := List.forall_mem_cons.1 hstored
    have hentries : ∀ p ∈ (entryValues xs).zip (entryValues ys),
        Stored objects p.1 ∧ Stored objects p.2 := by
      intro p hp
      obtain ⟨hx, hy⟩ := List.of_mem_zip hp
      obtain ⟨e, he, hex⟩ := List.mem_map.1 hx
      obtain ⟨f, hf, hfy⟩ := List.mem_map.1 hy
      exact ⟨hex ▸ hleft.values e he, hfy ▸ hright.values f hf⟩
    rw [sameAll, Bool.and_eq_true, Bool.and_eq_true, ihxs hentries, ihrest hrest, beq_iff_eq,
      forall_mem_zip_entryValues_iff, List.forall_mem_cons, same, sameEntries_iff]
  | case7 a b rest hpair hset harray hobject ih =>
    obtain ⟨-, hrest⟩ := List.forall_mem_cons.1 hstored
    have hstep : sameAll ((a, b) :: rest) = (leafEq a b && sameAll rest) := by
      rw [sameAll] <;> assumption
    have hleaf : same a b = leafEq a b := by rw [same] <;> assumption
    rw [hstep, Bool.and_eq_true, ih hrest, List.forall_mem_cons, hleaf]

/-- Structural equality as it is decided is structural equality slot by slot. -/
theorem beq_eq_same {a b : Value} (ha : Stored objects a) (hb : Stored objects b) :
    (a == b) = same a b := by
  have hone := sameAll_iff (List.forall_mem_singleton (a := (a, b)).2 ⟨ha, hb⟩)
  rw [List.forall_mem_singleton] at hone
  exact Bool.eq_iff_iff.2 hone

/-! ## values beside objects -/

/-- A value that can exist beside the given objects. -/
def Sound (objects : List Value) (v : Value) : Prop := Stored objects v ∧ Proper v

namespace Sound

variable {a b c : Value}

theorem beq_refl (ha : Sound objects a) : (a == a) = true :=
  (beq_eq_same ha.1 ha.1).trans (same_refl a)

theorem beq_comm (ha : Sound objects a) (hb : Sound objects b) : (a == b) = (b == a) := by
  rw [beq_eq_same ha.1 hb.1, beq_eq_same hb.1 ha.1, Bool.eq_iff_iff]
  exact ⟨same_symm ha.2, same_symm hb.2⟩

theorem beq_trans (ha : Sound objects a) (hb : Sound objects b) (hc : Sound objects c)
    (hab : (a == b) = true) (hbc : (b == c) = true) : (a == c) = true := by
  rw [beq_eq_same ha.1 hb.1] at hab
  rw [beq_eq_same hb.1 hc.1] at hbc
  exact (beq_eq_same ha.1 hc.1).trans (same_trans hab hbc)

/-- What can exist beside some objects can exist beside more of them. -/
theorem append {v : Value} (h : Sound objects v) (more : List Value) :
    Sound (objects ++ more) v := by
  obtain ⟨hstored, hproper⟩ := h
  refine ⟨?_, hproper⟩
  have hget : ∀ {id : Ident} {o : Value}, objects[id]? = some o →
      (objects ++ more)[id]? = some o := fun ho =>
    (List.getElem?_append_left (List.getElem?_eq_some_iff.1 ho).1).trans ho
  clear hproper
  induction hstored with
  | simple hnone => exact .simple hnone
  | regexp ho => exact .regexp (hget ho)
  | set ho _ ih => exact .set (hget ho) ih
  | array ho _ ih => exact .array (hget ho) ih
  | object ho _ ih => exact .object (hget ho) ih
  | pair ho _ _ iha ihd => exact .pair (hget ho) iha ihd

end Sound

end Value

end Sexpr
