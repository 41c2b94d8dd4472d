import Mathlib
import Sexpr.Proofs.NumberOrder
import Sexpr.Value.Collection

/-!
# Sexpr.Proofs.Sameness

Structural equality, slot by slot, as a relation between values.

What a leaf is compared by is its key (`Value.leafKey`); structures are compared part by part
(`Value.same_pair_iff`, `Value.same_set_iff`, `Value.same_array_iff`,
`Value.same_object_iff`).  From these rules follow, by induction on a value:

* `Value.same_refl` and `Value.same_trans`, of all values;
* `Value.same_symm`, of values whose sets hold no two elements that are the same (`Value.Proper`).
  Sets are compared by their sizes and by looking for the elements of the first in the second, so
  symmetry is a matter of counting: distinct elements have distinct partners, and as many
  partners as there are elements of the second leave none of these out.
-/

namespace Sexpr

namespace Value

/-! ## leaves -/

/-- What a leaf is compared by: simple values and patterns by what they are, callables by
identity. -/
inductive LeafKey where
  | nil
  | undefined
  | bool (b : Bool)
  | number (x : Exact)
  | string (s : String)
  | symbol (name : Symbol)
  | regexp (source : String)
  | native (id : Ident)
  | thunk (id : Ident)
  | closure (id : Ident)
  | hosted (id : Ident)
  | form (id : Ident)
  | dataType (id : Ident)

/-- The key of a leaf.  Pairs and collections have none. -/
def leafKey : Value → Option LeafKey
  | .nil => some .nil
  | .undefined => some .undefined
  | .bool b => some (.bool b)
  | .number n => some (.number n.exact)
  | .string s => some (.string s)
  | .symbol name => some (.symbol name)
  | .regexp _ source => some (.regexp source)
  | .native id .. => some (.native id)
  | .thunk id .. => some (.thunk id)
  | .closure id .. => some (.closure id)
  | .hosted id .. => some (.hosted id)
  | .form f => some (.form f.ident)
  | .dataType t => some (.dataType t.ident)
  | _ => none

theorem leafEq_eq_true_iff (a b : Value) :
    leafEq a b = true ↔ a.leafKey = b.leafKey ∧ a.leafKey.isSome = true := by
  cases a <;> cases b <;> simp [leafEq, leafKey, Number.beq_eq_true_iff]

/-- Induction over the parts of a value that structural equality looks at. -/
@[elab_as_elim]
theorem inductionOnParts {P : Value → Prop} (v : Value)
    (leaf : ∀ v k, v.leafKey = some k → P v)
    (pair : ∀ id a d, P a → P d → P (.pair id a d))
    (set : ∀ id xs, (∀ x ∈ xs, P x) → P (.set id xs))
    (array : ∀ id xs, (∀ x ∈ xs, P x) → P (.array id xs))
    (object : ∀ id es, (∀ e ∈ es, P e.2) → P (.object id es)) : P v := by
  match v with
  | .pair id a d =>
    exact pair id a d (inductionOnParts a leaf pair set array object)
      (inductionOnParts d leaf pair set array object)
  | .set id xs => exact set id xs fun x hx => inductionOnParts x leaf pair set array object
  | .array id xs => exact array id xs fun x hx => inductionOnParts x leaf pair set array object
  | .object id es =>
    exact object id es fun e he => inductionOnParts e.2 leaf pair set array object
  | .nil => exact leaf _ _ rfl
  | .undefined => exact leaf _ _ rfl
  | .bool b => exact leaf _ _ rfl
  | .number n => exact leaf _ _ rfl
  | .string s => exact leaf _ _ rfl
  | .symbol name => exact leaf _ _ rfl
  | .regexp id source => exact leaf _ _ rfl
  | .native id name arity code => exact leaf _ _ rfl
  | .thunk id label maker payload => exact leaf _ _ rfl
  | .closure id params env body => exact leaf _ _ rfl
  | .hosted id params key => exact leaf _ _ rfl
  | .form f => exact leaf _ _ rfl
  | .dataType t => exact leaf _ _ rfl
termination_by sizeOf v
decreasing_by
  all_goals simp only [Value.pair.sizeOf_spec, Value.set.sizeOf_spec, Value.array.sizeOf_spec,
    Value.object.sizeOf_spec]
  · omega
  · omega
  · have := List.sizeOf_lt_of_mem hx
    omega
  · have := List.sizeOf_lt_of_mem hx
    omega
  · have := List.sizeOf_lt_of_mem he
    rw [← Prod.eta e, Prod.mk.sizeOf_spec] at this
    omega

/-! ## the rules of structural equality -/

theorem same_leaf_iff {a b : Value} {k : LeafKey} (ha : a.leafKey = some k) :
    same a b = true ↔ b.leafKey = some k := by
  have hleaf : same a b = leafEq a b := by
    unfold same
    split <;> first | cases ha | rfl
  rw [hleaf, leafEq_eq_true_iff, ha]
  simp [eq_comm]

theorem same_pair_iff {id : Ident} {a d v : Value} :
    same (.pair id a d) v = true ↔
      ∃ id' b e, v = .pair id' b e ∧ same a b = true ∧ same d e = true := by
  cases v with
  | pair id' b e => simp [same]
  | _ => simp only [same, leafEq, Bool.false_eq_true, reduceCtorEq, false_and, exists_false]

/-- Every element of the first list is the same as one of the second. -/
theorem sameSubset_iff {xs ys : List Value} :
    sameSubset xs ys = true ↔ ∀ x ∈ xs, ∃ y ∈ ys, same x y = true := by
  induction xs with
  | nil => simp [sameSubset]
  | cons x xs ih => simp [sameSubset, ih]

theorem same_set_iff {id : Ident} {xs : List Value} {v : Value} :
    same (.set id xs) v = true ↔
      ∃ id' ys, v = .set id' ys ∧ xs.length = ys.length ∧ ∀ x ∈ xs, ∃ y ∈ ys, same x y = true := by
  cases v with
  | set id' ys => simp [same, sameSubset_iff]
  | _ => simp only [same, leafEq, Bool.false_eq_true, reduceCtorEq, false_and, exists_false]

theorem sameItems_iff {xs ys : List Value} :
    sameItems xs ys = true ↔ List.Forall₂ (fun x y => same x y = true) xs ys := by
  induction xs generalizing ys with
  | nil => cases ys <;> simp [sameItems]
  | cons x xs ih => cases ys <;> simp [sameItems, ih]

theorem same_array_iff {id : Ident} {xs : List Value} {v : Value} :
    same (.array id xs) v = true ↔
      ∃ id' ys, v = .array id' ys ∧ List.Forall₂ (fun x y => same x y = true) xs ys := by
  cases v with
  | array id' ys => simp [same, sameItems_iff]
  | _ => simp only [same, leafEq, Bool.false_eq_true, reduceCtorEq, false_and, exists_false]

theorem sameEntries_iff {xs ys : List (String × Value)} :
    sameEntries xs ys = true ↔
      List.Forall₂ (fun e f => e.1 = f.1 ∧ same e.2 f.2 = true) xs ys := by
  induction xs generalizing ys with
  | nil => cases ys <;> simp [sameEntries]
  | cons e xs ih =>
    obtain ⟨k, x⟩ := e
    rcases ys with - | ⟨⟨l, y⟩, ys⟩
    · simp [sameEntries]
    · simp [sameEntries, ih, and_assoc]

theorem same_object_iff {id : Ident} {xs : List (String × Value)} {v : Value} :
    same (.object id xs) v = true ↔
      ∃ id' ys, v = .object id' ys ∧
        List.Forall₂ (fun e f => e.1 = f.1 ∧ same e.2 f.2 = true) xs ys := by
  cases v with
  | object id' ys => simp [same, sameEntries_iff]
  | _ => simp only [same, leafEq, Bool.false_eq_true, reduceCtorEq, false_and, exists_false]

/-! ## an equivalence -/

theorem same_refl (v : Value) : same v v = true := by
  induction v using inductionOnParts with
  | leaf v k hk => exact (same_leaf_iff hk).2 hk
  | pair id a d iha ihd => exact same_pair_iff.2 ⟨id, a, d, rfl, iha, ihd⟩
  | set id xs ih => exact same_set_iff.2 ⟨id, xs, rfl, rfl, fun x hx => ⟨x, hx, ih x hx⟩⟩
  | array id xs ih => exact same_array_iff.2 ⟨id, xs, rfl, List.forall₂_same.2 ih⟩
  | object id es ih =>
    exact same_object_iff.2 ⟨id, es, rfl, List.forall₂_same.2 fun e he => ⟨rfl, ih e he⟩⟩

/-- Lists are compared by their elements. -/
theorem forall₂_trans_of_mem {α : Type} {R : α → α → Prop} {xs ys zs : List α}
    (htrans : ∀ x ∈ xs, ∀ y z, R x y → R y z → R x z) (hxy : List.Forall₂ R xs ys)
    (hyz : List.Forall₂ R ys zs) : List.Forall₂ R xs zs := by
  induction hxy generalizing zs with
  | nil => exact hyz
  | cons h _ ih =>
    obtain ⟨z, rest, hz, hrest, rfl⟩ := List.forall₂_cons_left_iff.1 hyz
    obtain ⟨htranshead, htranstail⟩ := List.forall_mem_cons.1 htrans
    exact .cons (htranshead _ _ h hz) (ih htranstail hrest)

theorem forall₂_symm_of_mem {α : Type} {R : α → α → Prop} {xs ys : List α}
    (hsymm : ∀ x ∈ xs, ∀ y, R x y → R y x) (h : List.Forall₂ R xs ys) : List.Forall₂ R ys xs := by
  induction h with
  | nil => exact .nil
  | cons h _ ih =>
    obtain ⟨hhead, htail⟩ := List.forall_mem_cons.1 hsymm
    exact .cons (hhead _ h) (ih htail)

theorem same_trans {a b c : Value} (hab : same a b = true) (hbc : same b c = true) :
    same a c = true := by
  induction a using inductionOnParts generalizing b c with
  | leaf a k hk => exact (same_leaf_iff hk).2 ((same_leaf_iff ((same_leaf_iff hk).1 hab)).1 hbc)
  | pair id x d ihx ihd =>
    obtain ⟨_, y, e, rfl, hxy, hde⟩ := same_pair_iff.1 hab
    obtain ⟨id', z, f, rfl, hyz, hef⟩ := same_pair_iff.1 hbc
    exact same_pair_iff.2 ⟨id', z, f, rfl, ihx hxy hyz, ihd hde hef⟩
  | set id xs ih =>
    obtain ⟨_, ys, rfl, hlength, hxs⟩ := same_set_iff.1 hab
    obtain ⟨id', zs, rfl, hlength', hys⟩ := same_set_iff.1 hbc
    refine same_set_iff.2 ⟨id', zs, rfl, hlength.trans hlength', fun x hx => ?_⟩
    obtain ⟨y, hy, hxy⟩ := hxs x hx
    obtain ⟨z, hz, hyz⟩ := hys y hy
    exact ⟨z, hz, ih x hx hxy hyz⟩
  | array id xs ih =>
    obtain ⟨_, ys, rfl, hxs⟩ := same_array_iff.1 hab
    obtain ⟨id', zs, rfl, hys⟩ := same_array_iff.1 hbc
    have htrans := forall₂_trans_of_mem (fun x hx _ _ => ih x hx) hxs hys
    exact same_array_iff.2 ⟨id', zs, rfl, htrans⟩
  | object id es ih =>
    obtain ⟨_, fs, rfl, hes⟩ := same_object_iff.1 hab
    obtain ⟨id', gs, rfl, hfs⟩ := same_object_iff.1 hbc
    have htrans := forall₂_trans_of_mem
      (fun e he f g hef hfg => ⟨hef.1.trans hfg.1, ih e he hef.2 hfg.2⟩) hes hfs
    exact same_object_iff.2 ⟨id', gs, rfl, htrans⟩

/-- A value whose sets, also those inside it, hold no two elements that are the same. -/
inductive Proper : Value → Prop
  | leaf {v : Value} {k : LeafKey} : v.leafKey = some k → Proper v
  | pair {id : Ident} {a d : Value} : Proper a → Proper d → Proper (.pair id a d)
  | set {id : Ident} {xs : List Value} :
    xs.Pairwise (fun x y => same x y = false) → (∀ x ∈ xs, Proper x) → Proper (.set id xs)
  | array {id : Ident} {xs : List Value} : (∀ x ∈ xs, Proper x) → Proper (.array id xs)
  | object {id : Ident} {es : List (String × Value)} :
    (∀ e ∈ es, Proper e.2) → Proper (.object id es)

/-- When all elements of a list have partners in a list of the same length, and no two of them
have one partner in common, every element of the second list is a partner. -/
theorem exists_partner_of_length_eq {α β : Type} {R : α → β → Prop} {xs : List α} {ys : List β}
    (hlength : xs.length = ys.length)
    (hdistinct : xs.Pairwise fun x x' => ∀ y, R x y → ¬ R x' y)
    (hpartner : ∀ x ∈ xs, ∃ y ∈ ys, R x y) : ∀ y ∈ ys, ∃ x ∈ xs, R x y := by
  have hindex : ∀ i : Fin xs.length, ∃ j : Fin ys.length, R (xs.get i) (ys.get j) := by
    intro i
    obtain ⟨y, hy, hxy⟩ := hpartner _ (xs.get_mem i)
    obtain ⟨j, rfl⟩ := List.mem_iff_get.1 hy
    exact ⟨j, hxy⟩
  choose partner hR using hindex
  have hlt : ∀ i j, i < j → partner i ≠ partner j := by
    intro i j hij heq
    exact List.pairwise_iff_get.1 hdistinct i j hij _ (hR i) (heq ▸ hR j)
  have hinjective : Function.Injective partner := by
    intro i j heq
    by_contra hne
    rcases lt_or_gt_of_ne hne with hij | hji
    · exact hlt i j hij heq
    · exact hlt j i hji heq.symm
  have hbijective : Function.Bijective partner :=
    (Fintype.bijective_iff_injective_and_card partner).2 ⟨hinjective, by simp [hlength]⟩
  intro y hy
  obtain ⟨j, rfl⟩ := List.mem_iff_get.1 hy
  obtain ⟨i, rfl⟩ := hbijective.2 j
  exact ⟨_, xs.get_mem i, hR i⟩

theorem same_symm {a b : Value} (ha : Proper a) (hab : same a b = true) : same b a = true := by
  induction ha generalizing b with
  | @leaf a k hk =>
    have hkb := (same_leaf_iff hk).1 hab
    exact (same_leaf_iff hkb).2 hk
  | @pair id x d _ _ ihx ihd =>
    obtain ⟨id', y, e, rfl, hxy, hde⟩ := same_pair_iff.1 hab
    exact same_pair_iff.2 ⟨id, x, d, rfl, ihx hxy, ihd hde⟩
  | @set id xs hdistinct _ ih =>
    obtain ⟨id', ys, rfl, hlength, hxs⟩ := same_set_iff.1 hab
    -- elements with one partner in common are the same, so distinct ones have distinct partners
    have hpartners : xs.Pairwise fun x x' => ∀ y, same x y = true → ¬ same x' y = true := by
      refine hdistinct.imp_of_mem fun {x x'} _ hx' hne y hxy hxy' => ?_
      rw [same_trans hxy (ih x' hx' hxy')] at hne
      cases hne
    refine same_set_iff.2 ⟨id, xs, rfl, hlength.symm, fun y hy => ?_⟩
    obtain ⟨x, hx, hxy⟩ := exists_partner_of_length_eq hlength hpartners hxs y hy
    exact ⟨x, hx, ih x hx hxy⟩
  | @array id xs _ ih =>
    obtain ⟨id', ys, rfl, hxs⟩ := same_array_iff.1 hab
    exact same_array_iff.2 ⟨id, xs, rfl, forall₂_symm_of_mem (fun x hx _ => ih x hx) hxs⟩
  | @object id es _ ih =>
    obtain ⟨id', fs, rfl, hes⟩ := same_object_iff.1 hab
    have hsymm := forall₂_symm_of_mem (fun e he f hef => ⟨hef.1.symm, ih e he hef.2⟩) hes
    exact same_object_iff.2 ⟨id, es, rfl, hsymm⟩

end Value

end Sexpr
