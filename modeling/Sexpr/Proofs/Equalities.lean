import Sexpr.Proofs.Making

/-!
# Sexpr.Proofs.Equalities

The three equalities of values and how they are nested.

* `eq` and `equal` compare keys: `eq` looks through pairs that hold one element and takes any
  other pair for its identity (`Value.eqKey`), `equal`, which keeps a stack of pending comparisons,
  looks through all pairs (`Value.equal_pair`, `Value.shape`).  What they find at the end is
  compared by `Value.atomKey`.
* Structural equality looks through pairs and collections and compares the leaves.

So `eq` implies `equal`, and `equal` implies structural equality; and the last two are the same
where no leaf has contents to look at.  That two values have one key is an equivalence, and so are
all three equalities.
-/

namespace Sexpr

namespace Value

variable {objects : List Value}

/-! ## keys -/

/-- What `eq` compares values by that are no pairs: simple values by what they are, objects by
identity. -/
inductive AtomKey where
  | simple (key : Option LeafKey)
  | regexp (id : Ident)
  | set (id : Ident)
  | array (id : Ident)
  | object (id : Ident)
  | pair (id : Ident)

def atomKey : Value → AtomKey
  | .regexp id _ => .regexp id
  | .set id _ => .set id
  | .array id _ => .array id
  | .object id _ => .object id
  | .pair id _ _ => .pair id
  | v => .simple v.leafKey

@[simp] theorem atomKey_pair (id : Ident) (a d : Value) : (pair id a d).atomKey = .pair id := rfl

theorem atomKey_ne_pair {v : Value} (h : v.isPair = false) (id : Ident) : v.atomKey ≠ .pair id := by
  cases v <;> simp_all [atomKey, isPair]

theorem eq_iff_atomKey {a b : Value} (h : a.isPair = false ∨ b.isPair = false) :
    eq a b = true ↔ a.atomKey = b.atomKey := by
  cases a <;> cases b <;>
    simp_all [eq, leafEq, atomKey, leafKey, isPair, Number.beq_eq_true_iff]

/-- What `eq` compares values by: a pair that holds one element by that element, any other pair by
identity. -/
inductive EqKey where
  | atom (key : AtomKey)
  | single (key : EqKey)

def eqKey : Value → EqKey
  | .pair id a d => if d.isNil then .single a.eqKey else .atom (.pair id)
  | v => .atom v.atomKey

theorem eqKey_leaf {v : Value} (h : v.isPair = false) : v.eqKey = .atom v.atomKey := by
  unfold eqKey
  split
  · cases h
  · rfl

/-- What `equal` compares values by: the tree of pairs with the keys of its leaves. -/
inductive Shape where
  | atom (key : AtomKey)
  | pair (car cdr : Shape)

def shape : Value → Shape
  | .pair _ a d => .pair a.shape d.shape
  | v => .atom v.atomKey

theorem shape_leaf {v : Value} (h : v.isPair = false) : v.shape = .atom v.atomKey := by
  unfold shape
  split
  · cases h
  · rfl

/-! ## pairs side by side -/

/-- Induction on two trees of pairs side by side, down to where one of them has a leaf. -/
@[elab_as_elim]
theorem inductionOnPairs {P : Value → Value → Prop} (a b : Value)
    (pairs : ∀ i a d j b e, P a b → P d e → P (.pair i a d) (.pair j b e))
    (leaves : ∀ a b, a.isPair = false → b.isPair = false → P a b)
    (left : ∀ i a d b, b.isPair = false → P (.pair i a d) b)
    (right : ∀ a j b e, a.isPair = false → P a (.pair j b e)) : P a b := by
  have hcases : ∀ v : Value, v.isPair = false ∨ ∃ id a d, v = .pair id a d := by
    intro v
    cases v <;> simp [isPair]
  induction a, b using equalSlots.induct with
  | case1 i a d j b e iha ihd => exact pairs i a d j b e iha ihd
  | case2 a b hne =>
    rcases hcases a with ha | ⟨i, x, d, rfl⟩
    · rcases hcases b with hb | ⟨j, y, e, rfl⟩
      · exact leaves a b ha hb
      · exact right a j y e ha
    · rcases hcases b with hb | ⟨j, y, e, rfl⟩
      · exact left i x d b hb
      · exact (hne _ _ _ _ _ _ rfl rfl).elim

/-- The stack of pending comparisons asks for what the recursion asks for. -/
theorem equalAll_eq_all (pending : List (Value × Value)) :
    equalAll pending = pending.all fun p => equalSlots p.1 p.2 := by
  fun_induction equalAll pending with
  | case1 => rfl
  | case2 i a d j b e pending ih =>
    rw [ih, List.all_cons, List.all_cons, List.all_cons, equalSlots, Bool.and_assoc]
  | case3 a b pending hpair hne =>
    rw [Bool.not_eq_true'] at hne
    rw [List.all_cons, equalSlots, hne, Bool.false_and]
    exact hpair
  | case4 a b pending hpair heq ih =>
    rw [Bool.not_eq_true', Bool.not_eq_false] at heq
    rw [ih, List.all_cons, equalSlots, heq, Bool.true_and]
    exact hpair

theorem equal_eq_equalSlots (a b : Value) : equal a b = equalSlots a b := by
  rw [equal, equalAll_eq_all, List.all_cons, List.all_nil, Bool.and_true]

theorem equal_pair (i j : Ident) (a d b e : Value) :
    equal (.pair i a d) (.pair j b e) = (equal a b && equal d e) := by
  rw [equal_eq_equalSlots, equal_eq_equalSlots, equal_eq_equalSlots, equalSlots]

theorem equal_leaf {a b : Value} (h : a.isPair = false ∨ b.isPair = false) :
    equal a b = eq a b := by
  rw [equal_eq_equalSlots]
  unfold equalSlots
  split
  · rcases h with h | h <;> cases h
  · rfl

theorem equal_iff_shape {a b : Value} : equal a b = true ↔ a.shape = b.shape := by
  induction a, b using inductionOnPairs with
  | pairs i a d j b e iha ihd => simp [equal_pair, shape, iha, ihd]
  | leaves a b ha hb =>
    rw [equal_leaf (.inl ha), eq_iff_atomKey (.inl ha), shape_leaf ha, shape_leaf hb,
      Shape.atom.injEq]
  | left i a d b hb =>
    rw [equal_leaf (.inr hb), eq_iff_atomKey (.inr hb), shape_leaf hb]
    simp [shape, (atomKey_ne_pair hb i).symm]
  | right a j b e ha =>
    rw [equal_leaf (.inl ha), eq_iff_atomKey (.inl ha), shape_leaf ha]
    simp [shape, atomKey_ne_pair ha j]

/-- Pairs of one identity hold the same, so that `eq` may answer before it looks at what they
hold. -/
theorem eq_iff_eqKey {a b : Value} (ha : Stored objects a) (hb : Stored objects b) :
    eq a b = true ↔ a.eqKey = b.eqKey := by
  induction a, b using inductionOnPairs with
  | pairs i a d j b e iha ihd =>
    by_cases hid : i = j
    · subst hid
      have hcell : Value.pair i a d = .pair i b e := ha.eq_of_objectIdent? hb rfl rfl
      rw [hcell]
      simp [eq]
    · rw [eq, if_neg hid]
      cases hd : d.isNil <;> cases he : e.isNil <;>
        simp [eqKey, hd, he, hid, iha ha.slots.1 hb.slots.1]
  | leaves a b hleafa hleafb =>
    rw [eq_iff_atomKey (.inl hleafa), eqKey_leaf hleafa, eqKey_leaf hleafb, EqKey.atom.injEq]
  | left i a d b hleafb =>
    rw [eq_iff_atomKey (.inr hleafb), eqKey_leaf hleafb]
    cases hd : d.isNil <;> simp [eqKey, hd, (atomKey_ne_pair hleafb i).symm]
  | right a j b e hleafa =>
    rw [eq_iff_atomKey (.inl hleafa), eqKey_leaf hleafa]
    cases he : e.isNil <;> simp [eqKey, he, atomKey_ne_pair hleafa j]

/-! ## inclusions -/

theorem equal_of_eq {a b : Value} (ha : Stored objects a) (hb : Stored objects b)
    (h : eq a b = true) : equal a b = true := by
  induction a, b using inductionOnPairs with
  | pairs i a d j b e iha ihd =>
    by_cases hid : i = j
    · subst hid
      have hcell : Value.pair i a d = .pair i b e := ha.eq_of_objectIdent? hb rfl rfl
      rw [hcell, equal_iff_shape]
    · rw [eq, if_neg hid] at h
      split at h
      · next hsingle =>
        obtain ⟨hd, he⟩ := Bool.and_eq_true_iff.1 hsingle
        rw [equal_pair, iha ha.slots.1 hb.slots.1 h, eq_nil_of_isNil hd, eq_nil_of_isNil he]
        exact equal_iff_shape.2 rfl
      · cases h
  | leaves a b hleafa hleafb => rwa [equal_leaf (.inl hleafa)]
  | left i a d b hleafb => rwa [equal_leaf (.inr hleafb)]
  | right a j b e hleafa => rwa [equal_leaf (.inl hleafa)]

/-- The identity in a key. -/
def AtomKey.ident? : AtomKey → Option Ident
  | .simple _ => none
  | .regexp id => some id
  | .set id => some id
  | .array id => some id
  | .object id => some id
  | .pair id => some id

theorem ident?_atomKey (v : Value) : v.atomKey.ident? = v.objectIdent? := by
  cases v <;> rfl

theorem atomKey_simple {v : Value} (h : v.objectIdent? = none) :
    ∃ k, v.leafKey = some k ∧ v.atomKey = .simple (some k) := by
  cases v <;> first | exact ⟨_, rfl, rfl⟩ | cases h

theorem leafKey_of_atomKey {v : Value} {key : Option LeafKey} (h : v.atomKey = .simple key) :
    v.leafKey = key := by
  cases v <;> first | exact AtomKey.simple.inj h | cases h

theorem same_of_atomKey {a b : Value} (ha : Stored objects a) (hb : Stored objects b)
    (h : a.atomKey = b.atomKey) : same a b = true := by
  have hident : a.objectIdent? = b.objectIdent? := by
    rw [← ident?_atomKey, h, ident?_atomKey]
  cases hobject : a.objectIdent? with
  | none =>
    obtain ⟨k, hk, hkey⟩ := atomKey_simple hobject
    exact (same_leaf_iff hk).2 (leafKey_of_atomKey (h.symm.trans hkey))
  | some id =>
    rw [ha.eq_of_objectIdent? hb hobject (hident ▸ hobject)]
    exact same_refl b

theorem same_of_equal_leaf {a b : Value} (ha : Stored objects a) (hb : Stored objects b)
    (hleaf : a.isPair = false ∨ b.isPair = false) (h : equal a b = true) : same a b = true := by
  rw [equal_leaf hleaf, eq_iff_atomKey hleaf] at h
  exact same_of_atomKey ha hb h

theorem same_of_equal {a b : Value} (ha : Stored objects a) (hb : Stored objects b)
    (h : equal a b = true) : same a b = true := by
  induction a, b using inductionOnPairs with
  | pairs i a d j b e iha ihd =>
    rw [equal_pair, Bool.and_eq_true] at h
    exact same_pair_iff.2 ⟨j, b, e, rfl, iha ha.slots.1 hb.slots.1 h.1,
      ihd ha.slots.2 hb.slots.2 h.2⟩
  | leaves a b hleafa hleafb => exact same_of_equal_leaf ha hb (.inl hleafa) h
  | left i a d b hleafb => exact same_of_equal_leaf ha hb (.inr hleafb) h
  | right a j b e hleafa => exact same_of_equal_leaf ha hb (.inl hleafa) h

/-! ## plain leaves -/

/-- Whether no leaf that is reached through pairs has contents to look at: it is no regular
expression, set, array or object. -/
def hasPlainLeaves : Value → Bool
  | .pair _ a d => a.hasPlainLeaves && d.hasPlainLeaves
  | v => v.objectIdent?.isNone

theorem hasPlainLeaves_leaf {v : Value} (h : v.isPair = false) :
    v.hasPlainLeaves = v.objectIdent?.isNone := by
  unfold hasPlainLeaves
  split
  · cases h
  · rfl

theorem hasPlainLeaves_of_leafKey {v : Value} {k : LeafKey} :
    v.leafKey = some k → v.hasPlainLeaves = !(k matches .regexp _) := by
  intro h
  cases v <;> cases h <;> rfl

/-- Values that are the same have leaves of the same kinds. -/
theorem hasPlainLeaves_of_same {a b : Value} (h : same a b = true) :
    a.hasPlainLeaves = b.hasPlainLeaves := by
  induction a using inductionOnParts generalizing b with
  | leaf a k hk =>
    rw [hasPlainLeaves_of_leafKey hk, hasPlainLeaves_of_leafKey ((same_leaf_iff hk).1 h)]
  | pair id a d iha ihd =>
    obtain ⟨j, b, e, rfl, hab, hde⟩ := same_pair_iff.1 h
    rw [hasPlainLeaves, hasPlainLeaves, iha hab, ihd hde]
  | set id xs _ =>
    obtain ⟨j, ys, rfl, -⟩ := same_set_iff.1 h
    rfl
  | array id xs _ =>
    obtain ⟨j, ys, rfl, -⟩ := same_array_iff.1 h
    rfl
  | object id es _ =>
    obtain ⟨j, fs, rfl, -⟩ := same_object_iff.1 h
    rfl

/-- A plain leaf is a simple value or a callable. -/
theorem atomKey_of_hasPlainLeaves {v : Value} (hleaf : v.isPair = false)
    (h : v.hasPlainLeaves = true) : ∃ k, v.leafKey = some k ∧ v.atomKey = .simple (some k) := by
  rw [hasPlainLeaves_leaf hleaf, Option.isNone_iff_eq_none] at h
  exact atomKey_simple h

theorem equal_of_same {a b : Value} (hplain : a.hasPlainLeaves = true) (h : same a b = true) :
    equal a b = true := by
  have hplainb : b.hasPlainLeaves = true := by rw [← hasPlainLeaves_of_same h, hplain]
  induction a, b using inductionOnPairs with
  | pairs i a d j b e iha ihd =>
    obtain ⟨_, _, _, hpair, hab, hde⟩ := same_pair_iff.1 h
    cases hpair
    rw [hasPlainLeaves, Bool.and_eq_true] at hplain hplainb
    rw [equal_pair, iha hplain.1 hab hplainb.1, ihd hplain.2 hde hplainb.2, Bool.and_self]
  | leaves a b hleafa hleafb =>
    obtain ⟨k, hk, hkey⟩ := atomKey_of_hasPlainLeaves hleafa hplain
    obtain ⟨k', hk', hkey'⟩ := atomKey_of_hasPlainLeaves hleafb hplainb
    have hkk : k' = k := Option.some.inj (hk'.symm.trans ((same_leaf_iff hk).1 h))
    rw [equal_leaf (.inl hleafa), eq_iff_atomKey (.inl hleafa), hkey, hkey', hkk]
  | left i a d b hleafb =>
    obtain ⟨_, _, _, rfl, -⟩ := same_pair_iff.1 h
    cases hleafb
  | right a j b e hleafa =>
    obtain ⟨k, hk, -⟩ := atomKey_of_hasPlainLeaves hleafa hplain
    cases (same_leaf_iff hk).1 h

/-- **The equalities are nested**: values that are `eq` are `equal`, and values that are `equal`
are structurally equal; where no leaf of one of the two values has contents to look at, they are
`equal` exactly when they are structurally equal. -/
theorem eq_equal_beq_nested {a b : Value} (ha : Stored objects a) (hb : Stored objects b) :
    (eq a b = true → equal a b = true) ∧ (equal a b = true → (a == b) = true) ∧
      (a.hasPlainLeaves = true ∨ b.hasPlainLeaves = true → equal a b = (a == b)) := by
  rw [beq_eq_same ha hb]
  refine ⟨equal_of_eq ha hb, same_of_equal ha hb, fun hplain => Bool.eq_iff_iff.2 ?_⟩
  refine ⟨same_of_equal ha hb, fun h => equal_of_same ?_ h⟩
  rcases hplain with hplain | hplain
  · exact hplain
  · rw [hasPlainLeaves_of_same h, hplain]

/-- Two lists of one element that is the same pair. -/
theorem eq_equal_beq_nested_shared :
    let shared := Value.pair 0 (.symbol "x") (.number (.int 1))
    let a := Value.pair 1 shared .nil
    let b := Value.pair 2 shared .nil
    let objects := [shared, a, b]
    Stored objects a ∧ Stored objects b ∧ eq a b = true ∧ equal a b = true ∧ (a == b) = true ∧
      a.hasPlainLeaves = true ∧ equal a b = (a == b) := by
  intro shared a b objects
  have hshared : Stored objects shared := .pair rfl (.simple rfl) (.simple rfl)
  have ha : Stored objects a := .pair rfl hshared (.simple rfl)
  have hb : Stored objects b := .pair rfl hshared (.simple rfl)
  have heq : eq a b = true := by decide
  obtain ⟨hequal, hbeq, hplain⟩ := eq_equal_beq_nested ha hb
  exact ⟨ha, hb, heq, hequal heq, hbeq (hequal heq), rfl, hplain (.inl rfl)⟩

/-! ## equivalences -/

/-- **Each equality is an equivalence** on the values that can exist beside some objects, and
structural equality as it is decided, with pending comparisons and without a look into pairs that
are compared with themselves, is structural equality slot by slot.  All objects that were
made one after another are such values. -/
theorem equalities_equivalence (library : Library) (objects : List Value) :
    Equivalence (fun a b : { v // Sound objects v } => eq a.1 b.1 = true) ∧
    Equivalence (fun a b : Value => equal a b = true) ∧
    Equivalence (fun a b : { v // Sound objects v } => (a.1 == b.1) = true) ∧
    (∀ a b : { v // Sound objects v }, (a.1 == b.1) = same a.1 b.1) ∧
    (Made library objects → ∀ v ∈ objects, Sound objects v) := by
  have hbeq : ∀ a b : { v // Sound objects v }, (a.1 == b.1) = same a.1 b.1 :=
    fun a b => beq_eq_same a.2.1 b.2.1
  refine ⟨?_, ?_, ?_, hbeq, Made.sound⟩
  · have hkey : ∀ a b : { v // Sound objects v }, eq a.1 b.1 = true ↔ a.1.eqKey = b.1.eqKey :=
      fun a b => eq_iff_eqKey a.2.1 b.2.1
    simp only [hkey]
    exact ⟨fun _ => rfl, fun h => h.symm, fun h h' => h.trans h'⟩
  · simp only [equal_iff_shape]
    exact ⟨fun _ => rfl, fun h => h.symm, fun h h' => h.trans h'⟩
  · simp only [hbeq]
    exact ⟨fun a => same_refl a.1, fun {a _} h => same_symm a.2.2 h, fun h h' => same_trans h h'⟩

/-- Arrays of sets that were filled in different orders, with two representations of one and two
patterns of bits that are no numbers. -/
theorem equalities_equivalence_sets :
    let one := Value.number (.int 1)
    let bigOne := Value.number (.big 1)
    let nan := Value.number (.float (Float.ofBits 0x7ff8000000000000))
    let nan' := Value.number (.float (Float.ofBits 0xfff8000000000001))
    let objects := [.set 0 [nan, one], .set 1 [bigOne, nan'], .array 2 [.set 0 [nan, one]],
      .array 3 [.set 1 [bigOne, nan']]]
    let a := Value.array 2 [.set 0 [nan, one]]
    let b := Value.array 3 [.set 1 [bigOne, nan']]
    Made .own objects ∧ Sound objects a ∧ Sound objects b ∧ (a == b) = true ∧ (b == a) = true := by
  intro one bigOne nan nan' objects a b
  have hsetOf : ∀ m n : Number, same (.number m) (.number n) = false →
      Library.own.setOf [.number m, .number n] = [.number m, .number n] := by
    intro m n hne
    have hm : Stored [] (.number m) := .simple rfl
    have hbeq := (beq_eq_same hm (.simple rfl)).trans hne
    simp [Library.setOf, Library.own, insertElement, hasElement, hbeq]
  have hnumbers : ∀ (objects : List Value) (m n : Number),
      ∀ v ∈ [Value.number m, .number n], Sound objects v := by
    intro objects m n v hv
    rcases List.mem_pair.1 hv with rfl | rfl <;> exact ⟨.simple rfl, .leaf rfl⟩
  have hfirst : New .own [] ((newSet (Library.own.setOf [nan, one])).run 0).1 :=
    .set (hnumbers _ _ _)
  rw [hsetOf _ _ (by decide +kernel)] at hfirst
  have hsecond : New .own [.set 0 [nan, one]]
      ((newSet (Library.own.setOf [bigOne, nan'])).run 1).1 := .set (hnumbers _ _ _)
  rw [hsetOf _ _ (by decide +kernel)] at hsecond
  have hsets : Made .own [.set 0 [nan, one], .set 1 [bigOne, nan']] :=
    (Made.nothing.next hfirst).next hsecond
  have hmade : Made .own objects :=
    (hsets.next (.array (List.forall_mem_singleton.2 (hsets.sound _ (by simp))))).next
      (.array (List.forall_mem_singleton.2 ((hsets.sound _ (by simp)).append _)))
  obtain ⟨-, -, hequivalence, hsame, hsound⟩ := equalities_equivalence .own objects
  have ha : Sound objects a := hsound hmade a (by simp [objects, a])
  have hb : Sound objects b := hsound hmade b (by simp [objects, b])
  have hslots : same a b = true := by decide +kernel
  have hab : (a == b) = true := (hsame ⟨a, ha⟩ ⟨b, hb⟩).trans hslots
  exact ⟨hmade, ha, hb, hab, hequivalence.symm (x := ⟨a, ha⟩) (y := ⟨b, hb⟩) hab⟩

end Value

end Sexpr
