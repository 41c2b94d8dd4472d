import Mathlib
import Sexpr.Proofs.Alists
import Sexpr.Proofs.Copying
import Sexpr.Proofs.Equalities

/-!
# Sexpr.Proofs.Substitution

Substitutions: at once and one after another, of a value for itself, and of a value that is gone.

Both kinds of substitution copy a tree and replace leaves on the way, as `Value.graft` does without
making new pairs: for a key that is no pair, `subst` replaces the leaves that are `eq` to it, and
`sublis` replaces a leaf by the value of the first entry that has it as its key
(`Value.replacement`).  Grafts compose,

```
(z.graft f).graft g  =  z.graft fun leaf => (f leaf).graft g
```

so substitutions one after another amount to the substitution at once, unless a value that was put
in holds a later key.  The leaves of a graft are those of what was put in (`Value.leaves_graft`), so
a key is gone from the tree when its replacement lacks it.  For a key that is a pair there is no
graft: `subst` replaces whole nodes then, which are `equal` to the key.
-/

namespace Sexpr

namespace Value

variable {objects : List Value} {k v x y z : Value} {f g : Value → Value}
  {entries : List (Value × Value)}

/-! ## leaves -/

/-- The leaves of a tree from left to right, `nil` among them. -/
def leaves : Value → List Value
  | .pair _ a d => leaves a ++ leaves d
  | leaf => [leaf]

/-- The tree with every leaf replaced. -/
def graft (f : Value → Value) : Value → Value
  | .pair id a d => .pair id (graft f a) (graft f d)
  | leaf => f leaf

theorem leaves_leaf (h : v.isPair = false) : v.leaves = [v] := by
  cases v <;> first | rfl | cases h

theorem graft_leaf (f : Value → Value) (h : v.isPair = false) : v.graft f = f v := by
  cases v <;> first | rfl | cases h

/-- An atom that is no pair is `eq` to what is `eq` to it. -/
theorem eq_comm_leaf (hk : k.isPair = false) (x : Value) : eq x k = eq k x := by
  rw [Bool.eq_iff_iff, eq_iff_atomKey (.inr hk), eq_iff_atomKey (.inl hk), eq_comm]

theorem isPair_of_mem_leaves (h : x ∈ z.leaves) : x.isPair = false := by
  induction z using inductionOnTree with
  | pair id a d iha ihd => exact (List.mem_append.1 h).elim iha ihd
  | leaf z hz =>
    rw [leaves_leaf hz, List.mem_singleton] at h
    exact h ▸ hz

theorem graft_congr (h : ∀ leaf ∈ z.leaves, f leaf = g leaf) : z.graft f = z.graft g := by
  induction z using inductionOnTree with
  | pair id a d iha ihd =>
    rw [graft, graft, iha fun leaf hleaf => h leaf (List.mem_append_left _ hleaf),
      ihd fun leaf hleaf => h leaf (List.mem_append_right _ hleaf)]
  | leaf z hz =>
    rw [graft_leaf f hz, graft_leaf g hz]
    exact h z (by rw [leaves_leaf hz]; exact List.mem_singleton_self z)

theorem graft_id (z : Value) : z.graft id = z := by
  induction z using inductionOnTree with
  | pair id a d iha ihd => rw [graft, iha, ihd]
  | leaf z hz => exact graft_leaf id hz

/-- Grafts compose. -/
theorem graft_graft (f g : Value → Value) (z : Value) :
    (z.graft f).graft g = z.graft fun leaf => (f leaf).graft g := by
  induction z using inductionOnTree with
  | pair id a d iha ihd => rw [graft, graft, graft, iha, ihd]
  | leaf z hz => rw [graft_leaf f hz, graft_leaf _ hz]

/-- A graft that does not tell `eq` leaves apart keeps `equal` trees `equal`. -/
theorem shape_graft_congr
    (hf : ∀ {a b : Value}, a.isPair = false → b.isPair = false → a.atomKey = b.atomKey →
      (f a).shape = (f b).shape)
    (h : y.shape = z.shape) : (y.graft f).shape = (z.graft f).shape := by
  induction y using inductionOnTree generalizing z with
  | pair id a d iha ihd =>
    cases z with
    | pair id' a' d' =>
      obtain ⟨ha, hd⟩ := Shape.pair.inj h
      rw [graft, graft, shape, shape, iha ha, ihd hd]
    | _ => cases h
  | leaf y hy =>
    cases hz : z.isPair with
    | false =>
      rw [shape_leaf hy, shape_leaf hz] at h
      rw [graft_leaf f hy, graft_leaf f hz]
      exact hf hy hz (Shape.atom.inj h)
    | true =>
      cases z with
      | pair id a d =>
        rw [shape_leaf hy] at h
        cases h
      | _ => cases hz

/-! ## copies -/

/-- A copy that keeps pairs and replaces leaves has the shape of the graft. -/
theorem shape_run_copyTree {replace : Value → Option Value}
    (hpair : ∀ node, node.isPair = true → replace node = none)
    (hleaf : ∀ leaf, leaf.isPair = false → (replace leaf).getD leaf = f leaf)
    (z : Value) (n : Ident) :
    ((copyTree (fun node => pure (replace node)) z : Fresh Value).run n).1.shape =
      (z.graft f).shape := by
  rw [copyTree_eq_copyNode]
  induction z using inductionOnTree generalizing n with
  | pair id a d iha ihd =>
    rw [copyNode_pair_of_none (hpair _ rfl), graft, shape, ← iha n, ← ihd]
    rfl
  | leaf z hz =>
    rw [graft_leaf f hz, ← hleaf z hz]
    cases h : replace z with
    | some v => rw [copyNode_of_some h]; rfl
    | none => rw [copyNode_leaf_of_none hz h]; rfl

/-- A copy is `equal` to the tree when every node is replaced by an `equal` one or not at all. -/
theorem shape_run_copyTree_eq_self {replace : Value → Option Value}
    (hreplace : ∀ node v, Stored objects node → replace node = some v → v.shape = node.shape)
    (hz : Stored objects z) (n : Ident) :
    ((copyTree (fun node => pure (replace node)) z : Fresh Value).run n).1.shape = z.shape := by
  rw [copyTree_eq_copyNode]
  induction z using inductionOnTree generalizing n with
  | pair id a d iha ihd =>
    cases h : replace (.pair id a d) with
    | some v =>
      rw [copyNode_of_some h]
      exact hreplace _ v hz h
    | none =>
      rw [copyNode_pair_of_none h, shape, ← iha hz.slots.1 n, ← ihd hz.slots.2]
      rfl
  | leaf z hleaf =>
    cases h : replace z with
    | some v =>
      rw [copyNode_of_some h]
      exact hreplace z v hz h
    | none => rw [copyNode_leaf_of_none hleaf h]; rfl

/-! ## entries -/

/-- The value of the first entry whose key is `eq` to a leaf, or the leaf itself. -/
def replacement (entries : List (Value × Value)) (leaf : Value) : Value :=
  ((entries.find? fun e => eq e.1 leaf).map Prod.snd).getD leaf

theorem replacement_cons (e : Value × Value) (entries : List (Value × Value)) (leaf : Value) :
    replacement (e :: entries) leaf =
      if eq e.1 leaf then e.2 else replacement entries leaf := by
  by_cases h : eq e.1 leaf = true <;> simp [replacement, h]

theorem lookupOrSelf_eq_replacement (alist leaf : Value) :
    lookupOrSelf alist leaf = replacement alist.rows leaf := by
  rw [lookupOrSelf, assoc?_eq_find?, replacement]

theorem replacement_eq_self (h : ∀ e ∈ entries, eq e.1 x = false) : replacement entries x = x := by
  have hnone : (entries.find? fun e => eq e.1 x) = none :=
    List.find?_eq_none.2 fun e he => Bool.not_eq_true _ ▸ h e he
  rw [replacement, hnone]
  rfl

theorem shape_replacement_congr (hx : x.isPair = false) (hy : y.isPair = false)
    (h : x.atomKey = y.atomKey) :
    (replacement entries x).shape = (replacement entries y).shape := by
  induction entries with
  | nil =>
    show x.shape = y.shape
    rw [shape_leaf hx, shape_leaf hy, h]
  | cons e entries ih =>
    have hkey : eq e.1 x = eq e.1 y := by
      rw [Bool.eq_iff_iff, eq_iff_atomKey (.inr hx), eq_iff_atomKey (.inr hy), h]
    rw [replacement_cons, replacement_cons, hkey]
    split
    · rfl
    · exact ih

/-- A look-up of every leaf, whatever the list is. -/
theorem shape_run_sublis (alist z : Value) (n : Ident) :
    ((sublis alist z).run n).1.shape = (z.graft (replacement alist.rows)).shape := by
  refine shape_run_copyTree (fun node hnode => if_pos hnode) (fun leaf hleaf => ?_) z n
  rw [hleaf]
  exact lookupOrSelf_eq_replacement alist leaf

/-- The leaves that are `eq` to a key are replaced, if the key is no pair. -/
theorem shape_run_subst (v : Value) (hk : k.isPair = false) (z : Value) (n : Ident) :
    ((subst v k z).run n).1.shape = (z.graft (replacement [(k, v)])).shape := by
  refine shape_run_copyTree (fun node hnode => ?_) (fun leaf hleaf => ?_) z n
  · -- a pair is never `eq` to the key
    cases node with
    | pair id a d =>
      have hne : ¬ eq (.pair id a d) k = true := by
        rw [eq_iff_atomKey (.inr hk)]
        exact (atomKey_ne_pair hk id).symm
      simp [hne]
    | _ => cases hnode
  · have hatom : leaf.isAtom = true := by
      cases leaf <;> first | rfl | cases hleaf
    rw [hatom, Bool.true_and, eq_comm_leaf hk, replacement_cons]
    split <;> rfl

/-! ## one after another -/

/-- Substitutes the values for their keys, one entry after another. -/
def substAll (entries : List (Value × Value)) (z : Value) : Fresh Value :=
  entries.foldlM (fun z e => subst e.2 e.1 z) z

/-- No value holds a leaf that is `eq` to a later key. -/
def AvoidsLater (entries : List (Value × Value)) : Prop :=
  entries.Pairwise fun e later => ∀ leaf ∈ e.2.leaves, eq later.1 leaf = false

/-- A substitution in front of others at once joins them. -/
theorem graft_replacement_cons {e : Value × Value}
    (h : ∀ later ∈ entries, ∀ leaf ∈ e.2.leaves, eq later.1 leaf = false) (z : Value) :
    (z.graft (replacement [e])).graft (replacement entries) =
      z.graft (replacement (e :: entries)) := by
  rw [graft_graft]
  refine graft_congr fun leaf hleaf => ?_
  rw [replacement_cons, replacement_cons]
  split
  · -- the value that was put in has no leaf to replace
    calc e.2.graft (replacement entries)
      _ = e.2.graft id := graft_congr fun x hx => replacement_eq_self fun later hlater =>
          h later hlater x hx
      _ = e.2 := graft_id e.2
  · exact graft_leaf _ (isPair_of_mem_leaves hleaf)

/-- By induction on the entries: each pass replaces its key in what the passes before it left. -/
theorem shape_run_substAll (hkeys : ∀ e ∈ entries, e.1.isPair = false)
    (havoids : AvoidsLater entries) (z : Value) (n : Ident) :
    ((substAll entries z).run n).1.shape = (z.graft (replacement entries)).shape := by
  induction entries generalizing z n with
  | nil => exact congrArg shape (graft_id z).symm
  | cons e entries ih =>
    obtain ⟨hlater, hrest⟩ := List.pairwise_cons.1 havoids
    obtain ⟨hkey, hkeys⟩ := List.forall_mem_cons.1 hkeys
    have hrun : (substAll (e :: entries) z).run n =
        (substAll entries ((subst e.2 e.1 z).run n).1).run ((subst e.2 e.1 z).run n).2 := rfl
    rw [hrun]
    calc _
      _ = (((subst e.2 e.1 z).run n).1.graft (replacement entries)).shape := ih hkeys hrest _ _
      _ = ((z.graft (replacement [e])).graft (replacement entries)).shape :=
          shape_graft_congr shape_replacement_congr (shape_run_subst e.2 hkey z n)
      _ = (z.graft (replacement (e :: entries))).shape := by rw [graft_replacement_cons hlater]

/-- **Substitution at once and one after another**: the entries that `pairlis` makes of keys that
are no pairs, looked up at once, give a tree that is `equal` to what substitutions of the keys one
after another give, unless a value holds a leaf that is `eq` to a later key.  For a single key
there is no condition on the value. -/
theorem sublis_equal_subst :
    (∀ keys vals : Value, keys.length = vals.length → (∀ k ∈ keys.elements, k.isPair = false) →
      AvoidsLater (keys.elements.zip vals.elements) → ∀ n : Ident,
        ∃ alist next, (pairlis keys vals .nil).run n = (.ok alist, next) ∧
          ∀ (z : Value) (n₁ n₂ : Ident), equal ((sublis alist z).run n₁).1
            ((substAll (keys.elements.zip vals.elements) z).run n₂).1 = true) ∧
    ∀ (k v z : Value) (id id' n₁ n₂ : Ident), k.isPair = false →
      equal ((subst v k z).run n₁).1
        ((sublis (.pair id (.pair id' k v) .nil) z).run n₂).1 = true := by
  refine ⟨fun keys vals hlength hkeys havoids n => ?_, fun k v z id id' n₁ n₂ hk => ?_⟩
  · obtain ⟨pairs, alist, next, hrun, hfront, hpairs⟩ := run_pairlis hlength .nil n
    refine ⟨alist, next, hrun, fun z n₁ n₂ => ?_⟩
    have hrows : alist.rows = keys.elements.zip vals.elements :=
      (rows_of_inFront hfront hpairs).trans (List.append_nil _)
    have hentries : ∀ e ∈ keys.elements.zip vals.elements, e.1.isPair = false :=
      fun e he => hkeys e.1 (List.of_mem_zip he).1
    rw [equal_iff_shape, shape_run_sublis, hrows, shape_run_substAll hentries havoids]
  · rw [equal_iff_shape, shape_run_sublis, shape_run_subst v hk]
    rfl

/-- Keys may be repeated, `nil` may be one of them, and a value may hold its own key: `(a b)` with
`"x"` for `a`, `(b)` for `nil` and `(a)` for `a`. -/
theorem sublis_equal_subst_nil :
    let z := Value.pair 0 (.symbol "a") (.pair 1 (.symbol "b") .nil)
    let keys := Value.pair 2 (.symbol "a") (.pair 3 .nil (.pair 4 (.symbol "a") .nil))
    let vals := Value.pair 5 (.string "x")
      (.pair 6 (.pair 7 (.symbol "b") .nil) (.pair 8 (.pair 9 (.symbol "a") .nil) .nil))
    keys.length = vals.length ∧ (∀ k ∈ keys.elements, k.isPair = false) ∧
      AvoidsLater (keys.elements.zip vals.elements) ∧
      (∃ alist next, (pairlis keys vals .nil).run 10 = (.ok alist, next) ∧
        equal ((sublis alist z).run next).1
          ((substAll (keys.elements.zip vals.elements) z).run 10).1 = true) ∧
      equal ((subst z .nil z).run 10).1 ((sublis (.pair 10 (.pair 11 .nil z) .nil) z).run 12).1 =
        true := by
  intro z keys vals
  have hkeys : ∀ k ∈ keys.elements, k.isPair = false := by simp [keys, elements, isPair]
  have havoids : AvoidsLater (keys.elements.zip vals.elements) := by
    simp only [AvoidsLater, keys, vals, elements, List.zip_cons_cons, List.pairwise_cons]
    simp [leaves, eq, leafEq]
  obtain ⟨hall, hone⟩ := sublis_equal_subst
  obtain ⟨alist, next, hrun, hequal⟩ := hall keys vals rfl hkeys havoids 10
  exact ⟨rfl, hkeys, havoids, ⟨alist, next, hrun, hequal z next 10⟩, hone .nil z z 10 11 10 12 rfl⟩

/-! ## a value for itself, and a value that is gone -/

/-- The keys of the leaves from left to right. -/
def Shape.keys : Shape → List AtomKey
  | .atom key => [key]
  | .pair car cdr => car.keys ++ cdr.keys

theorem keys_shape (v : Value) : v.shape.keys = v.leaves.map atomKey := by
  induction v using inductionOnTree with
  | pair id a d iha ihd => simp [shape, leaves, Shape.keys, iha, ihd]
  | leaf v hv => simp [shape_leaf hv, leaves_leaf hv, Shape.keys]

/-- The leaves of a graft are those of what was put in. -/
theorem leaves_graft (f : Value → Value) (z : Value) :
    (z.graft f).leaves = z.leaves.flatMap fun leaf => (f leaf).leaves := by
  induction z using inductionOnTree with
  | pair id a d iha ihd => simp [graft, leaves, iha, ihd]
  | leaf z hz => simp [graft_leaf f hz, leaves_leaf hz]

/-- No leaf of the tree is `eq` to the value. -/
def Lacks (y z : Value) : Prop := ∀ leaf ∈ z.leaves, eq leaf y = false

/-- Trees that are `equal` lack the same atoms. -/
theorem lacks_iff_keys (hy : y.isPair = false) : Lacks y z ↔ y.atomKey ∉ z.shape.keys := by
  have heq : ∀ leaf, eq leaf y = false ↔ leaf.atomKey ≠ y.atomKey := fun leaf => by
    rw [← Bool.not_eq_true, eq_iff_atomKey (.inr hy)]
  simp [Lacks, keys_shape, heq]

/-- What replaces the leaves that are `eq` to an atom brings none back. -/
theorem lacks_graft_replacement (hy : y.isPair = false) (hx : Lacks y x) (z : Value) :
    Lacks y (z.graft (replacement [(y, x)])) := by
  intro leaf hleaf
  rw [leaves_graft, List.mem_flatMap] at hleaf
  obtain ⟨old, hold, hleaf⟩ := hleaf
  rw [replacement_cons] at hleaf
  split at hleaf
  · exact hx leaf hleaf
  · next hne =>
    -- the leaf was not replaced
    have hself : leaf = old := by
      simpa [replacement, leaves_leaf (isPair_of_mem_leaves hold)] using hleaf
    rw [hself, eq_comm_leaf hy, ← Bool.not_eq_true]
    exact hne

/-- There is nothing to replace in a tree that lacks the atom. -/
theorem shape_run_subst_of_lacks (hy : y.isPair = false) (hz : Lacks y z) (w : Value) (n : Ident) :
    ((subst w y z).run n).1.shape = z.shape := by
  have hkeep : ∀ leaf ∈ z.leaves, replacement [(y, w)] leaf = id leaf := fun leaf hleaf =>
    replacement_eq_self (by simpa [eq_comm_leaf hy] using hz leaf hleaf)
  rw [shape_run_subst w hy, graft_congr hkeep, graft_id]

/-- **Laws of substitution**: a value in place of itself gives an `equal` tree, be the value an atom
or not.  An atom that is no pair is gone from a tree after something that lacks it was put in its
place, so a second substitution for it, of anything, gives an `equal` tree. -/
theorem subst_self_and_again :
    (∀ (objects : List Value) (y z : Value), Stored objects y → Stored objects z → ∀ n : Ident,
      equal ((subst y y z).run n).1 z = true) ∧
    ∀ x y z : Value, y.isPair = false → Lacks y x → ∀ n : Ident,
      Lacks y ((subst x y z).run n).1 ∧
      ∀ (w : Value) (m : Ident),
        equal ((subst w y ((subst x y z).run n).1).run m).1 ((subst x y z).run n).1 = true := by
  refine ⟨fun objects y z hy hz n => ?_, fun x y z hy hx n => ?_⟩
  · rw [equal_iff_shape]
    refine shape_run_copyTree_eq_self (fun node v hnode hv => ?_) hz n
    split at hv
    · next hmatch =>
      cases hv
      have heq : eq node y = true := (Bool.and_eq_true_iff.1 hmatch).2
      exact (equal_iff_shape.1 (equal_of_eq hnode hy heq)).symm
    · cases hv
  · have hgone : Lacks y ((subst x y z).run n).1 := by
      rw [lacks_iff_keys hy, shape_run_subst x hy, ← lacks_iff_keys hy]
      exact lacks_graft_replacement hy hx z
    exact ⟨hgone, fun w m => equal_iff_shape.2 (shape_run_subst_of_lacks hy hgone w m)⟩

/-- A list of one element in place of the end `("x")` of the list `(1 "x")`, and `9` in place of the
`nil` that both end in. -/
theorem subst_self_and_again_end :
    let y := Value.pair 0 (.string "x") .nil
    let z := Value.pair 1 (.number (.int 1)) (.pair 2 (.string "x") .nil)
    let objects := [y, z, .pair 2 (.string "x") .nil]
    let nine := Value.number (.int 9)
    Stored objects y ∧ Stored objects z ∧ equal ((subst y y z).run 3).1 z = true ∧
      Lacks .nil nine ∧ Lacks .nil ((subst nine .nil z).run 3).1 ∧
      equal ((subst z .nil ((subst nine .nil z).run 3).1).run 5).1 ((subst nine .nil z).run 3).1 =
        true := by
  intro y z objects nine
  have hy : Stored objects y := .pair rfl (.simple rfl) (.simple rfl)
  have hz : Stored objects z := .pair rfl (.simple rfl) (.pair rfl (.simple rfl) (.simple rfl))
  have hnine : Lacks .nil nine := List.forall_mem_singleton.2 rfl
  obtain ⟨hself, hagain⟩ := subst_self_and_again
  obtain ⟨hgone, hsecond⟩ := hagain nine .nil z rfl hnine 3
  exact ⟨hy, hz, hself objects y z hy hz 3, hnine, hgone, hsecond z 5⟩

end Value

end Sexpr
