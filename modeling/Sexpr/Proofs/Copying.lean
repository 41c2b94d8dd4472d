import Sexpr.Algebra.Tree

/-!
# Sexpr.Proofs.Copying

Copying a tree by stacks is copying it by recursion.

A step that copies a node comes to an end with the copy on top of the copies that were there, and
with the rest of the steps to be done (`Value.copySteps_copy`), so the copy of the whole tree is the
one by recursion (`Value.copyTree_eq_copyNode`).

Two things about the way there are said with variants of the copy that end in the same copy:

* `Value.copyStrictly` has no result where a step that joins does not find two copies, or where
  not exactly one copy is left at the end.  That this does not happen is an invariant of the
  stacks, which says how many copies the steps need (`Value.Balanced`);
* `Value.noting` notes the questions for replacements, which are asked from the root down and
  in the first slot before the second, and not inside a node that is replaced (`Value.Copied`).
-/

namespace Sexpr

namespace Value

/-- Induction on a tree of pairs. -/
@[elab_as_elim]
theorem inductionOnTree {P : Value → Prop} (v : Value)
    (pair : ∀ id a d, P a → P d → P (.pair id a d)) (leaf : ∀ v, v.isPair = false → P v) :
    P v := by
  cases v with
  | pair id a d => exact pair id a d (inductionOnTree a pair leaf) (inductionOnTree d pair leaf)
  | _ => exact leaf _ rfl

variable {m : Type → Type} [Monad m] [LawfulMonad m] [MonadLiftT Fresh m]

/-! ## nodes -/

/-! What the copy of a node is, when replacements are found without effects. -/

section Nodes

variable {replace : Value → Option Value} {node v : Value}

theorem copyNode_of_some (h : replace node = some v) :
    (copyNode (fun node => pure (replace node)) node : m Value) = pure v := by
  rw [copyNode.eq_def, pure_bind, h]

theorem copyNode_pair_of_none {id : Ident} {a d : Value} (h : replace (.pair id a d) = none) :
    (copyNode (fun node => pure (replace node)) (.pair id a d) : m Value) = (do
      let head ← copyNode (fun node => pure (replace node)) a
      let tail ← copyNode (fun node => pure (replace node)) d
      cons head tail) := by
  rw [copyNode, pure_bind, h]

theorem copyNode_leaf_of_none (hleaf : node.isPair = false) (h : replace node = none) :
    (copyNode (fun node => pure (replace node)) node : m Value) = pure node := by
  rw [copyNode.eq_def, pure_bind, h]
  cases node with
  | pair id a d => cases hleaf
  | _ => rfl

end Nodes

/-! ## stacks -/

/-- A step that copies a node puts the copy on top of the others. -/
theorem copySteps_copy (replace : Value → m (Option Value)) (node : Value) (steps : List Step)
    (built : List Value) :
    copySteps replace (.copy node :: steps) built = (do
      let copy ← copyNode replace node
      copySteps replace steps (copy :: built)) := by
  induction node using inductionOnTree generalizing steps built with
  | pair id a d iha ihd =>
    rw [copySteps, copyNode, bind_assoc]
    congr 1
    funext replacement
    cases replacement with
    | some v => rw [pure_bind]
    | none =>
      -- the copies of both slots are on top when the join is reached
      have hjoin : ∀ head tail, copySteps replace (.join :: steps) (tail :: head :: built) = (do
          let node ← (Value.cons head tail : Fresh Value)
          copySteps replace steps (node :: built)) := by
        intro head tail
        rw [copySteps]
        rfl
      simp only [iha, ihd, hjoin, bind_assoc]
  | leaf v hv =>
    rw [copySteps.eq_def, copyNode.eq_def, bind_assoc]
    dsimp only
    congr 1
    funext replacement
    cases replacement with
    | some v => rw [pure_bind]
    | none =>
      cases v with
      | pair id a d => cases hv
      | _ => rw [pure_bind]

/-- **Copying by stacks is copying by recursion**, in every monad that gives the replacements. -/
theorem copyTree_eq_copyNode (replace : Value → m (Option Value)) (tree : Value) :
    copyTree replace tree = copyNode replace tree := by
  rw [copyTree, copySteps_copy]
  simp [copySteps]

/-! ## joins -/

/-- With so many copies at hand, each join among the steps finds two, and one is left at the end. -/
def Balanced : List Step → Nat → Prop
  | [], n => n = 1
  | .copy _ :: steps, n => Balanced steps (n + 1)
  | .join :: steps, n => 2 ≤ n ∧ Balanced steps (n - 1)

/-- Carries out the steps as `copySteps` does, but has nothing to fall back on: there is no result
where a join does not find two copies, or where not exactly one copy is left at the end. -/
def copyStrictly (replace : Value → m (Option Value)) : List Step → List Value → m (Option Value)
  | [], [copy] => pure (some copy)
  | [], _ => pure none
  | .copy node :: steps, built => do
    match ← replace node with
    | some v => copyStrictly replace steps (v :: built)
    | none =>
      match node with
      | .pair _ a d => copyStrictly replace (.copy a :: .copy d :: .join :: steps) built
      | leaf => copyStrictly replace steps (leaf :: built)
  | .join :: steps, tail :: head :: built => do
    let node ← cons head tail
    copyStrictly replace steps (node :: built)
  | .join :: _, _ => pure none
termination_by steps => stepWeight steps
decreasing_by
  · have := sizeOf_pos node
    simp only [stepWeight_cons, Step.weight]
    omega
  · simp only [stepWeight_cons, Step.weight, Value.pair.sizeOf_spec]
    omega
  · have := sizeOf_pos leaf
    simp only [stepWeight_cons, Step.weight]
    omega
  · simp only [stepWeight_cons, Step.weight]
    omega

/-- Every step keeps the steps balanced, so nothing to fall back on is needed. -/
theorem copyStrictly_of_balanced (replace : Value → m (Option Value)) {steps : List Step}
    {built : List Value} (h : Balanced steps built.length) :
    copyStrictly replace steps built =
      (do return some ((← copySteps replace steps built).headD .nil)) := by
  induction steps, built using copySteps.induct with
  | case1 built =>
    obtain ⟨copy, rfl⟩ := List.length_eq_one_iff.1 h
    simp [copyStrictly, copySteps]
  | case2 node steps built ihreplaced ihdeclined =>
    rw [copySteps.eq_def, copyStrictly.eq_def, bind_assoc]
    dsimp only
    congr 1
    funext answer
    cases answer with
    | some v => exact ihreplaced v h
    | none =>
      cases node with
      | pair id a d =>
        -- the copies of both slots come before the join that takes two and leaves one
        exact ihdeclined ⟨by omega, h⟩
      | _ => exact ihdeclined h
  | case3 steps built ih =>
    obtain ⟨htwo, hrest⟩ := h
    match built, htwo with
    | tail :: head :: built, _ =>
      rw [copySteps, copyStrictly, bind_assoc]
      congr 1
      funext node
      exact ih node hrest

/-! ## questions -/

section Questions

variable {α β σ : Type} {s s' s'' : σ} {n n' n'' : Ident}

/-- A computation with a state of its own, run from a state and the next identity, gives a result
and leaves another state and another next identity. -/
def Gives (c : StateT σ Fresh α) (s : σ) (n : Ident) (a : α) (s' : σ) (n' : Ident) : Prop :=
  (c.run s).run n = ((a, s'), n')

theorem Gives.bind {c : StateT σ Fresh α} {f : α → StateT σ Fresh β} {a : α} {b : β}
    (hc : Gives c s n a s' n') (hf : Gives (f a) s' n' b s'' n'') :
    Gives (c >>= f) s n b s'' n'' := by
  have hstep : ((c >>= f).run s).run n =
      ((f ((c.run s).run n).1.1).run ((c.run s).run n).1.2).run ((c.run s).run n).2 := rfl
  unfold Gives at *
  rw [hstep, hc]
  exact hf

variable {replace : Value → StateT σ Fresh (Option Value)} {node a d a' d' : Value}

theorem Gives.copyNode_replaced {v : Value} (h : Gives (replace node) s n (some v) s' n') :
    Gives (copyNode replace node) s n v s' n' := by
  rw [copyNode.eq_def]
  exact h.bind rfl

theorem Gives.copyNode_kept (hleaf : node.isPair = false)
    (h : Gives (replace node) s n none s' n') : Gives (copyNode replace node) s n node s' n' := by
  rw [copyNode.eq_def]
  refine h.bind ?_
  cases node with
  | pair id a d => cases hleaf
  | _ => rfl

theorem Gives.copyNode_joined {id : Ident} {s₁ s₂ : σ} {n₁ n₂ : Ident}
    (h : Gives (replace (.pair id a d)) s n none s₁ n₁)
    (ha : Gives (copyNode replace a) s₁ n₁ a' s₂ n₂)
    (hd : Gives (copyNode replace d) s₂ n₂ d' s' n') :
    Gives (copyNode replace (.pair id a d)) s n (.pair n' a' d') s' (n' + 1) := by
  rw [copyNode]
  exact h.bind (ha.bind (hd.bind rfl))

/-- A question for the replacement of a node, with the answer. -/
abbrev Question := Value × Option Value

/-- Asks for a replacement, and notes the question behind those that were asked before. -/
def noting (replace : Value → StateT σ Fresh (Option Value)) (node : Value) :
    StateT (σ × List Question) Fresh (Option Value) := fun state => do
  let r ← (replace node).run state.1
  return (r.1, r.2, state.2 ++ [(node, r.1)])

theorem Gives.noted {answer : Option Value} (h : Gives (replace node) s n answer s' n')
    (before : List Question) :
    Gives (noting replace node) (s, before) n answer (s', before ++ [(node, answer)]) n' := by
  have hnote : ((noting replace node).run (s, before)).run n =
      let r := ((replace node).run s).run n
      ((r.1.1, r.1.2, before ++ [(node, r.1.1)]), r.2) := rfl
  unfold Gives at *
  rw [hnote, h]

/-- A tree, the questions that are asked while it is copied, one after another, and the copy.  A
node is asked for before its slots, the first slot before the second, and nothing is asked inside
a node that is replaced. -/
inductive Copied : Value → List Question → Value → Prop
  | replaced (node v : Value) : Copied node [(node, some v)] v
  | kept {leaf : Value} : leaf.isPair = false → Copied leaf [(leaf, none)] leaf
  | joined {a d a' d' : Value} {asked asked' : List Question} (id id' : Ident) :
    Copied a asked a' → Copied d asked' d' →
      Copied (.pair id a d) ((.pair id a d, none) :: (asked ++ asked')) (.pair id' a' d')

/-- Noting the questions changes nothing else, and what is noted are the questions of a copy. -/
theorem copied_copyNode (replace : Value → StateT σ Fresh (Option Value)) (tree : Value)
    (before : List Question) (s : σ) (n : Ident) :
    ∃ copy asked s' n', Gives (copyNode replace tree) s n copy s' n' ∧
      Gives (copyNode (noting replace) tree) (s, before) n copy (s', before ++ asked) n' ∧
      Copied tree asked copy := by
  induction tree using inductionOnTree generalizing before s n with
  | pair id a d iha ihd =>
    obtain ⟨answer, s₁, n₁, hask⟩ :
        ∃ answer s₁ n₁, Gives (replace (.pair id a d)) s n answer s₁ n₁ := ⟨_, _, _, rfl⟩
    have hnote := hask.noted before
    cases answer with
    | some v => exact ⟨v, _, _, _, hask.copyNode_replaced, hnote.copyNode_replaced, .replaced _ v⟩
    | none =>
      obtain ⟨a', asked, s₂, n₂, ha, hanote, hacopied⟩ :=
        iha (before ++ [(.pair id a d, none)]) s₁ n₁
      obtain ⟨d', asked', s₃, n₃, hd, hdnote, hdcopied⟩ :=
        ihd (before ++ [(.pair id a d, none)] ++ asked) s₂ n₂
      have hboth := hnote.copyNode_joined hanote hdnote
      simp only [List.append_assoc, List.singleton_append] at hboth
      exact ⟨_, _, _, _, hask.copyNode_joined ha hd, hboth, .joined id n₃ hacopied hdcopied⟩
  | leaf v hv =>
    obtain ⟨answer, s₁, n₁, hask⟩ : ∃ answer s₁ n₁, Gives (replace v) s n answer s₁ n₁ :=
      ⟨_, _, _, rfl⟩
    have hnote := hask.noted before
    cases answer with
    | some x => exact ⟨x, _, _, _, hask.copyNode_replaced, hnote.copyNode_replaced, .replaced _ x⟩
    | none => exact ⟨v, _, _, _, hask.copyNode_kept hv, hnote.copyNode_kept hv, .kept hv⟩

/-- **Copying by stacks is its recursive definition**, for replacements that depend on a state of
their own.  Each join finds two copies and one copy is left at the end, so nothing to fall back on
is ever used, and replacements are asked for from the root down and from the first slot to the
second, never inside a node that is replaced. -/
theorem copyTree_recursive (replace : Value → StateT σ Fresh (Option Value)) (tree : Value) :
    copyTree replace tree = copyNode replace tree ∧
    copyStrictly replace [.copy tree] [] = some <$> copyTree replace tree ∧
    ∀ s n, ∃ copy asked s' n', Gives (copyTree replace tree) s n copy s' n' ∧
      Gives (copyTree (noting replace) tree) (s, []) n copy (s', asked) n' ∧
      Copied tree asked copy := by
  refine ⟨copyTree_eq_copyNode replace tree, ?_, fun s n => ?_⟩
  · have hstart : Balanced [.copy tree] ([] : List Value).length := rfl
    simp [copyStrictly_of_balanced replace hstart, copyTree]
  · simp only [copyTree_eq_copyNode]
    exact copied_copyNode replace tree [] s n

end Questions

end Value

end Sexpr
