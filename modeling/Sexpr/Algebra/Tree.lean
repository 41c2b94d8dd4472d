import Sexpr.Algebra.Spine

/-!
# Sexpr.Algebra.Tree

Values as binary trees of pairs.

`Value.copyTree` copies a tree and replaces nodes on the way.  It keeps what is to be
done, and the copies that wait for their other half, on two stacks, so the depth of a
tree does not matter; `Value.copyNode` is the same by recursion on the tree.  Both
ask for replacements in a monad, so they can be compared in the order in which they ask.
In the same way `Value.collectLeaves` finds the leaves of a tree from a stack, and
`Value.leavesOnto` by recursion.
-/

namespace Sexpr

namespace Value

/-! ## Copying -/

/-- A step of copying a tree. -/
inductive Step where
  | copy (node : Value)
  /-- Makes a pair of the last two copies. -/
  | join

/-- A bound for how many steps a step leads to, itself included. -/
noncomputable def Step.weight : Step → Nat
  | .copy node => 2 * sizeOf node
  | .join => 1

/-- A bound for how many steps a list of steps leads to. -/
noncomputable def stepWeight : List Step → Nat
  | [] => 0
  | t :: steps => t.weight + stepWeight steps

theorem stepWeight_cons (t : Step) (steps : List Step) :
    stepWeight (t :: steps) = t.weight + stepWeight steps := rfl

variable {m : Type → Type} [Monad m] [MonadLiftT Fresh m]

/-- Carries out the steps.  The copies are on `built`, the last one first. -/
def copySteps (replace : Value → m (Option Value)) : List Step → List Value → m (List Value)
  | [], built => pure built
  | .copy node :: steps, built => do
    match ← replace node with
    | some v => copySteps replace steps (v :: built)
    | none =>
      match node with
      | .pair _ a d => copySteps replace (.copy a :: .copy d :: .join :: steps) built
      | leaf => copySteps replace steps (leaf :: built)
  | .join :: steps, built => do
    let node ← cons (built.tail.headD .nil) (built.headD .nil)
    copySteps replace steps (node :: built.tail.tail)
termination_by steps => stepWeight steps
decreasing_by
  · have := sizeOf_pos node
    simp only [stepWeight_cons, Step.weight]
    omega
  · simp only [stepWeight_cons, Step.weight, Value.pair.sizeOf_spec]
    omega
  · have := sizeOf_pos leaf
    simp only [stepWeight_cons, Step.weight]
    omega
  · simp only [stepWeight_cons, Step.weight]
    omega

/-- A copy of a tree.  A node for which `replace` gives a value is replaced by it; other pairs are
made anew from the copies of their slots, and other leaves are kept. -/
def copyTree (replace : Value → m (Option Value)) (tree : Value) : m Value := do
  return (← copySteps replace [.copy tree] []).headD .nil

/-- The same copy by recursion on the tree. -/
def copyNode (replace : Value → m (Option Value)) (node : Value) : m Value := do
  match ← replace node with
  | some v => pure v
  | none =>
    match node with
    | .pair _ a d => do
      let head ← copyNode replace a
      let tail ← copyNode replace d
      cons head tail
    | leaf => pure leaf

/-- A copy of `z` with `x` in place of every node that is an atom and `eq` to `y`.  A list of one
element is an atom, also where it is the end of a longer list. -/
def subst (x y z : Value) : Fresh Value :=
  copyTree (fun node => pure (if node.isAtom && eq node y then some x else none)) z

/-! ## Leaves -/

/-- The leaf reached by first slots. -/
def firstLeaf : Value → Value
  | .pair _ a _ => firstLeaf a
  | v => v

/-- The last leaf: second slots lead to the last element, and the walk goes on inside it. -/
def lastLeaf : Value → Value
  | .pair _ a d => if d.isNil then lastLeaf a else lastLeaf d
  | v => v

/-- The leaves other than `nil` from left to right, in front of `rest`. -/
def leavesOnto : Value → List Value → List Value
  | .pair _ a d, rest => leavesOnto a (leavesOnto d rest)
  | .nil, rest => rest
  | v, rest => v :: rest

/-- The leaves other than `nil` of pending nodes, behind those that were found before, which are
listed from the last to the first.  The slots of a pair become pending, the first on top. -/
def collectLeaves : List Value → List Value → List Value
  | [], leaves => leaves.reverse
  | .pair _ a d :: pending, leaves => collectLeaves (a :: d :: pending) leaves
  | .nil :: pending, leaves => collectLeaves pending leaves
  | leaf :: pending, leaves => collectLeaves pending (leaf :: leaves)
termination_by pending => totalSize pending
decreasing_by
  · simp only [totalSize_cons, Value.pair.sizeOf_spec]
    omega
  · have := sizeOf_pos .nil
    simp only [totalSize_cons]
    omega
  · have := sizeOf_pos leaf
    simp only [totalSize_cons]
    omega

/-- A new list of the leaves other than `nil`. -/
def flatten (v : Value) : Fresh Value := list (collectLeaves [v] [])

end Value

end Sexpr
