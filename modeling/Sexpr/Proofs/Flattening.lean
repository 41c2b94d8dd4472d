import Mathlib
import Sexpr.Algebra.Tree
import Sexpr.Proofs.Copying
import Sexpr.Proofs.ListLaws

/-!
# Sexpr.Proofs.Flattening

The leaves of a tree, read off in several ways.

A node of a tree is at a *path*: the slots that lead to it from the root, `false` for a first slot
and `true` for a second one.  One leaf is to the left of another when its path comes first in the
order of lists, so the leaves from left to right are those at ascending paths
(`Value.Occurrences`).

* `Value.collectLeaves_eq`: the stack of pending nodes finds the leaves in the order of the
  recursion;
* `Value.leavesOnto_eq`: `flatten` lists them all, but for `nil`;
* `Value.head?_leavesOnto`, `Value.getLast?_leavesOnto`: the walks to the first and to the last leaf
  end at the ends of that list, unless they end at a `nil`.
-/

namespace Sexpr

namespace Value

variable {items : List Value} {v x tail : Value} {n : Ident}

/-! ## paths -/

/-- The node at a path. -/
def node? : Value → List Bool → Option Value
  | v, [] => some v
  | .pair _ a _, false :: path => a.node? path
  | .pair _ _ d, true :: path => d.node? path
  | _, _ :: _ => none

/-- The leaves other than `nil` with their paths. -/
def occurrences : Value → List (List Bool × Value)
  | .pair _ a d =>
    a.occurrences.map (Prod.map (false :: ·) id) ++ d.occurrences.map (Prod.map (true :: ·) id)
  | .nil => []
  | v => [([], v)]

/-- A list has all leaves other than `nil` from left to right, each of them at its path. -/
structure Occurrences (tree : Value) (found : List (List Bool × Value)) : Prop where
  ascending : found.Pairwise fun e e' => e.1 < e'.1
  mem_iff (path : List Bool) (leaf : Value) :
    (path, leaf) ∈ found ↔ tree.node? path = some leaf ∧ leaf.isPair = false ∧ leaf ≠ .nil

theorem node?_leaf (h : v.isPair = false) (side : Bool) (path : List Bool) :
    v.node? (side :: path) = none := by
  cases v with
  | pair id a d => cases h
  | _ => simp [node?]

theorem occurrences_leaf (h : v.isPair = false) (hnil : v ≠ .nil) : v.occurrences = [([], v)] := by
  cases v with
  | pair id a d => cases h
  | nil => exact (hnil rfl).elim
  | _ => rfl

theorem pairwise_occurrences (v : Value) :
    v.occurrences.Pairwise fun e e' => e.1 < e'.1 := by
  induction v using inductionOnTree with
  | pair id a d iha ihd =>
    have hsides : ∀ p q : List Bool, false :: p < true :: q := fun p q =>
      List.cons_lt_cons_iff.2 (.inl rfl)
    rw [occurrences, List.pairwise_append, List.pairwise_map, List.pairwise_map]
    refine ⟨by simpa using iha, by simpa using ihd, ?_⟩
    grind
  | leaf v hv =>
    by_cases hnil : v = .nil
    · simp [hnil, occurrences]
    · simp [occurrences_leaf hv hnil]

theorem mem_occurrences_iff (v : Value) (path : List Bool) (leaf : Value) :
    (path, leaf) ∈ v.occurrences ↔
      v.node? path = some leaf ∧ leaf.isPair = false ∧ leaf ≠ .nil := by
  induction v using inductionOnTree generalizing path with
  | pair id a d iha ihd =>
    rcases path with _ | ⟨_ | _, path⟩
    · have hpair : (Value.pair id a d).isPair = true := rfl
      grind [occurrences, node?]
    · simp [occurrences, node?, ← iha]
    · simp [occurrences, node?, ← ihd]
  | leaf v hv =>
    by_cases hnil : v = .nil
    · cases path <;> grind [occurrences, node?]
    · cases path <;> grind [occurrences_leaf, node?, node?_leaf]

theorem occurrences_found (v : Value) : v.Occurrences v.occurrences :=
  ⟨pairwise_occurrences v, mem_occurrences_iff v⟩

/-! ## lists of leaves -/

@[simp] theorem leavesOnto_pair (id : Ident) (a d : Value) (rest : List Value) :
    leavesOnto (.pair id a d) rest = a.leavesOnto (d.leavesOnto rest) := rfl

@[simp] theorem leavesOnto_nil (rest : List Value) : leavesOnto .nil rest = rest := rfl

theorem leavesOnto_leaf (h : v.isPair = false) (hnil : v ≠ .nil) (rest : List Value) :
    v.leavesOnto rest = v :: rest := by
  cases v with
  | pair id a d => cases h
  | nil => exact (hnil rfl).elim
  | _ => rfl

/-- What is in front of `rest` are the leaves. -/
theorem leavesOnto_eq (v : Value) (rest : List Value) :
    v.leavesOnto rest = v.occurrences.map Prod.snd ++ rest := by
  induction v using inductionOnTree generalizing rest with
  | pair id a d iha ihd => simp [iha, ihd, occurrences, Function.comp_def]
  | leaf v hv =>
    by_cases hnil : v = .nil
    · simp [hnil, occurrences]
    · simp [leavesOnto_leaf hv hnil, occurrences_leaf hv hnil]

theorem leavesOnto_append (v : Value) (rest : List Value) :
    v.leavesOnto rest = v.leavesOnto [] ++ rest := by
  rw [leavesOnto_eq, leavesOnto_eq v [], List.append_nil]

/-- The leaves of a list are those of its elements and of what stands behind them. -/
theorem leavesOnto_of_inFront (h : InFront n items tail v) :
    v.leavesOnto [] = items.flatMap (leavesOnto · []) ++ tail.leavesOnto [] := by
  induction items generalizing v with
  | nil => simp [show v = tail from h]
  | cons x items ih =>
    obtain ⟨id, d, rfl, -, hd⟩ := h
    rw [leavesOnto_pair, leavesOnto_append, ih hd, List.flatMap_cons, List.append_assoc]

/-- A proper list has the leaves of its elements. -/
theorem leavesOnto_of_isProperList (h : v.isProperList = true) :
    v.leavesOnto [] = v.elements.flatMap (leavesOnto · []) := by
  rw [leavesOnto_of_inFront (inFront_of_isProperList h), leavesOnto_nil, List.append_nil]

/-- A leaf that was listed is its own list of leaves. -/
theorem leavesOnto_of_mem (h : x ∈ v.leavesOnto []) : x.leavesOnto [] = [x] := by
  rw [leavesOnto_eq, List.append_nil, List.mem_map] at h
  obtain ⟨⟨path, leaf⟩, hmem, rfl⟩ := h
  obtain ⟨-, hleaf, hnil⟩ := (mem_occurrences_iff v path leaf).1 hmem
  exact leavesOnto_leaf hleaf hnil []

/-- Leaves that were listed have no leaves but themselves. -/
theorem flatMap_leavesOnto (v : Value) :
    (v.leavesOnto []).flatMap (leavesOnto · []) = v.leavesOnto [] := by
  rw [List.flatMap_congr fun x hx => leavesOnto_of_mem hx, List.flatMap_singleton']

/-- The stack finds the leaves of one pending node after another. -/
theorem collectLeaves_eq (pending leaves : List Value) :
    collectLeaves pending leaves = leaves.reverse ++ pending.flatMap (leavesOnto · []) := by
  fun_induction collectLeaves pending leaves with
  | case1 leaves => simp
  | case2 id a d pending leaves ih =>
    rw [ih, List.flatMap_cons, List.flatMap_cons, List.flatMap_cons, leavesOnto_pair,
      leavesOnto_append a (d.leavesOnto []), List.append_assoc]
  | case3 pending leaves ih => rw [ih, List.flatMap_cons, leavesOnto_nil, List.nil_append]
  | case4 leaf pending leaves hpair hnil ih =>
    have hleaf : leaf.isPair = false := isPair_eq_false_of_ne hpair
    rw [ih, List.flatMap_cons, leavesOnto_leaf hleaf hnil, List.reverse_cons, List.append_assoc]

/-! ## walks to the ends -/

theorem firstLeaf_leaf (h : v.isPair = false) : v.firstLeaf = v := by
  cases v with
  | pair id a d => cases h
  | _ => rfl

theorem lastLeaf_leaf (h : v.isPair = false) : v.lastLeaf = v := by
  cases v with
  | pair id a d => cases h
  | _ => rfl

/-- The walk along first slots ends at the first of all leaves. -/
theorem head?_leavesOnto (h : v.firstLeaf ≠ .nil) :
    (v.leavesOnto []).head? = some v.firstLeaf := by
  induction v using inductionOnTree with
  | pair id a d iha ihd =>
    rw [leavesOnto_pair, leavesOnto_append, List.head?_append, iha h]
    rfl
  | leaf v hv =>
    rw [firstLeaf_leaf hv] at h ⊢
    simp [leavesOnto_leaf hv h]

/-- The walk into last elements ends at the last of all leaves. -/
theorem getLast?_leavesOnto (h : v.lastLeaf ≠ .nil) :
    (v.leavesOnto []).getLast? = some v.lastLeaf := by
  induction v using inductionOnTree with
  | pair id a d iha ihd =>
    by_cases hd : d.isNil = true
    · have hlast : (Value.pair id a d).lastLeaf = a.lastLeaf := if_pos hd
      rw [hlast] at h ⊢
      rw [leavesOnto_pair, eq_nil_of_isNil hd, leavesOnto_nil, iha h]
    · have hlast : (Value.pair id a d).lastLeaf = d.lastLeaf := if_neg hd
      rw [hlast] at h ⊢
      rw [leavesOnto_pair, leavesOnto_append, List.getLast?_append, ihd h]
      rfl
  | leaf v hv =>
    rw [lastLeaf_leaf hv] at h ⊢
    simp [leavesOnto_leaf hv h]

/-! ## flattening -/

theorem joins_flatten (v : Value) : Joins (v.leavesOnto []) .nil (flatten v) := by
  have hleaves : collectLeaves [v] [] = v.leavesOnto [] := by simp [collectLeaves_eq]
  exact hleaves ▸ joins_listOnto (collectLeaves [v] []) .nil

/-- A list is flattened behind a computation that puts elements in front of a value. -/
theorem Joins.flatten {c : Fresh Value} (hc : Joins items tail c) :
    Joins (items.flatMap (leavesOnto · []) ++ tail.leavesOnto []) .nil (c >>= Value.flatten) :=
  hc.bind_inFront fun v hv => leavesOnto_of_inFront hv ▸ joins_flatten v

/-- **Flattening lists the leaves**: it gives a new proper list of all leaves other than `nil` from
left to right.  Flattening a second time changes nothing, and the leaves of two lists that are
joined, the first of them a proper one, are those of the first followed by those of the second.
Where the walks to the first and to the last leaf do not end at `nil`, they end at the first and the
last element. -/
theorem flatten_leaves (x y : Value) (n m : Ident) :
    (∃ found, x.Occurrences found ∧ InFront n (found.map Prod.snd) .nil ((flatten x).run n).1) ∧
    equal ((do flatten (← flatten x) : Fresh Value).run n).1 ((flatten x).run m).1 = true ∧
    (x.isProperList = true →
      equal ((do flatten (← append x y) : Fresh Value).run n).1
        ((do append (← flatten x) (← flatten y) : Fresh Value).run m).1 = true) ∧
    (x.firstLeaf ≠ .nil → ((flatten x).run n).1.elements.head? = some x.firstLeaf) ∧
    (x.lastLeaf ≠ .nil → ((flatten x).run n).1.elements.getLast? = some x.lastLeaf) := by
  obtain ⟨-, hflat⟩ := joins_flatten x n
  have helements : ((flatten x).run n).1.elements = x.leavesOnto [] := by
    simp [elements_of_inFront hflat, elements]
  refine ⟨⟨x.occurrences, occurrences_found x, ?_⟩, ?_, fun hproper => ?_, fun h => ?_,
    fun h => ?_⟩
  · rwa [leavesOnto_eq, List.append_nil] at hflat
  · have htwice := (joins_flatten x).flatten
    rw [flatMap_leavesOnto, leavesOnto_nil, List.append_nil] at htwice
    exact equal_of_joins htwice (joins_flatten x) n m
  · have hjoined := (joins_append x y).flatten
    rw [← leavesOnto_of_isProperList hproper] at hjoined
    have hseparate := (joins_flatten x).bind_elements (· ++ y.leavesOnto []) fun v =>
      (joins_flatten y).bind fun w => joins_append v w
    rw [elements_leaf rfl, List.append_nil] at hseparate
    exact equal_of_joins hjoined hseparate n m
  · rw [helements, head?_leavesOnto h]
  · rw [helements, getLast?_leavesOnto h]

/-- The list `((a ()) (b . c))`, which is joined with a symbol. -/
theorem flatten_leaves_nested :
    let x := Value.pair 0 (.pair 1 (.symbol "a") (.pair 2 .nil .nil))
      (.pair 3 (.pair 4 (.symbol "b") (.symbol "c")) .nil)
    let y := Value.symbol "d"
    x.isProperList = true ∧ x.firstLeaf = .symbol "a" ∧ x.lastLeaf = .symbol "c" ∧
      equal ((do flatten (← append x y) : Fresh Value).run 5).1
        ((do append (← flatten x) (← flatten y) : Fresh Value).run 5).1 = true ∧
      ((flatten x).run 5).1.elements.head? = some (.symbol "a") ∧
      ((flatten x).run 5).1.elements.getLast? = some (.symbol "c") := by
  intro x y
  have hfirst : x.firstLeaf = .symbol "a" := rfl
  have hlast : x.lastLeaf = .symbol "c" := rfl
  obtain ⟨-, -, hjoined, hhead, hend⟩ := flatten_leaves x y 5 5
  refine ⟨rfl, hfirst, hlast, hjoined rfl, ?_, ?_⟩
  · rw [hhead (by simp [hfirst]), hfirst]
  · rw [hend (by simp [hlast]), hlast]

end Value

end Sexpr
