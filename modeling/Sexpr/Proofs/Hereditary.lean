import Sexpr.Primitive.Call
import Sexpr.Proofs.Run

/-!
# Sexpr.Proofs.Hereditary

Properties that a structure has exactly when its parts have them.

The functions of the language take values apart and put them together.  The only objects they
make are pairs, collections and regular expressions, so a property that holds of plain
data and is inherited by structures from their parts holds of whatever they compute from
arguments that have it:

* `Hereditary.call`: every function of the language keeps a hereditary property.

The section is layered like the computations: `Gives` is for computations that make objects,
`Yields` for those that can fail as well.
-/

namespace Sexpr

variable {α β σ : Type}

/-! ## results of computations -/

/-- Every result of a computation with a state has the property. -/
def Gives (P : α → Prop) (m : StateM σ α) : Prop := ∀ s, P (m.run s).1

/-- Every value of a computation that can fail has the property. -/
def Yields (P : α → Prop) (m : ExceptT Fault (StateM σ) α) : Prop :=
  ∀ s a, (m.run s).1 = .ok a → P a

namespace Gives

variable {P : α → Prop} {Q : β → Prop}

theorem pure {a : α} (h : P a) : Gives P (Pure.pure a : StateM σ α) := fun _ => h

theorem bind {m : StateM σ α} {k : α → StateM σ β} (hm : Gives P m)
    (hk : ∀ a, P a → Gives Q (k a)) : Gives Q (m >>= k) :=
  fun s => hk _ (hm s) _

theorem foldrM {f : β → α → StateM σ α} {xs : List β} {a : α} (ha : P a)
    (hf : ∀ x ∈ xs, ∀ a, P a → Gives P (f x a)) : Gives P (xs.foldrM f a) := by
  induction xs with
  | nil => exact pure ha
  | cons x xs ih =>
    rw [List.foldrM_cons]
    refine bind (ih fun y hy => hf y (List.mem_cons_of_mem x hy)) fun b hb => ?_
    exact hf x List.mem_cons_self b hb

end Gives

namespace Yields

variable {P : α → Prop} {Q : β → Prop}

theorem pure {a : α} (h : P a) : Yields P (Pure.pure a : ExceptT Fault (StateM σ) α) := by
  intro s b hb
  cases hb
  exact h

theorem bind {m : ExceptT Fault (StateM σ) α} {k : α → ExceptT Fault (StateM σ) β}
    (hm : Yields P m) (hk : ∀ a, P a → Yields Q (k a)) : Yields Q (m >>= k) := by
  intro s b hb
  rw [run_bind] at hb
  rcases h : m.run s with ⟨r, s'⟩
  rw [h] at hb
  cases r with
  | ok a => exact hk a (hm s a (by rw [h])) s' b hb
  | error f => cases hb

theorem lift {m : StateM σ α} (h : Gives P m) :
    Yields P (liftM m : ExceptT Fault (StateM σ) α) := by
  intro s a ha
  cases ha
  exact h s

theorem liftExcept {r : Except Fault α} (h : ∀ a, r = .ok a → P a) :
    Yields P (liftM r : ExceptT Fault (StateM σ) α) := by
  intro s a ha
  cases r with
  | ok b =>
    cases ha
    exact h a rfl
  | error f => cases ha

theorem mapM {f : β → ExceptT Fault (StateM σ) α} {xs : List β}
    (hf : ∀ x ∈ xs, Yields P (f x)) : Yields (fun ys => ∀ y ∈ ys, P y) (xs.mapM f) := by
  induction xs with
  | nil => exact pure fun y hy => (List.not_mem_nil hy).elim
  | cons x xs ih =>
    rw [List.mapM_cons]
    refine bind (hf x List.mem_cons_self) fun y hy => ?_
    refine bind (ih fun z hz => hf z (List.mem_cons_of_mem x hz)) fun ys hys => ?_
    exact pure (List.forall_mem_cons.2 ⟨hy, hys⟩)

end Yields

/-- Nothing is asked of the values of a computation. -/
theorem yields_true (m : ExceptT Fault (StateM σ) α) : Yields (fun _ => True) m :=
  fun _ _ _ => trivial

/-- What holds of the value of two steps follows from what holds of the value of the first. -/
theorem forall_ok_bind {P : α → Prop} {Q : β → Prop} {r : Except Fault α} {k : α → Except Fault β}
    (hr : ∀ a, r = .ok a → P a) (hk : ∀ a, P a → ∀ b, k a = .ok b → Q b) :
    ∀ b, (r >>= k) = .ok b → Q b := by
  intro b hb
  cases r with
  | ok a => exact hk a (hr a rfl) b hb
  | error f => cases hb

/-- The results of a list of computations come from its elements. -/
theorem exists_mem_of_mapM_eq_ok {f : α → Except Fault β} {xs : List α} {ys : List β}
    (h : xs.mapM f = .ok ys) {y : β} (hy : y ∈ ys) : ∃ x ∈ xs, f x = .ok y := by
  induction xs generalizing ys with
  | nil =>
    cases h
    cases hy
  | cons x xs ih =>
    rw [List.mapM_cons] at h
    cases hx : f x with
    | error e => rw [hx] at h; cases h
    | ok z =>
      rw [hx] at h
      cases hxs : xs.mapM f with
      | error e => rw [hxs] at h; cases h
      | ok zs =>
        rw [hxs] at h
        cases h
        rcases List.mem_cons.1 hy with rfl | hy
        · exact ⟨x, List.mem_cons_self, hx⟩
        · obtain ⟨x', hx', hfx'⟩ := ih hxs hy
          exact ⟨x', List.mem_cons_of_mem x hx', hfx'⟩

/-! ## collections -/

namespace Library

variable {library : Library} {P : Value → Prop}

theorem forall_mem_insert {xs : List Value} {v : Value} (hxs : ∀ x ∈ xs, P x) (hv : P v) :
    ∀ x ∈ library.insert xs v, P x := by
  intro x hx
  rcases library.mem_of_mem_insert hx with rfl | hold
  · exact hv
  · exact hxs x hold

theorem forall_mem_setOf {vs : List Value} (hvs : ∀ v ∈ vs, P v) : ∀ x ∈ library.setOf vs, P x :=
  List.foldlRecOn (motive := fun xs => ∀ x ∈ xs, P x) vs library.insert
    (fun _ hx => (List.not_mem_nil hx).elim)
    fun _ hxs v hv => forall_mem_insert hxs (hvs v hv)

end Library

namespace Value

variable {P : Value → Prop}

theorem forall_mem_insertEntry {key : String} {v : Value} {es : List (String × Value)} (hv : P v)
    (hes : ∀ e ∈ es, P e.2) : ∀ e ∈ insertEntry key v es, P e.2 := by
  fun_induction insertEntry key v es with
  | case1 => exact List.forall_mem_singleton.2 hv
  | case2 => exact List.forall_mem_cons.2 ⟨hv, hes⟩
  | case3 => exact List.forall_mem_cons.2 ⟨hv, (List.forall_mem_cons.1 hes).2⟩
  | case4 k x rest hlt hne ih =>
    obtain ⟨hx, hrest⟩ := List.forall_mem_cons.1 hes
    exact List.forall_mem_cons.2 ⟨hx, ih hrest⟩

theorem forall_mem_objectOf {es : List (String × Value)} (hes : ∀ e ∈ es, P e.2) :
    ∀ e ∈ objectOf es, P e.2 :=
  List.foldlRecOn (motive := fun (acc : List (String × Value)) => ∀ e ∈ acc, P e.2) es _
    (fun _ he => (List.not_mem_nil he).elim)
    fun _ hacc e he => forall_mem_insertEntry (hes e he) hacc

end Value

/-! ## hereditary properties -/

/-- A property that plain data has, and that a structure has exactly when its parts have it. -/
structure Hereditary (P : Value → Prop) : Prop where
  nil : P .nil
  undefined : P .undefined
  bool (b : Bool) : P (.bool b)
  number (n : Number) : P (.number n)
  regexp (id : Ident) (source : String) : P (.regexp id source)
  pair_iff (id : Ident) (a d : Value) : P (.pair id a d) ↔ P a ∧ P d
  set_iff (id : Ident) (xs : List Value) : P (.set id xs) ↔ ∀ x ∈ xs, P x
  array_iff (id : Ident) (xs : List Value) : P (.array id xs) ↔ ∀ x ∈ xs, P x
  object_iff (id : Ident) (es : List (String × Value)) : P (.object id es) ↔ ∀ e ∈ es, P e.2

namespace Hereditary

theorem of_true : Hereditary fun _ => True := by constructor <;> simp

variable {P : Value → Prop} (hP : Hereditary P)
include hP

/-! ## slots and elements -/

theorem car {v : Value} (hv : P v) : ∀ x, v.car = .ok x → P x := by
  intro x h
  unfold Value.car at h
  split at h
  · cases h
    exact ((hP.pair_iff _ _ _).1 hv).1
  · cases h
    exact hP.nil
  · cases h

theorem cdr {v : Value} (hv : P v) : ∀ x, v.cdr = .ok x → P x := by
  intro x h
  unfold Value.cdr at h
  split at h
  · cases h
    exact ((hP.pair_iff _ _ _).1 hv).2
  · cases h
    exact hP.nil
  · cases h

theorem elements {v : Value} (hv : P v) : ∀ x ∈ v.elements, P x := by
  fun_induction Value.elements v with
  | case1 id a d ih =>
    obtain ⟨ha, hd⟩ := (hP.pair_iff _ _ _).1 hv
    exact List.forall_mem_cons.2 ⟨ha, ih hd⟩
  | case2 => exact fun x hx => (List.not_mem_nil hx).elim

theorem firstLeaf {v : Value} (hv : P v) : P v.firstLeaf := by
  fun_induction Value.firstLeaf v with
  | case1 id a d ih => exact ih ((hP.pair_iff _ _ _).1 hv).1
  | case2 => exact hv

theorem lastLeaf {v : Value} (hv : P v) : P v.lastLeaf := by
  fun_induction Value.lastLeaf v with
  | case1 id a d hd ih => exact ih ((hP.pair_iff _ _ _).1 hv).1
  | case2 id a d hd ih => exact ih ((hP.pair_iff _ _ _).1 hv).2
  | case3 => exact hv

theorem collectLeaves {pending leaves : List Value} (hpending : ∀ x ∈ pending, P x)
    (hleaves : ∀ x ∈ leaves, P x) : ∀ x ∈ Value.collectLeaves pending leaves, P x := by
  fun_induction Value.collectLeaves pending leaves with
  | case1 leaves => exact fun x hx => hleaves x (List.mem_reverse.1 hx)
  | case2 leaves id a d pending ih =>
    obtain ⟨hnode, hrest⟩ := List.forall_mem_cons.1 hpending
    obtain ⟨ha, hd⟩ := (hP.pair_iff _ _ _).1 hnode
    exact ih (List.forall_mem_cons.2 ⟨ha, List.forall_mem_cons.2 ⟨hd, hrest⟩⟩) hleaves
  | case3 leaves pending ih => exact ih (List.forall_mem_cons.1 hpending).2 hleaves
  | case4 leaves leaf pending _ _ ih =>
    obtain ⟨hleaf, hrest⟩ := List.forall_mem_cons.1 hpending
    exact ih hrest (List.forall_mem_cons.2 ⟨hleaf, hleaves⟩)

theorem assoc? {key alist x : Value} (halist : P alist) (h : Value.assoc? key alist = some x) :
    P x := by
  fun_induction Value.assoc? key alist with
  | case1 id id' k y d heq =>
    cases h
    exact ((hP.pair_iff _ _ _).1 ((hP.pair_iff _ _ _).1 halist).1).2
  | case2 id id' k y d heq ih => exact ih ((hP.pair_iff _ _ _).1 halist).2 h
  | case3 id a d hne ih => exact ih ((hP.pair_iff _ _ _).1 halist).2 h
  | case4 => cases h

theorem lookupOrSelf {alist z : Value} (halist : P alist) (hz : P z) :
    P (Value.lookupOrSelf alist z) := by
  unfold Value.lookupOrSelf
  cases h : Value.assoc? z alist with
  | none => exact hz
  | some x => exact hP.assoc? halist h

/-! ## making lists and trees -/

theorem cons {a d : Value} (ha : P a) (hd : P d) : Gives P (Value.cons a d) :=
  fun _ => (hP.pair_iff _ _ _).2 ⟨ha, hd⟩

theorem listOnto {items : List Value} {tail : Value} (hitems : ∀ x ∈ items, P x) (htail : P tail) :
    Gives P (Value.listOnto items tail) :=
  Gives.foldrM htail fun x hx _ hacc => hP.cons (hitems x hx) hacc

theorem list {items : List Value} (hitems : ∀ x ∈ items, P x) : Gives P (Value.list items) :=
  hP.listOnto hitems hP.nil

theorem revAppend {x acc : Value} (hx : P x) (hacc : P acc) :
    Gives P (Value.revAppend x acc) := by
  fun_induction Value.revAppend x acc with
  | case1 acc id a d ih =>
    obtain ⟨ha, hd⟩ := (hP.pair_iff _ _ _).1 hx
    exact Gives.bind (hP.cons ha hacc) fun c hc => ih c hd hc
  | case2 => exact Gives.pure hacc

theorem append {x y : Value} (hx : P x) (hy : P y) : Gives P (Value.append x y) := by
  unfold Value.append
  split
  · exact Gives.pure hy
  · exact Gives.bind (hP.revAppend hx hP.nil) fun r hr => hP.revAppend hr hy

theorem appendAll {lists : List Value} (h : ∀ x ∈ lists, P x) : Gives P (Value.appendAll lists) :=
  Gives.foldrM hP.nil fun x hx _ hacc => hP.append (h x hx) hacc

/-- Every step of copying a tree leaves copies with the property, when the replacements have
it. -/
theorem copySteps {replace : Value → Option Value}
    (hreplace : ∀ node v, P node → replace node = some v → P v) {steps : List Value.Step}
    {built : List Value} (hsteps : ∀ node, Value.Step.copy node ∈ steps → P node)
    (hbuilt : ∀ v ∈ built, P v) :
    Gives (fun built => ∀ v ∈ built, P v)
      (Value.copySteps (fun node => (pure (replace node) : Fresh (Option Value))) steps built) := by
  induction steps, built using Value.copySteps.induct with
  | case1 built =>
    rw [Value.copySteps]
    exact Gives.pure hbuilt
  | case2 node steps built ihv ihnode =>
    have hnode : P node := hsteps node List.mem_cons_self
    have hrest : ∀ node, Value.Step.copy node ∈ steps → P node :=
      fun n hn => hsteps n (List.mem_cons_of_mem _ hn)
    rw [Value.copySteps.eq_def]
    simp only [pure_bind]
    split
    · next v hv =>
      exact ihv v hrest (List.forall_mem_cons.2 ⟨hreplace node v hnode hv, hbuilt⟩)
    · split
      · next id a d =>
        obtain ⟨ha, hd⟩ := (hP.pair_iff _ _ _).1 hnode
        refine ihnode (fun n hn => ?_) hbuilt
        simp only [List.mem_cons, Value.Step.copy.injEq, reduceCtorEq, false_or] at hn
        rcases hn with rfl | rfl | hn
        · exact ha
        · exact hd
        · exact hrest n hn
      · next hleaf =>
        split at ihnode
        · exact (hleaf _ _ _ rfl).elim
        · exact ihnode hrest (List.forall_mem_cons.2 ⟨hnode, hbuilt⟩)
  | case3 steps built ih =>
    have hrest : ∀ node, Value.Step.copy node ∈ steps → P node :=
      fun n hn => hsteps n (List.mem_cons_of_mem _ hn)
    have hhead : ∀ xs : List Value, (∀ v ∈ xs, P v) → P (xs.headD .nil) := by
      intro xs hxs
      cases xs with
      | nil => exact hP.nil
      | cons x xs => exact hxs x List.mem_cons_self
    have htail : ∀ xs : List Value, (∀ v ∈ xs, P v) → ∀ v ∈ xs.tail, P v :=
      fun xs hxs v hv => hxs v (List.mem_of_mem_tail hv)
    rw [Value.copySteps]
    refine Gives.bind (hP.cons (hhead _ (htail _ hbuilt)) (hhead _ hbuilt)) fun node hnode => ?_
    exact ih node hrest (List.forall_mem_cons.2 ⟨hnode, htail _ (htail _ hbuilt)⟩)

theorem copyTree {replace : Value → Option Value}
    (hreplace : ∀ node v, P node → replace node = some v → P v) {tree : Value} (htree : P tree) :
    Gives P (Value.copyTree (fun node => (pure (replace node) : Fresh (Option Value))) tree) := by
  refine Gives.bind (hP.copySteps hreplace ?_ fun v hv => (List.not_mem_nil hv).elim) ?_
  · intro node hnode
    simp only [List.mem_singleton, Value.Step.copy.injEq] at hnode
    exact hnode ▸ htree
  · intro built hbuilt
    refine Gives.pure ?_
    cases built with
    | nil => exact hP.nil
    | cons v built => exact hbuilt v List.mem_cons_self

theorem subst {x y z : Value} (hx : P x) (hz : P z) : Gives P (Value.subst x y z) := by
  refine hP.copyTree (fun node v _ h => ?_) hz
  split at h
  · cases h
    exact hx
  · cases h

theorem sublis {alist y : Value} (halist : P alist) (hy : P y) :
    Gives P (Value.sublis alist y) := by
  refine hP.copyTree (fun node v hnode h => ?_) hy
  split at h
  · cases h
  · cases h
    exact hP.lookupOrSelf halist hnode

theorem flatten {v : Value} (hv : P v) : Gives P v.flatten :=
  hP.list (hP.collectLeaves (List.forall_mem_singleton.2 hv)
    fun _ hx => (List.not_mem_nil hx).elim)

/-- Corresponding elements of two values have the property. -/
theorem zip_elements {x y : Value} (hx : P x) (hy : P y) :
    ∀ p ∈ x.elements.zip y.elements, P p.1 ∧ P p.2 :=
  fun _ hp => ⟨hP.elements hx _ (List.of_mem_zip hp).1, hP.elements hy _ (List.of_mem_zip hp).2⟩

theorem pairUp {x y : Value} (hx : P x) (hy : P y) : Yields P (Value.pairUp x y) := by
  refine Yields.bind (P := fun _ => True) (Yields.liftExcept fun _ _ => trivial) fun _ _ => ?_
  refine Yields.bind (Yields.mapM (P := P) fun p hp => ?_) fun rows hrows => ?_
  · obtain ⟨ha, hb⟩ := hP.zip_elements hx hy p hp
    exact Yields.lift (hP.list (List.forall_mem_cons.2 ⟨ha, List.forall_mem_singleton.2 hb⟩))
  · exact Yields.lift (hP.list hrows)

theorem pairlis {keys vals base : Value} (hkeys : P keys) (hvals : P vals) (hbase : P base) :
    Yields P (Value.pairlis keys vals base) := by
  refine Yields.bind (P := fun _ => True) (Yields.liftExcept fun _ _ => trivial) fun _ _ => ?_
  refine Yields.bind (Yields.mapM (P := P) fun p hp => ?_) fun entries hentries => ?_
  · obtain ⟨hk, hv⟩ := hP.zip_elements hkeys hvals p hp
    exact Yields.lift (hP.cons hk hv)
  · exact Yields.lift (hP.listOnto hentries hbase)

/-! ## the functions of the language -/

theorem toEntries {v : Value} {es : List (Value × Value)} (hv : P v)
    (h : v.toEntries = .ok es) : ∀ e ∈ es, P e.2 := by
  intro e he
  simp only [Value.toEntries, Value.toList_eq] at h
  split at h
  · obtain ⟨x, hx, hentry⟩ := exists_mem_of_mapM_eq_ok h he
    have hPx := hP.elements hv x hx
    unfold Value.entry at hentry
    split at hentry
    · cases hentry
      exact ((hP.pair_iff _ _ _).1 hPx).2
    · cases hentry
  · cases h

theorem expectSet {name : String} {v : Value} {xs : List Value} (hv : P v)
    (h : v.expectSet name = .ok xs) : ∀ x ∈ xs, P x := by
  unfold Value.expectSet at h
  split at h
  · cases h
    exact (hP.set_iff _ _).1 hv
  · cases h

theorem expectArray {name : String} {v : Value} {xs : List Value} (hv : P v)
    (h : v.expectArray name = .ok xs) : ∀ x ∈ xs, P x := by
  unfold Value.expectArray at h
  split at h
  · cases h
    exact (hP.array_iff _ _).1 hv
  · cases h

theorem expectObject {name : String} {v : Value} {es : List (String × Value)} (hv : P v)
    (h : v.expectObject name = .ok es) : ∀ e ∈ es, P e.2 := by
  unfold Value.expectObject at h
  split at h
  · cases h
    exact (hP.object_iff _ _).1 hv
  · cases h

theorem arithmetic (name : String) (identity : Int64)
    (op : Number → Number → Except Fault Number) (args : List Value) :
    ∀ v, Primitive.arithmetic name identity op args = .ok v → P v := by
  refine forall_ok_bind (P := fun _ => True) (fun _ _ => trivial) fun ns _ => ?_
  refine forall_ok_bind (P := fun _ => True) (fun _ _ => trivial) fun n _ v hv => ?_
  cases hv
  exact hP.number n

theorem comparison (name : String) (holds : Ordering → Bool) (args : List Value) :
    ∀ v, Primitive.comparison name holds args = .ok v → P v := by
  refine forall_ok_bind (P := fun _ => True) (fun _ _ => trivial) fun ns _ v hv => ?_
  cases hv
  exact hP.bool _

variable {library : Library}

theorem compilePattern (source : String) :
    Yields P (Primitive.compilePattern library source) := by
  unfold Primitive.compilePattern
  split
  · exact Yields.lift fun _ => hP.regexp _ _
  · exact Yields.liftExcept fun _ h => by cases h

theorem assoc {key alist : Value} (halist : P alist) :
    P ((Value.assoc? key alist).getD .undefined) := by
  cases h : Value.assoc? key alist with
  | none => exact hP.undefined
  | some x => exact hP.assoc? halist h

theorem setAdd {s x : Value} (hs : P s) (hx : P x) :
    Yields P (Primitive.call library .setAdd [s, x]) := by
  refine Yields.bind (Yields.liftExcept fun xs => hP.expectSet hs) fun xs hxs => ?_
  exact Yields.lift fun _ => (hP.set_iff _ _).2 (Library.forall_mem_insert hxs hx)

theorem arrayRef {a i : Value} (ha : P a) :
    Yields P (Primitive.call library .arrayRef [a, i]) := by
  refine Yields.bind (yields_true _) fun index _ => ?_
  refine Yields.bind (Yields.liftExcept fun xs => hP.expectArray ha) fun items hitems => ?_
  split
  · next x hx => exact Yields.pure (hitems x (List.mem_of_getElem? hx))
  · exact Yields.liftExcept fun _ h => by cases h

theorem makeObject {x : Value} (hx : P x) :
    Yields P (Primitive.call library .makeObject [x]) := by
  refine Yields.bind (Yields.liftExcept fun es => hP.toEntries hx) fun es hes => ?_
  refine Yields.bind (Yields.mapM (P := fun e : String × Value => P e.2) fun e he => ?_)
    fun entries hentries => ?_
  · exact Yields.bind (yields_true _) fun _ _ => Yields.pure (hes e he)
  · exact Yields.lift fun _ => (hP.object_iff _ _).2 (Value.forall_mem_objectOf hentries)

theorem objectGet {o k : Value} (ho : P o) :
    Yields P (Primitive.call library .objectGet [o, k]) := by
  refine Yields.bind (yields_true _) fun key _ => ?_
  refine Yields.bind (Yields.liftExcept fun es => hP.expectObject ho) fun es hes => ?_
  refine Yields.pure ?_
  cases h : Value.entry? key es with
  | none => exact hP.undefined
  | some v =>
    obtain ⟨e, he, rfl⟩ := Option.map_eq_some_iff.1 h
    exact hes e (List.mem_of_find?_eq_some he)

end Hereditary

/-! ## numbers of arguments -/

section Arguments

variable {library : Library} {p : Primitive} {args : List Value} {P : Value → Prop}

/-- A function that takes a fixed number of arguments fails with any other number. -/
theorem Primitive.call_of_wrongArity {n : Nat} (hp : p.arity = .exact n) (hargs : args.length ≠ n) :
    p.call library args = failure p.name (.wrongArity p.arity args.length) := by
  cases p <;> cases hp <;> rcases args with _ | ⟨x, _ | ⟨y, _ | ⟨z, _ | ⟨u, args⟩⟩⟩⟩ <;>
    first | rfl | exact (hargs rfl).elim

theorem Yields.wrongArity {n : Nat} (hp : p.arity = .exact n) (hargs : args.length ≠ n) :
    Yields P (p.call library args) := by
  rw [Primitive.call_of_wrongArity hp hargs]
  exact Yields.liftExcept fun _ h => by cases h

theorem Yields.one (hp : p.arity = .exact 1) (hargs : ∀ x ∈ args, P x)
    (h : ∀ x, P x → Yields P (p.call library [x])) : Yields P (p.call library args) := by
  match args with
  | [x] => exact h x (hargs x (by simp))
  | [] => exact Yields.wrongArity hp (by simp)
  | x :: y :: args => exact Yields.wrongArity hp (by simp)

theorem Yields.two (hp : p.arity = .exact 2) (hargs : ∀ x ∈ args, P x)
    (h : ∀ x y, P x → P y → Yields P (p.call library [x, y])) : Yields P (p.call library args) := by
  match args with
  | [x, y] => exact h x y (hargs x (by simp)) (hargs y (by simp))
  | [] => exact Yields.wrongArity hp (by simp)
  | [x] => exact Yields.wrongArity hp (by simp)
  | x :: y :: z :: args => exact Yields.wrongArity hp (by simp)

theorem Yields.three (hp : p.arity = .exact 3) (hargs : ∀ x ∈ args, P x)
    (h : ∀ x y z, P x → P y → P z → Yields P (p.call library [x, y, z])) :
    Yields P (p.call library args) := by
  match args with
  | [x, y, z] => exact h x y z (hargs x (by simp)) (hargs y (by simp)) (hargs z (by simp))
  | [] => exact Yields.wrongArity hp (by simp)
  | [x] => exact Yields.wrongArity hp (by simp)
  | [x, y] => exact Yields.wrongArity hp (by simp)
  | x :: y :: z :: u :: args => exact Yields.wrongArity hp (by simp)

end Arguments

/-! ## every function -/

namespace Hereditary

variable {P : Value → Prop} (hP : Hereditary P) {library : Library}
include hP

/-- `pairlis` takes two or three arguments. -/
theorem call_pairlis {args : List Value} (hargs : ∀ x ∈ args, P x) :
    Yields P (Primitive.call library .pairlis args) := by
  match args with
  | [x, y] => exact hP.pairlis (hargs x (by simp)) (hargs y (by simp)) hP.nil
  | [x, y, z] => exact hP.pairlis (hargs x (by simp)) (hargs y (by simp)) (hargs z (by simp))
  | [] => exact Yields.liftExcept fun _ h => by cases h
  | [x] => exact Yields.liftExcept fun _ h => by cases h
  | x :: y :: z :: u :: args => exact Yields.liftExcept fun _ h => by cases h

/-- Every function of the language keeps a hereditary property. -/
theorem call {p : Primitive} {args : List Value} (hargs : ∀ x ∈ args, P x) :
    Yields P (p.call library args) := by
  -- a result that is a truth value or a number, whatever the arguments are
  have hbool : ∀ b : Bool, Yields P (pure (.bool b) : Attempt Value) :=
    fun b => Yields.pure (hP.bool b)
  have hnumber : ∀ n : Number, Yields P (pure (.number n) : Attempt Value) :=
    fun n => Yields.pure (hP.number n)
  cases p with
  | car => exact Yields.one rfl hargs fun x hx => Yields.liftExcept (hP.car hx)
  | cdr => exact Yields.one rfl hargs fun x hx => Yields.liftExcept (hP.cdr hx)
  | cons => exact Yields.two rfl hargs fun x y hx hy => Yields.lift (hP.cons hx hy)
  | caar =>
    exact Yields.one rfl hargs fun x hx =>
      Yields.liftExcept (forall_ok_bind (hP.car hx) fun _ => hP.car)
  | cadr =>
    exact Yields.one rfl hargs fun x hx =>
      Yields.liftExcept (forall_ok_bind (hP.cdr hx) fun _ => hP.car)
  | caddr =>
    exact Yields.one rfl hargs fun x hx => Yields.liftExcept
      (forall_ok_bind (hP.cdr hx) fun _ hd => forall_ok_bind (hP.cdr hd) fun _ => hP.car)
  | cddr =>
    exact Yields.one rfl hargs fun x hx =>
      Yields.liftExcept (forall_ok_bind (hP.cdr hx) fun _ => hP.cdr)
  | cdar =>
    exact Yields.one rfl hargs fun x hx =>
      Yields.liftExcept (forall_ok_bind (hP.car hx) fun _ => hP.cdr)
  | eq => exact Yields.two rfl hargs fun _ _ _ _ => hbool _
  | null => exact Yields.one rfl hargs fun _ _ => hbool _
  | equal => exact Yields.two rfl hargs fun _ _ _ _ => hbool _
  | append => exact Yields.lift (hP.appendAll hargs)
  | reverse => exact Yields.one rfl hargs fun x hx => Yields.lift (hP.revAppend hx hP.nil)
  | member => exact Yields.two rfl hargs fun _ _ _ _ => hbool _
  | pair => exact Yields.two rfl hargs fun x y hx hy => hP.pairUp hx hy
  | assoc => exact Yields.two rfl hargs fun k x _ hx => Yields.pure (hP.assoc hx)
  | subst => exact Yields.three rfl hargs fun x y z hx _ hz => Yields.lift (hP.subst hx hz)
  | sublis => exact Yields.two rfl hargs fun x y hx hy => Yields.lift (hP.sublis hx hy)
  | pairlis => exact hP.call_pairlis hargs
  | length => exact Yields.one rfl hargs fun _ _ => hnumber _
  | firstLeaf => exact Yields.one rfl hargs fun x hx => Yields.pure (hP.firstLeaf hx)
  | lastLeaf => exact Yields.one rfl hargs fun x hx => Yields.pure (hP.lastLeaf hx)
  | flatten => exact Yields.one rfl hargs fun x hx => Yields.lift (hP.flatten hx)
  | identity => exact Yields.one rfl hargs fun x hx => Yields.pure hx
  | not => exact Yields.one rfl hargs fun _ _ => hbool _
  | xor => exact hbool _
  | add => exact Yields.liftExcept (hP.arithmetic _ _ _ _)
  | sub => exact Yields.liftExcept (hP.arithmetic _ _ _ _)
  | mul => exact Yields.liftExcept (hP.arithmetic _ _ _ _)
  | div => exact Yields.liftExcept (hP.arithmetic _ _ _ _)
  | rem =>
    refine Yields.two rfl hargs fun x y _ _ => Yields.bind (yields_true _) fun _ _ => ?_
    exact Yields.bind (yields_true _) fun _ _ => Yields.bind (yields_true _) fun n _ => hnumber n
  | pow =>
    refine Yields.two rfl hargs fun x y _ _ => Yields.bind (yields_true _) fun _ _ => ?_
    exact Yields.bind (yields_true _) fun _ _ => Yields.bind (yields_true _) fun n _ => hnumber n
  | lt => exact Yields.liftExcept (hP.comparison _ _ _)
  | gt => exact Yields.liftExcept (hP.comparison _ _ _)
  | le => exact Yields.liftExcept (hP.comparison _ _ _)
  | ge => exact Yields.liftExcept (hP.comparison _ _ _)
  | numEq => exact Yields.liftExcept (hP.comparison _ _ _)
  | makeSet => exact Yields.lift fun _ => (hP.set_iff _ _).2 (Library.forall_mem_setOf hargs)
  | setAdd => exact Yields.two rfl hargs fun s x hs hx => hP.setAdd hs hx
  | setContains =>
    exact Yields.two rfl hargs fun _ _ _ _ => Yields.bind (yields_true _) fun _ _ => hbool _
  | makeArray => exact Yields.lift fun _ => (hP.array_iff _ _).2 hargs
  | arrayRef => exact Yields.two rfl hargs fun a i ha _ => hP.arrayRef ha
  | makeObject => exact Yields.one rfl hargs fun x hx => hP.makeObject hx
  | objectGet => exact Yields.two rfl hargs fun o k ho _ => hP.objectGet ho
  | makeRegexp =>
    exact Yields.one rfl hargs fun _ _ =>
      Yields.bind (yields_true _) fun source _ => hP.compilePattern source
  | regexpMatch =>
    refine Yields.two rfl hargs fun _ _ _ _ => Yields.bind (yields_true _) fun _ _ => ?_
    exact Yields.bind (yields_true _) fun _ _ => hbool _
  | isKind k => exact Yields.one rfl hargs fun _ _ => hbool _

end Hereditary

end Sexpr
