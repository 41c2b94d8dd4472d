import Sexpr.Proofs.Calls
import Sexpr.Proofs.Making

/-!
# Sexpr.Proofs.Sets

Sets are sets up to structural equality.

A value is an element of a set when an equal one was put into it, so what a set holds are the
classes of equal values (`Value.classOf`).  Putting a value into a set adds its class
if it is new and changes no class otherwise (`Value.mem_map_classOf_insert`), whichever
representative is kept.  From this step follows, for all values that are put in one after another,
which classes a set has and how many elements it takes to hold them.  Nothing else about the
sets of the library is used than what it promises.

A set is looked into by hashes.  Equal values are hashed alike, so no element is missed.
-/

namespace Sexpr

namespace Value

variable {library : Library} {objects : List Value}

/-! ## classes of equal values -/

/-- The values that are equal to a value, among those that can exist beside some objects. -/
def classOf (objects : List Value) (v : Value) : Set Value :=
  { x | Sound objects x ∧ (x == v) = true }

theorem classOf_eq_iff {a b : Value} (ha : Sound objects a) (hb : Sound objects b) :
    classOf objects a = classOf objects b ↔ (a == b) = true := by
  constructor
  · intro h
    have hmem : a ∈ classOf objects a := ⟨ha, ha.beq_refl⟩
    rw [h] at hmem
    exact hmem.2
  · intro hab
    have hba : (b == a) = true := (hb.beq_comm ha).trans hab
    ext x
    exact ⟨fun hx => ⟨hx.1, hx.1.beq_trans ha hb hx.2 hab⟩,
      fun hx => ⟨hx.1, hx.1.beq_trans hb ha hx.2 hba⟩⟩

/-- A list has an element that is equal to a value exactly when it has its class. -/
theorem hasElement_iff_mem {xs : List Value} {y : Value} (hxs : ∀ x ∈ xs, Sound objects x)
    (hy : Sound objects y) :
    hasElement xs y = true ↔ classOf objects y ∈ xs.map (classOf objects) := by
  simp only [hasElement, List.any_eq_true, List.mem_map]
  exact exists_congr fun x => and_congr_right fun hx => (classOf_eq_iff (hxs x hx) hy).symm

/-- Putting a value into a set adds its class. -/
theorem mem_map_classOf_insert {xs : List Value} {v : Value} {q : Set Value}
    (hxs : ∀ x ∈ xs, Sound objects x) (hv : Sound objects v) (hdistinct : Distinct xs) :
    q ∈ (library.insert xs v).map (classOf objects) ↔
      q ∈ xs.map (classOf objects) ∨ q = classOf objects v := by
  have hlawful := Sound.lawfulOn (List.forall_mem_cons.2 ⟨hv, hxs⟩)
  have hperm := (library.insert_perm hlawful hdistinct).map (classOf objects)
  rw [hperm.mem_iff, List.map_cons, List.mem_cons, or_comm]
  refine or_congr_left' fun hq => ?_
  simp only [List.mem_map, List.mem_filter]
  constructor
  · rintro ⟨x, ⟨hx, -⟩, rfl⟩
    exact ⟨x, hx, rfl⟩
  · rintro ⟨x, hx, rfl⟩
    -- an element that gives way has the class of the one that takes its place
    rw [classOf_eq_iff (hxs x hx) hv, Bool.not_eq_true] at hq
    exact ⟨x, ⟨hx, by rw [hq]; rfl⟩, rfl⟩

theorem setOf_append_singleton (library : Library) (vs : List Value) (v : Value) :
    library.setOf (vs ++ [v]) = library.insert (library.setOf vs) v := by
  simp [Library.setOf]

/-- A set has the classes of the values that were put into it. -/
theorem mem_map_classOf_setOf {vs : List Value} {q : Set Value} (hvs : ∀ v ∈ vs, Sound objects v) :
    q ∈ (library.setOf vs).map (classOf objects) ↔ q ∈ vs.map (classOf objects) := by
  induction vs using List.reverseRecOn with
  | nil => rfl
  | append_singleton vs v ih =>
    obtain ⟨hold, hnew⟩ := List.forall_mem_append.1 hvs
    have hv : Sound objects v := hnew v (List.mem_singleton.2 rfl)
    rw [setOf_append_singleton, mem_map_classOf_insert (Library.forall_mem_setOf hold) hv
      (distinct_setOf library (Sound.lawfulOn hold)), ih hold]
    simp

theorem hasElement_setOf {vs : List Value} {y : Value} (hvs : ∀ v ∈ vs, Sound objects v)
    (hy : Sound objects y) : hasElement (library.setOf vs) y = vs.any (· == y) := by
  have hxs : ∀ x ∈ library.setOf vs, Sound objects x := Library.forall_mem_setOf hvs
  have hset := hasElement_iff_mem hxs hy
  rw [mem_map_classOf_setOf hvs, ← hasElement_iff_mem hvs hy] at hset
  exact Bool.eq_iff_iff.2 hset

/-- A value is in a set exactly when an equal one was put into it. -/
theorem contains_setOf {vs : List Value} {y : Value} (hvs : ∀ v ∈ vs, Sound objects v)
    (hy : Sound objects y) : library.contains (library.setOf vs) y = vs.any (· == y) := by
  have hxs : ∀ x ∈ library.setOf vs, Sound objects x := Library.forall_mem_setOf hvs
  have hlawful := Sound.lawfulOn (List.forall_mem_cons.2 ⟨hy, hxs⟩)
  have hcontains := library.contains_iff hlawful (distinct_setOf library (Sound.lawfulOn hvs))
  rw [← hasElement_setOf hvs hy, Bool.eq_iff_iff, hcontains]
  exact List.any_eq_true.symm

/-! ## the size of a set -/

/-- The number of classes of some values. -/
noncomputable def classCount (objects : List Value) (vs : List Value) : Nat :=
  (classOf objects '' { v | v ∈ vs }).ncard

theorem nodup_map_classOf_setOf (library : Library) {vs : List Value}
    (hvs : ∀ v ∈ vs, Sound objects v) : ((library.setOf vs).map (classOf objects)).Nodup := by
  have hdistinct := distinct_setOf library (Sound.lawfulOn hvs)
  refine List.pairwise_map.2 (List.Pairwise.imp_of_mem (fun {x y} hx hy hxy heq => ?_) hdistinct)
  have hsound : ∀ x ∈ library.setOf vs, Sound objects x := Library.forall_mem_setOf hvs
  rw [(classOf_eq_iff (hsound x hx) (hsound y hy)).1 heq] at hxy
  cases hxy

theorem length_setOf {vs : List Value} (hvs : ∀ v ∈ vs, Sound objects v) :
    (library.setOf vs).length = classCount objects vs := by
  classical
  have hclasses : classOf objects '' { v | v ∈ vs } =
      (((library.setOf vs).map (classOf objects)).toFinset : Set (Set Value)) := by
    ext q
    simp [mem_map_classOf_setOf hvs]
  rw [classCount, hclasses, Set.ncard_coe_finset,
    List.toFinset_card_of_nodup (nodup_map_classOf_setOf library hvs), List.length_map]

/-! ## equal sets -/

theorem beq_set_iff {i j : Ident} {xs ys : List Value} :
    (Value.set i xs == .set j ys) = true ↔
      xs.length = ys.length ∧ ∀ x ∈ xs, ∃ y ∈ ys, (x == y) = true := by
  show sameAll [(.set i xs, .set j ys)] = true ↔ _
  rw [sameAll]
  simp [sameAll, BEq.beq]

/-- All elements of one list have equal ones in another exactly when all classes of the first are
classes of the second. -/
theorem forall_exists_beq_iff {xs ys : List Value} (hxs : ∀ x ∈ xs, Sound objects x)
    (hys : ∀ y ∈ ys, Sound objects y) :
    (∀ x ∈ xs, ∃ y ∈ ys, (x == y) = true) ↔
      xs.map (classOf objects) ⊆ ys.map (classOf objects) := by
  simp only [List.subset_def, List.mem_map, forall_exists_index, and_imp, forall_apply_eq_imp_iff₂]
  refine forall₂_congr fun x hx => exists_congr fun y => and_congr_right fun hy => ?_
  rw [← classOf_eq_iff (hxs x hx) (hys y hy), eq_comm]

/-- Sets are equal exactly when the values that were put into them have the same classes. -/
theorem beq_setOf_iff {i j : Ident} {xs ys : List Value} (hxs : ∀ x ∈ xs, Sound objects x)
    (hys : ∀ y ∈ ys, Sound objects y) :
    (Value.set i (library.setOf xs) == .set j (library.setOf ys)) = true ↔
      (∀ x ∈ xs, ∃ y ∈ ys, (x == y) = true) ∧ ∀ y ∈ ys, ∃ x ∈ xs, (y == x) = true := by
  have hsubset : ∀ {us vs : List Value}, (∀ u ∈ us, Sound objects u) →
      (∀ v ∈ vs, Sound objects v) →
      ((library.setOf us).map (classOf objects) ⊆ (library.setOf vs).map (classOf objects) ↔
        us.map (classOf objects) ⊆ vs.map (classOf objects)) := by
    intro us vs hus hvs
    simp only [List.subset_def, mem_map_classOf_setOf hus, mem_map_classOf_setOf hvs]
  have hx := nodup_map_classOf_setOf library hxs
  have hy := nodup_map_classOf_setOf library hys
  rw [beq_set_iff,
    forall_exists_beq_iff (Library.forall_mem_setOf hxs) (Library.forall_mem_setOf hys),
    forall_exists_beq_iff hxs hys, forall_exists_beq_iff hys hxs, ← hsubset hxs hys,
    ← hsubset hys hxs, ← List.length_map (classOf objects), ← List.length_map (classOf objects)]
  constructor
  · rintro ⟨hlength, hxy⟩
    -- as many classes as in the second list leave none of these out
    exact ⟨hxy, ((hx.subperm hxy).perm_of_length_le hlength.ge).symm.subset⟩
  · rintro ⟨hxy, hyx⟩
    exact ⟨le_antisymm (hx.subperm hxy).length_le (hy.subperm hyx).length_le, hxy⟩

end Value

/-! ## the functions on sets -/

/-- The world after one more object has been made. -/
def World.withNew (w : World) : World :=
  { w with journal := { w.journal with next := w.journal.next + 1 } }

namespace Value

variable {host : Host}

theorem run_makeSet (host : Host) (env : Env) (w : World) (id : Ident) (vs : List Value) :
    (World.apply host env (Primitive.makeSet.toNative id) vs).run w =
      (.ok (.set w.journal.next (host.library.setOf vs)), w.withNew) := by
  rw [World.run_apply, run_apply_toNative, if_pos (by simp [Primitive.arity, Arity.allows])]
  rfl

theorem run_setAdd (host : Host) (env : Env) (w : World) (id i : Ident) (xs : List Value)
    (x : Value) :
    (World.apply host env (Primitive.setAdd.toNative id) [.set i xs, x]).run w =
      (.ok (.set w.journal.next (host.library.insert xs x)), w.withNew) := by
  rw [World.run_apply, run_apply_toNative, if_pos (by simp [Primitive.arity, Arity.allows])]
  rfl

theorem run_setContains (host : Host) (env : Env) (w : World) (id i : Ident) (xs : List Value)
    (y : Value) :
    (World.apply host env (Primitive.setContains.toNative id) [.set i xs, y]).run w =
      (.ok (.bool (host.library.contains xs y)), w) := by
  rw [World.run_apply, run_apply_toNative, if_pos (by simp [Primitive.arity, Arity.allows])]
  rfl

/-- A set that was made of some values, and to which others were added one after another, by calls
in any worlds.  The values are listed in the order in which they were put in. -/
inductive Built (host : Host) : List Value → Value → Prop
  | make {env : Env} {w w' : World} {id : Ident} {vs : List Value} {s : Value} :
    (World.apply host env (Primitive.makeSet.toNative id) vs).run w = (.ok s, w') →
      Built host vs s
  | add {env : Env} {w w' : World} {id : Ident} {vs : List Value} {s s' x : Value} :
    Built host vs s →
      (World.apply host env (Primitive.setAdd.toNative id) [s, x]).run w = (.ok s', w') →
      Built host (vs ++ [x]) s'

theorem Built.eq_setOf {vs : List Value} {s : Value} (h : Built host vs s) :
    ∃ id, s = .set id (host.library.setOf vs) := by
  induction h with
  | make hrun =>
    rw [run_makeSet] at hrun
    cases hrun
    exact ⟨_, rfl⟩
  | add _ hrun ih =>
    obtain ⟨id, rfl⟩ := ih
    rw [run_setAdd] at hrun
    cases hrun
    exact ⟨_, by rw [setOf_append_singleton]⟩

namespace Built

variable {vs us : List Value} {s t : Value}

theorem run_setContains (h : Built host vs s) (hvs : ∀ v ∈ vs, Sound objects v) (env : Env)
    (w : World) (id : Ident) {y : Value} (hy : Sound objects y) :
    (World.apply host env (Primitive.setContains.toNative id) [s, y]).run w =
      (.ok (.bool (vs.any (· == y))), w) := by
  obtain ⟨i, rfl⟩ := h.eq_setOf
  rw [Value.run_setContains, contains_setOf hvs hy]

theorem run_setAdd (h : Built host vs s) (env : Env) (w : World) (id : Ident) (x : Value) :
    ∃ s', (World.apply host env (Primitive.setAdd.toNative id) [s, x]).run w = (.ok s', w.withNew) ∧
      s'.objectIdent? = some w.journal.next ∧ Built host (vs ++ [x]) s' := by
  obtain ⟨i, rfl⟩ := h.eq_setOf
  have hrun := Value.run_setAdd host env w id i (host.library.setOf vs) x
  exact ⟨_, hrun, rfl, h.add hrun⟩

theorem beq_iff (h : Built host vs s) (hvs : ∀ v ∈ vs, Sound objects v) (ht : Built host us t)
    (hus : ∀ u ∈ us, Sound objects u) :
    (s == t) = true ↔
      (∀ v ∈ vs, ∃ u ∈ us, (v == u) = true) ∧ ∀ u ∈ us, ∃ v ∈ vs, (u == v) = true := by
  obtain ⟨i, rfl⟩ := h.eq_setOf
  obtain ⟨j, rfl⟩ := ht.eq_setOf
  exact beq_setOf_iff hvs hus

end Built

/-- A set behaves as the set of the classes of some values. -/
structure HoldsClasses (host : Host) (objects vs : List Value) (s : Value) : Prop where
  /-- Its elements are pairwise different, and there is one for every class.  Which of them
  are equal to a value can be found among those that are hashed alike. -/
  elements : ∃ id xs, s = .set id xs ∧ xs.Pairwise (fun x y => (x == y) = false) ∧
    xs.length = classCount objects vs ∧
    ∀ y, Sound objects y → hasElement (xs.filter (hashKey · = hashKey y)) y = vs.any (· == y)
  /-- It contains what is equal to one of the values. -/
  contains (env : Env) (w : World) (id : Ident) {y : Value} : Sound objects y →
    (World.apply host env (Primitive.setContains.toNative id) [s, y]).run w =
      (.ok (.bool (vs.any (· == y))), w)
  /-- Adding a value makes a new set, which contains what the old one contains and what is equal to
  the value.  The old set answers as before. -/
  add (env : Env) (w : World) (id : Ident) {x : Value} : Sound objects x →
    ∃ s', (World.apply host env (Primitive.setAdd.toNative id) [s, x]).run w = (.ok s', w.withNew) ∧
      s'.objectIdent? = some w.journal.next ∧ Built host (vs ++ [x]) s' ∧
      ∀ {y : Value} {b : Bool}, Sound objects y →
        (World.apply host env (Primitive.setContains.toNative id) [s, y]).run w =
          (.ok (.bool b), w) →
        (World.apply host env (Primitive.setContains.toNative id) [s', y]).run w.withNew =
            (.ok (.bool (y == x || b)), w.withNew) ∧
          (World.apply host env (Primitive.setContains.toNative id) [s, y]).run w.withNew =
            (.ok (.bool b), w.withNew)
  /-- It is equal to the sets of values that have the same classes, so to those of the same values
  in another order and with repetitions. -/
  beq {us : List Value} {t : Value} : Built host us t → (∀ u ∈ us, Sound objects u) →
    ((s == t) = true ↔
      (∀ v ∈ vs, ∃ u ∈ us, (v == u) = true) ∧ ∀ u ∈ us, ∃ v ∈ vs, (u == v) = true) ∧
    ((∀ v, v ∈ vs ↔ v ∈ us) → (s == t) = true)

/-- **Sets are sets up to equality.**  Making a set always succeeds, and whatever values were put
into a set by making it and adding to it, its elements are pairwise different and as many as
there are classes of equal values among them; it contains exactly what is equal to one of
them; adding a value makes a new set with that value and leaves the old one as it is; and sets of
the same values, in any order and with any repetitions, are equal. -/
theorem sets_up_to_beq (host : Host) (objects : List Value) :
    (∀ (env : Env) (w : World) (id : Ident) (xs : List Value), ∃ s,
      (World.apply host env (Primitive.makeSet.toNative id) xs).run w = (.ok s, w.withNew) ∧
        s.objectIdent? = some w.journal.next ∧ Built host xs s) ∧
    ∀ (vs : List Value) (s : Value), Built host vs s → (∀ v ∈ vs, Sound objects v) →
      HoldsClasses host objects vs s := by
  constructor
  · intro env w id xs
    have hrun := run_makeSet host env w id xs
    exact ⟨_, hrun, rfl, .make hrun⟩
  · intro vs s hbuilt hvs
    refine ⟨?_, hbuilt.run_setContains hvs, fun env w id x hx => ?_, fun {us t} ht hus => ?_⟩
    · obtain ⟨i, rfl⟩ := hbuilt.eq_setOf
      have hstored : ∀ x ∈ host.library.setOf vs, Stored objects x :=
        Library.forall_mem_setOf fun v hv => (hvs v hv).1
      refine ⟨i, _, rfl, distinct_setOf host.library (Sound.lawfulOn hvs), length_setOf hvs,
        fun y hy => ?_⟩
      rw [hasElement_filter_hashKey hstored hy.1, hasElement_setOf hvs hy]
    · obtain ⟨s', hrun, hnew, hbuilt'⟩ := hbuilt.run_setAdd env w id x
      refine ⟨s', hrun, hnew, hbuilt', fun {y b} hy hb => ?_⟩
      have hall : ∀ v ∈ vs ++ [x], Sound objects v :=
        List.forall_mem_append.2 ⟨hvs, List.forall_mem_singleton.2 hx⟩
      have hanswer : b = vs.any (· == y) := by
        rw [hbuilt.run_setContains hvs env w id hy] at hb
        cases hb
        rfl
      have hadded : (vs ++ [x]).any (· == y) = (y == x || b) := by
        rw [List.any_append, hanswer, hy.beq_comm hx]
        simp [Bool.or_comm]
      rw [hbuilt.run_setContains hvs env w.withNew id hy,
        hbuilt'.run_setContains hall env w.withNew id hy, hadded, hanswer]
      exact ⟨rfl, rfl⟩
    · have hiff := hbuilt.beq_iff hvs ht hus
      refine ⟨hiff, fun hmem => hiff.2 ⟨fun v hv => ?_, fun u hu => ?_⟩⟩
      · exact ⟨v, (hmem v).1 hv, (hvs v hv).beq_refl⟩
      · exact ⟨u, (hmem u).2 hu, (hus u hu).beq_refl⟩

/-- Sets of one in two representations, of two patterns of bits that are no numbers, and of an array
with a set, put in in two orders.  An equal array is found, also after something was added. -/
theorem sets_up_to_beq_representations :
    let one := Value.number (.int 1)
    let floatOne := Value.number (.float (Float.ofBits 0x3ff0000000000000))
    let nan := Value.number (.float (Float.ofBits 0x7ff8000000000000))
    let nan' := Value.number (.float (Float.ofBits 0xfff8000000000001))
    let inner := Value.array 1 [.set 0 [one]]
    let inner' := Value.array 3 [.set 2 [floatOne]]
    let objects := [.set 0 [one], inner, .set 2 [floatOne], inner']
    let vs := [one, nan, inner, floatOne, nan']
    let us := [nan', floatOne, one, inner, nan, inner]
    let w : World := { journal := { next := 4 } }
    let call := fun p args (w : World) =>
      (World.apply Host.none default (Primitive.toNative p 0) args).run w
    (∀ v ∈ vs, Sound objects v) ∧ (∀ u ∈ us, Sound objects u) ∧ Sound objects inner' ∧
    ∃ s t, call .makeSet vs w = (.ok s, w.withNew) ∧ Built Host.none vs s ∧
      call .makeSet us w = (.ok t, w.withNew) ∧ Built Host.none us t ∧ (s == t) = true ∧
      call .setContains [s, inner'] w = (.ok (.bool true), w) ∧
      ∃ s', call .setAdd [s, .nil] w = (.ok s', w.withNew) ∧
        call .setContains [s', inner'] w.withNew = (.ok (.bool true), w.withNew) := by
  intro one floatOne nan nan' inner inner' objects vs us w call
  have hnumber : ∀ n : Number, Sound objects (.number n) := fun _ => ⟨.simple rfl, .leaf rfl⟩
  have hset : ∀ n : Number, ∀ i : Ident, objects[i]? = some (.set i [.number n]) →
      ∀ x ∈ [Value.set i [.number n]], Sound objects x := by
    intro n i hi x hx
    rw [List.mem_singleton.1 hx]
    exact ⟨.set hi (List.forall_mem_singleton.2 (hnumber n).1),
      .set (List.pairwise_singleton _ _) (List.forall_mem_singleton.2 (hnumber n).2)⟩
  have hinner : Sound objects inner :=
    ⟨.array rfl fun x hx => (hset _ 0 rfl x hx).1, .array fun x hx => (hset _ 0 rfl x hx).2⟩
  have hinner' : Sound objects inner' :=
    ⟨.array rfl fun x hx => (hset _ 2 rfl x hx).1, .array fun x hx => (hset _ 2 rfl x hx).2⟩
  have hvs : ∀ v ∈ vs, Sound objects v := by simp [vs, one, floatOne, nan, nan', hnumber, hinner]
  have hus : ∀ u ∈ us, Sound objects u := by simp [us, one, floatOne, nan, nan', hnumber, hinner]
  have hequal : (inner == inner') = true := by
    rw [beq_eq_same hinner.1 hinner'.1]
    decide +kernel
  have hfound : vs.any (· == inner') = true :=
    List.any_eq_true.2 ⟨inner, by simp [vs], hequal⟩
  obtain ⟨hmake, hbuilt⟩ := sets_up_to_beq Host.none objects
  obtain ⟨s, hs, -, hsbuilt⟩ := hmake default w 0 vs
  obtain ⟨t, ht, -, htbuilt⟩ := hmake default w 0 us
  have hholds := hbuilt vs s hsbuilt hvs
  have hcontains := hholds.contains default w 0 hinner'
  rw [hfound] at hcontains
  obtain ⟨s', hs', -, -, hadd⟩ := hholds.add default w 0 (x := .nil) ⟨.simple rfl, .leaf rfl⟩
  have hafter := (hadd hinner' hcontains).1
  rw [Bool.or_true] at hafter
  have hmembers : ∀ v, v ∈ vs ↔ v ∈ us := by simp [vs, us]; tauto
  exact ⟨hvs, hus, hinner', s, t, hs, hsbuilt, ht, htbuilt, (hholds.beq htbuilt hus).2 hmembers,
    hcontains, s', hs', hafter⟩

end Value

end Sexpr
