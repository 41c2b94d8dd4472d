import Sexpr.Proofs.Hashing
import Sexpr.Proofs.Hereditary

/-!
# Sexpr.Proofs.Making

The objects that can be made.

Objects are made of values that exist, one after another, and each takes the next identity
(`Value.Made`).  All of them are sound: they are stored, and their sets hold no two elements that
are the same (`Value.Made.sound`).  For sets this comes from the library, which promises it
for values on which equality is an equivalence that agrees with the hashes; sound values
are of this kind (`Value.Sound.lawfulOn`).
-/

namespace Sexpr

namespace Value

variable {library : Library} {objects : List Value}

/-! ## distinct elements -/

/-- On sound values a hash set works. -/
theorem Sound.lawfulOn {vs : List Value} (h : ∀ v ∈ vs, Sound objects v) : LawfulOn vs where
  refl x hx := (h x hx).beq_refl
  symm x hx y hy hxy := ((h y hy).beq_comm (h x hx)).trans hxy
  trans x hx y hy z hz := (h x hx).beq_trans (h y hy) (h z hz)
  hash x hx y hy hxy := hashKey_of_beq (h x hx).1 (h y hy).1 hxy

/-- Distinct values are so in any order. -/
theorem LawfulOn.distinct_perm {xs ys : List Value} (h : LawfulOn xs) (hperm : xs.Perm ys)
    (hdistinct : Distinct xs) : Distinct ys := by
  have hboth : xs.Pairwise fun x y => (x == y) = false ∧ (y == x) = false := by
    refine List.Pairwise.imp_of_mem (fun {x y} hx hy hxy => ⟨hxy, ?_⟩) hdistinct
    rw [← Bool.not_eq_true] at hxy ⊢
    exact fun hyx => hxy (h.symm y hy x hx hyx)
  exact ((hperm.pairwise_iff And.symm).1 hboth).imp And.left

/-- Elements that are distinct remain so when one is put among them. -/
theorem distinct_insert (library : Library) {xs : List Value} {v : Value}
    (h : LawfulOn (v :: xs)) (hdistinct : Distinct xs) : Distinct (library.insert xs v) := by
  refine (h.mono ?_).distinct_perm (library.insert_perm h hdistinct).symm ?_
  · exact fun x hx => List.mem_cons.2 ((List.mem_cons.1 hx).imp_right List.mem_of_mem_filter)
  · refine List.pairwise_cons.2 ⟨fun x hx => ?_, hdistinct.filter _⟩
    obtain ⟨hmem, hne⟩ := List.mem_filter.1 hx
    rw [← Bool.not_eq_true]
    intro hvx
    simp [h.symm v List.mem_cons_self x (List.mem_cons_of_mem v hmem) hvx] at hne

theorem distinct_setOf (library : Library) {vs : List Value} (h : LawfulOn vs) :
    Distinct (library.setOf vs) := by
  have hboth := List.foldlRecOn vs library.insert
    (motive := fun xs => (∀ x ∈ xs, x ∈ vs) ∧ Distinct xs)
    ⟨fun _ hx => (List.not_mem_nil hx).elim, .nil⟩ fun xs hxs v hv =>
      ⟨Library.forall_mem_insert hxs.1 hv,
        distinct_insert library (h.mono (List.forall_mem_cons.2 ⟨hv, hxs.1⟩)) hxs.2⟩
  exact hboth.2

/-- Distinct elements, as the comparison slot by slot sees them. -/
theorem pairwise_same_of_distinct {xs : List Value} (hxs : ∀ x ∈ xs, Sound objects x)
    (h : Distinct xs) : xs.Pairwise fun x y => same x y = false := by
  refine List.Pairwise.imp_of_mem (fun {x y} hx hy hxy => ?_) h
  rwa [← beq_eq_same (hxs x hx).1 (hxs y hy).1]

theorem distinct_of_pairwise_same {xs : List Value} (hxs : ∀ x ∈ xs, Sound objects x)
    (h : xs.Pairwise fun x y => same x y = false) : Distinct xs := by
  refine List.Pairwise.imp_of_mem (fun {x y} hx hy hxy => ?_) h
  rwa [beq_eq_same (hxs x hx).1 (hxs y hy).1]

/-! ## making objects -/

/-- An object that is made beside the given ones, of values that can exist beside them.  It takes
the next identity. -/
inductive New (library : Library) (objects : List Value) : Value → Prop
  | regexp (source : String) : New library objects ((newRegexp source).run objects.length).1
  | pair {a d : Value} :
    Sound objects a → Sound objects d → New library objects ((cons a d).run objects.length).1
  | set {vs : List Value} :
    (∀ v ∈ vs, Sound objects v) →
      New library objects ((newSet (library.setOf vs)).run objects.length).1
  | setAdd {id : Ident} {xs : List Value} {v : Value} :
    Sound objects (.set id xs) → Sound objects v →
      New library objects ((newSet (library.insert xs v)).run objects.length).1
  | array {xs : List Value} :
    (∀ x ∈ xs, Sound objects x) → New library objects ((newArray xs).run objects.length).1
  | object {es : List (String × Value)} :
    (∀ e ∈ es, Sound objects e.2) →
      New library objects ((newObject (objectOf es)).run objects.length).1
  | callable {v : Value} : v.isCallable = true → New library objects v
  | form (f : Form) : New library objects (.form f)

/-- The objects that are there after some have been made one after another. -/
inductive Made (library : Library) : List Value → Prop
  | nothing : Made library []
  | next {objects : List Value} {v : Value} :
    Made library objects → New library objects v → Made library (objects ++ [v])

/-- A new object can exist beside those that were there, together with itself. -/
theorem New.sound {v : Value} (h : New library objects v) : Sound (objects ++ [v]) v := by
  have hself : ∀ o : Value, (objects ++ [o])[objects.length]? = some o := by simp
  cases h with
  | regexp source => exact ⟨.regexp (hself _), .leaf rfl⟩
  | pair ha hd =>
    exact ⟨.pair (hself _) (ha.append _).1 (hd.append _).1, .pair ha.2 hd.2⟩
  | set hvs =>
    have hxs : ∀ x ∈ library.setOf _, Sound objects x := Library.forall_mem_setOf hvs
    have hdistinct := distinct_setOf library (Sound.lawfulOn hvs)
    exact ⟨.set (hself _) fun x hx => ((hxs x hx).append _).1,
      .set (pairwise_same_of_distinct hxs hdistinct) fun x hx => (hxs x hx).2⟩
  | setAdd hset hv =>
    obtain ⟨hstored, hproper⟩ := hset
    cases hproper with
    | leaf hk => cases hk
    | set hdistinct hxs =>
      have hold : ∀ x ∈ _, Sound objects x := fun x hx => ⟨hstored.elements x hx, hxs x hx⟩
      have hall : ∀ x ∈ library.insert _ _, Sound objects x := Library.forall_mem_insert hold hv
      have hlawful := Sound.lawfulOn (List.forall_mem_cons.2 ⟨hv, hold⟩)
      have hnew := distinct_insert library hlawful (distinct_of_pairwise_same hold hdistinct)
      exact ⟨.set (hself _) fun x hx => ((hall x hx).append _).1,
        .set (pairwise_same_of_distinct hall hnew) fun x hx => (hall x hx).2⟩
  | array hxs =>
    exact ⟨.array (hself _) fun x hx => ((hxs x hx).append _).1, .array fun x hx => (hxs x hx).2⟩
  | object hes =>
    have hobject := forall_mem_objectOf hes
    exact ⟨.object (hself _) fun e he => ((hobject e he).append _).1,
      .object fun e he => (hobject e he).2⟩
  | callable hcallable =>
    cases v <;> first | exact ⟨.simple rfl, .leaf rfl⟩ | cases hcallable
  | form f => exact ⟨.simple rfl, .leaf rfl⟩

theorem Made.sound (h : Made library objects) : ∀ v ∈ objects, Sound objects v := by
  induction h with
  | nothing => exact fun _ hv => (List.not_mem_nil hv).elim
  | next _ hnew ih =>
    intro v hv
    rcases List.mem_append.1 hv with hv | hv
    · exact (ih v hv).append _
    · exact List.mem_singleton.1 hv ▸ hnew.sound

end Value

end Sexpr
