import Mathlib
import Sexpr.Proofs.Lookup
import Sexpr.Proofs.Merging

/-!
# Sexpr.Proofs.Alists

What the readers of an association list find under a key.

A look-up in the list itself stops at the first entry under the key (`Value.assoc?_eq_find?`), so
the entries that `pairlis` puts in front of a list hide those behind them.

An object that is made from the list, and a scope into which the list is merged, take the entries
in one after another, and a later entry replaces an earlier one: there the last one under the
key counts (`Value.entry?_objectOf`).  The readers agree exactly where the first and the
last entry under the key have the same value.
-/

namespace Sexpr

namespace Value

variable {alist keys vals base key : Value} {name : String} {n : Ident}

/-! ## collections that take entries in -/

theorem entry?_insertEntry (key name : String) (v : Value) (entries : List (String × Value)) :
    Value.entry? name (insertEntry key v entries) =
      if key = name then some v else Value.entry? name entries := by
  unfold Value.entry?
  fun_induction insertEntry key v entries with
  | case1 => by_cases h : key = name <;> simp [h]
  | case2 k x rest hlt => by_cases h : key = name <;> simp [h]
  | case3 x rest hnot => by_cases h : key = name <;> simp [h]
  | case4 k x rest hnot hne ih =>
    by_cases hk : k = name
    · have hkey : key ≠ name := fun h => hne (h.trans hk.symm)
      simp [hk, hkey]
    · simpa [hk] using ih

/-- In an object the last entry under a key counts. -/
theorem entry?_objectOf (name : String) (entries : List (String × Value)) :
    Value.entry? name (objectOf entries) = Registry.lastUnder name entries := by
  have hfold : ∀ es, Value.entry? name (entries.foldl (fun es e => insertEntry e.1 e.2 es) es) =
      (Registry.lastUnder name entries).or (Value.entry? name es) := by
    induction entries with
    | nil => exact fun _ => rfl
    | cons e entries ih =>
      intro es
      rw [List.foldl_cons, ih, entry?_insertEntry, Registry.lastUnder_cons]
      by_cases h : e.1 = name <;> simp [h]
  exact (hfold []).trans (Option.or_none ..)

/-! ## strings as keys -/

/-- A proper list of pairs with strings as keys. -/
structure IsStringAlist (alist : Value) : Prop where
  proper : alist.isProperList = true
  entry {x : Value} : x ∈ alist.elements → ∃ id k v, x = .pair id (.string k) v

theorem exports_of_isProperList (h : alist.isProperList = true) :
    alist.exports = alist.elements.filterMap export? := by
  cases alist <;> first | rfl | cases h

namespace IsStringAlist

/-- The elements, with their identities, keys and values at hand. -/
theorem elements_eq (h : IsStringAlist alist) :
    ∃ parts : List (Ident × String × Value),
      alist.elements = parts.map fun (id, k, v) => .pair id (.string k) v := by
  have hrange : alist.elements ∈ Set.range (List.map fun (p : Ident × String × Value) =>
      Value.pair p.1 (.string p.2.1) p.2.2) := by
    rw [Set.range_list_map]
    intro x hx
    obtain ⟨id, k, v, rfl⟩ := h.entry hx
    exact ⟨(id, k, v), rfl⟩
  exact hrange.imp fun _ => Eq.symm

theorem rows_eq (h : IsStringAlist alist) :
    alist.rows = alist.exports.map fun (k, v) => (.string k, v) := by
  obtain ⟨parts, helements⟩ := h.elements_eq
  rw [exports_of_isProperList h.proper, rows, helements, List.filterMap_map, List.filterMap_map,
    List.map_filterMap]
  rfl

theorem isModule (h : IsStringAlist alist) : alist.IsModule :=
  .inr ⟨h.proper, fun _ hx =>
    let ⟨id, k, v, hpair⟩ := h.entry hx
    ⟨id, k, v, .inr hpair⟩⟩

/-- The first entry under a key is found. -/
theorem assoc?_eq (h : IsStringAlist alist) (name : String) :
    assoc? (.string name) alist = Value.entry? name alist.exports := by
  have hkey : ∀ k, eq (.string k) (.string name) = decide (k = name) := fun k => rfl
  rw [assoc?_eq_find?, h.rows_eq, List.find?_map, Option.map_map]
  simp only [Function.comp_def, hkey]
  rfl

theorem toEntries_eq (h : IsStringAlist alist) : alist.toEntries = .ok alist.rows := by
  obtain ⟨parts, helements⟩ := h.elements_eq
  have hlist : alist.toList = .ok alist.elements := by
    rw [toList_eq, ← isProperList_eq, if_pos h.proper]
  have hrows : alist.rows = parts.map fun (_, k, v) => (.string k, v) := by
    rw [rows, helements, List.filterMap_map]
    exact congrFun List.filterMap_eq_map parts
  rw [toEntries, hlist, hrows, helements]
  show (parts.map _).mapM Value.entry = _
  rw [List.mapM_map]
  exact List.mapM_pure ..

theorem run_makeObject (library : Library) (h : IsStringAlist alist) (n : Ident) :
    (Primitive.call library .makeObject [alist]).run n =
      (.ok (.object n (objectOf alist.exports)), n + 1) := by
  have hkeys : (alist.rows.mapM fun e => do return (← e.1.objectKey, e.2)) =
      (pure alist.exports : Attempt (List (String × Value))) := by
    rw [h.rows_eq, List.mapM_map]
    exact (List.mapM_pure ..).trans (congrArg _ (List.map_id _))
  have hcall : Primitive.call library .makeObject [alist] = (do
      let entries ← (← alist.toEntries).mapM fun e => do return (← e.1.objectKey, e.2)
      newObject (objectOf entries)) := rfl
  have hentries : (alist.toEntries : Attempt _).run n = (.ok alist.rows, n) := by
    rw [h.toEntries_eq]
    rfl
  rw [hcall, run_bind, hentries]
  simp only
  rw [hkeys]
  rfl

theorem run_mergeModule (h : IsStringAlist alist) (env : Env) (w : World) :
    (World.mergeModule env alist).run w =
      (.ok (), w.modifyFrame env.frame (·.install { values := alist.exports })) := by
  rcases World.moduleBindings_cases alist with ⟨hread, -⟩ | ⟨f, -, -, hnot⟩
  · rw [World.mergeModule, hread]
    rfl
  · exact (hnot h.isModule).elim

/-- New entries with strings as keys make a longer list of the same kind. -/
theorem pairlis {names : List String} (h : IsStringAlist base)
    (hkeys : keys.elements = names.map .string) (hlength : keys.length = vals.length) (n : Ident) :
    ∃ alist next, (Value.pairlis keys vals base).run n = (.ok alist, next) ∧
      IsStringAlist alist ∧ alist.exports = names.zip vals.elements ++ base.exports := by
  obtain ⟨pairs, alist, next, hrun, hfront, hpairs⟩ := run_pairlis hlength base n
  have halist : IsStringAlist alist := by
    refine ⟨(isProperList_of_inFront hfront).trans h.proper, fun {x} hx => ?_⟩
    rw [elements_of_inFront hfront, List.mem_append] at hx
    cases hx with
    | inl hnew =>
      obtain ⟨e, he, hslots⟩ : ∃ e ∈ keys.elements.zip vals.elements, some e = x.slots? := by
        rw [← List.mem_map, ← hpairs]
        exact List.mem_map_of_mem hnew
      obtain ⟨k, -, hk⟩ := List.mem_map.1 (hkeys ▸ (List.of_mem_zip he).1)
      cases x <;> cases hslots
      exact ⟨_, k, _, by rw [hk]⟩
    | inr hold => exact h.entry hold
  refine ⟨alist, next, hrun, halist, ?_⟩
  have hinjective : Function.Injective fun (e : String × Value) => (Value.string e.1, e.2) := by
    rintro ⟨k, v⟩ ⟨k', v'⟩ heq
    simpa using heq
  apply List.map_injective_iff.2 hinjective
  have hnames : keys.elements.zip vals.elements =
      (names.zip vals.elements).map fun e => (Value.string e.1, e.2) := by
    rw [hkeys, List.zip_map_left]
    rfl
  rw [List.map_append, ← hnames, ← h.rows_eq, ← rows_of_inFront hfront hpairs]
  exact halist.rows_eq.symm

end IsStringAlist

/-! ## first and last entries -/

theorem entry?_cons (name : String) (e : String × Value) (entries : List (String × Value)) :
    Value.entry? name (e :: entries) =
      if e.1 = name then some e.2 else Value.entry? name entries := by
  unfold Value.entry?
  by_cases h : e.1 = name <;> simp [h]

theorem entry?_append (name : String) (entries more : List (String × Value)) :
    Value.entry? name (entries ++ more) =
      (Value.entry? name entries).or (Value.entry? name more) := by
  rw [Value.entry?, List.find?_append, Option.map_or]
  rfl

theorem lastUnder_append (name : String) (entries more : List (String × Value)) :
    Registry.lastUnder name (entries ++ more) =
      (Registry.lastUnder name more).or (Registry.lastUnder name entries) := by
  rw [Registry.lastUnder, List.reverse_append, List.find?_append, Option.map_or]
  rfl

theorem lastUnder_eq_none_iff (name : String) (entries : List (String × Value)) :
    Registry.lastUnder name entries = none ↔ Value.entry? name entries = none := by
  simp [Registry.lastUnder, Value.entry?]

/-- A key that does not occur twice has one entry, the first and the last. -/
theorem entry?_eq_lastUnder_of_nodup {entries : List (String × Value)}
    (h : (entries.map Prod.fst).Nodup) (name : String) :
    Value.entry? name entries = Registry.lastUnder name entries := by
  induction entries with
  | nil => rfl
  | cons e entries ih =>
    obtain ⟨hnew, hrest⟩ := List.nodup_cons.1 h
    rw [entry?_cons, Registry.lastUnder_cons]
    split
    · next hname =>
      have hlast : Registry.lastUnder name entries = none := by
        rw [Option.eq_none_iff_forall_ne_some]
        intro v hv
        exact hnew (hname ▸ List.mem_map_of_mem (Registry.mem_of_lastUnder hv))
      rw [hlast, Option.none_or]
    · rw [ih hrest, Option.or_none]

/-! ## the readers -/

/-- Makes an object of an association list and looks a key up in it. -/
def readObject (library : Library) (alist : Value) (name : String) : Attempt Value := do
  Primitive.call library .objectGet [← Primitive.call library .makeObject [alist], .string name]

/-- What is found under a key: the first of two values by a look-up in the list, the second in an
object that is made from it and in a scope into which it is merged. -/
structure ReadAs (library : Library) (alist : Value) (name : String) (env : Env) (w : World)
    (first last : Option Value) : Prop where
  assoc? : assoc? (.string name) alist = first
  assoc (n : Ident) :
    ((Primitive.call library .assoc [.string name, alist]).run n).1 = .ok (first.getD .undefined)
  object (n : Ident) : ((readObject library alist name).run n).1 = .ok (last.getD .undefined)
  merged : ((World.mergeModule env alist).run w).1 = .ok ()
  scope : ((World.mergeModule env alist).run w).2.findValue env name = last

theorem IsStringAlist.readAs (library : Library) (h : IsStringAlist alist) (name : String)
    {env : Env} {w : World} (henv : env.frame < w.frames.size)
    (hempty : ∀ k, w.findValue env k = none) :
    ReadAs library alist name env w (Value.entry? name alist.exports)
      (Registry.lastUnder name alist.exports) where
  assoc? := h.assoc?_eq name
  assoc n := by
    rw [← h.assoc?_eq name]
    rfl
  object n := by
    rw [readObject, run_bind, h.run_makeObject library, ← entry?_objectOf]
    rfl
  merged := by rw [h.run_mergeModule]
  scope := by
    have hfound := (installed_install henv { values := alist.exports }).findValue_eq name
    rw [h.run_mergeModule, hfound, hempty, Option.or_none]

namespace ReadAs

variable {library : Library} {env : Env} {w : World} {first last : Option Value}

/-- The object and the list agree where the two values are the same. -/
theorem object_eq_assoc_iff (h : ReadAs library alist name env w first last)
    (hnone : last = none ↔ first = none) (n : Ident) :
    ((readObject library alist name).run n).1 =
        ((Primitive.call library .assoc [.string name, alist]).run n).1 ↔
      first = last := by
  rw [h.object, h.assoc, Except.ok.injEq]
  cases first with
  | none => simp [hnone.2 rfl]
  | some v =>
    cases last with
    | none => cases hnone.1 rfl
    | some v' => simp [eq_comm]

/-- The scope and the list agree where the two values are the same. -/
theorem scope_eq_assoc_iff (h : ReadAs library alist name env w first last) :
    (∀ v, ((World.mergeModule env alist).run w).2.findValue env name = some v ↔
      Value.assoc? (.string name) alist = some v) ↔ first = last := by
  rw [h.scope, h.assoc?, eq_comm, Option.ext_iff]

end ReadAs

/-- **The first entry counts in an association list, and the last one in what is made from it**: a
look-up in a list with strings as keys finds the first entry under a key, and an object made
from the list and an empty scope into which it is merged have the last one.  They agree exactly when
both entries have the same value, as they do when no key occurs twice.  Entries that `pairlis` puts
in front of the list hide its entries from the look-up, and are hidden by them in the object and
the scope. -/
theorem alist_first_and_last (library : Library) (h : IsStringAlist alist) (name : String)
    {env : Env} {w : World} (henv : env.frame < w.frames.size)
    (hempty : ∀ k, w.findValue env k = none) (n : Ident) :
    ReadAs library alist name env w (Value.entry? name alist.exports)
      (Registry.lastUnder name alist.exports) ∧
    (((readObject library alist name).run n).1 =
        ((Primitive.call library .assoc [.string name, alist]).run n).1 ↔
      Value.entry? name alist.exports = Registry.lastUnder name alist.exports) ∧
    ((∀ v, ((World.mergeModule env alist).run w).2.findValue env name = some v ↔
      assoc? (.string name) alist = some v) ↔
      Value.entry? name alist.exports = Registry.lastUnder name alist.exports) ∧
    ((alist.exports.map Prod.fst).Nodup →
      Value.entry? name alist.exports = Registry.lastUnder name alist.exports) ∧
    ∀ (keys vals : Value) (names : List String), keys.elements = names.map .string →
      keys.length = vals.length → ∃ longer next,
        (pairlis keys vals alist).run n = (.ok longer, next) ∧
        ReadAs library longer name env w
          ((Value.entry? name (names.zip vals.elements)).or (Value.entry? name alist.exports))
          ((Registry.lastUnder name alist.exports).or
            (Registry.lastUnder name (names.zip vals.elements))) := by
  have hreaders := h.readAs library name henv hempty
  refine ⟨hreaders, hreaders.object_eq_assoc_iff (lastUnder_eq_none_iff _ _) n,
    hreaders.scope_eq_assoc_iff, fun hnodup => entry?_eq_lastUnder_of_nodup hnodup name, ?_⟩
  intro keys vals names hkeys hlength
  obtain ⟨longer, next, hrun, hlonger, hexports⟩ := h.pairlis hkeys hlength n
  have hreads := hlonger.readAs library name henv hempty
  rw [hexports, entry?_append, lastUnder_append] at hreads
  exact ⟨longer, next, hrun, hreads⟩

/-- A new entry in front of `(("a" . true) ("b" . false))` hides `"b"` from the look-up only. -/
theorem alist_first_and_last_longer :
    let root := World.newRoot {} {}
    let alist := Value.pair 0 (.pair 1 (.string "a") (.bool true))
      (.pair 2 (.pair 3 (.string "b") (.bool false)) .nil)
    IsStringAlist alist ∧ root.1.frame < root.2.frames.size ∧
    (∀ k, root.2.findValue root.1 k = none) ∧
    ReadAs .own alist "b" root.1 root.2 (some (.bool false)) (some (.bool false)) ∧
    ∃ longer next,
      (pairlis (.pair 4 (.string "b") .nil) (.pair 5 (.bool true) .nil) alist).run 6 =
        (.ok longer, next) ∧
      ReadAs .own longer "b" root.1 root.2 (some (.bool true)) (some (.bool false)) := by
  intro root alist
  have halist : IsStringAlist alist := ⟨rfl, by simp [alist, elements]⟩
  have henv : root.1.frame < root.2.frames.size := Nat.zero_lt_one
  have hempty : ∀ k, root.2.findValue root.1 k = none := fun _ => rfl
  obtain ⟨hreads, -, -, -, hlonger⟩ := alist_first_and_last .own halist "b" henv hempty 6
  exact ⟨halist, henv, hempty, hreads, hlonger _ _ ["b"] rfl rfl⟩

/-- In `(("a" . true) ("a" . false))` the readers find different values. -/
theorem alist_readers_differ :
    let root := World.newRoot {} {}
    let alist := Value.pair 0 (.pair 1 (.string "a") (.bool true))
      (.pair 2 (.pair 3 (.string "a") (.bool false)) .nil)
    ((Primitive.call .own .assoc [.string "a", alist]).run 4).1 = .ok (.bool true) ∧
    ((readObject .own alist "a").run 4).1 = .ok (.bool false) ∧
    ((World.mergeModule root.1 alist).run root.2).2.findValue root.1 "a" = some (.bool false) :=
  ⟨rfl, rfl, rfl⟩

end Value

end Sexpr
