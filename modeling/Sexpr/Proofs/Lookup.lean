import Mathlib
import Sexpr.Algebra.Alist
import Sexpr.Proofs.Joining
import Sexpr.Proofs.Run

/-!
# Sexpr.Proofs.Lookup

Looking up keys in association lists.

An association list is looked up entry by entry, and the first one under the key counts
(`Value.assoc?_eq_find?`).  So the entries that `pairlis` puts in front of a list hide those behind
them, whatever the list is:

```
(pairlis (k₁ … kₙ) (v₁ … vₙ) base)  =  new pairs for (k₁ . v₁) … (kₙ . vₙ), then `base`
```
-/

namespace Sexpr

namespace Value

variable {alist keys vals base key : Value} {n : Ident}

/-! ## entries -/

/-- The slots of a pair. -/
def slots? : Value → Option (Value × Value)
  | .pair _ k v => some (k, v)
  | _ => none

/-- The entries of an association list.  Elements that are no pair are passed over. -/
def rows (alist : Value) : List (Value × Value) := alist.elements.filterMap slots?

/-- The first entry whose key is `eq` to the key counts. -/
theorem assoc?_eq_find? (key alist : Value) :
    assoc? key alist = (alist.rows.find? fun e => eq e.1 key).map Prod.snd := by
  unfold rows
  fun_induction assoc? key alist with
  | case1 i j k x d hkey => simp [elements, slots?, hkey]
  | case2 i j k x d hkey ih => simpa [elements, slots?, hkey] using ih
  | case3 i a d hpair ih =>
    have hslots : a.slots? = none := by
      cases a <;> first | rfl | exact (hpair _ _ _ rfl).elim
    rw [elements, List.filterMap_cons_none hslots, ih]
  | case4 alist hentry hleaf =>
    rw [elements_leaf (isPair_eq_false_of_ne hleaf)]
    rfl

/-- An entry in a zip is found by the first position of its key. -/
theorem find?_zip_eq_findIdx? (p : Value → Bool) {ks vs : List Value} (h : ks.length = vs.length) :
    ((ks.zip vs).find? fun e => p e.1).map Prod.snd = (ks.findIdx? p).bind fun i => vs[i]? := by
  induction ks generalizing vs with
  | nil => simp
  | cons k ks ih =>
    obtain ⟨v, vs, rfl⟩ := List.exists_cons_of_length_eq_add_one h.symm
    by_cases hk : p k = true
    · simp [hk, List.findIdx?_cons]
    · have hlength : ks.length = vs.length := by simpa using h
      simp [hk, List.findIdx?_cons, ih hlength, Option.bind_map]

/-! ## new entries -/

/-- Pairs of the given slots, made one after another. -/
def newEntries (n : Ident) (entries : List (Value × Value)) : List Value :=
  (entries.zipIdx n).map fun e => .pair e.2 e.1.1 e.1.2

theorem map_slots?_newEntries (n : Ident) (entries : List (Value × Value)) :
    (newEntries n entries).map slots? = entries.map some := by
  have hfst : (newEntries n entries).map slots? = ((entries.zipIdx n).map Prod.fst).map some := by
    simp only [newEntries, List.map_map]
    rfl
  rw [hfst, List.zipIdx_map_fst]

/-- Each key is paired with its value. -/
theorem run_mapM_cons (entries : List (Value × Value)) (n : Ident) :
    (entries.mapM fun (k, v) => (cons k v : Attempt Value)).run n =
      (.ok (newEntries n entries), n + entries.length) := by
  induction entries generalizing n with
  | nil => rfl
  | cons e entries ih =>
    have hcons : (cons e.1 e.2 : Attempt Value).run n = (.ok (.pair n e.1 e.2), n + 1) := rfl
    have hnext : n + (entries.length + 1) = n + 1 + entries.length :=
      (Nat.add_right_comm n 1 entries.length).symm
    rw [List.mapM_cons, run_bind, hcons]
    simp only
    rw [run_bind, ih, List.length_cons, hnext]
    rfl

/-- Keys and values of different numbers are refused before anything is made. -/
theorem run_pairlis_of_ne (h : keys.length ≠ vals.length) (base : Value) (n : Ident) :
    (pairlis keys vals base).run n =
      (.error { location := "pairlis", cause := .unequalLengths keys.length vals.length }, n) := by
  rw [pairlis, checkLengths, if_neg h]
  rfl

/-- Keys and values of the same number give new entries, and new pairs that hold them in front of
the base itself. -/
theorem run_pairlis_of_eq (h : keys.length = vals.length) (base : Value) (n : Ident) :
    ∃ alist next, (pairlis keys vals base).run n = (.ok alist, next) ∧
      InFront (n + keys.length) (newEntries n (keys.elements.zip vals.elements)) base alist := by
  have hcheck : (checkLengths "pairlis" keys vals : Attempt Unit).run n = (.ok (), n) := by
    rw [checkLengths, if_pos h]
    rfl
  have hlength : (keys.elements.zip vals.elements).length = keys.length := by
    rw [List.length_zip, ← length_eq_length_elements, ← length_eq_length_elements, ← h, min_self]
  have hentries := run_mapM_cons (keys.elements.zip vals.elements) n
  rw [hlength] at hentries
  let made := (listOnto (newEntries n (keys.elements.zip vals.elements)) base).run
    (n + keys.length)
  refine ⟨made.1, made.2, ?_, (joins_listOnto _ base _).2⟩
  rw [pairlis, run_bind, hcheck]
  simp only
  rw [run_bind, hentries]
  rfl

theorem run_pairlis (h : keys.length = vals.length) (base : Value) (n : Ident) :
    ∃ pairs alist next, (pairlis keys vals base).run n = (.ok alist, next) ∧
      InFront n pairs base alist ∧
      pairs.map slots? = (keys.elements.zip vals.elements).map some := by
  obtain ⟨alist, next, hrun, hfront⟩ := run_pairlis_of_eq h base n
  exact ⟨_, alist, next, hrun, hfront.mono (Nat.le_add_right _ _), map_slots?_newEntries _ _⟩

theorem rows_of_inFront {pairs : List Value} {entries : List (Value × Value)}
    (h : InFront n pairs base alist) (hpairs : pairs.map slots? = entries.map some) :
    alist.rows = entries ++ base.rows := by
  have hnew : pairs.filterMap slots? = entries := by
    have hid : pairs.filterMap slots? = (pairs.map slots?).filterMap id := by
      rw [List.filterMap_map]
      rfl
    rw [hid, hpairs, List.filterMap_map]
    exact List.filterMap_some
  rw [rows, elements_of_inFront h, List.filterMap_append, hnew]
  rfl

theorem length_elements_eq (h : keys.length = vals.length) :
    keys.elements.length = vals.elements.length := by
  rw [← length_eq_length_elements, ← length_eq_length_elements, h]

/-- A look-up finds the value at the first position of the key, and where there is none it goes on
behind the new entries. -/
theorem assoc?_of_inFront {m : Ident} (h : keys.length = vals.length)
    (hfront : InFront m (newEntries n (keys.elements.zip vals.elements)) base alist) (key : Value) :
    assoc? key alist =
      ((keys.elements.findIdx? (eq · key)).bind fun i => vals.elements[i]?).or
        (assoc? key base) := by
  rw [assoc?_eq_find?, rows_of_inFront hfront (map_slots?_newEntries _ _), List.find?_append,
    Option.map_or, find?_zip_eq_findIdx? (eq · key) (length_elements_eq h), ← assoc?_eq_find?]

/-- **New entries hide those behind them**: `pairlis` refuses keys and values of different numbers,
and otherwise puts a new entry for each key in front of the base, which stays as it is.  A look-up
finds the value at the first position of the key, and where there is none what it finds in the
base. -/
theorem assoc?_pairlis (keys vals base : Value) (n : Ident) :
    ((∃ fault, ((pairlis keys vals base).run n).1 = .error fault ∧
      fault.cause.category = .signature) ↔ keys.length ≠ vals.length) ∧
    (keys.length = vals.length → ∃ alist next,
      (pairlis keys vals base).run n = (.ok alist, next) ∧
      InFront (n + keys.length) (newEntries n (keys.elements.zip vals.elements)) base alist ∧
      (newEntries n (keys.elements.zip vals.elements)).length = keys.length ∧
      ∀ key : Value,
        (∀ i, keys.elements.findIdx? (eq · key) = some i →
          ∃ v, vals.elements[i]? = some v ∧ assoc? key alist = some v) ∧
        (keys.elements.findIdx? (eq · key) = none → assoc? key alist = assoc? key base)) := by
  refine ⟨⟨?_, fun hne => ?_⟩, fun hlength => ?_⟩
  · rintro ⟨fault, hfault, -⟩ hlength
    obtain ⟨alist, next, hrun, -⟩ := run_pairlis_of_eq hlength base n
    rw [hrun] at hfault
    cases hfault
  · rw [run_pairlis_of_ne hne]
    exact ⟨_, rfl, rfl⟩
  · obtain ⟨alist, next, hrun, hfront⟩ := run_pairlis_of_eq hlength base n
    have hassoc := assoc?_of_inFront hlength hfront
    refine ⟨alist, next, hrun, hfront, ?_, fun key => ⟨fun i hi => ?_, fun hnone => ?_⟩⟩
    · simp [newEntries, ← length_elements_eq hlength, length_eq_length_elements]
    · have hkey : i < keys.elements.length := (List.findIdx?_eq_some_iff_findIdx_eq.1 hi).1
      have hvalue := List.getElem?_eq_getElem (length_elements_eq hlength ▸ hkey)
      exact ⟨_, hvalue, by simp [hassoc, hi, hvalue]⟩
    · simp [hassoc, hnone]

/-- In front of the dotted list `("no entry" . end)` the key `1` has the value `nil`, which is not
the same as no value, and hides a second key `1.0`. -/
theorem assoc?_pairlis_nil :
    let one := Value.number (.int 1)
    let floatOne := Value.number (.float (Float.ofBits 0x3ff0000000000000))
    let keys := Value.pair 0 one (.pair 1 floatOne (.symbol "end"))
    let vals := Value.pair 2 .nil (.pair 3 (.bool true) .nil)
    let base := Value.pair 4 (.string "no entry") (.symbol "end")
    keys.length = vals.length ∧ keys.elements.findIdx? (eq · floatOne) = some 0 ∧
    keys.elements.findIdx? (eq · .nil) = none ∧
    ∃ alist next, (pairlis keys vals base).run 5 = (.ok alist, next) ∧
      assoc? floatOne alist = some .nil ∧ assoc? .nil alist = none := by
  intro one floatOne keys vals base
  have hfirst : keys.elements.findIdx? (eq · floatOne) = some 0 := by decide +kernel
  have hnone : keys.elements.findIdx? (eq · .nil) = none := by decide +kernel
  obtain ⟨alist, next, hrun, -, -, hassoc⟩ := (assoc?_pairlis keys vals base 5).2 rfl
  obtain ⟨v, hv, hfound⟩ := (hassoc floatOne).1 0 hfirst
  cases hv
  exact ⟨rfl, hfirst, hnone, alist, next, hrun, hfound, (hassoc .nil).2 hnone⟩

end Value

end Sexpr
