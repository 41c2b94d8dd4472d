import Std.Data.ExtTreeMap
import Sexpr.Value.Callable

/-!
# Sexpr.Registry

Tables of definitions that remember the order in which names were added.

A registry is a list of entries and an index from names to positions.  The index
holds exactly the names of the entries, each with its position, so no name occurs twice and
no position is out of range; this is part of the type.  A name that is defined again
keeps its position, and removing a name moves the later entries up.

Main statements:

* `Registry.eq_of_entries_eq`: the index is determined by the entries;
* `Registry.get?_eq_some_iff`: looking a name up finds its entry;
* `Registry.get?_insert`: a definition is what its name is looked up as, and no other name changes.
-/

namespace Sexpr

/-- Whether an index gives the position of every name in a list of entries, and no other
position. -/
def Indexes {α : Type} (index : Std.ExtTreeMap Symbol Nat) (entries : List (Symbol × α)) : Prop :=
  ∀ (name : Symbol) (pos : Nat), index[name]? = some pos ↔ (entries.map Prod.fst)[pos]? = some name

/-- A table of definitions in the order in which their names were added. -/
structure Registry (α : Type) where
  entries : List (Symbol × α)
  index : Std.ExtTreeMap Symbol Nat
  indexes : Indexes index entries

namespace Registry

variable {α : Type}

/-! ## Operations -/

/-- The registry without entries. -/
def empty : Registry α where
  entries := []
  index := ∅
  indexes := by simp [Indexes]

instance : Inhabited (Registry α) := ⟨empty⟩

theorem indexes_set {index : Std.ExtTreeMap Symbol Nat} {entries : List (Symbol × α)}
    (h : Indexes index entries) {name : Symbol} {pos : Nat} (hpos : index[name]? = some pos)
    (value : α) :
    Indexes index (entries.set pos (name, value)) := by
  have hname := (h name pos).1 hpos
  have hset : (entries.map Prod.fst).set pos name = entries.map Prod.fst := by
    apply List.ext_getElem?
    intro i
    rw [List.getElem?_set]
    split
    · next hi =>
      subst hi
      obtain ⟨hlt, _⟩ := List.getElem?_eq_some_iff.1 hname
      rw [if_pos hlt, hname]
    · rfl
  intro other at_
  rw [List.map_set, hset]
  exact h other at_

theorem indexes_append {index : Std.ExtTreeMap Symbol Nat} {entries : List (Symbol × α)}
    (h : Indexes index entries) {name : Symbol} (hname : index[name]? = none) (value : α) :
    Indexes (index.insert name entries.length) (entries ++ [(name, value)]) := by
  intro other pos
  rw [Std.ExtTreeMap.getElem?_insert, List.map_append, List.getElem?_append, List.length_map]
  by_cases heq : name = other
  · subst heq
    rw [if_pos Std.ReflCmp.compare_self, Option.some.injEq]
    split
    · next hlt =>
      constructor
      · intro hp; omega
      · intro hp
        rw [(h name pos).2 hp] at hname
        cases hname
    · next hge =>
      rcases hd : pos - entries.length with _ | k
      · simp; omega
      · simp; omega
  · have hcmp : ¬ compare name other = .eq := by simpa using heq
    rw [if_neg hcmp, h other pos]
    split
    · rfl
    · next hge =>
      rw [List.getElem?_eq_none (by simp; omega)]
      rcases pos - entries.length with _ | k
      · simp [heq]
      · simp

/-- The position of an entry after an earlier or the same one has been taken out. -/
def shiftDown (pos p : Nat) : Nat := if pos < p then p - 1 else p

theorem indexes_erase {index : Std.ExtTreeMap Symbol Nat} {entries : List (Symbol × α)}
    (h : Indexes index entries) {name : Symbol} {pos : Nat} (hpos : index[name]? = some pos) :
    Indexes ((index.erase name).map fun _ p => shiftDown pos p) (entries.eraseIdx pos) := by
  intro other i
  rw [Std.ExtTreeMap.getElem?_map, Std.ExtTreeMap.getElem?_erase]
  have hmap : (entries.eraseIdx pos).map Prod.fst = (entries.map Prod.fst).eraseIdx pos := by
    simp only [List.eraseIdx_eq_take_drop_succ, List.map_append, List.map_take, List.map_drop]
  rw [hmap, List.getElem?_eraseIdx]
  by_cases heq : name = other
  · subst heq
    rw [if_pos Std.ReflCmp.compare_self]
    simp only [Option.map_none, reduceCtorEq, false_iff]
    split
    · next hlt =>
      intro hi
      have := (h name i).2 hi
      rw [hpos] at this
      injection this with this
      omega
    · next hge =>
      intro hi
      have := (h name (i + 1)).2 hi
      rw [hpos] at this
      injection this with this
      omega
  · have hcmp : ¬ compare name other = .eq := by simpa using heq
    rw [if_neg hcmp]
    have hne : index[other]? ≠ some pos := by
      intro ho
      have h1 := (h other pos).1 ho
      rw [(h name pos).1 hpos] at h1
      injection h1 with h1
      exact heq h1
    constructor
    · intro hi
      obtain ⟨p, hp, hshift⟩ := Option.map_eq_some_iff.1 hi
      have hp' := (h other p).1 hp
      have : p ≠ pos := by intro hc; subst hc; exact hne hp
      simp only [shiftDown] at hshift
      split at hshift
      · rw [if_neg (by omega), show i + 1 = p by omega]; exact hp'
      · rw [if_pos (by omega), show i = p by omega]; exact hp'
    · intro hi
      split at hi
      · next hlt =>
        rw [(h other i).2 hi]
        simp [shiftDown, Nat.not_lt.2 (Nat.le_of_lt hlt)]
      · next hge =>
        rw [(h other (i + 1)).2 hi]
        simp [shiftDown]
        omega

/-- Defines a name: in its place when it is there already, at the end otherwise. -/
def insert (r : Registry α) (name : Symbol) (value : α) : Registry α :=
  match h : r.index[name]? with
  | some pos => ⟨r.entries.set pos (name, value), r.index, indexes_set r.indexes h value⟩
  | none =>
    ⟨r.entries ++ [(name, value)], r.index.insert name r.entries.length,
      indexes_append r.indexes h value⟩

/-- The definition of a name. -/
def get? (r : Registry α) (name : Symbol) : Option α :=
  match r.index[name]? with
  | some pos => r.entries[pos]?.map Prod.snd
  | none => none

/-- Removes a name. -/
def erase (r : Registry α) (name : Symbol) : Registry α :=
  match h : r.index[name]? with
  | some pos =>
    ⟨r.entries.eraseIdx pos, (r.index.erase name).map fun _ p => shiftDown pos p,
      indexes_erase r.indexes h⟩
  | none => r

/-- Defines names one after another. -/
def insertAll (r : Registry α) (entries : List (Symbol × α)) : Registry α :=
  entries.foldl (fun r (name, value) => r.insert name value) r

def size (r : Registry α) : Nat := r.entries.length

/-! ## Looking up -/

/-- Registries with the same entries are the same. -/
theorem eq_of_entries_eq {r s : Registry α} (h : r.entries = s.entries) : r = s := by
  obtain ⟨entries, index, hindex⟩ := r
  obtain ⟨entries', index', hindex'⟩ := s
  subst h
  have : index = index' := by
    apply Std.ExtTreeMap.ext_getElem?
    intro name
    apply Option.ext
    intro pos
    rw [hindex name pos, hindex' name pos]
  subst this
  rfl

theorem get?_eq_some_iff (r : Registry α) (name : Symbol) (value : α) :
    r.get? name = some value ↔ (name, value) ∈ r.entries := by
  rw [List.mem_iff_getElem?]
  unfold get?
  split
  · next pos hpos =>
    have hname := (r.indexes name pos).1 hpos
    rw [List.getElem?_map, Option.map_eq_some_iff] at hname
    obtain ⟨⟨n, v⟩, hentry, hn⟩ := hname
    simp only at hn
    subst hn
    rw [hentry]
    constructor
    · intro h
      simp only [Option.map_some, Option.some.injEq] at h
      exact ⟨pos, h ▸ hentry⟩
    · rintro ⟨i, hi⟩
      have := (r.indexes n i).2 (by simp [hi])
      rw [hpos] at this
      injection this with this
      subst this
      rw [hentry] at hi
      simpa using hi
  · next hnone =>
    constructor
    · intro h; cases h
    · rintro ⟨i, hi⟩
      have := (r.indexes name i).2 (by simp [hi])
      rw [hnone] at this
      cases this

theorem get?_eq_none_of_index {r : Registry α} {name : Symbol} (h : r.index[name]? = none) :
    r.get? name = none := by
  simp [get?, h]

theorem get?_empty (name : Symbol) : (empty : Registry α).get? name = none :=
  get?_eq_none_of_index (by simp [empty])

/-- A position of the index is in range. -/
theorem lt_length_of_index {r : Registry α} {name : Symbol} {pos : Nat}
    (h : r.index[name]? = some pos) : pos < r.entries.length := by
  obtain ⟨hlt, _⟩ := List.getElem?_eq_some_iff.1 ((r.indexes name pos).1 h)
  simpa using hlt

/-- Different names have different positions. -/
theorem index_injective {r : Registry α} {name other : Symbol} {pos : Nat}
    (h : r.index[name]? = some pos) (h' : r.index[other]? = some pos) : name = other := by
  have h1 := (r.indexes name pos).1 h
  rw [(r.indexes other pos).1 h'] at h1
  injection h1 with h1
  exact h1.symm

theorem get?_insert (r : Registry α) (name other : Symbol) (value : α) :
    (r.insert name value).get? other = if name = other then some value else r.get? other := by
  unfold insert
  split
  · next pos h =>
    have hlt := lt_length_of_index h
    simp only [get?]
    by_cases heq : name = other
    · subst heq
      simp [h, hlt]
    · rw [if_neg heq]
      cases ho : r.index[other]? with
      | none => rfl
      | some p =>
        have hne : pos ≠ p := fun hc => heq (index_injective h (hc ▸ ho))
        simp [hne]
  · next h =>
    simp only [get?, Std.ExtTreeMap.getElem?_insert]
    by_cases heq : name = other
    · subst heq
      simp
    · have hcmp : ¬ compare name other = .eq := by simpa using heq
      rw [if_neg heq, if_neg hcmp]
      cases ho : r.index[other]? with
      | none => rfl
      | some p =>
        have hlt := lt_length_of_index ho
        simp [List.getElem?_append, hlt]

end Registry

end Sexpr
