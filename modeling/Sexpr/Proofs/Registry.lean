import Sexpr.Registry

/-!
# Sexpr.Proofs.Registry

Registries as maps that remember the order of insertion.

The first sections say what one insertion and one removal do to the entries of a registry, and what
a run of insertions does to the lookups.  The last one reads a registry off its history:

* a name is looked up as the value of its last change (`latest`);
* a name is there exactly when it was inserted and not removed since, and the names stand in the
  order in which they were inserted first since they were last removed (`Born`).
-/

namespace Sexpr

namespace Registry

variable {α : Type}

/-! ## names -/

/-- The names of a registry in the order in which they were added. -/
def names (r : Registry α) : List Symbol := r.entries.map Prod.fst

/-- The index gives the position of every name, and no other position. -/
theorem index_eq_some_iff (r : Registry α) (name : Symbol) (pos : Nat) :
    r.index[name]? = some pos ↔ r.names[pos]? = some name :=
  r.indexes name pos

/-- A name is there when the index has it. -/
theorem mem_names_iff_index (r : Registry α) (name : Symbol) :
    name ∈ r.names ↔ ∃ pos, r.index[name]? = some pos := by
  simp only [List.mem_iff_getElem?, index_eq_some_iff]

theorem index_eq_none_iff (r : Registry α) (name : Symbol) :
    r.index[name]? = none ↔ name ∉ r.names := by
  rw [mem_names_iff_index, ← Option.isSome_iff_exists, Option.not_isSome_iff_eq_none]

/-- No name stands twice. -/
theorem nodup_names (r : Registry α) : r.names.Nodup := by
  rw [List.Nodup, List.pairwise_iff_getElem]
  intro i j hi hj hij heq
  have hindexi := (r.index_eq_some_iff r.names[i] i).2 (List.getElem?_eq_getElem hi)
  have hindexj := (r.index_eq_some_iff r.names[j] j).2 (List.getElem?_eq_getElem hj)
  rw [heq, hindexj] at hindexi
  injection hindexi with hindexi
  omega

/-- A name is there when it has a definition. -/
theorem mem_names_iff (r : Registry α) (name : Symbol) :
    name ∈ r.names ↔ ∃ value, r.get? name = some value := by
  simp only [names, List.mem_map, get?_eq_some_iff]
  constructor
  · rintro ⟨⟨n, value⟩, hentry, rfl⟩
    exact ⟨value, hentry⟩
  · rintro ⟨value, hentry⟩
    exact ⟨(name, value), hentry, rfl⟩

theorem get?_eq_none_iff (r : Registry α) (name : Symbol) :
    r.get? name = none ↔ name ∉ r.names := by
  rw [mem_names_iff, ← Option.isSome_iff_exists, Option.not_isSome_iff_eq_none]

/-! ## one insertion -/

/-- A name that is there keeps its place, and so do all others. -/
theorem names_insert_of_mem {r : Registry α} {name : Symbol} (h : name ∈ r.names) (value : α) :
    (r.insert name value).names = r.names := by
  obtain ⟨pos, hpos⟩ := (r.mem_names_iff_index name).1 h
  have hname := (r.index_eq_some_iff name pos).1 hpos
  obtain ⟨hlt, hget⟩ := List.getElem?_eq_some_iff.1 hname
  unfold insert
  split
  · next pos' hpos' =>
    rw [hpos] at hpos'
    injection hpos' with hpos'
    subst hpos'
    have hset : r.names.set pos name = r.names := by
      rw [← hget, List.set_getElem_self]
    simpa only [names, List.map_set] using hset
  · next hnone =>
    rw [hpos] at hnone
    cases hnone

/-- A new name comes last. -/
theorem entries_insert_of_notMem {r : Registry α} {name : Symbol} (h : name ∉ r.names)
    (value : α) : (r.insert name value).entries = r.entries ++ [(name, value)] := by
  have hnone := (r.index_eq_none_iff name).2 h
  unfold insert
  split
  · next pos hpos =>
    rw [hnone] at hpos
    cases hpos
  · rfl

theorem names_insert_of_notMem {r : Registry α} {name : Symbol} (h : name ∉ r.names)
    (value : α) : (r.insert name value).names = r.names ++ [name] := by
  simp [names, entries_insert_of_notMem h]

theorem names_prefix_insert (r : Registry α) (name : Symbol) (value : α) :
    r.names <+: (r.insert name value).names := by
  by_cases h : name ∈ r.names
  · simp [names_insert_of_mem h]
  · simp [names_insert_of_notMem h]

/-! ## one removal -/

/-- Taking out the one position at which a test fails leaves what passes it. -/
theorem eraseIdx_eq_filter {β : Type} {p : β → Bool} {xs : List β} {pos : Nat}
    (h : ∀ (i : Nat) (x : β), xs[i]? = some x → (p x = false ↔ i = pos)) :
    xs.eraseIdx pos = xs.filter p := by
  induction xs generalizing pos with
  | nil => simp
  | cons x xs ih =>
    have hhead := h 0 x (by simp)
    cases pos with
    | zero =>
      have hx : p x = false := hhead.2 rfl
      have hxs : xs.filter p = xs := by
        rw [List.filter_eq_self]
        intro y hy
        obtain ⟨i, hi⟩ := List.mem_iff_getElem?.1 hy
        have hy' := h (i + 1) y (by simpa using hi)
        simpa using hy'
      simp [List.eraseIdx, hx, hxs]
    | succ pos =>
      have hx : p x = true := by simpa using hhead
      have hrest : xs.eraseIdx pos = xs.filter p :=
        ih fun i y hi => by simpa using h (i + 1) y (by simpa using hi)
      simp [List.eraseIdx, hx, hrest]

/-- A removal takes out the entry of the name and leaves the others in their order. -/
theorem entries_erase (r : Registry α) (name : Symbol) :
    (r.erase name).entries = r.entries.filter fun e => decide (e.1 ≠ name) := by
  unfold erase
  split
  · next pos hpos =>
    apply eraseIdx_eq_filter
    intro i e hi
    have hname : r.names[i]? = some e.1 := by simp [names, hi]
    have hindex := (r.index_eq_some_iff e.1 i).2 hname
    simp only [ne_eq, decide_not, Bool.not_eq_false', decide_eq_true_eq]
    constructor
    · rintro rfl
      rw [hpos] at hindex
      injection hindex with hindex
      exact hindex.symm
    · rintro rfl
      exact index_injective hindex hpos
  · next hnone =>
    have habsent := (r.index_eq_none_iff name).1 hnone
    symm
    rw [List.filter_eq_self]
    rintro ⟨n, value⟩ hentry
    have hn : n ∈ r.names := List.mem_map_of_mem hentry
    have hne : n ≠ name := fun heq => habsent (heq ▸ hn)
    simpa using hne

theorem names_erase (r : Registry α) (name : Symbol) :
    (r.erase name).names = r.names.filter fun n => decide (n ≠ name) := by
  simp only [names, entries_erase, List.filter_map, Function.comp_def]

theorem get?_erase (r : Registry α) (name other : Symbol) :
    (r.erase name).get? other = if name = other then none else r.get? other := by
  apply Option.ext
  intro value
  rw [get?_eq_some_iff, entries_erase, List.mem_filter, ← get?_eq_some_iff]
  by_cases h : name = other
  · simp [h]
  · simp [h, Ne.symm h]

theorem notMem_names_erase (r : Registry α) (name : Symbol) : name ∉ (r.erase name).names := by
  simp [names_erase]

/-- A new name that is removed again leaves no trace. -/
theorem erase_insert_of_notMem {r : Registry α} {name : Symbol} (h : name ∉ r.names) (value : α) :
    (r.insert name value).erase name = r := by
  apply eq_of_entries_eq
  have hkept : (r.entries.filter fun e => decide (e.1 ≠ name)) = r.entries := by
    rw [List.filter_eq_self]
    intro e he
    have hne : e.1 ≠ name := fun heq => h (heq ▸ List.mem_map_of_mem he)
    simpa using hne
  simp only [entries_erase, entries_insert_of_notMem h, List.filter_append, hkept]
  simp

/-- The names in their order and what they stand for make up a registry. -/
theorem eq_of_names_eq {r s : Registry α} (hnames : r.names = s.names)
    (hget : ∀ name, r.get? name = s.get? name) : r = s := by
  have hentries : ∀ t : Registry α, t.entries.map (fun e => (e.1, some e.2)) =
      t.names.map fun name => (name, t.get? name) := by
    intro t
    unfold names
    rw [List.map_map]
    exact List.map_congr_left fun e he =>
      Prod.ext rfl ((get?_eq_some_iff t e.1 e.2).2 he).symm
  have hsame : r.entries.map (fun e => (e.1, some e.2)) =
      s.entries.map fun e => (e.1, some e.2) := by
    rw [hentries, hentries, hnames, funext hget]
  refine eq_of_entries_eq ((List.map_inj_right fun e e' h => ?_).1 hsame)
  simp only [Prod.mk.injEq, Option.some.injEq] at h
  exact Prod.ext h.1 h.2

/-- Another name is inserted in the same place whether or not a name was removed before. -/
theorem erase_insert_of_ne {n name : Symbol} (h : name ≠ n) (r : Registry α) (value : α) :
    (r.insert name value).erase n = (r.erase n).insert name value := by
  apply eq_of_names_eq
  · by_cases hname : name ∈ r.names
    · have hkept : name ∈ (r.erase n).names := by
        rw [names_erase, List.mem_filter]
        exact ⟨hname, decide_eq_true h⟩
      rw [names_erase, names_insert_of_mem hname, names_insert_of_mem hkept, names_erase]
    · have hnone : name ∉ (r.erase n).names := by
        rw [names_erase, List.mem_filter]
        exact fun hmem => hname hmem.1
      rw [names_erase, names_insert_of_notMem hname, names_insert_of_notMem hnone, names_erase,
        List.filter_append]
      simp [h]
  · intro other
    simp only [get?_erase, get?_insert]
    by_cases hother : n = other
    · subst hother
      simp [h]
    · simp [hother]

/-- What a name was bound to does not matter once it is removed. -/
theorem erase_insert_self (r : Registry α) (n : Symbol) (value : α) :
    (r.insert n value).erase n = r.erase n := by
  apply eq_of_names_eq
  · by_cases hn : n ∈ r.names
    · rw [names_erase, names_insert_of_mem hn, names_erase]
    · rw [names_erase, names_insert_of_notMem hn, names_erase, List.filter_append]
      simp
  · intro other
    simp only [get?_erase, get?_insert]
    by_cases hother : n = other <;> simp [hother]

/-! ## several insertions -/

/-- The value of the last entry under a name. -/
def lastUnder (name : Symbol) (entries : List (Symbol × α)) : Option α :=
  (entries.reverse.find? (·.1 = name)).map Prod.snd

theorem lastUnder_cons (name : Symbol) (e : Symbol × α) (entries : List (Symbol × α)) :
    lastUnder name (e :: entries) =
      (lastUnder name entries).or (if e.1 = name then some e.2 else none) := by
  unfold lastUnder
  rw [List.reverse_cons, List.find?_append, Option.map_or]
  by_cases h : e.1 = name <;> simp [h]

theorem mem_of_lastUnder {name : Symbol} {entries : List (Symbol × α)} {value : α}
    (h : lastUnder name entries = some value) : (name, value) ∈ entries := by
  obtain ⟨⟨n, v⟩, hfind, rfl⟩ := Option.map_eq_some_iff.1 h
  have hname : n = name := by simpa using List.find?_some hfind
  have hmem := List.mem_of_find?_eq_some hfind
  rw [List.mem_reverse] at hmem
  exact hname ▸ hmem

/-- The last entry under a name decides, and without one the registry as it was. -/
theorem get?_insertAll (r : Registry α) (entries : List (Symbol × α)) (name : Symbol) :
    (r.insertAll entries).get? name = (lastUnder name entries).or (r.get? name) := by
  unfold insertAll
  induction entries generalizing r with
  | nil => rfl
  | cons e entries ih =>
    rw [List.foldl_cons, ih, get?_insert, lastUnder_cons]
    by_cases h : e.1 = name <;> simp [h]

theorem names_prefix_insertAll (r : Registry α) (entries : List (Symbol × α)) :
    r.names <+: (r.insertAll entries).names := by
  unfold insertAll
  induction entries generalizing r with
  | nil => exact List.prefix_rfl
  | cons e entries ih =>
    rw [List.foldl_cons]
    exact (r.names_prefix_insert e.1 e.2).trans (ih _)

/-- Names that are new and different are added in their order. -/
theorem entries_insertAll_of_nodup {r : Registry α} {entries : List (Symbol × α)}
    (h : (r.names ++ entries.map Prod.fst).Nodup) :
    (r.insertAll entries).entries = r.entries ++ entries := by
  unfold insertAll
  induction entries generalizing r with
  | nil => simp
  | cons e entries ih =>
    have hnew : e.1 ∉ r.names := by
      intro hmem
      exact (List.nodup_append.1 h).2.2 _ hmem _ (by simp) rfl
    have hnames := names_insert_of_notMem hnew e.2
    rw [List.foldl_cons, ih (by simpa [hnames] using h), entries_insert_of_notMem hnew,
      List.append_assoc]
    rfl

/-- A registry is put together again from its entries. -/
theorem insertAll_entries (r : Registry α) : empty.insertAll r.entries = r := by
  apply eq_of_entries_eq
  exact entries_insertAll_of_nodup (r := empty) r.nodup_names

theorem lastUnder_entries (r : Registry α) (name : Symbol) :
    lastUnder name r.entries = r.get? name := by
  have h := get?_insertAll empty r.entries name
  rw [insertAll_entries, get?_empty, Option.or_none] at h
  exact h.symm

/-! ## histories -/

/-- A change of a registry. -/
inductive Change (α : Type) where
  | insert (name : Symbol) (value : α)
  | remove (name : Symbol)

namespace Change

/-- The name that a change is about. -/
def name : Change α → Symbol
  | .insert name _ => name
  | .remove name => name

/-- The value that a change leaves under its name. -/
def value? : Change α → Option α
  | .insert _ value => some value
  | .remove _ => none

/-- Makes the change. -/
def apply (r : Registry α) : Change α → Registry α
  | .insert name value => r.insert name value
  | .remove name => r.erase name

end Change

/-- The registry that some changes make of the empty one. -/
def replay (changes : List (Change α)) : Registry α := changes.foldl Change.apply empty

/-- The value that the last change of a name has left. -/
def latest (changes : List (Change α)) (name : Symbol) : Option α :=
  (changes.reverse.find? (·.name = name)).bind Change.value?

/-- Step `i` inserted the name for the first time since it was last removed: it has not been
removed later, and whatever inserted it earlier was undone in between. -/
structure Born (changes : List (Change α)) (name : Symbol) (i : Nat) : Prop where
  inserted : ∃ value, changes[i]? = some (.insert name value)
  kept : ∀ j, i < j → changes[j]? ≠ some (.remove name)
  first : ∀ j value, j < i → changes[j]? = some (.insert name value) →
    ∃ k, j < k ∧ k < i ∧ changes[k]? = some (.remove name)

theorem latest_append (changes : List (Change α)) (c : Change α) (name : Symbol) :
    latest (changes ++ [c]) name = if c.name = name then c.value? else latest changes name := by
  unfold latest
  rw [List.reverse_append, List.reverse_singleton, List.singleton_append, List.find?_cons]
  by_cases h : c.name = name <;> simp [h]

section

variable {changes : List (Change α)} {name : Symbol} {i : Nat}

theorem Born.lt_length (h : Born changes name i) : i < changes.length := by
  obtain ⟨value, hvalue⟩ := h.inserted
  exact (List.getElem?_eq_some_iff.1 hvalue).1

/-- Only the changes of the name matter. -/
theorem Born.congr {changes' : List (Change α)} (h : Born changes name i)
    (hsame : ∀ (d : Change α) (j : Nat), d.name = name →
      (changes'[j]? = some d ↔ changes[j]? = some d)) : Born changes' name i where
  inserted := by
    obtain ⟨value, hvalue⟩ := h.inserted
    exact ⟨value, (hsame _ i rfl).2 hvalue⟩
  kept j hj hremove := h.kept j hj ((hsame _ j rfl).1 hremove)
  first j value hj hinsert := by
    obtain ⟨k, hjk, hki, hremove⟩ := h.first j value hj ((hsame _ j rfl).1 hinsert)
    exact ⟨k, hjk, hki, (hsame _ k rfl).2 hremove⟩

/-- A change that is not the last one is one of those before. -/
theorem getElem?_append_of_ne {c d : Change α} (h : c ≠ d) (j : Nat) :
    (changes ++ [c])[j]? = some d ↔ changes[j]? = some d := by
  rcases Nat.lt_trichotomy j changes.length with hj | hj | hj
  · rw [List.getElem?_append_left hj]
  · simp [hj, h]
  · rw [List.getElem?_eq_none (by simp; omega), List.getElem?_eq_none (by omega)]

/-- A change of another name. -/
theorem born_append_of_ne {c : Change α} (h : c.name ≠ name) :
    Born (changes ++ [c]) name i ↔ Born changes name i := by
  have hsame : ∀ (d : Change α) (j : Nat), d.name = name →
      ((changes ++ [c])[j]? = some d ↔ changes[j]? = some d) :=
    fun d j hd => getElem?_append_of_ne (fun hc : c = d => h (hc ▸ hd)) j
  exact ⟨fun hborn => hborn.congr fun d j hd => (hsame d j hd).symm, fun hborn => hborn.congr hsame⟩

theorem not_born_append_remove : ¬ Born (changes ++ [.remove name]) name i := by
  intro h
  have hlt := h.lt_length
  obtain ⟨value, hvalue⟩ := h.inserted
  rcases Nat.lt_or_ge i changes.length with hi | hi
  · exact h.kept changes.length hi (by simp)
  · have hlast : i = changes.length := by simp at hlt; omega
    simp [hlast] at hvalue

/-- A name that is inserted again keeps its place. -/
theorem Born.append_insert (h : Born changes name i) (value : α) :
    Born (changes ++ [.insert name value]) name i := by
  have hi := h.lt_length
  refine ⟨?_, fun j hj hremove => ?_, fun j value' hj hinsert => ?_⟩
  · rw [List.getElem?_append_left hi]
    exact h.inserted
  · exact h.kept j hj ((getElem?_append_of_ne (by simp) j).1 hremove)
  · rw [List.getElem?_append_left (by omega)] at hinsert
    obtain ⟨k, hjk, hki, hremove⟩ := h.first j value' hj hinsert
    exact ⟨k, hjk, hki, (getElem?_append_of_ne (by simp) k).2 hremove⟩

/-- Where a name is not there, every insertion of it was undone. -/
theorem exists_remove_of_not_born (h : ∀ i, ¬ Born changes name i) (j : Nat) {value : α}
    (hj : changes[j]? = some (.insert name value)) :
    ∃ k, j < k ∧ changes[k]? = some (.remove name) := by
  induction j using Nat.strongRecOn generalizing value with
  | ind j ih =>
    refine Classical.byContradiction fun hnone => h j ⟨⟨value, hj⟩, ?_, ?_⟩
    · exact fun k hk hremove => hnone ⟨k, hk, hremove⟩
    · intro j' value' hj' hinsert
      obtain ⟨k, hk, hremove⟩ := ih j' hj' hinsert
      refine ⟨k, hk, ?_, hremove⟩
      rcases Nat.lt_trichotomy k j with hkj | rfl | hkj
      · exact hkj
      · rw [hj] at hremove
        cases hremove
      · exact (hnone ⟨k, hkj, hremove⟩).elim

/-- A name that is not there gets its place when it is inserted. -/
theorem born_length_of_not_born (h : ∀ i, ¬ Born changes name i) (value : α) :
    Born (changes ++ [.insert name value]) name changes.length := by
  refine ⟨⟨value, by simp⟩, fun j hj hremove => ?_, fun j value' hj hinsert => ?_⟩
  · have hlt := (List.getElem?_eq_some_iff.1 hremove).1
    simp at hlt
    omega
  · rw [List.getElem?_append_left hj] at hinsert
    obtain ⟨k, hjk, hremove⟩ := exists_remove_of_not_born h j hinsert
    have hk := (List.getElem?_eq_some_iff.1 hremove).1
    exact ⟨k, hjk, hk, (getElem?_append_of_ne (by simp) k).2 hremove⟩

/-- An insertion gives a place to the name that it inserts, unless that has one. -/
theorem Born.of_append_insert {value : α} (h : Born (changes ++ [.insert name value]) name i) :
    Born changes name i ∨ (i = changes.length ∧ ∀ j, ¬ Born changes name j) := by
  have hremoves : ∀ j, (changes ++ [.insert name value])[j]? = some (Change.remove name) ↔
      changes[j]? = some (Change.remove name) :=
    fun j => getElem?_append_of_ne (by simp) j
  have hlt := h.lt_length
  rcases Nat.lt_or_ge i changes.length with hi | hi
  · refine .inl ⟨?_, fun j hj hremove => ?_, fun j value' hj hinsert => ?_⟩
    · have hinserted := h.inserted
      rwa [List.getElem?_append_left hi] at hinserted
    · exact h.kept j hj ((hremoves j).2 hremove)
    · obtain ⟨k, hjk, hki, hremove⟩ :=
        h.first j value' hj (by rw [List.getElem?_append_left (by omega)]; exact hinsert)
      exact ⟨k, hjk, hki, (hremoves k).1 hremove⟩
  · have hlast : i = changes.length := by simp at hlt; omega
    refine .inr ⟨hlast, fun j hborn => ?_⟩
    have hj := hborn.lt_length
    obtain ⟨v, hv⟩ := hborn.inserted
    obtain ⟨k, hjk, -, hremove⟩ :=
      h.first j v (by omega) (by rw [List.getElem?_append_left hj]; exact hv)
    exact hborn.kept k hjk ((hremoves k).1 hremove)

end

/-- What a history says about a registry. -/
structure Tracks (changes : List (Change α)) (r : Registry α) : Prop where
  get?_eq (name : Symbol) : r.get? name = latest changes name
  mem_names_iff (name : Symbol) : name ∈ r.names ↔ ∃ i, Born changes name i
  ordered : r.names.Pairwise fun x y => ∀ i j, Born changes x i → Born changes y j → i < j

namespace Tracks

variable {changes : List (Change α)} {r : Registry α}

theorem empty : Tracks ([] : List (Change α)) Registry.empty where
  get?_eq name := get?_empty name
  mem_names_iff name := by
    refine ⟨fun h => (List.not_mem_nil h).elim, fun ⟨i, hi⟩ => ?_⟩
    exact (Nat.not_lt_zero i hi.lt_length).elim
  ordered := List.Pairwise.nil

/-- A name that is there is inserted again. -/
theorem insert_of_mem (h : Tracks changes r) {name : Symbol} (hname : name ∈ r.names)
    (value : α) : Tracks (changes ++ [.insert name value]) (r.insert name value) := by
  obtain ⟨place, hplace⟩ := (h.mem_names_iff name).1 hname
  have hborn : ∀ {x i}, Born (changes ++ [.insert name value]) x i ↔ Born changes x i := by
    intro x i
    by_cases hx : x = name
    · subst hx
      refine ⟨fun hi => ?_, fun hi => hi.append_insert value⟩
      rcases hi.of_append_insert with hi | ⟨-, hnone⟩
      · exact hi
      · exact (hnone place hplace).elim
    · exact born_append_of_ne (Ne.symm hx)
  refine ⟨fun x => ?_, fun x => ?_, ?_⟩
  · rw [get?_insert, latest_append, h.get?_eq]
    rfl
  · simp only [names_insert_of_mem hname, hborn]
    exact h.mem_names_iff x
  · simp only [names_insert_of_mem hname, hborn]
    exact h.ordered

/-- A new name is inserted. -/
theorem insert_of_notMem (h : Tracks changes r) {name : Symbol} (hname : name ∉ r.names)
    (value : α) : Tracks (changes ++ [.insert name value]) (r.insert name value) := by
  have hnone : ∀ i, ¬ Born changes name i := fun i hi => hname ((h.mem_names_iff name).2 ⟨i, hi⟩)
  have hother : ∀ {x i}, x ≠ name →
      (Born (changes ++ [.insert name value]) x i ↔ Born changes x i) :=
    fun hx => born_append_of_ne (Ne.symm hx)
  have hne : ∀ x ∈ r.names, x ≠ name := fun x hx heq => hname (heq ▸ hx)
  refine ⟨fun x => ?_, fun x => ?_, ?_⟩
  · rw [get?_insert, latest_append, h.get?_eq]
    rfl
  · rw [names_insert_of_notMem hname, List.mem_append, List.mem_singleton]
    by_cases hx : x = name
    · subst hx
      exact ⟨fun _ => ⟨_, born_length_of_not_born hnone value⟩, fun _ => .inr rfl⟩
    · simp only [hx, or_false, hother hx]
      exact h.mem_names_iff x
  · rw [names_insert_of_notMem hname, List.pairwise_append]
    refine ⟨?_, List.pairwise_singleton _ _, fun x hx y hy i j hi hj => ?_⟩
    · refine h.ordered.imp_of_mem fun {x y} hx hy hxy i j hi hj => ?_
      exact hxy i j ((hother (hne x hx)).1 hi) ((hother (hne y hy)).1 hj)
    · rw [List.mem_singleton] at hy
      subst hy
      have hbefore := ((hother (hne x hx)).1 hi).lt_length
      rcases hj.of_append_insert with hj | ⟨rfl, -⟩
      · exact (hnone j hj).elim
      · exact hbefore

/-- A name is removed. -/
theorem remove (h : Tracks changes r) (name : Symbol) :
    Tracks (changes ++ [.remove name]) (r.erase name) := by
  have hother : ∀ {x i}, x ≠ name → (Born (changes ++ [.remove name]) x i ↔ Born changes x i) :=
    fun hx => born_append_of_ne (Ne.symm hx)
  refine ⟨fun x => ?_, fun x => ?_, ?_⟩
  · rw [get?_erase, latest_append, h.get?_eq]
    rfl
  · rw [names_erase, List.mem_filter, decide_eq_true_eq]
    by_cases hx : x = name
    · subst hx
      exact ⟨fun hmem => (hmem.2 rfl).elim, fun ⟨i, hi⟩ => (not_born_append_remove hi).elim⟩
    · simp only [ne_eq, hx, not_false_eq_true, and_true, hother hx]
      exact h.mem_names_iff x
  · rw [names_erase]
    refine (h.ordered.filter _).imp_of_mem fun {x y} hx hy hxy i j hi hj => ?_
    have hne : ∀ z ∈ r.names.filter fun n => decide (n ≠ name), z ≠ name := by simp
    exact hxy i j ((hother (hne x hx)).1 hi) ((hother (hne y hy)).1 hj)

/-- One more change in the history is one more change of the registry. -/
theorem step (h : Tracks changes r) (c : Change α) : Tracks (changes ++ [c]) (c.apply r) := by
  cases c with
  | insert name value =>
    by_cases hname : name ∈ r.names
    · exact h.insert_of_mem hname value
    · exact h.insert_of_notMem hname value
  | remove name => exact h.remove name

end Tracks

/-- A run of changes. -/
theorem Tracks.run {before : List (Change α)} {r : Registry α} (h : Tracks before r)
    (changes : List (Change α)) :
    Tracks (before ++ changes) (changes.foldl Change.apply r) := by
  induction changes generalizing before r with
  | nil => simpa using h
  | cons c changes ih => simpa using ih (h.step c)

/-- A registry is what its history says. -/
theorem tracks_replay (changes : List (Change α)) : Tracks changes (replay changes) :=
  Tracks.empty.run changes

/-- **Registries are maps in the order of insertion**: after any changes of the empty registry no
name stands twice, the index has every name with its position, which is in range, and
nothing else; a name is looked up as the last insertion left it; and the names stand in
the order in which they were inserted first since they were last removed.  So a name that is
defined again stays where it is, one that is removed and inserted goes to the end, the
others keep their order when one is removed, and a new name that is removed again leaves
the registry as it was. -/
theorem replay_insertion_ordered (changes : List (Change α)) :
    let r := replay changes
    r.names.Nodup ∧
      (∀ (name : Symbol) (pos : Nat), r.index[name]? = some pos ↔ r.names[pos]? = some name) ∧
      (∀ (name : Symbol) (pos : Nat), r.index[name]? = some pos →
        ∃ value, r.entries[pos]? = some (name, value) ∧ r.get? name = some value) ∧
      Tracks changes r ∧
      (∀ name value, name ∈ r.names → (r.insert name value).names = r.names) ∧
      (∀ name value,
        ((r.erase name).insert name value).entries = (r.erase name).entries ++ [(name, value)]) ∧
      (∀ name, (r.erase name).entries = r.entries.filter fun e => decide (e.1 ≠ name)) ∧
      ∀ name value, name ∉ r.names → (r.insert name value).erase name = r := by
  intro r
  refine ⟨r.nodup_names, r.index_eq_some_iff, fun name pos hpos => ?_, tracks_replay changes,
    fun name value hname => names_insert_of_mem hname value,
    fun name value => entries_insert_of_notMem (r.notMem_names_erase name) value,
    r.entries_erase, fun name value hname => erase_insert_of_notMem hname value⟩
  have hname := (r.index_eq_some_iff name pos).1 hpos
  rw [names, List.getElem?_map, Option.map_eq_some_iff] at hname
  obtain ⟨⟨n, value⟩, hentry, rfl⟩ := hname
  exact ⟨value, hentry, (r.get?_eq_some_iff n value).2 (List.mem_of_getElem? hentry)⟩

end Registry

end Sexpr
