import Mathlib
import Sexpr.Proofs.ListLaws

/-!
# Sexpr.Proofs.Conversion

Lists of values, and the values that are lists.

A value is made of a list of values by putting new pairs in front of its end, and its elements are
read back by walking along its second slots.  What all walks have in common is the chain of pairs
that they follow (`Value.InFront`, here of any pairs): the chain of a value determines whether it is
a proper list, how long it is and what its elements are, so conversions in either direction lose
nothing.
-/

namespace Sexpr

namespace Value

variable {items vs : List Value} {rest x : Value} {n : Ident}

/-! ## walks -/

/-- The walk that reads the elements ends well where the walk that looks for `nil` does. -/
theorem toList_eq_ok_iff : x.toList = .ok vs ↔ x.isProperList = true ∧ x.elements = vs := by
  rw [toList_eq, isProperList_eq]
  split <;> simp_all [failure]

/-- The elements of a chain that ends in `nil` are read, and those of no other. -/
theorem toList_eq_ok_iff_inFront : x.toList = .ok vs ↔ InFront 0 vs .nil x := by
  rw [toList_eq_ok_iff]
  constructor
  · rintro ⟨hproper, rfl⟩
    exact inFront_of_isProperList hproper
  · intro hchain
    exact ⟨isProperList_of_inFront hchain, by simp [elements_of_inFront hchain, elements]⟩

/-- What was read has the length of the value, and a new list of it is `equal` to the value. -/
theorem equal_list_of_toList (h : x.toList = .ok vs) (n : Ident) :
    vs.length = x.length ∧ equal ((list vs).run n).1 x = true := by
  have hchain := toList_eq_ok_iff_inFront.1 h
  obtain ⟨-, hlist⟩ := joins_listOnto vs .nil n
  constructor
  · simp [length_eq_length_elements, elements_of_inFront hchain, elements]
  · exact equal_iff_shape.2 ((shape_eq_iff_of_inFront (hlist.mono (Nat.zero_le n)) hchain).2 rfl)

theorem toList_list (items : List Value) (n : Ident) :
    ((list items).run n).1.toList = .ok items :=
  toList_eq_ok_iff_inFront.2 ((joins_listOnto items .nil n).2.mono (Nat.zero_le n))

/-! ## entries -/

/-- A pair and its two slots. -/
def HasSlots (v : Value) (slots : Value × Value) : Prop := ∃ id, v = .pair id slots.1 slots.2

theorem entry_eq_ok_iff {v : Value} {e : Value × Value} : v.entry = .ok e ↔ v.HasSlots e := by
  cases v with
  | pair id k x => cases e; simp [entry, HasSlots]
  | _ => simp [entry, failure, HasSlots]

/-- A step that can fail, then the rest: both succeed or nothing does. -/
theorem bind_eq_ok_iff {α β : Type} {r : Except Fault α} {k : α → Except Fault β} {b : β} :
    (r >>= k) = .ok b ↔ ∃ a, r = .ok a ∧ k a = .ok b := by
  cases r <;> simp [bind, Except.bind]

/-- The slots of pairs are read one by one, and only if all values are pairs. -/
theorem mapM_entry_eq_ok_iff {es : List (Value × Value)} :
    vs.mapM entry = .ok es ↔ List.Forall₂ HasSlots vs es := by
  induction vs generalizing es with
  | nil => simp [pure, Except.pure, eq_comm]
  | cons v vs ih =>
    simp only [List.mapM_cons, bind_eq_ok_iff, entry_eq_ok_iff, ih, pure, Except.pure,
      Except.ok.injEq]
    constructor
    · rintro ⟨e, he, es', hes', rfl⟩
      exact .cons he hes'
    · rintro (_ | ⟨he, hes'⟩)
      exact ⟨_, he, _, hes', rfl⟩

theorem exists_hasSlots_iff {v : Value} : (∃ slots, v.HasSlots slots) ↔ v.isPair = true := by
  cases v <;> simp [HasSlots, isPair]

theorem exists_forall₂_hasSlots_iff :
    (∃ es, List.Forall₂ HasSlots vs es) ↔ ∀ v ∈ vs, v.isPair = true := by
  induction vs with
  | nil => simp
  | cons v vs ih =>
    rw [List.forall_mem_cons, ← ih, ← exists_hasSlots_iff]
    constructor
    · rintro ⟨_, _ | ⟨he, hes⟩⟩
      exact ⟨⟨_, he⟩, _, hes⟩
    · rintro ⟨⟨e, he⟩, es, hes⟩
      exact ⟨e :: es, .cons he hes⟩

theorem toEntries_eq_ok_iff {es : List (Value × Value)} :
    x.toEntries = .ok es ↔ ∃ vs, x.toList = .ok vs ∧ List.Forall₂ HasSlots vs es := by
  simp only [toEntries, bind_eq_ok_iff, mapM_entry_eq_ok_iff]

theorem exists_toEntries_iff :
    (∃ es, x.toEntries = .ok es) ↔ x.isProperList = true ∧ ∀ v ∈ x.elements, v.isPair = true := by
  simp only [toEntries_eq_ok_iff, toList_eq_ok_iff, ← exists_forall₂_hasSlots_iff]
  constructor
  · rintro ⟨es, _, ⟨hproper, rfl⟩, hes⟩
    exact ⟨hproper, es, hes⟩
  · rintro ⟨hproper, es, hes⟩
    exact ⟨es, _, ⟨hproper, rfl⟩, hes⟩

/-- **Lists and values convert into each other without loss.**  A new list is the items in front of
the end that was given, and what is made of items without an end is read back as these items.  The
elements of a value can be read exactly when it is a proper list, and then they are as many as the
value is long and a list of them is `equal` to it.  Entries can be read exactly when the value is a
proper list of pairs, and then they are the slots of the pairs, in order. -/
theorem list_conversions (items : List Value) (rest x : Value) (n : Ident) :
    InFront n items rest ((listOnto items rest).run n).1 ∧
    ((list items).run n).1.toList = .ok items ∧
    (x.isProperList = true ↔ ∃ vs, x.toList = .ok vs) ∧
    (∀ vs, x.toList = .ok vs →
      InFront 0 vs .nil x ∧ vs.length = x.length ∧ equal ((list vs).run n).1 x = true) ∧
    ((∃ es, x.toEntries = .ok es) ↔ x.isProperList = true ∧ ∀ v ∈ x.elements, v.isPair = true) ∧
    (∀ es, x.toEntries = .ok es ↔ ∃ vs, x.toList = .ok vs ∧ List.Forall₂ HasSlots vs es) := by
  have hlist : x.isProperList = true ↔ ∃ vs, x.toList = .ok vs := by simp [toList_eq_ok_iff]
  exact ⟨(joins_listOnto items rest n).2, toList_list items n, hlist,
    fun vs h => ⟨toList_eq_ok_iff_inFront.1 h, equal_list_of_toList h n⟩, exists_toEntries_iff,
    fun es => toEntries_eq_ok_iff⟩

end Value

end Sexpr
