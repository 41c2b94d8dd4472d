import Mathlib
import Sexpr.Proofs.Alists

/-!
# Sexpr.Proofs.SnapshotReaders

What is found under a name of a snapshot to which values were added one after another.

A snapshot keeps every value that is added, also where the name is there already, and its readers
make of it what they need: a look-up searches from the end, an object is filled entry by entry, and
a merge fills the registry of a scope.  In each of them the last value under a name counts
(`Registry.isLast_lastUnder`).  An object that is merged in turn gives its entries in the order
of their keys, which ascend, so that no entry is lost there (`Value.ascending_objectOf`).
-/

namespace Sexpr

/-! ## the keys of an object -/

namespace Value

/-- The keys ascend. -/
def Ascending (entries : List (String × Value)) : Prop := entries.Pairwise fun e f => e.1 < f.1

theorem lt_of_mem_insertEntry {bound key : String} {v : Value} {entries : List (String × Value)}
    (hkey : bound < key) (hentries : ∀ e ∈ entries, bound < e.1) :
    ∀ e ∈ insertEntry key v entries, bound < e.1 := by
  fun_induction insertEntry key v entries with
  | case1 => simpa using hkey
  | case2 k x rest _ => exact List.forall_mem_cons.2 ⟨hkey, hentries⟩
  | case3 x rest _ => exact List.forall_mem_cons.2 ⟨hkey, (List.forall_mem_cons.1 hentries).2⟩
  | case4 k x rest _ _ ih =>
    obtain ⟨hk, hrest⟩ := List.forall_mem_cons.1 hentries
    exact List.forall_mem_cons.2 ⟨hk, ih hrest⟩

theorem Ascending.insertEntry {entries : List (String × Value)} (h : Ascending entries)
    (key : String) (v : Value) : Ascending (insertEntry key v entries) := by
  unfold Ascending at *
  fun_induction Value.insertEntry key v entries with
  | case1 => simp
  | case2 k x rest hlt =>
    obtain ⟨hk, hrest⟩ := List.pairwise_cons.1 h
    refine List.pairwise_cons.2 ⟨List.forall_mem_cons.2 ⟨hlt, fun e he => ?_⟩, h⟩
    exact lt_trans hlt (hk e he)
  | case3 x rest _ => exact List.pairwise_cons.2 (List.pairwise_cons.1 h)
  | case4 k x rest hlt hne ih =>
    obtain ⟨hk, hrest⟩ := List.pairwise_cons.1 h
    have hafter : k < key := lt_of_le_of_ne (not_lt.1 hlt) (Ne.symm hne)
    exact List.pairwise_cons.2 ⟨lt_of_mem_insertEntry hafter hk, ih hrest⟩

theorem ascending_objectOf (entries : List (String × Value)) : Ascending (objectOf entries) :=
  List.foldlRecOn (motive := Ascending) entries _ .nil fun _ h e _ => h.insertEntry e.1 e.2

theorem nodup_keys_objectOf (entries : List (String × Value)) :
    ((objectOf entries).map Prod.fst).Nodup :=
  List.pairwise_map.2 ((ascending_objectOf entries).imp fun h => ne_of_lt h)

/-- In an object the entry that is found first is the only one. -/
theorem lastUnder_objectOf (name : String) (entries : List (String × Value)) :
    Registry.lastUnder name (objectOf entries) = Registry.lastUnder name entries := by
  rw [← entry?_eq_lastUnder_of_nodup (nodup_keys_objectOf entries), entry?_objectOf]

end Value

/-! ## the last value under a name -/

/-- What the last entry under a name has, if there is one. -/
def IsLast {α : Type} (name : Symbol) (entries : List (Symbol × α)) : Option α → Prop
  | none => ∀ e ∈ entries, e.1 ≠ name
  | some value => ∃ before after, entries = before ++ (name, value) :: after ∧
      ∀ e ∈ after, e.1 ≠ name

theorem Registry.isLast_lastUnder {α : Type} (name : Symbol) (entries : List (Symbol × α)) :
    IsLast name entries (lastUnder name entries) := by
  induction entries with
  | nil => exact fun _ he => (List.not_mem_nil he).elim
  | cons e entries ih =>
    rw [lastUnder_cons]
    cases hlast : lastUnder name entries with
    | some value =>
      rw [hlast] at ih
      obtain ⟨before, after, hentries, hafter⟩ := ih
      exact ⟨e :: before, after, by rw [hentries, List.cons_append], hafter⟩
    | none =>
      rw [hlast] at ih
      rw [Option.none_or]
      split
      · next hname => exact ⟨[], entries, by rw [← hname, List.nil_append], ih⟩
      · next hname => exact List.forall_mem_cons.2 ⟨hname, ih⟩

namespace Snapshot

/-- The snapshot to which values were added one after another. -/
def ofValues (entries : List (Symbol × Value)) : Snapshot :=
  entries.foldl (fun s e => s.addValue e.1 e.2) {}

theorem ofValues_eq (entries : List (Symbol × Value)) :
    ofValues entries = { values := entries } := by
  have hfold : ∀ s : Snapshot, entries.foldl (fun s e => s.addValue e.1 e.2) s =
      { s with values := s.values ++ entries } := by
    induction entries with
    | nil => simp
    | cons e entries ih =>
      intro s
      rw [List.foldl_cons, ih, addValue, List.append_assoc, List.singleton_append]
  exact hfold {}

/-- All readers of a snapshot find the same under a name: a look-up in the snapshot, a look-up in
the object that it is turned into, and look-ups in new scopes into which the snapshot or the object
is merged. -/
structure ReadAs (s : Snapshot) (name : Symbol) (found : Option Value) : Prop where
  get? : s.get? name = found
  object (n : Ident) : ∃ entries, s.toObject.run n = (.object n entries, n + 1) ∧
    Value.entry? name entries = found
  merged (w : World) (limits : Limits) :
    ∃ w', (World.merge (w.newRoot limits).1 s).run (w.newRoot limits).2 = (.ok (), w') ∧
      w'.findValue (w.newRoot limits).1 name = found
  objectMerged (n : Ident) (w : World) (limits : Limits) :
    ∃ w', (World.mergeModule (w.newRoot limits).1 (s.toObject.run n).1).run (w.newRoot limits).2 =
        (.ok (), w') ∧
      w'.findValue (w.newRoot limits).1 name = found

/-- A new root finds what a snapshot of values that is installed in it has. -/
theorem findValue_install_newRoot (w : World) (limits : Limits) (entries : List (Symbol × Value))
    (name : Symbol) :
    ((w.newRoot limits).2.modifyFrame (w.newRoot limits).1.frame
        (·.install { values := entries })).findValue (w.newRoot limits).1 name =
      Registry.lastUnder name entries := by
  have hsize : (w.newRoot limits).1.frame < (w.newRoot limits).2.frames.size := by
    simp [World.newRoot]
  have hframe : (w.newRoot limits).2.frame (w.newRoot limits).1.frame = {} :=
    (World.frame_push w {} _ _ _).trans (if_pos rfl)
  have hempty : (w.newRoot limits).2.findValue (w.newRoot limits).1 name = none :=
    (World.find?_of_root rfl hframe Frame.values name).trans (Registry.get?_empty name)
  rw [(installed_install hsize { values := entries }).findValue_eq, hempty, Option.or_none]

theorem readAs_ofValues (entries : List (Symbol × Value)) (name : Symbol) :
    (ofValues entries).ReadAs name (Registry.lastUnder name entries) := by
  rw [ofValues_eq]
  have hfiled : ¬ Snapshot.Misfiled { values := entries } := by simp [Misfiled]
  refine ⟨rfl, fun n => ⟨_, rfl, Value.entry?_objectOf name entries⟩, fun w limits => ?_,
    fun n w limits => ?_⟩
  · exact ⟨_, World.run_merge_of_filed hfiled _ _, findValue_install_newRoot w limits entries name⟩
  · refine ⟨_, rfl, ?_⟩
    rw [← Value.lastUnder_objectOf]
    exact findValue_install_newRoot w limits (Value.objectOf entries) name

/-- **All readers of a snapshot agree on repeated names**: whatever values were added to it under
whatever names, a look-up in the snapshot, in its object, in a new root into which it was merged and
in a new root into which its object was merged find the value that was added last under the name,
or nothing when none was added. -/
theorem ofValues_readers_agree (entries : List (Symbol × Value)) (name : Symbol) :
    ∃ found, IsLast name entries found ∧ (ofValues entries).ReadAs name found :=
  ⟨_, Registry.isLast_lastUnder name entries, readAs_ofValues entries name⟩

end Snapshot

end Sexpr
