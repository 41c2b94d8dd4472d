import Sexpr.Proofs.Merging

/-!
# Sexpr.Proofs.Snapshot

Snapshots hold what can be seen from an environment.

A lookup walks the chain of frames from the inside and stops at the first definition.  A snapshot
walks it from the outside and lets later definitions replace earlier ones.  Both come to
the registry that the chain makes when it is flattened (`flatten`), so:

* `get?_flatten`: the flattened registry finds what a lookup finds;
* `snapshot_eq`: a snapshot is made of the flattened registries;
* `Grown.filed`: whatever was done to the scopes of a world, special forms and data types are filed
  under their own names, so that a snapshot can always be merged.
-/

namespace Sexpr

namespace World

variable {α : Type}

/-! ## flattening a chain -/

/-- The registry that the frames of a chain make together, the innermost frame first. -/
def flatten (w : World) (registry : Frame → Registry α) (frames : List Nat) : Registry α :=
  frames.foldr (fun i r => r.insertAll (registry (w.frame i)).entries) .empty

/-- The innermost definition counts. -/
theorem get?_flatten (w : World) (registry : Frame → Registry α) (frames : List Nat)
    (name : Symbol) :
    (w.flatten registry frames).get? name =
      frames.findSome? fun i => (registry (w.frame i)).get? name := by
  induction frames with
  | nil => exact Registry.get?_empty name
  | cons i frames ih =>
    have hcons : w.flatten registry (i :: frames) =
        (w.flatten registry frames).insertAll (registry (w.frame i)).entries := rfl
    rw [hcons, Registry.get?_insertAll, Registry.lastUnder_entries, ih, List.findSome?_cons]
    cases (registry (w.frame i)).get? name with
    | none => rw [Option.none_or]
    | some a => rw [Option.some_or]

/-- A chain of one frame is flat already. -/
theorem flatten_singleton (w : World) (registry : Frame → Registry α) (i : Nat) :
    w.flatten registry [i] = registry (w.frame i) :=
  Registry.insertAll_entries _

/-- The frame that the frames of an environment make together. -/
def flatFrame (w : World) (env : Env) : Frame where
  values := w.flatten Frame.values env.frames
  forms := w.flatten Frame.forms env.frames
  types := w.flatten Frame.types env.frames

theorem snapshot_eq (w : World) (env : Env) : w.snapshot env = (w.flatFrame env).toSnapshot := by
  unfold snapshot flatFrame
  congr 1
  rw [List.foldl_reverse]
  induction env.frames with
  | nil => rfl
  | cons i frames ih =>
    rw [List.foldr_cons, ih]
    rfl

/-- Installing what was taken out of a frame gives the frame back. -/
theorem install_toSnapshot (f : Frame) : ({} : Frame).install f.toSnapshot = f := by
  simp [Frame.install, Frame.toSnapshot, Registry.insertAll_entries]

/-- The flattened registry has what a lookup finds. -/
theorem mem_entries_flatten_iff (w : World) (env : Env) (registry : Frame → Registry α)
    (name : Symbol) (a : α) :
    (name, a) ∈ (w.flatten registry env.frames).entries ↔ w.find? env registry name = some a := by
  rw [← Registry.get?_eq_some_iff, get?_flatten]
  rfl

end World

/-! ## worlds that were grown -/

/-- The special forms and the data types of a frame are filed under their own names. -/
structure Frame.Filed (f : Frame) : Prop where
  form {name : Symbol} {g : Form} : f.forms.get? name = some g → name = g.name
  type {name : Symbol} {t : DataType} : f.types.get? name = some t → name = t.label

namespace Frame

theorem filed_of_empty {f : Frame} (hforms : f.forms = .empty) (htypes : f.types = .empty) :
    f.Filed where
  form h := by
    rw [hforms, Registry.get?_empty] at h
    cases h
  type h := by
    rw [htypes, Registry.get?_empty] at h
    cases h

/-- What is filed rightly is installed into a frame. -/
theorem Filed.install {f : Frame} (h : f.Filed) {s : Snapshot} (hs : ¬ s.Misfiled) :
    (f.install s).Filed where
  form {name g} hget := by
    rw [Frame.install, Registry.get?_insertAll] at hget
    rcases Option.or_eq_some_iff.1 hget with hlast | ⟨-, hbefore⟩
    · have hmem := Registry.mem_of_lastUnder hlast
      exact Classical.byContradiction fun hne => hs (.inl ⟨_, hmem, hne⟩)
    · exact h.form hbefore
  type {name t} hget := by
    rw [Frame.install, Registry.get?_insertAll] at hget
    rcases Option.or_eq_some_iff.1 hget with hlast | ⟨-, hbefore⟩
    · have hmem := Registry.mem_of_lastUnder hlast
      exact Classical.byContradiction fun hne => hs (.inr ⟨_, hmem, hne⟩)
    · exact h.type hbefore

end Frame

namespace World

/-- The worlds that come about by making environments and changing what they define.  The
environments of the operations are any; those that were made before are among them. -/
inductive Grown : World → Prop
  | empty : Grown {}
  | newRoot {w : World} (limits : Limits) : Grown w → Grown (w.newRoot limits).2
  | newChild {w : World} (env : Env) : Grown w → Grown (w.newChild env).2
  | extend {w : World} (env : Env) (params : List Symbol) (args : List Value) :
    Grown w → Grown (w.extend env params args).2
  | bind {w : World} (env : Env) (name : Symbol) (v : Value) : Grown w → Grown (w.bind env name v)
  | unbind {w : World} (env : Env) (name : Symbol) : Grown w → Grown (w.unbind env name)
  | installForm {w : World} (env : Env) (f : Form) : Grown w → Grown (w.installForm env f)
  | installType {w : World} (env : Env) (t : DataType) : Grown w → Grown (w.installType env t)
  | merge {w : World} (env : Env) (s : Snapshot) :
    Grown w → Grown ((World.merge env s).run w).2
  | mergeModule {w : World} (env : Env) (module : Value) :
    Grown w → Grown ((World.mergeModule env module).run w).2
  /-- Objects are made in between. -/
  | outside {w : World} (journal : Journal) : Grown w → Grown { w with journal }

/-- In a world that was grown, special forms and data types are filed under their own names. -/
theorem Grown.filed {w : World} (h : w.Grown) : ∀ i, (w.frame i).Filed := by
  induction h with
  | empty => exact fun _ => Frame.filed_of_empty rfl rfl
  | newRoot limits _ ih => exact forall_frame_push ih (Frame.filed_of_empty rfl rfl) _ _
  | newChild env _ ih => exact forall_frame_push ih (Frame.filed_of_empty rfl rfl) _ _
  | extend env params args _ ih =>
    exact forall_frame_push ih (Frame.filed_of_empty rfl rfl) _ _
  | bind env name v _ ih => exact forall_frame_modifyFrame ih _ fun _ hf => ⟨hf.form, hf.type⟩
  | unbind env name _ ih => exact forall_frame_modifyFrame ih _ fun _ hf => ⟨hf.form, hf.type⟩
  | installForm env g _ ih =>
    refine forall_frame_modifyFrame ih _ fun f hf => { hf with form := fun {name g'} hget => ?_ }
    rw [Registry.get?_insert] at hget
    split at hget
    · next hname =>
      cases hget
      exact hname.symm
    · exact hf.form hget
  | installType env t _ ih =>
    refine forall_frame_modifyFrame ih _ fun f hf => { hf with type := fun {name t'} hget => ?_ }
    rw [Registry.get?_insert] at hget
    split at hget
    · next hname =>
      cases hget
      exact hname.symm
    · exact hf.type hget
  | merge env s _ ih =>
    by_cases hs : s.Misfiled
    · rw [run_merge_of_misfiled hs]
      exact ih
    · rw [run_merge_of_filed hs]
      exact forall_frame_modifyFrame ih _ fun _ hf => hf.install hs
  | mergeModule env module _ ih =>
    rcases run_mergeModule_cases env module _ with hsame | hchanged
    · rw [hsame]
      exact ih
    · rw [hchanged]
      have hfiled : ¬ Snapshot.Misfiled { values := module.exports } := by
        simp [Snapshot.Misfiled]
      exact forall_frame_modifyFrame ih _ fun _ hf => hf.install hfiled
  | outside journal _ ih => exact ih

/-- What can be seen in a world that was grown is filed rightly. -/
theorem Grown.not_misfiled_snapshot {w : World} (h : w.Grown) (env : Env) :
    ¬ (w.snapshot env).Misfiled := by
  rw [snapshot_eq]
  rintro (⟨⟨name, g⟩, hmem, hne⟩ | ⟨⟨name, t⟩, hmem, hne⟩)
  · have hfind := (w.mem_entries_flatten_iff env Frame.forms name g).1 hmem
    obtain ⟨i, -, hi⟩ := List.exists_of_findSome?_eq_some hfind
    exact hne ((h.filed i).form hi)
  · have hfind := (w.mem_entries_flatten_iff env Frame.types name t).1 hmem
    obtain ⟨i, -, hi⟩ := List.exists_of_findSome?_eq_some hfind
    exact hne ((h.filed i).type hi)

/-! ## from one root to another -/

theorem flatFrame_of_root {w : World} {env : Env} {f : Frame} (houter : env.outer = [])
    (hframe : w.frame env.frame = f) : w.flatFrame env = f := by
  simp [flatFrame, Env.frames, houter, flatten_singleton, hframe]

/-- A new root into which a frame was merged has that frame. -/
theorem frame_install_newRoot (v : World) (limits : Limits) (f : Frame) :
    let root := v.newRoot limits
    (root.2.modifyFrame root.1.frame (·.install f.toSnapshot)).frame root.1.frame = f := by
  intro root
  have hin : root.1.frame < root.2.frames.size := by simp [root, newRoot]
  have hempty : root.2.frame root.1.frame = {} := (frame_push v {} _ _ _).trans (if_pos rfl)
  rw [frame_modifyFrame_self hin, hempty]
  exact install_toSnapshot f

/-- **A snapshot is faithful and can be merged back**: it holds a value, a special form or a data
type under a name exactly when a lookup finds that one, with no name twice; a new root
anywhere can be merged with it, finds what the environment finds, and has the same
snapshot. -/
theorem snapshot_faithful {w : World} (h : w.Grown) (env : Env) (v : World) (limits : Limits) :
    let s := w.snapshot env
    let root := (v.newRoot limits).1
    (∀ name x, (name, x) ∈ s.values ↔ w.findValue env name = some x) ∧
      (∀ name f, (name, f) ∈ s.forms ↔ w.findForm env name = some f) ∧
      (∀ name t, (name, t) ∈ s.types ↔ w.findType env name = some t) ∧
      (s.values.map Prod.fst).Nodup ∧ (s.forms.map Prod.fst).Nodup ∧
      (s.types.map Prod.fst).Nodup ∧
      ∃ v', (merge root s).run (v.newRoot limits).2 = (.ok (), v') ∧
        (∀ name, v'.findValue root name = w.findValue env name ∧
          v'.findForm root name = w.findForm env name ∧
          v'.findType root name = w.findType env name ∧
          v'.resolve root name = w.resolve env name) ∧
        v'.snapshot root = s := by
  intro s root
  have hs : s = (w.flatFrame env).toSnapshot := w.snapshot_eq env
  have hmerge := run_merge_of_filed (h.not_misfiled_snapshot env) root (v.newRoot limits).2
  have hframe := frame_install_newRoot v limits (w.flatFrame env)
  rw [snapshot_eq] at hmerge
  rw [hs]
  have hvalue := fun name => (find?_of_root rfl hframe Frame.values name).trans
    (w.get?_flatten Frame.values env.frames name)
  have hform := fun name => (find?_of_root rfl hframe Frame.forms name).trans
    (w.get?_flatten Frame.forms env.frames name)
  have htype := fun name => (find?_of_root rfl hframe Frame.types name).trans
    (w.get?_flatten Frame.types env.frames name)
  refine ⟨w.mem_entries_flatten_iff env Frame.values, w.mem_entries_flatten_iff env Frame.forms,
    w.mem_entries_flatten_iff env Frame.types, (w.flatFrame env).values.nodup_names,
    (w.flatFrame env).forms.nodup_names, (w.flatFrame env).types.nodup_names, _, hmerge,
    fun name => ⟨hvalue name, hform name, htype name, ?_⟩, ?_⟩
  · unfold resolve findValue findForm findType
    rw [hvalue, hform, htype]
    rfl
  · rw [snapshot_eq, flatFrame_of_root rfl hframe]

/-- A child that shadows a name of its root: the snapshot has the inner definition in the place of
the outer one, and merged into a new root it is the snapshot of that root. -/
theorem snapshot_faithful_shadowed :
    let root := newRoot {} {}
    let outer := (root.2.bind root.1 "x" (.bool true)).bind root.1 "y" .nil
    let child := (outer.newChild root.1).1
    let w := (outer.newChild root.1).2.bind child "x" (.bool false)
    let other := newRoot {} {}
    w.Grown ∧ ("x", .bool false) ∈ (w.snapshot child).values ∧
      ∃ v, (merge other.1 (w.snapshot child)).run other.2 = (.ok (), v) ∧
        v.resolve other.1 "x" = w.resolve child "x" ∧ v.snapshot other.1 = w.snapshot child := by
  intro root outer child w other
  have hgrown : w.Grown := ((((Grown.empty.newRoot _).bind _ _ _).bind _ _ _).newChild _).bind _ _ _
  obtain ⟨hvalues, -, -, -, -, -, v, hmerge, hfind, hsnapshot⟩ :=
    snapshot_faithful hgrown child {} {}
  obtain ⟨-, -, -, hresolve⟩ := hfind "x"
  have hx : w.findValue child "x" = some (.bool false) := rfl
  exact ⟨hgrown, (hvalues "x" _).2 hx, v, hmerge, hresolve, hsnapshot⟩

end World

end Sexpr
