import Sexpr.Proofs.Registry
import Sexpr.World.Basic

/-!
# Sexpr.Proofs.Frames

How the changes of a world show in its frames.

A binding changes the values of one frame, a call adds a frame, and a lookup reads the frames of
its environment only.
-/

namespace Sexpr

/-! ## frames -/

namespace World

theorem frame_of_size_le {w : World} {i : Nat} (h : w.frames.size ≤ i) : w.frame i = {} := by
  simp [frame, Array.getElem?_eq_none h]

/-- A change of a frame that is there shows in that frame and in no other. -/
theorem frame_modifyFrame (w : World) (i j : Nat) (f : Frame → Frame) :
    (w.modifyFrame i f).frame j =
      if i = j ∧ i < w.frames.size then f (w.frame j) else w.frame j := by
  unfold frame modifyFrame
  rw [Array.getD_eq_getD_getElem?, Array.getD_eq_getD_getElem?, Array.getElem?_modify]
  by_cases hi : i = j
  · subst hi
    by_cases hlt : i < w.frames.size
    · simp [hlt]
    · simp [hlt]
  · simp [hi]

theorem frame_modifyFrame_of_ne {w : World} {i j : Nat} {f : Frame → Frame} (h : i ≠ j) :
    (w.modifyFrame i f).frame j = w.frame j := by
  simp [frame_modifyFrame, h]

theorem frame_modifyFrame_self {w : World} {i : Nat} {f : Frame → Frame}
    (h : i < w.frames.size) : (w.modifyFrame i f).frame i = f (w.frame i) := by
  simp [frame_modifyFrame, h]

/-- What holds of all frames holds after a change that keeps it. -/
theorem forall_frame_modifyFrame {F : Frame → Prop} {w : World} (h : ∀ i, F (w.frame i)) (i : Nat)
    {f : Frame → Frame} (hf : ∀ frame, F frame → F (f frame)) (j : Nat) :
    F ((w.modifyFrame i f).frame j) := by
  rw [frame_modifyFrame]
  split
  · exact hf _ (h j)
  · exact h j

/-- A frame that is added comes after those that are there. -/
theorem frame_push (w : World) (frame : Frame) (sessions : Array Session) (journal : Journal)
    (i : Nat) :
    World.frame { frames := w.frames.push frame, sessions, journal } i =
      if i = w.frames.size then frame else w.frame i := by
  unfold World.frame
  rw [Array.getD_eq_getD_getElem?, Array.getD_eq_getD_getElem?, Array.getElem?_push]
  split <;> rfl

/-- What holds of all frames and of a frame that is added holds of all frames afterwards. -/
theorem forall_frame_push {F : Frame → Prop} {w : World} (h : ∀ i, F (w.frame i)) {frame : Frame}
    (hframe : F frame) (sessions : Array Session) (journal : Journal) (i : Nat) :
    F (World.frame { frames := w.frames.push frame, sessions, journal } i) := by
  rw [frame_push]
  split
  · exact hframe
  · exact h i

theorem size_frames_bind (w : World) (env : Env) (name : Symbol) (v : Value) :
    (w.bind env name v).frames.size = w.frames.size := by
  unfold bind modifyFrame
  exact Array.size_modify

/-- A binding changes the values of the innermost scope. -/
theorem frame_bind_self {w : World} {env : Env} (h : env.frame < w.frames.size) (name : Symbol)
    (v : Value) :
    (w.bind env name v).frame env.frame =
      { w.frame env.frame with values := (w.frame env.frame).values.insert name v } :=
  frame_modifyFrame_self h

theorem frame_bind_of_ne {w : World} {env : Env} {i : Nat} (h : env.frame ≠ i) (name : Symbol)
    (v : Value) : (w.bind env name v).frame i = w.frame i :=
  frame_modifyFrame_of_ne h

/-- A new scope comes after those that are there. -/
theorem frame_extend_of_lt {w : World} {env : Env} {params : List Symbol} {args : List Value}
    {i : Nat} (h : i < w.frames.size) : (w.extend env params args).2.frame i = w.frame i :=
  (frame_push w _ _ _ i).trans (if_neg (Nat.ne_of_lt h))

/-- The scopes of an environment are there. -/
def Holds (w : World) (env : Env) : Prop := ∀ i ∈ env.frames, i < w.frames.size

theorem findSome?_congr {α : Type} {frames : List Nat} {look look' : Nat → Option α}
    (h : ∀ i ∈ frames, look' i = look i) : frames.findSome? look' = frames.findSome? look := by
  induction frames with
  | nil => rfl
  | cons i frames ih =>
    obtain ⟨hi, hrest⟩ := List.forall_mem_cons.1 h
    rw [List.findSome?_cons, List.findSome?_cons, hi, ih hrest]

/-- A lookup reads the frames of its environment only. -/
theorem find?_congr {α : Type} {w w' : World} {env : Env}
    (h : ∀ i ∈ env.frames, w'.frame i = w.frame i) (registry : Frame → Registry α)
    (name : Symbol) : w'.find? env registry name = w.find? env registry name :=
  findSome?_congr fun i hi => by rw [h i hi]

/-- An environment of one frame sees what that frame has. -/
theorem find?_of_root {α : Type} {w : World} {env : Env} {f : Frame} (houter : env.outer = [])
    (hframe : w.frame env.frame = f) (registry : Frame → Registry α) (name : Symbol) :
    w.find? env registry name = (registry f).get? name := by
  unfold find?
  rw [Env.frames, houter, List.findSome?_singleton, hframe]

theorem resolve_congr {w w' : World} {env : Env} (h : ∀ i ∈ env.frames, w'.frame i = w.frame i)
    (name : Symbol) : w'.resolve env name = w.resolve env name := by
  unfold resolve findValue findForm findType
  rw [find?_congr h, find?_congr h, find?_congr h]

/-- A bound name stands for its value where it was bound. -/
theorem resolve_bind_self {w : World} {env : Env} (h : env.frame < w.frames.size) (name : Symbol)
    (v : Value) : (w.bind env name v).resolve env name = some v := by
  have hhere : ((w.bind env name v).frame env.frame).values.get? name = some v := by
    rw [frame_bind_self h, Registry.get?_insert, if_pos rfl]
  have hfind : (w.bind env name v).findValue env name = some v := by
    unfold findValue find? Env.frames
    rw [List.findSome?_cons, hhere]
  unfold resolve
  rw [hfind]

end World

/-! ## properties of all definitions -/

/-- Every definition of a frame has the property, as the value that its name stands for. -/
structure Frame.Every (P : Value → Prop) (f : Frame) : Prop where
  value {name : Symbol} {v : Value} : f.values.get? name = some v → P v
  form {name : Symbol} {g : Form} : f.forms.get? name = some g → P (.form g)
  type {name : Symbol} {t : DataType} : f.types.get? name = some t → P (.dataType t)

/-- What the names of a frame stand for. -/
inductive Frame.Defines (f : Frame) : Value → Prop
  | value {name : Symbol} {v : Value} : f.values.get? name = some v → f.Defines v
  | form {name : Symbol} {g : Form} : f.forms.get? name = some g → f.Defines (.form g)
  | type {name : Symbol} {t : DataType} : f.types.get? name = some t → f.Defines (.dataType t)

theorem Frame.every_iff {P : Value → Prop} {f : Frame} :
    f.Every P ↔ ∀ v, f.Defines v → P v := by
  constructor
  · intro h v hv
    cases hv with
    | value hget => exact h.value hget
    | form hget => exact h.form hget
    | type hget => exact h.type hget
  · intro h
    exact {
      value := fun hget => h _ (.value hget)
      form := fun hget => h _ (.form hget)
      type := fun hget => h _ (.type hget) }

/-- A name stands for what a frame of the environment defines. -/
theorem World.exists_defines_of_resolve {w : World} {env : Env} {name : Symbol} {v : Value}
    (hv : w.resolve env name = some v) : ∃ i ∈ env.frames, (w.frame i).Defines v := by
  unfold resolve at hv
  split at hv
  · next u hu =>
    cases hv
    obtain ⟨i, hi, hget⟩ := List.exists_of_findSome?_eq_some hu
    exact ⟨i, hi, .value hget⟩
  · split at hv
    · next g hg =>
      cases hv
      obtain ⟨i, hi, hget⟩ := List.exists_of_findSome?_eq_some hg
      exact ⟨i, hi, .form hget⟩
    · obtain ⟨t, ht, rfl⟩ := Option.map_eq_some_iff.1 hv
      obtain ⟨i, hi, hget⟩ := List.exists_of_findSome?_eq_some ht
      exact ⟨i, hi, .type hget⟩

/-- Every definition of a world has the property. -/
def World.Every (P : Value → Prop) (w : World) : Prop := ∀ i, (w.frame i).Every P

section

variable {P : Value → Prop} {w : World}

theorem Frame.every_empty : Frame.Every P {} where
  value h := by cases (Registry.get?_empty _).symm.trans h
  form h := by cases (Registry.get?_empty _).symm.trans h
  type h := by cases (Registry.get?_empty _).symm.trans h

/-- One more binding. -/
theorem Frame.Every.insert {f : Frame} (h : f.Every P) (name : Symbol) {v : Value} (hv : P v) :
    Frame.Every P { f with values := f.values.insert name v } := by
  refine { h with value := fun {other u} hget => ?_ }
  rw [Registry.get?_insert] at hget
  split at hget
  · cases hget
    exact hv
  · exact h.value hget

/-- The scope of a call. -/
theorem Frame.every_arguments (params : List Symbol) {args : List Value} (h : ∀ x ∈ args, P x) :
    Frame.Every P { values := Registry.empty.insertAll (params.zip args) } := by
  refine { Frame.every_empty with value := fun {name v} hget => ?_ }
  rw [Registry.get?_insertAll, Registry.get?_empty, Option.or_none] at hget
  exact h _ (List.of_mem_zip (Registry.mem_of_lastUnder hget)).2

namespace World

theorem every_empty : World.Every P {} := fun _ => Frame.every_empty

namespace Every

theorem modifyFrame (h : w.Every P) (i : Nat) {f : Frame → Frame}
    (hf : ∀ frame, frame.Every P → (f frame).Every P) : (w.modifyFrame i f).Every P :=
  forall_frame_modifyFrame h i hf

theorem bind (h : w.Every P) (env : Env) (name : Symbol) {v : Value} (hv : P v) :
    (w.bind env name v).Every P :=
  h.modifyFrame _ fun _ hframe => hframe.insert name hv

theorem installForm (h : w.Every P) (env : Env) {g : Form} (hg : P (.form g)) :
    (w.installForm env g).Every P := by
  refine h.modifyFrame _ fun frame hframe => { hframe with form := fun {other u} hget => ?_ }
  rw [Registry.get?_insert] at hget
  split at hget
  · cases hget
    exact hg
  · exact hframe.form hget

theorem installType (h : w.Every P) (env : Env) {t : DataType} (ht : P (.dataType t)) :
    (w.installType env t).Every P := by
  refine h.modifyFrame _ fun frame hframe => { hframe with type := fun {other u} hget => ?_ }
  rw [Registry.get?_insert] at hget
  split at hget
  · cases hget
    exact ht
  · exact hframe.type hget

/-- A frame that is added. -/
theorem push (h : w.Every P) {frame : Frame} (hframe : frame.Every P) {sessions : Array Session}
    {journal : Journal} :
    World.Every P { frames := w.frames.push frame, sessions, journal } :=
  forall_frame_push h hframe sessions journal

theorem newRoot (h : w.Every P) (limits : Limits) : (w.newRoot limits).2.Every P :=
  h.push Frame.every_empty

theorem extend (h : w.Every P) (env : Env) (params : List Symbol) {args : List Value}
    (hargs : ∀ x ∈ args, P x) : (w.extend env params args).2.Every P :=
  h.push (Frame.every_arguments params hargs)

/-- A name stands for one of the definitions. -/
theorem resolve (h : w.Every P) {env : Env} {name : Symbol} {v : Value}
    (hv : w.resolve env name = some v) : P v := by
  obtain ⟨i, -, hdefines⟩ := exists_defines_of_resolve hv
  exact Frame.every_iff.1 (h i) v hdefines

end Every

end World

end

end Sexpr
