import Sexpr.Proofs.Frames
import Sexpr.Standard

/-!
# Sexpr.Proofs.Standard

What a new standard environment defines.

The special forms, the functions and the data types are registered one after another, each under a
name of its own, so each of them is found afterwards (`World.get?_foldl`), in whatever world the
environment is made:

* `World.resolve_newStandard`: a name of a function stands for that function;
* `World.findType_newStandard`: a label of a data type leads to that type.
-/

namespace Sexpr

namespace World

variable {α β : Type}

/-- A definition is found after a list of definitions if no other of them has its name. -/
theorem get?_foldl {registry : Frame → Registry α} {step : World → β → World} {key : β → Symbol}
    {made : β → α → Prop} {i : Nat}
    (hstep : ∀ w e, i < w.frames.size → i < (step w e).frames.size ∧
      ∃ a, made e a ∧ registry ((step w e).frame i) = (registry (w.frame i)).insert (key e) a)
    {entries : List β} (hunique : ∀ e ∈ entries, ∀ e' ∈ entries, key e' = key e → e' = e)
    {w : World} (hw : i < w.frames.size) {e : β} (he : e ∈ entries) :
    ∃ a, made e a ∧ (registry ((entries.foldl step w).frame i)).get? (key e) = some a := by
  obtain ⟨before, after, rfl⟩ := List.append_of_mem he
  rw [List.foldl_append, List.foldl_cons]
  have hbefore : i < (before.foldl step w).frames.size :=
    List.foldlRecOn before step hw fun w hw e _ => (hstep w e hw).1
  obtain ⟨hsize, a, ha, hinsert⟩ := hstep _ e hbefore
  -- later definitions keep the entry, or they are the same one once more
  refine (List.foldlRecOn (motive := fun w => i < w.frames.size ∧
    ∃ a, made e a ∧ (registry (w.frame i)).get? (key e) = some a) after step ?_ ?_).2
  · refine ⟨hsize, a, ha, ?_⟩
    rw [hinsert, Registry.get?_insert, if_pos rfl]
  · rintro w ⟨hw, a, ha, hget⟩ e' he'
    obtain ⟨hsize, a', ha', hinsert⟩ := hstep w e' hw
    refine ⟨hsize, ?_⟩
    rw [hinsert, Registry.get?_insert]
    by_cases hkey : key e' = key e
    · have hsame := hunique e he e' (by simp [he']) hkey
      exact ⟨a', hsame ▸ ha', if_pos hkey⟩
    · exact ⟨a, ha, by rw [if_neg hkey, hget]⟩

/-! ## registrations -/

section

variable {w : World} {env : Env}

theorem size_registerForms (w : World) (env : Env) :
    (w.registerForms env).frames.size = w.frames.size := by
  unfold registerForms
  refine List.foldlRecOn (motive := fun v : World => v.frames.size = w.frames.size) standardForms
    (fun w (e : Symbol × Rule) => registerForm env w e.1 e.2) rfl fun v hv e _ => ?_
  have hsize : (registerForm env v e.1 e.2).frames.size = v.frames.size := Array.size_modify
  rw [hsize, hv]

/-- A function is bound under its name. -/
theorem registerFunction_frame (h : env.frame < w.frames.size) (e : String × Arity × Code) :
    env.frame < (registerFunction env w e.1 e.2.1 e.2.2).frames.size ∧
      ∃ v, (∃ id, v = Value.native id e.1 e.2.1 e.2.2) ∧
        ((registerFunction env w e.1 e.2.1 e.2.2).frame env.frame).values =
          (w.frame env.frame).values.insert e.1 v := by
  have hsize : (registerFunction env w e.1 e.2.1 e.2.2).frames.size = w.frames.size :=
    size_frames_bind w.newIdent.2 env _ _
  refine ⟨by rw [hsize]; exact h, _, ⟨w.newIdent.1, rfl⟩, ?_⟩
  exact congrArg Frame.values (frame_bind_self (w := w.newIdent.2) h e.1 _)

theorem frame_installType_self (h : env.frame < w.frames.size) (t : DataType) :
    (w.installType env t).frame env.frame =
      { w.frame env.frame with types := (w.frame env.frame).types.insert t.label t } :=
  frame_modifyFrame_self h

/-- A data type is registered under its label, and nothing is bound. -/
theorem registerType_frame (h : env.frame < w.frames.size) (e : Symbol × Guard) :
    env.frame < (registerType env w e.1 e.2).frames.size ∧
      (∃ t, (∃ ident, t = { ident, label := e.1, guard := e.2, maker := .identity }) ∧
        ((registerType env w e.1 e.2).frame env.frame).types =
          (w.frame env.frame).types.insert e.1 t) ∧
      ((registerType env w e.1 e.2).frame env.frame).values = (w.frame env.frame).values := by
  have hsize : (registerType env w e.1 e.2).frames.size = w.frames.size := Array.size_modify
  have hframe : (registerType env w e.1 e.2).frame env.frame =
      { w.frame env.frame with
        types := (w.frame env.frame).types.insert e.1 ⟨w.newIdent.1, e.1, e.2, .identity⟩ } :=
    frame_installType_self (w := w.newIdent.2) h _
  rw [hsize, hframe]
  exact ⟨h, ⟨_, ⟨_, rfl⟩, rfl⟩, rfl⟩

/-- The constants are bound in a frame that is there. -/
theorem lt_size_constants (h : env.frame < w.frames.size) :
    env.frame < ((w.bind env "nil" .nil).bind env "t" (.bool true)).frames.size := by
  rwa [size_frames_bind, size_frames_bind]

/-- Each function of the language is bound. -/
theorem findHere_registerFunctions (h : env.frame < w.frames.size) {name : String} {arity : Arity}
    {code : Code} (he : (name, arity, code) ∈ Code.standard) :
    ∃ id, (w.registerFunctions env).findHere env name = some (.native id name arity code) := by
  have hunique : ∀ e ∈ Code.standard, ∀ e' ∈ Code.standard, e'.1 = e.1 → e' = e := by
    decide +kernel
  obtain ⟨v, ⟨id, rfl⟩, hget⟩ :=
    get?_foldl (fun _ e h => registerFunction_frame h e) hunique (lt_size_constants h) he
  exact ⟨id, hget⟩

theorem lt_size_registerFunctions (h : env.frame < w.frames.size) :
    env.frame < (w.registerFunctions env).frames.size := by
  unfold registerFunctions
  exact List.foldlRecOn (motive := fun v : World => env.frame < v.frames.size) Code.standard _
    (lt_size_constants h) fun v hv e _ => (registerFunction_frame hv e).1

theorem values_registerTypes (h : env.frame < w.frames.size) :
    ((w.registerTypes env).frame env.frame).values = (w.frame env.frame).values := by
  have hkept := List.foldlRecOn (motive := fun v : World => env.frame < v.frames.size ∧
      (v.frame env.frame).values = (w.frame env.frame).values) standardTypes
    (fun w (e : Symbol × Guard) => registerType env w e.1 e.2) ⟨h, rfl⟩
    fun v hv e _ => ⟨(registerType_frame hv.1 e).1, (registerType_frame hv.1 e).2.2.trans hv.2⟩
  exact hkept.2

end

/-! ## the standard environment -/

/-- The frame of a new root is there while the functions are registered. -/
theorem lt_size_newRoot (w : World) (limits : Limits) :
    (w.newRoot limits).1.frame <
      ((w.newRoot limits).2.registerForms (w.newRoot limits).1).frames.size := by
  rw [size_registerForms]
  simp [newRoot]

/-- In a new standard environment, the name of a function stands for the function. -/
theorem resolve_newStandard (w : World) (limits : Limits) {name : String} {arity : Arity}
    {code : Code} (he : (name, arity, code) ∈ Code.standard) :
    ∃ id, (w.newStandard limits).2.resolve (w.newStandard limits).1 name =
      some (.native id name arity code) := by
  have hsize := w.lt_size_newRoot limits
  obtain ⟨id, hbound⟩ := findHere_registerFunctions hsize he
  refine ⟨id, ?_⟩
  have hvalues := values_registerTypes (lt_size_registerFunctions hsize)
  have hfind : (w.newStandard limits).2.findValue (w.newStandard limits).1 name =
      some (.native id name arity code) := by
    rw [findValue, find?_of_root rfl rfl]
    exact (congrArg (·.get? name) hvalues).trans hbound
  rw [resolve, hfind]

end World

end Sexpr
