import Sexpr.Proofs.Merging

/-!
# Sexpr.Proofs.Isolation

What a change of one scope shows elsewhere.

Every way to change the definitions of a scope (`Edit`) is a list of insertions and removals for
each of its three registries.  A lookup walks the frames of its environment and
stops at the first that defines the name, so it can notice such a change only if

* the change is about that name, in the registry that is looked at;
* the changed scope is on the chain, that is, the environment's own or one further out;
* no scope that is nearer defines the name (`World.Exposed`).

Where all three hold, the lookup finds what the change has left, or goes on further out.
-/

namespace Sexpr

variable {α : Type}

/-! ## changes of a registry -/

namespace Registry

/-- The last of some changes that is about a name. -/
def lastChange? (name : Symbol) (changes : List (Change α)) : Option (Change α) :=
  changes.reverse.find? (·.name = name)

theorem lastChange?_cons (name : Symbol) (c : Change α) (changes : List (Change α)) :
    lastChange? name (c :: changes) =
      (lastChange? name changes).or (if c.name = name then some c else none) := by
  unfold lastChange?
  rw [List.reverse_cons, List.find?_append]
  by_cases h : c.name = name <;> simp [h]

theorem mem_of_lastChange? {name : Symbol} {changes : List (Change α)} {c : Change α}
    (h : lastChange? name changes = some c) : c ∈ changes ∧ c.name = name := by
  have hmem := List.mem_of_find?_eq_some h
  have hname := List.find?_some h
  exact ⟨List.mem_reverse.1 hmem, by simpa using hname⟩

theorem get?_apply (r : Registry α) (c : Change α) (name : Symbol) :
    (c.apply r).get? name = if c.name = name then c.value? else r.get? name := by
  cases c with
  | insert n value => exact get?_insert r n name value
  | remove n => exact get?_erase r n name

/-- The last change of a name decides, and without one the registry as it was. -/
theorem get?_foldl_apply (r : Registry α) (changes : List (Change α)) (name : Symbol) :
    (changes.foldl Change.apply r).get? name =
      match lastChange? name changes with
      | some c => c.value?
      | none => r.get? name := by
  induction changes generalizing r with
  | nil => rfl
  | cons c changes ih =>
    rw [List.foldl_cons, ih, lastChange?_cons]
    cases lastChange? name changes with
    | some d => rfl
    | none =>
      rw [get?_apply, Option.none_or]
      by_cases h : c.name = name <;> simp [h]

/-- Inserting entries one after another is a list of changes. -/
theorem foldl_apply_insert (r : Registry α) (entries : List (Symbol × α)) :
    (entries.map fun e => Change.insert e.1 e.2).foldl Change.apply r = r.insertAll entries := by
  rw [List.foldl_map]
  rfl

end Registry

/-! ## edits of a scope -/

instance (s : Snapshot) : Decidable s.Misfiled :=
  inferInstanceAs
    (Decidable ((∃ e ∈ s.forms, e.1 ≠ e.2.name) ∨ ∃ e ∈ s.types, e.1 ≠ e.2.label))

/-- Whether a value is a module is found out by reading it. -/
instance (v : Value) : Decidable v.IsModule :=
  decidable_of_iff ((World.moduleBindings v).toBool = true) <| by
    rcases World.moduleBindings_cases v with ⟨hread, hmodule⟩ | ⟨f, hread, -, hmodule⟩
    · simp [hread, Except.toBool, hmodule]
    · simp [hread, Except.toBool, hmodule]

/-- An operation on the innermost scope of an environment. -/
inductive Edit where
  | bind (name : Symbol) (v : Value)
  | unbind (name : Symbol)
  | installForm (form : Form)
  | installType (t : DataType)
  | merge (s : Snapshot)
  | mergeModule (module : Value)

namespace Edit

/-- The world after the operation, whether it was refused or not. -/
def run (env : Env) (w : World) : Edit → World
  | .bind name v => w.bind env name v
  | .unbind name => w.unbind env name
  | .installForm form => w.installForm env form
  | .installType t => w.installType env t
  | .merge s => ((World.merge env s).run w).2
  | .mergeModule module => ((World.mergeModule env module).run w).2

/-- What the operation does to the values of the scope. -/
def values : Edit → List (Registry.Change Value)
  | .bind name v => [.insert name v]
  | .unbind name => [.remove name]
  | .merge s => if s.Misfiled then [] else s.values.map fun e => .insert e.1 e.2
  | .mergeModule module =>
    if module.IsModule then module.exports.map fun e => .insert e.1 e.2 else []
  | _ => []

/-- What the operation does to the special forms of the scope. -/
def forms : Edit → List (Registry.Change Form)
  | .installForm form => [.insert form.name form]
  | .merge s => if s.Misfiled then [] else s.forms.map fun e => .insert e.1 e.2
  | _ => []

/-- What the operation does to the data types of the scope. -/
def types : Edit → List (Registry.Change DataType)
  | .installType t => [.insert t.label t]
  | .merge s => if s.Misfiled then [] else s.types.map fun e => .insert e.1 e.2
  | _ => []

/-- The scope after the operation. -/
def amend (edit : Edit) (f : Frame) : Frame where
  values := edit.values.foldl Registry.Change.apply f.values
  forms := edit.forms.foldl Registry.Change.apply f.forms
  types := edit.types.foldl Registry.Change.apply f.types

theorem amend_merge {s : Snapshot} (h : ¬ s.Misfiled) (f : Frame) :
    (merge s).amend f = f.install s := by
  simp only [amend, values, forms, types, if_neg h, Registry.foldl_apply_insert]
  rfl

theorem amend_mergeModule {module : Value} (h : module.IsModule) (f : Frame) :
    (mergeModule module).amend f = f.install { values := module.exports } := by
  simp only [amend, values, forms, types, if_pos h, Registry.foldl_apply_insert]
  rfl

/-- The operation changes the innermost scope and no other. -/
theorem frame_run (edit : Edit) (env : Env) (w : World) (i : Nat) :
    (edit.run env w).frame i =
      if env.frame = i ∧ env.frame < w.frames.size then edit.amend (w.frame i)
      else w.frame i := by
  cases edit with
  | bind name v => exact w.frame_modifyFrame env.frame i _
  | unbind name => exact w.frame_modifyFrame env.frame i _
  | installForm form => exact w.frame_modifyFrame env.frame i _
  | installType t => exact w.frame_modifyFrame env.frame i _
  | merge s =>
    by_cases h : s.Misfiled
    · have hsame : (merge s).amend (w.frame i) = w.frame i := by
        simp only [amend, values, forms, types, if_pos h, List.foldl_nil]
      simp only [run, World.run_merge_of_misfiled h, hsame, ite_self]
    · simp only [run, World.run_merge_of_filed h, World.frame_modifyFrame, amend_merge h]
  | mergeModule module =>
    rcases World.moduleBindings_cases module with ⟨hread, hmodule⟩ | ⟨f, hread, -, hmodule⟩
    · have hrun : (mergeModule module).run env w =
          w.modifyFrame env.frame (·.install { values := module.exports }) := by
        simp only [run, World.mergeModule, hread]
        rfl
      rw [hrun, World.frame_modifyFrame, amend_mergeModule hmodule]
    · have hrun : (mergeModule module).run env w = w := by
        simp only [run, World.mergeModule, hread]
        rfl
      have hsame : (mergeModule module).amend (w.frame i) = w.frame i := by
        simp only [amend, values, forms, types, if_neg hmodule, List.foldl_nil]
      rw [hrun, hsame, ite_self]

end Edit

/-! ## lookups -/

namespace World

/-- From an environment, what a scope defines under a name can be seen: the scope is on the chain,
and no scope that is nearer defines the name. -/
def Exposed (w : World) (env : Env) (scope : Nat) (registry : Frame → Registry α)
    (name : Symbol) : Prop :=
  ∃ nearer farther, env.frames = nearer ++ scope :: farther ∧
    ∀ i ∈ nearer, (registry (w.frame i)).get? name = none

/-- A walk along frames notices a change of one frame only if it comes to that frame. -/
theorem findSome?_eq_or_exposed {look look' : Nat → Option α} {scope : Nat} {frames : List Nat}
    (h : ∀ i, i ≠ scope → look' i = look i) :
    frames.findSome? look' = frames.findSome? look ∨
      ∃ nearer farther, frames = nearer ++ scope :: farther ∧ ∀ i ∈ nearer, look i = none := by
  induction frames with
  | nil => exact .inl rfl
  | cons i frames ih =>
    by_cases hi : i = scope
    · exact .inr ⟨[], frames, by rw [hi]; rfl, by simp⟩
    · rw [List.findSome?_cons, List.findSome?_cons, h i hi]
      cases hlook : look i with
      | some a => exact .inl rfl
      | none =>
        rcases ih with hsame | ⟨nearer, farther, hframes, hnone⟩
        · exact .inl hsame
        · refine .inr ⟨i :: nearer, farther, by rw [hframes]; rfl, ?_⟩
          simpa [hlook] using hnone

/-- A walk comes to a frame when the frames before it have nothing, or the same as that frame. -/
theorem findSome?_append_cons {look : Nat → Option α} {found : Option α} {scope : Nat}
    {nearer : List Nat} (farther : List Nat)
    (hnearer : ∀ i ∈ nearer, look i = none ∨ look i = found) (hscope : look scope = found) :
    (nearer ++ scope :: farther).findSome? look = found.or (farther.findSome? look) := by
  induction nearer with
  | nil =>
    rw [List.nil_append, List.findSome?_cons, hscope]
    cases found with
    | none => rfl
    | some a => rfl
  | cons i nearer ih =>
    obtain ⟨hi, hrest⟩ := List.forall_mem_cons.1 hnearer
    rw [List.cons_append, List.findSome?_cons, ih hrest]
    rcases hi with hi | hi
    · rw [hi]
    · rw [hi]
      cases found with
      | none => rfl
      | some a => rfl

/-- What the lookup of a name in one registry has to do with a change of a scope: it gives something
else only if the change is about the name and the scope is exposed, and then it finds what the last
change of the name has left, or what is found further out. -/
structure Isolated (registry : Frame → Registry α) (changes : List (Registry.Change α))
    (scope : Nat) (env : Env) (name : Symbol) (w w' : World) : Prop where
  touched : w'.find? env registry name ≠ w.find? env registry name →
    ∃ c ∈ changes, c.name = name
  exposed : w'.find? env registry name ≠ w.find? env registry name →
    w.Exposed env scope registry name
  found {nearer farther : List Nat} {c : Registry.Change α} :
    env.frames = nearer ++ scope :: farther →
    (∀ i ∈ nearer, (registry (w.frame i)).get? name = none) →
    scope < w.frames.size → Registry.lastChange? name changes = some c →
      w'.find? env registry name =
        c.value?.or (farther.findSome? fun i => (registry (w'.frame i)).get? name)

/-- A change of one frame that is a list of changes of the registry. -/
theorem isolated_of_frame {registry : Frame → Registry α} {changes : List (Registry.Change α)}
    {scope : Nat} {w w' : World} {amend : Frame → Frame}
    (hframe : ∀ i, w'.frame i =
      if scope = i ∧ scope < w.frames.size then amend (w.frame i) else w.frame i)
    (hamend : ∀ f, registry (amend f) = changes.foldl Registry.Change.apply (registry f))
    (env : Env) (name : Symbol) : Isolated registry changes scope env name w w' where
  touched hchanged := by
    cases hlast : Registry.lastChange? name changes with
    | some c => exact ⟨c, Registry.mem_of_lastChange? hlast⟩
    | none =>
      refine (hchanged ?_).elim
      have hsame : ∀ i, (registry (w'.frame i)).get? name = (registry (w.frame i)).get? name := by
        intro i
        rw [hframe]
        split
        · rw [hamend, Registry.get?_foldl_apply, hlast]
        · rfl
      simp only [find?, hsame]
  exposed hchanged := by
    have helse : ∀ i, i ≠ scope →
        (registry (w'.frame i)).get? name = (registry (w.frame i)).get? name := by
      intro i hi
      rw [hframe, if_neg fun h => hi h.1.symm]
    exact (findSome?_eq_or_exposed helse).resolve_left hchanged
  found {nearer farther c} hframes hnearer hscope hlast := by
    have hhere : (registry (w'.frame scope)).get? name = c.value? := by
      rw [hframe, if_pos ⟨rfl, hscope⟩, hamend, Registry.get?_foldl_apply, hlast]
    rw [find?, hframes]
    refine findSome?_append_cons farther (fun i hi => ?_) hhere
    by_cases heq : i = scope
    · exact .inr (heq ▸ hhere)
    · exact .inl (by rw [hframe, if_neg fun h => heq h.1.symm, hnearer i hi])

end World

/-- The environment in which an environment was made, if it is no root. -/
def Env.parent? (env : Env) : Option Env :=
  match env.outer with
  | [] => none
  | frame :: outer => some { session := env.session, frame, outer }

namespace World

/-- Where the innermost scope does not define a name, the parent decides. -/
theorem find?_eq_parent {w : World} {env : Env} {registry : Frame → Registry α} {name : Symbol}
    (h : (registry (w.frame env.frame)).get? name = none) :
    w.find? env registry name = env.parent?.bind fun parent => w.find? parent registry name := by
  unfold find? Env.parent?
  rw [Env.frames, List.findSome?_cons, h]
  cases env.outer with
  | nil => rfl
  | cons frame outer => rfl

/-- A name that was removed from a scope is looked up in the parent. -/
theorem findValue_unbind_self (w : World) (env : Env) (name : Symbol) :
    (w.unbind env name).findValue env name =
      env.parent?.bind fun parent => (w.unbind env name).findValue parent name := by
  apply find?_eq_parent
  have hframe := (Edit.unbind name).frame_run env w env.frame
  show ((((Edit.unbind name).run env w).frame env.frame).values).get? name = none
  rw [hframe]
  by_cases h : env.frame < w.frames.size
  · rw [if_pos ⟨rfl, h⟩]
    exact (Registry.get?_erase _ name name).trans (if_pos rfl)
  · rw [if_neg (by simp [h]), frame_of_size_le (Nat.le_of_not_lt h)]
    exact Registry.get?_empty name

/-- **Scopes are isolated**: an operation on a scope changes what a lookup finds from an environment
only if it is about the name that is looked up, in the registry that is looked at, the scope is
the environment's own or further out, and no nearer scope defines the name.  A name that was
removed from a scope is what the parent has it for; where the scope is not further out
itself, as in every tree, this is what the parent had it for before. -/
theorem edit_isolated (w : World) (s t : Env) (edit : Edit) (name : Symbol) :
    Isolated Frame.values edit.values s.frame t name w (edit.run s w) ∧
      Isolated Frame.forms edit.forms s.frame t name w (edit.run s w) ∧
      Isolated Frame.types edit.types s.frame t name w (edit.run s w) ∧
      (w.unbind s name).findValue s name =
        s.parent?.bind (fun parent => (w.unbind s name).findValue parent name) ∧
      ∀ parent, s.parent? = some parent → s.frame ∉ parent.frames →
        (w.unbind s name).findValue s name = w.findValue parent name := by
  have hframe := edit.frame_run s w
  refine ⟨isolated_of_frame hframe (fun _ => rfl) t name,
    isolated_of_frame hframe (fun _ => rfl) t name,
    isolated_of_frame hframe (fun _ => rfl) t name, findValue_unbind_self w s name, ?_⟩
  intro parent hparent htree
  rw [findValue_unbind_self, hparent, Option.bind_some]
  apply find?_congr
  intro i hi
  exact frame_modifyFrame_of_ne fun heq => htree (heq ▸ hi)

/-- A child that shadows `x` of its root does not see how the root changes `x`, but sees a new `y`
there; without its own `x` it sees that of the root. -/
theorem edit_isolated_shadowed :
    let root := newRoot {} {}
    let outer := root.2.bind root.1 "x" (.bool true)
    let child := (outer.newChild root.1).1
    let w := (outer.newChild root.1).2.bind child "x" (.bool false)
    (w.bind root.1 "x" .nil).findValue child "x" = w.findValue child "x" ∧
      (w.bind root.1 "y" .nil).findValue child "y" = some .nil ∧
      child.parent? = some root.1 ∧ child.frame ∉ root.1.frames ∧
      (w.unbind child "x").findValue child "x" = w.findValue root.1 "x" := by
  intro root outer child w
  have hshadows : (w.frame child.frame).values.get? "x" = some (.bool false) := rfl
  have hx := (edit_isolated w root.1 child (.bind "x" .nil) "x").1
  have hy := (edit_isolated w root.1 child (.bind "y" .nil) "y").1
  have hparent := (edit_isolated w child child (.unbind "x") "x").2.2.2.2
  refine ⟨?_, ?_, rfl, by decide, hparent root.1 rfl (by decide)⟩
  · refine Classical.byContradiction fun hchanged => ?_
    obtain ⟨nearer, farther, hframes, hnone⟩ := hx.exposed hchanged
    have hchild : child.frame ∈ nearer := by
      cases nearer with
      | nil => exact absurd (List.cons.inj hframes).1 (by decide)
      | cons i nearer =>
        rw [(List.cons.inj hframes).1]
        exact List.mem_cons_self
    rw [hnone _ hchild] at hshadows
    cases hshadows
  · have hframes : child.frames = [child.frame] ++ root.1.frame :: [] := rfl
    exact hy.found hframes (by rw [List.forall_mem_singleton]; rfl) (by decide) rfl

end World

end Sexpr
