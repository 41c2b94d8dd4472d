import Sexpr.Proofs.Frames
import Sexpr.World.Snapshot

/-!
# Sexpr.Proofs.Merging

Merging definitions into a scope is all or nothing.

Both ways of merging read everything before they change anything: a snapshot is checked for special
forms and data types under a wrong name, a module value is read into a list of bindings.  So a
merge that fails leaves the world as it is (`AllOrNothing`), and one that succeeds
inserts the definitions one after another in the innermost scope (`Installed`).
-/

namespace Sexpr

/-! ## what can be merged -/

/-- A special form or a data type is filed under a name other than its own. -/
def Snapshot.Misfiled (s : Snapshot) : Prop :=
  (∃ e ∈ s.forms, e.1 ≠ e.2.name) ∨ ∃ e ∈ s.types, e.1 ≠ e.2.label

namespace Value

/-- A pair whose first slot is a symbol or a string. -/
def IsExport (x : Value) : Prop :=
  ∃ id name v, x = .pair id (.symbol name) v ∨ x = .pair id (.string name) v

/-- An object, or a proper list of pairs with symbols and strings as keys. -/
def IsModule (v : Value) : Prop :=
  (∃ id entries, v = .object id entries) ∨ v.isProperList = true ∧ ∀ x ∈ v.elements, x.IsExport

/-- The name and the value that a pair gives. -/
def export? : Value → Option (Symbol × Value)
  | .pair _ (.symbol name) v => some (name, v)
  | .pair _ (.string name) v => some (name, v)
  | _ => none

/-- The bindings that a module gives, in their order. -/
def exports : Value → List (Symbol × Value)
  | .object _ entries => entries
  | v => v.elements.filterMap export?

end Value

/-! ## checking and reading -/

namespace Snapshot

theorem checkFiled_cons_of_eq {α : Type} {own : α → Symbol} {misfiled : Symbol → Symbol → Cause}
    {e : Symbol × α} (h : e.1 = own e.2) (entries : List (Symbol × α)) :
    checkFiled own misfiled (e :: entries) = checkFiled own misfiled entries := by
  simp only [checkFiled, List.forM, h, if_pos]
  rfl

theorem checkFiled_cons_of_ne {α : Type} {own : α → Symbol} {misfiled : Symbol → Symbol → Cause}
    {e : Symbol × α} (h : e.1 ≠ own e.2) (entries : List (Symbol × α)) :
    checkFiled own misfiled (e :: entries) = failure "merge" (misfiled (own e.2) e.1) := by
  simp only [checkFiled, List.forM, h, if_neg, not_false_eq_true]
  rfl

/-- Checking definitions for their names succeeds exactly when they are filed under them. -/
theorem checkFiled_cases {α : Type} (own : α → Symbol) (misfiled : Symbol → Symbol → Cause)
    (hmodule : ∀ name key, (misfiled name key).category = .module) (entries : List (Symbol × α)) :
    (checkFiled own misfiled entries = .ok () ∧ ∀ e ∈ entries, e.1 = own e.2) ∨
      ∃ f, checkFiled own misfiled entries = .error f ∧ f.cause.category = .module ∧
        ∃ e ∈ entries, e.1 ≠ own e.2 := by
  induction entries with
  | nil => exact .inl ⟨rfl, by simp⟩
  | cons e entries ih =>
    by_cases hkey : e.1 = own e.2
    · rw [checkFiled_cons_of_eq hkey]
      rcases ih with ⟨hcheck, hall⟩ | ⟨f, hcheck, hf, e', he', hne⟩
      · exact .inl ⟨hcheck, by simpa [hkey] using hall⟩
      · exact .inr ⟨f, hcheck, hf, e', by simp [he'], hne⟩
    · rw [checkFiled_cons_of_ne hkey]
      exact .inr ⟨_, rfl, hmodule _ _, e, by simp, hkey⟩

/-- The check of a snapshot finds what is misfiled and nothing else. -/
theorem check_cases (s : Snapshot) :
    (s.check = .ok () ∧ ¬ s.Misfiled) ∨
      ∃ f, s.check = .error f ∧ f.cause.category = .module ∧ s.Misfiled := by
  unfold check
  rcases checkFiled_cases Form.name .misfiledForm (fun _ _ => rfl) s.forms with
    ⟨hforms, hallForms⟩ | ⟨f, hforms, hf, hmisfiled⟩
  · rcases checkFiled_cases DataType.label .misfiledType (fun _ _ => rfl) s.types with
      ⟨htypes, hallTypes⟩ | ⟨f, htypes, hf, hmisfiled⟩
    · refine .inl ⟨by rw [hforms]; exact htypes, ?_⟩
      rintro (⟨e, he, hne⟩ | ⟨e, he, hne⟩)
      · exact hne (hallForms e he)
      · exact hne (hallTypes e he)
    · exact .inr ⟨f, by rw [hforms]; exact htypes, hf, .inr hmisfiled⟩
  · exact .inr ⟨f, by rw [hforms]; rfl, hf, .inl hmisfiled⟩

end Snapshot

namespace World

/-- A pair that gives a name and a value is read as such, and nothing else is. -/
theorem moduleEntry_cases (x : Value) :
    (∃ e, moduleEntry x = .ok e ∧ x.export? = some e ∧ x.IsExport) ∨
      ∃ f, moduleEntry x = .error f ∧ f.cause.category = .module ∧ ¬ x.IsExport := by
  cases x with
  | pair id key v =>
    cases key with
    | symbol name => exact .inl ⟨(name, v), rfl, rfl, id, name, v, .inl rfl⟩
    | string name => exact .inl ⟨(name, v), rfl, rfl, id, name, v, .inr rfl⟩
    | _ => exact .inr ⟨_, rfl, rfl, by simp [Value.IsExport]⟩
  | _ => exact .inr ⟨_, rfl, rfl, by simp [Value.IsExport]⟩

/-- A list of pairs is read as a whole or not at all. -/
theorem mapM_moduleEntry_cases (xs : List Value) :
    (xs.mapM moduleEntry = .ok (xs.filterMap Value.export?) ∧ ∀ x ∈ xs, x.IsExport) ∨
      ∃ f, xs.mapM moduleEntry = .error f ∧ f.cause.category = .module ∧
        ¬ ∀ x ∈ xs, x.IsExport := by
  induction xs with
  | nil => exact .inl ⟨rfl, by simp⟩
  | cons x xs ih =>
    rw [List.mapM_cons]
    rcases moduleEntry_cases x with ⟨e, hentry, hexport, hx⟩ | ⟨f, hentry, hf, hx⟩
    · rcases ih with ⟨hread, hall⟩ | ⟨f, hread, hf, hnot⟩
      · refine .inl ⟨?_, by simpa [hx] using hall⟩
        rw [hentry, hread, List.filterMap_cons_some hexport]
        rfl
      · refine .inr ⟨f, ?_, hf, fun hall => hnot fun y hy => hall y (by simp [hy])⟩
        rw [hentry, hread]
        rfl
    · refine .inr ⟨f, ?_, hf, fun hall => hx (hall x (by simp))⟩
      rw [hentry]
      rfl

/-- A module is read as its bindings, and nothing else is read. -/
theorem moduleBindings_cases (v : Value) :
    (moduleBindings v = .ok v.exports ∧ v.IsModule) ∨
      ∃ f, moduleBindings v = .error f ∧ f.cause.category = .module ∧ ¬ v.IsModule := by
  cases v with
  | object id entries => exact .inl ⟨rfl, .inl ⟨id, entries, rfl⟩⟩
  | nil => exact .inl ⟨rfl, .inr ⟨rfl, by simp [Value.elements]⟩⟩
  | pair id a d =>
    have hbindings : moduleBindings (.pair id a d) = (do
        let bindings ← (Value.pair id a d).elements.mapM moduleEntry
        if d.tail.isNil then return bindings
        else failure "merge" (.improperExports d.tail)) := rfl
    have hmodule : (Value.pair id a d).IsModule ↔
        d.tail.isNil = true ∧ ∀ x ∈ (Value.pair id a d).elements, x.IsExport := by
      simp [Value.IsModule, Value.isProperList_eq, Value.tail]
    rw [hmodule, hbindings]
    rcases mapM_moduleEntry_cases (Value.pair id a d).elements with
      ⟨hread, hall⟩ | ⟨f, hread, hf, hnot⟩
    · rw [hread]
      by_cases hproper : d.tail.isNil = true
      · exact .inl ⟨if_pos hproper, hproper, hall⟩
      · exact .inr ⟨_, if_neg hproper, rfl, fun h => hproper h.1⟩
    · exact .inr ⟨f, by rw [hread]; rfl, hf, fun h => hnot h.2⟩
  | _ =>
    refine .inr ⟨_, rfl, rfl, ?_⟩
    simp [Value.IsModule, Value.isProperList, Value.isNil]

end World

/-! ## what a merge does -/

/-- Some definitions were added to a registry: the last under each name counts, and every other
name keeps its definition and its position. -/
structure Registry.Updated {α : Type} (entries : List (Symbol × α)) (r r' : Registry α) :
    Prop where
  defined {name : Symbol} {value : α} :
    lastUnder name entries = some value → r'.get? name = some value
  get?_other {name : Symbol} : lastUnder name entries = none → r'.get? name = r.get? name
  index_other {name : Symbol} :
    lastUnder name entries = none → r'.index[name]? = r.index[name]?
  names_prefix : r.names <+: r'.names

theorem Registry.updated_insertAll {α : Type} (entries : List (Symbol × α)) (r : Registry α) :
    Updated entries r (r.insertAll entries) where
  defined h := by rw [get?_insertAll, h, Option.some_or]
  get?_other h := by rw [get?_insertAll, h, Option.none_or]
  index_other {name} h := by
    have hget : (r.insertAll entries).get? name = r.get? name := by
      rw [get?_insertAll, h, Option.none_or]
    cases hindex : r.index[name]? with
    | none =>
      rw [index_eq_none_iff, ← get?_eq_none_iff] at hindex ⊢
      rw [hget, hindex]
    | some pos =>
      obtain ⟨new, hnew⟩ := r.names_prefix_insertAll entries
      have hname := (r.index_eq_some_iff name pos).1 hindex
      have hlt := (List.getElem?_eq_some_iff.1 hname).1
      rw [index_eq_some_iff, ← hnew, List.getElem?_append_left hlt]
      exact hname
  names_prefix := r.names_prefix_insertAll entries

/-- What was added to the innermost registry of a chain is found, and what is found under
other names does not change. -/
theorem World.find?_of_updated {α : Type} {w w' : World} {env : Env}
    {registry : Frame → Registry α} {entries : List (Symbol × α)}
    (hself : Registry.Updated entries (registry (w.frame env.frame))
      (registry (w'.frame env.frame)))
    (helse : ∀ i, i ≠ env.frame → w'.frame i = w.frame i) (name : Symbol) :
    w'.find? env registry name =
      (Registry.lastUnder name entries).or (w.find? env registry name) := by
  unfold find?
  cases hlast : Registry.lastUnder name entries with
  | some value =>
    have hhere := hself.defined hlast
    rw [Env.frames, List.findSome?_cons, hhere, Option.some_or]
  | none =>
    have hframe : ∀ i, (registry (w'.frame i)).get? name = (registry (w.frame i)).get? name := by
      intro i
      by_cases hi : i = env.frame
      · rw [hi]
        exact hself.get?_other hlast
      · rw [helse i hi]
    simp only [hframe, Option.none_or]

/-- The second world comes from the first by installing a snapshot in the innermost scope of an
environment: the last definition of each name is found there, and nothing else changes. -/
structure Installed (env : Env) (s : Snapshot) (w w' : World) : Prop where
  frames_size : w'.frames.size = w.frames.size
  sessions_eq : w'.sessions = w.sessions
  journal_eq : w'.journal = w.journal
  frame_eq {i : Nat} : i ≠ env.frame → w'.frame i = w.frame i
  values : Registry.Updated s.values (w.frame env.frame).values (w'.frame env.frame).values
  forms : Registry.Updated s.forms (w.frame env.frame).forms (w'.frame env.frame).forms
  types : Registry.Updated s.types (w.frame env.frame).types (w'.frame env.frame).types
  findValue_eq (name : Symbol) :
    w'.findValue env name = (Registry.lastUnder name s.values).or (w.findValue env name)
  findForm_eq (name : Symbol) :
    w'.findForm env name = (Registry.lastUnder name s.forms).or (w.findForm env name)
  findType_eq (name : Symbol) :
    w'.findType env name = (Registry.lastUnder name s.types).or (w.findType env name)

theorem installed_install {w : World} {env : Env} (henv : env.frame < w.frames.size)
    (s : Snapshot) : Installed env s w (w.modifyFrame env.frame (·.install s)) := by
  have hself : (w.modifyFrame env.frame (·.install s)).frame env.frame =
      (w.frame env.frame).install s := World.frame_modifyFrame_self henv
  have helse : ∀ i, i ≠ env.frame →
      (w.modifyFrame env.frame (·.install s)).frame i = w.frame i :=
    fun i hi => World.frame_modifyFrame_of_ne hi.symm
  have hupdated : ∀ {α : Type} (registry : Frame → Registry α) (entries : List (Symbol × α)),
      registry ((w.frame env.frame).install s) =
          (registry (w.frame env.frame)).insertAll entries →
        Registry.Updated entries (registry (w.frame env.frame))
          (registry ((w.modifyFrame env.frame (·.install s)).frame env.frame)) := by
    intro α registry entries h
    rw [hself, h]
    exact Registry.updated_insertAll _ _
  have hvalues := hupdated Frame.values s.values rfl
  have hforms := hupdated Frame.forms s.forms rfl
  have htypes := hupdated Frame.types s.types rfl
  exact ⟨Array.size_modify, rfl, rfl, fun hi => helse _ hi, hvalues, hforms, htypes,
    World.find?_of_updated hvalues helse, World.find?_of_updated hforms helse,
    World.find?_of_updated htypes helse⟩

/-! ## merging -/

/-- A change of the world that is made as a whole, or is refused with a fault of modules and leaves
the world as it is. -/
structure AllOrNothing (change : ExceptT Fault (StateM World) Unit) (w : World) (refused : Prop)
    (made : World → Prop) : Prop where
  refused_iff : (∃ f, (change.run w).1 = .error f) ↔ refused
  category_eq {f : Fault} : (change.run w).1 = .error f → f.cause.category = .module
  unchanged {f : Fault} : (change.run w).1 = .error f → (change.run w).2 = w
  changed : (change.run w).1 = .ok () → made (change.run w).2

/-- A change that is made once everything has been read. -/
theorem allOrNothing_of_cases {α : Type} {read : Except Fault α} {change : α → World → World}
    {w : World} {refused : Prop} {made : World → Prop} {a : α}
    (hread : (read = .ok a ∧ ¬ refused) ∨
      ∃ f, read = .error f ∧ f.cause.category = .module ∧ refused)
    (hmade : made (change a w)) :
    AllOrNothing (do modify (change (← read))) w refused made := by
  rcases hread with ⟨rfl, haccepted⟩ | ⟨f, rfl, hf, hrefused⟩
  · refine ⟨⟨?_, fun h => (haccepted h).elim⟩, ?_, ?_, fun _ => hmade⟩
    · rintro ⟨f, h⟩
      cases h
    · intro f h
      cases h
    · intro f h
      cases h
  · refine ⟨⟨fun _ => hrefused, fun _ => ⟨f, rfl⟩⟩, ?_, fun _ => rfl, ?_⟩
    · intro f' h
      cases h
      exact hf
    · intro h
      cases h

namespace World

theorem run_merge_of_filed {s : Snapshot} (h : ¬ s.Misfiled) (env : Env) (w : World) :
    (merge env s).run w = (.ok (), w.modifyFrame env.frame (·.install s)) := by
  rcases s.check_cases with ⟨hcheck, -⟩ | ⟨f, -, -, hmisfiled⟩
  · unfold merge
    rw [hcheck]
    rfl
  · exact (h hmisfiled).elim

theorem run_merge_of_misfiled {s : Snapshot} (h : s.Misfiled) (env : Env) (w : World) :
    ((merge env s).run w).2 = w := by
  rcases s.check_cases with ⟨-, hfiled⟩ | ⟨f, hcheck, -, -⟩
  · exact (hfiled h).elim
  · unfold merge
    rw [hcheck]
    rfl

/-- A merge of a module changes the values of one frame or nothing. -/
theorem run_mergeModule_cases (env : Env) (module : Value) (w : World) :
    ((mergeModule env module).run w).2 = w ∨
      ((mergeModule env module).run w).2 =
        w.modifyFrame env.frame (·.install { values := module.exports }) := by
  rcases moduleBindings_cases module with ⟨hread, -⟩ | ⟨f, hread, -, -⟩
  · refine .inr ?_
    unfold mergeModule
    rw [hread]
    rfl
  · refine .inl ?_
    unfold mergeModule
    rw [hread]
    rfl

/-- **Merging is all or nothing**: a snapshot is refused exactly when a special form or a data type
in it is misfiled, and a value exactly when it is no module.  A refusal is a fault of modules and
leaves the world as it is.  Otherwise only the innermost scope changes, where each name of the
snapshot or module is found with its last definition, and every other name keeps its
definition and its position. -/
theorem merge_allOrNothing {w : World} {env : Env} (henv : env.frame < w.frames.size)
    (s : Snapshot) (module : Value) :
    AllOrNothing (merge env s) w s.Misfiled (Installed env s w) ∧
      AllOrNothing (mergeModule env module) w (¬ module.IsModule)
        (Installed env { values := module.exports } w) := by
  refine ⟨allOrNothing_of_cases s.check_cases (installed_install henv s), ?_⟩
  refine allOrNothing_of_cases ?_ (installed_install henv { values := module.exports })
  rcases moduleBindings_cases module with ⟨hread, hmodule⟩ | hrefused
  · exact .inl ⟨hread, not_not_intro hmodule⟩
  · exact .inr hrefused

/-- A snapshot with a good value and a misfiled form changes nothing; a list that gives a name
twice, once by a symbol and once by a string, binds it to the second value. -/
theorem merge_allOrNothing_newRoot :
    let root := newRoot {} {}
    let s : Snapshot :=
      { values := [("x", .bool true)]
        forms := [("cite", { ident := 0, name := "quote", rule := .quote })] }
    let module := Value.pair 0 (.pair 1 (.symbol "x") (.bool true))
      (.pair 2 (.pair 3 (.string "x") (.bool false)) .nil)
    root.1.frame < root.2.frames.size ∧
      s.Misfiled ∧ ((merge root.1 s).run root.2).2 = root.2 ∧
      module.IsModule ∧
      ((mergeModule root.1 module).run root.2).2.findValue root.1 "x" = some (.bool false) := by
  intro root s module
  have henv : root.1.frame < root.2.frames.size := Nat.zero_lt_one
  obtain ⟨hsnapshot, hmodule⟩ := merge_allOrNothing henv s module
  have hmisfiled : s.Misfiled := .inl ⟨_, List.mem_singleton.2 rfl, by decide⟩
  have hexports : module.IsModule := .inr ⟨rfl, by simp [module, Value.elements, Value.IsExport]⟩
  obtain ⟨f, hf⟩ := hsnapshot.refused_iff.2 hmisfiled
  have hinstalled := hmodule.changed rfl
  exact ⟨henv, hmisfiled, hsnapshot.unchanged hf, hexports, hinstalled.findValue_eq "x"⟩

end World

end Sexpr
