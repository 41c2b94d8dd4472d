import Mathlib.Logic.Relation
import Sexpr.Proofs.Genuine

/-!
# Sexpr.Proofs.Irrelevance

Names that an evaluation cannot come across.

An evaluation looks up the symbols that it finds in its expression, and those in the
values that lookups lead to: in data that is evaluated as code, in the bodies of functions and in
the scopes that functions have captured.  `World.Reaches` says which values these are at the
start.  Nothing that happens makes a symbol out of anything else, so if the symbol `n`
is not among them, a binding of `n` is never looked at, wherever it stands.

The worlds of the two evaluations are the same when the bindings of `n` are taken out
(`World.hide`), and what the known scopes define stays free of `n` (`concealment`).
-/

namespace Sexpr

/-! ## parts of values -/

namespace Value

/-- The values that a value holds. -/
inductive Part : Value → Value → Prop
  | car {id : Ident} {a d : Value} : Part (.pair id a d) a
  | cdr {id : Ident} {a d : Value} : Part (.pair id a d) d
  | element {id : Ident} {xs : List Value} {x : Value} : x ∈ xs → Part (.set id xs) x
  | item {id : Ident} {xs : List Value} {x : Value} : x ∈ xs → Part (.array id xs) x
  | entry {id : Ident} {es : List (String × Value)} {e : String × Value} :
    e ∈ es → Part (.object id es) e.2
  | payload {id : Ident} {label : Symbol} {maker : Maker} {v : Value} :
    Part (.thunk id label maker v) v
  | body {id : Ident} {params : List Symbol} {env : Env} {body : List Value} {x : Value} :
    x ∈ body → Part (.closure id params env body) x

/-- A value and everything inside it has the property. -/
def All (Q : Value → Prop) (v : Value) : Prop := ∀ u, Relation.ReflTransGen Part v u → Q u

variable {Q : Value → Prop} {v u : Value}

theorem all_iff : v.All Q ↔ Q v ∧ ∀ u, Part v u → u.All Q := by
  constructor
  · intro h
    exact ⟨h v .refl, fun u hpart x hx => h x (.head hpart hx)⟩
  · rintro ⟨hv, hparts⟩ u hu
    rcases Relation.ReflTransGen.cases_head hu with rfl | ⟨x, hx, hu⟩
    · exact hv
    · exact hparts x hx u hu

theorem All.self (h : v.All Q) : Q v := (all_iff.1 h).1

theorem All.part (h : v.All Q) (hpart : Part v u) : u.All Q := (all_iff.1 h).2 u hpart

/-- A value that holds nothing. -/
theorem all_of_no_part (hv : Q v) (hparts : ∀ u, ¬ Part v u) : v.All Q :=
  all_iff.2 ⟨hv, fun u hu => (hparts u hu).elim⟩

/-- Whether the value is no symbol, and nothing that is there to be called. -/
def isData : Value → Bool
  | .symbol _ => false
  | .native .. => false
  | .thunk .. => false
  | .closure .. => false
  | .hosted .. => false
  | .form _ => false
  | .dataType _ => false
  | _ => true

/-- A property that plain data has, of a value and everything inside it. -/
theorem all_hereditary (hdata : ∀ v : Value, v.isData = true → Q v) : Hereditary (All Q) where
  nil := all_of_no_part (hdata _ rfl) (by rintro _ ⟨⟩)
  undefined := all_of_no_part (hdata _ rfl) (by rintro _ ⟨⟩)
  bool _ := all_of_no_part (hdata _ rfl) (by rintro _ ⟨⟩)
  number _ := all_of_no_part (hdata _ rfl) (by rintro _ ⟨⟩)
  regexp _ _ := all_of_no_part (hdata _ rfl) (by rintro _ ⟨⟩)
  pair_iff id a d := by
    refine ⟨fun h => ⟨h.part .car, h.part .cdr⟩, fun h => ?_⟩
    refine all_iff.2 ⟨hdata _ rfl, fun u hu => ?_⟩
    cases hu with
    | car => exact h.1
    | cdr => exact h.2
  set_iff id xs := by
    refine ⟨fun h x hx => h.part (.element hx), fun h => ?_⟩
    refine all_iff.2 ⟨hdata _ rfl, fun u hu => ?_⟩
    cases hu with
    | element hx => exact h u hx
  array_iff id xs := by
    refine ⟨fun h x hx => h.part (.item hx), fun h => ?_⟩
    refine all_iff.2 ⟨hdata _ rfl, fun u hu => ?_⟩
    cases hu with
    | item hx => exact h u hx
  object_iff id es := by
    refine ⟨fun h e he => h.part (.entry he), fun h => ?_⟩
    refine all_iff.2 ⟨hdata _ rfl, fun u hu => ?_⟩
    cases hu with
    | entry he => exact h _ he

/-- Whether the value asks the host for something when it is used. -/
def asksHost : Value → Bool
  | .native _ _ _ (.host _) => true
  | .thunk _ _ (.host _) _ => true
  | .hosted .. => true
  | .form ⟨_, _, .host _⟩ => true
  | .dataType ⟨_, _, _, .host _⟩ => true
  | _ => false

/-- A value that, looked at on its own, is not the symbol and does not ask the host. -/
def Shuns (n : Symbol) (v : Value) : Prop := v ≠ .symbol n ∧ v.asksHost = false

theorem Shuns.of_isData {n : Symbol} (h : v.isData = true) : v.Shuns n := by
  cases v with
  | symbol | native | thunk | closure | hosted | form | dataType => cases h
  | _ => exact ⟨by simp, rfl⟩

end Value

/-! ## hidden names -/

/-- The scope without the binding of a name. -/
def Frame.hide (n : Symbol) (f : Frame) : Frame := { f with values := f.values.erase n }

theorem Frame.hide_empty (n : Symbol) : Frame.hide n {} = {} := by
  have hvalues : (Registry.empty : Registry Value).erase n = .empty :=
    Registry.eq_of_entries_eq (Registry.entries_erase _ _)
  unfold hide
  rw [hvalues]

namespace World

/-- The world without the bindings of a name. -/
def hide (n : Symbol) (w : World) : World := { w with frames := w.frames.map (Frame.hide n) }

theorem frame_hide (n : Symbol) (w : World) (i : Nat) :
    (w.hide n).frame i = (w.frame i).hide n := by
  unfold frame hide
  rw [Array.getD_eq_getD_getElem?, Array.getD_eq_getD_getElem?, Array.getElem?_map]
  cases w.frames[i]? with
  | none => exact (Frame.hide_empty n).symm
  | some f => rfl

theorem size_frames_hide (n : Symbol) (w : World) :
    (w.hide n).frames.size = w.frames.size := Array.size_map

/-- Changes of a scope that go together with hiding a name. -/
theorem hide_modifyFrame {n : Symbol} {f g : Frame → Frame}
    (h : ∀ frame, (f frame).hide n = g (frame.hide n)) (w : World) (i : Nat) :
    (w.modifyFrame i f).hide n = (w.hide n).modifyFrame i g := by
  have hframes : (w.frames.modify i f).map (Frame.hide n) =
      (w.frames.map (Frame.hide n)).modify i g := by
    apply Array.ext_getElem?
    intro k
    simp only [Array.getElem?_map, Array.getElem?_modify]
    split
    · cases w.frames[k]? with
      | none => rfl
      | some frame => exact congrArg some (h frame)
    · rfl
  unfold hide modifyFrame
  rw [hframes]

theorem hide_bind {n name : Symbol} (h : name ≠ n) (w : World) (env : Env) (v : Value) :
    (w.bind env name v).hide n = (w.hide n).bind env name v := by
  refine hide_modifyFrame (fun frame => ?_) w env.frame
  unfold Frame.hide
  rw [Registry.erase_insert_of_ne h]

/-- A binding of the hidden name is hidden. -/
theorem hide_bind_self (n : Symbol) (w : World) (env : Env) (v : Value) :
    (w.bind env n v).hide n = w.hide n := by
  have hframes : (w.hide n).frames.modify env.frame id = (w.hide n).frames := by
    apply Array.ext_getElem?
    intro k
    rw [Array.getElem?_modify, Option.map_id_fun, id, ite_self]
  have hbind : (w.bind env n v).hide n = (w.hide n).modifyFrame env.frame id := by
    refine hide_modifyFrame (fun frame => ?_) w env.frame
    unfold Frame.hide
    rw [Registry.erase_insert_self]
    rfl
  rw [hbind]
  exact congrArg (fun frames => { w.hide n with frames }) hframes

/-- A new scope. -/
theorem hide_extend (n : Symbol) (w : World) (env : Env) (params : List Symbol)
    (args : List Value) :
    (w.extend env params args).2.hide n =
      { w.hide n with
        frames := (w.hide n).frames.push
          (Frame.hide n { values := Registry.empty.insertAll (params.zip args) }) } := by
  unfold extend hide
  simp only [Array.map_push]

/-- A lookup of another name does not notice. -/
theorem find?_hide {α : Type} {n name : Symbol} {registry : Frame → Registry α}
    (h : ∀ frame, (registry (frame.hide n)).get? name = (registry frame).get? name) (w : World)
    (env : Env) : (w.hide n).find? env registry name = w.find? env registry name := by
  unfold find?
  simp only [frame_hide, h]

theorem findType_hide (n : Symbol) (w : World) (env : Env) (name : Symbol) :
    (w.hide n).findType env name = w.findType env name :=
  find?_hide (fun _ => rfl) w env

theorem resolve_hide {n name : Symbol} (h : name ≠ n) (w : World) (env : Env) :
    (w.hide n).resolve env name = w.resolve env name := by
  have hvalues : (w.hide n).findValue env name = w.findValue env name := by
    refine find?_hide (fun frame => ?_) w env
    unfold Frame.hide
    rw [Registry.get?_erase, if_neg h.symm]
  have hforms : (w.hide n).findForm env name = w.findForm env name :=
    find?_hide (fun _ => rfl) w env
  unfold resolve
  rw [hvalues, hforms, findType_hide]

end World

/-! ## what an evaluation can come across -/

/-- The values that an evaluation can come across: the expression, what the scopes of the
environment define, everything inside such values, and what the scopes define that functions among
them have captured. -/
inductive World.Reaches (w : World) (env : Env) (expr : Value) : Value → Prop
  | expr : w.Reaches env expr expr
  | scope {i : Nat} {v : Value} : i ∈ env.frames → (w.frame i).Defines v → w.Reaches env expr v
  | captured {id : Ident} {params : List Symbol} {scope : Env} {body : List Value} {i : Nat}
      {v : Value} :
    w.Reaches env expr (.closure id params scope body) → i ∈ scope.frames →
      (w.frame i).Defines v → w.Reaches env expr v
  | part {v u : Value} : w.Reaches env expr v → v.Part u → w.Reaches env expr u

namespace World

/-- The scopes that an evaluation can come across: those that can be reached at the start, and
those that are made later. -/
def Inside (w : World) (env : Env) (expr : Value) (i : Nat) : Prop :=
  i ∈ env.frames ∨ w.frames.size ≤ i ∨
    ∃ id params scope body, w.Reaches env expr (.closure id params scope body) ∧ i ∈ scope.frames

theorem Inside.frame {w : World} {env : Env} {expr : Value} {i : Nat}
    (h : w.Inside env expr i) : (w.frame i).Every (w.Reaches env expr) := by
  rcases h with hi | hi | ⟨id, params, scope, body, hclosure, hi⟩
  · exact Frame.every_iff.2 fun v hv => .scope hi hv
  · rw [frame_of_size_le hi]
    exact Frame.every_empty
  · exact Frame.every_iff.2 fun v hv => .captured hclosure hi hv

end World

/-! ## the coupling -/

/-- A value that shuns a name, looked at on its own, and does not lead out of some scopes. -/
def Value.Keeps (n : Symbol) (inside : Nat → Prop) (v : Value) : Prop :=
  v.Shuns n ∧
    ∀ id params scope body, v = .closure id params scope body → ∀ i ∈ scope.frames, inside i

variable {n : Symbol} {inside : Nat → Prop}

/-- Nothing inside a value leads to a name, to the host or out of some scopes. -/
def Value.Clear (n : Symbol) (inside : Nat → Prop) (v : Value) : Prop :=
  v.All (Value.Keeps n inside)

namespace Value.Clear

theorem ne_symbol {name : Symbol} (h : Clear n inside (.symbol name)) : name ≠ n := by
  rintro rfl
  exact h.self.1.1 rfl

theorem closure {id : Ident} {params : List Symbol} {env : Env} {body : List Value}
    (henv : ∀ i ∈ env.frames, inside i) (hbody : ∀ x ∈ body, Clear n inside x) :
    Clear n inside (.closure id params env body) := by
  refine all_iff.2 ⟨⟨⟨by simp, rfl⟩, ?_⟩, fun u hu => ?_⟩
  · intro id' params' scope body' heq
    cases heq
    exact henv
  · cases hu with
    | body hx => exact hbody u hx

theorem scope {id : Ident} {params : List Symbol} {env : Env} {body : List Value}
    (h : Clear n inside (.closure id params env body)) : ∀ i ∈ env.frames, inside i :=
  h.self.2 _ _ _ _ rfl

/-- A data type that does not ask the host makes values that do not. -/
theorem thunk {id : Ident} {t : DataType} {v : Value} (ht : Clear n inside (.dataType t))
    (hv : Clear n inside v) : Clear n inside (.thunk id t.label t.maker v) := by
  refine all_iff.2 ⟨⟨⟨by simp, ?_⟩, by simp⟩, fun u hu => ?_⟩
  · obtain ⟨ident, label, guard, maker⟩ := t
    cases maker with
    | identity => rfl
    | host key => cases ht.self.1.2
  · cases hu with
    | payload => exact hv

theorem payload {id : Ident} {label : Symbol} {maker : Maker} {v : Value}
    (h : Clear n inside (.thunk id label maker v)) : maker = .identity ∧ Clear n inside v := by
  refine ⟨?_, h.part .payload⟩
  cases maker with
  | identity => rfl
  | host key => cases h.self.1.2

theorem rule_ne_host {f : Form} (h : Clear n inside (.form f)) (key : Nat) :
    f.rule ≠ .host key := by
  obtain ⟨ident, name, rule⟩ := f
  rintro rfl
  cases h.self.1.2

end Value.Clear

theorem clear_hereditary : Hereditary (Value.Clear n inside) := by
  refine Value.all_hereditary fun v hdata => ⟨.of_isData hdata, ?_⟩
  rintro _ _ _ _ rfl
  cases hdata

/-- The worlds are the same but for a name, and the scopes inside do not lead to it. -/
structure Concealed (n : Symbol) (inside : Nat → Prop) (w w' : World) : Prop where
  hide_eq : w'.hide n = w.hide n
  every {i : Nat} : inside i → (w.frame i).Every (Value.Clear n inside)
  inside_of_le {i : Nat} : w.frames.size ≤ i → inside i

namespace Concealed

variable {w w' : World}

theorem resolve_eq (h : Concealed n inside w w') {name : Symbol} (hname : name ≠ n) (env : Env) :
    w'.resolve env name = w.resolve env name := by
  rw [← World.resolve_hide hname w', h.hide_eq, World.resolve_hide hname]

theorem resolve_clear (h : Concealed n inside w w') {env : Env} (henv : ∀ i ∈ env.frames, inside i)
    {name : Symbol} {v : Value} (hv : w.resolve env name = some v) : v.Clear n inside := by
  obtain ⟨i, hi, hdefines⟩ := World.exists_defines_of_resolve hv
  exact Frame.every_iff.1 (h.every (henv i hi)) v hdefines

theorem findType_eq (h : Concealed n inside w w') (env : Env) (name : Symbol) :
    w'.findType env name = w.findType env name := by
  rw [← World.findType_hide n w', h.hide_eq, World.findType_hide]

theorem size_eq (h : Concealed n inside w w') : w'.frames.size = w.frames.size := by
  rw [← World.size_frames_hide n w', h.hide_eq, World.size_frames_hide]

theorem sessions_eq (h : Concealed n inside w w') : w'.sessions = w.sessions := by
  have hsessions := congrArg World.sessions h.hide_eq
  exact hsessions

theorem journal_eq (h : Concealed n inside w w') : w'.journal = w.journal := by
  have hjournal := congrArg World.journal h.hide_eq
  exact hjournal

theorem modifySession (h : Concealed n inside w w') (i : Nat) (f : Session → Session) :
    Concealed n inside (w.modifySession i f) (w'.modifySession i f) :=
  { h with hide_eq := congrArg (fun v : World => v.modifySession i f) h.hide_eq }

theorem setJournal (h : Concealed n inside w w') (journal : Journal) :
    Concealed n inside { w with journal } { w' with journal } :=
  { h with hide_eq := congrArg (fun v : World => { v with journal }) h.hide_eq }

theorem bind (h : Concealed n inside w w') (env : Env) {name : Symbol} {v : Value}
    (hname : name ≠ n) (hv : v.Clear n inside) :
    Concealed n inside (w.bind env name v) (w'.bind env name v) where
  hide_eq := by rw [World.hide_bind hname, World.hide_bind hname, h.hide_eq]
  every {i} hi := by
    rw [World.bind, World.frame_modifyFrame]
    split
    · exact (h.every hi).insert name hv
    · exact h.every hi
  inside_of_le {i} hi := by
    rw [World.size_frames_bind] at hi
    exact h.inside_of_le hi

theorem extend (h : Concealed n inside w w') (env : Env) (params : List Symbol)
    {args : List Value} (hargs : ∀ x ∈ args, x.Clear n inside) :
    Concealed n inside (w.extend env params args).2 (w'.extend env params args).2 where
  hide_eq := by rw [World.hide_extend, World.hide_extend, h.hide_eq]
  every {i} hi := by
    rw [World.extend, World.frame_push]
    split
    · exact Frame.every_arguments params hargs
    · exact h.every hi
  inside_of_le {i} hi := by
    have hsize : (w.extend env params args).2.frames.size = w.frames.size + 1 := Array.size_push _
    exact h.inside_of_le (by omega)

end Concealed

/-- Evaluations from worlds that differ in bindings of a name to which nothing leads. -/
def concealment (host : Host) (n : Symbol) (inside : Nat → Prop) : Coupling host Unit where
  worlds _ := Concealed n inside
  scope env := ∀ i ∈ env.frames, inside i
  fine := Value.Clear n inside
  excused _ := False
  hereditary := clear_hereditary
  journal_eq h := h.journal_eq
  setJournal journal h := h.setJournal journal
  resolve_eq h _ hname := h.resolve_eq hname.ne_symbol _
  resolve_fine h henv hv := h.resolve_clear henv hv
  findType_eq h _ _ := h.findType_eq _ _
  bind h _ hname hv := h.bind _ hname.ne_symbol hv
  size_eq h := h.size_eq
  -- A parameter may have the name: it is bound alike in both worlds, and never looked up.
  extend {_ w _ _ _ env _ _} h hclosure hargs := by
    refine ⟨h.extend _ _ hargs, ?_⟩
    have hnew : inside w.frames.size := h.inside_of_le (Nat.le_refl _)
    exact List.forall_mem_cons.2 ⟨hnew, hclosure.scope⟩
  session_eq h _ := .inl (by simp only [World.session, h.sessions_eq])
  headroom_eq h := .inl (by simp only [World.headroom, h.sessions_eq])
  nest {_ _ _ env} h _ :=
    ⟨(), h.modifySession env.session Session.deepen,
      fun _ _ hv => hv.modifySession env.session Session.surface⟩
  closure_fine henv _ hbody := .closure henv hbody
  body_fine h _ hx := h.part (.body hx)
  thunk_fine ht hv _ := .thunk ht hv
  build_fine h := by
    obtain ⟨rfl, hv⟩ := h.payload
    exact .pure hv
  call_steady h := by cases h.self.1.2
  hosted_steady h := by cases h.self.1.2
  rule_steady h hrule := (h.rule_ne_host _ hrule).elim

/-! ## the evaluation -/

/-- Where nothing that can be reached is the symbol or asks the host, nothing inside it is. -/
theorem World.Reaches.clear {w : World} {env : Env} {expr v : Value}
    (hshuns : ∀ v, w.Reaches env expr v → v.Shuns n) (hv : w.Reaches env expr v) :
    v.Clear n (w.Inside env expr) := by
  -- What is inside a value that can be reached can be reached itself.
  intro u hu
  have hreached : w.Reaches env expr u := by
    induction hu with
    | refl => exact hv
    | tail _ hpart ih => exact .part ih hpart
  refine ⟨hshuns u hreached, ?_⟩
  rintro id params scope body rfl i hi
  exact .inr (.inr ⟨id, params, scope, body, hreached, hi⟩)

/-- **Irrelevant bindings do not interfere**: where an evaluation can come across neither a symbol
nor the host, a binding of the symbol to any value in any scope changes neither the value or
fault of the evaluation, nor anything that it leaves apart from the bindings of that symbol. -/
theorem eval_irrelevant_binding (host : Host) (w : World) (env : Env) (expr : Value) (n : Symbol)
    (hshuns : ∀ v, w.Reaches env expr v → v.Shuns n) (scope : Env) (x : Value) :
    let plain := (World.eval host env expr).run w
    let bound := (World.eval host env expr).run (w.bind scope n x)
    bound.1 = plain.1 ∧ bound.2.hide n = plain.2.hide n := by
  intro plain bound
  have hstart : Concealed n (w.Inside env expr) w (w.bind scope n x) :=
    { hide_eq := World.hide_bind_self n w scope x
      every := fun hi => Frame.every_iff.2 fun v hv =>
        World.Reaches.clear hshuns (Frame.every_iff.1 hi.frame v hv)
      inside_of_le := fun hi => .inr (.inl hi) }
  have hcoupled := (concealment host n (w.Inside env expr)).eval env expr (fun _ hi => .inl hi)
    (World.Reaches.clear hshuns .expr) () w (w.bind scope n x) hstart
  have hplain : (World.eval host env expr).run w = plain := rfl
  have hbound : (World.eval host env expr).run (w.bind scope n x) = bound := rfl
  rw [hplain, hbound] at hcoupled
  generalize plain = r at hcoupled ⊢
  generalize bound = r' at hcoupled ⊢
  cases hcoupled with
  | ok hworlds hvalue => exact ⟨congrArg Except.ok hvalue.1, hworlds.hide_eq⟩
  | error hworlds hfault => exact ⟨congrArg Except.error hfault.symm, hworlds.hide_eq⟩
  | excused hfault => exact hfault.elim

/-- Nothing in a new standard environment leads to a symbol or to the host. -/
theorem World.newStandard_shuns (n : Symbol) (limits : Limits) :
    (newStandard {} limits).2.Every (Value.All (Value.Shuns n)) := by
  refine newStandard_every ?_ ?_ (fun f hf => ?_) (fun id name arity code hcode => ?_)
    (fun t _ ht => ?_) limits
  · exact Value.all_of_no_part ⟨by simp, rfl⟩ (by rintro _ ⟨⟩)
  · exact Value.all_of_no_part ⟨by simp, rfl⟩ (by rintro _ ⟨⟩)
  · refine Value.all_of_no_part ⟨by simp, ?_⟩ (by rintro _ ⟨⟩)
    obtain ⟨ident, name, rule⟩ := f
    cases rule with
    | host key => exact (standardForms_ne_host hf key rfl).elim
    | _ => rfl
  · refine Value.all_of_no_part ⟨by simp, ?_⟩ (by rintro _ ⟨⟩)
    cases code with
    | host key => exact (standard_ne_host hcode key rfl).elim
    | _ => rfl
  · refine Value.all_of_no_part ⟨by simp, ?_⟩ (by rintro _ ⟨⟩)
    obtain ⟨ident, label, guard, maker⟩ := t
    cases ht
    rfl

/-- What holds of everything inside the definitions and the expression holds of what can be
reached. -/
theorem World.Reaches.all {Q : Value → Prop} {w : World} {env : Env} {expr v : Value}
    (hw : w.Every (Value.All Q)) (hexpr : expr.All Q) (h : w.Reaches env expr v) : v.All Q := by
  induction h with
  | expr => exact hexpr
  | scope _ hv => exact Frame.every_iff.1 (hw _) _ hv
  | captured _ _ hv _ => exact Frame.every_iff.1 (hw _) _ hv
  | part _ hpart ih => exact ih.part hpart

/-- A function that binds a name in its scope does not notice that `h` is bound further out. -/
theorem eval_irrelevant_binding_label :
    let std := World.newStandard {} {}
    let body := Value.ofItems [.symbol "label", .symbol "y",
      .ofItems [.symbol "cons", .symbol "x", .symbol "x"]]
    let w := std.2.bind std.1 "f" (.closure 0 ["x"] std.1 [body])
    let expr := Value.ofItems [.symbol "define", .symbol "z", .ofItems [.symbol "f", .symbol "car"]]
    let plain := (World.eval Host.none std.1 expr).run w
    let bound := (World.eval Host.none std.1 expr).run (w.bind std.1 "h" (.symbol "h"))
    plain.1.toOption.any (· == .symbol "z") = true ∧ bound.1 = plain.1 ∧
      bound.2.hide "h" = plain.2.hide "h" := by
  intro std body w expr plain bound
  have hdata : Hereditary (Value.All (Value.Shuns "h")) :=
    Value.all_hereditary fun _ h => .of_isData h
  have hsymbol : ∀ name, name ≠ "h" → (Value.symbol name).All (Value.Shuns "h") :=
    fun name hname => Value.all_of_no_part ⟨by simpa using hname, rfl⟩ (by rintro _ ⟨⟩)
  have hbody : body.All (Value.Shuns "h") := by
    simp [body, Value.ofItems, hdata.pair_iff, hdata.nil, hsymbol]
  have hexpr : expr.All (Value.Shuns "h") := by
    simp [expr, Value.ofItems, hdata.pair_iff, hdata.nil, hsymbol]
  have hclosure : (Value.closure 0 ["x"] std.1 [body]).All (Value.Shuns "h") := by
    refine Value.all_iff.2 ⟨⟨by simp, rfl⟩, fun u hu => ?_⟩
    cases hu with
    | body hx => exact List.mem_singleton.1 hx ▸ hbody
  have hw : w.Every (Value.All (Value.Shuns "h")) :=
    (World.newStandard_shuns "h" {}).bind std.1 "f" hclosure
  exact ⟨by decide +kernel, eval_irrelevant_binding Host.none w std.1 expr "h"
    (fun v hv => (hv.all hw hexpr).self) std.1 (.symbol "h")⟩

end Sexpr
