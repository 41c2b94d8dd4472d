import Sexpr.Proofs.Coupling
import Sexpr.Proofs.Frames
import Sexpr.Standard

/-!
# Sexpr.Proofs.Genuine

The values that programs of a standard environment can have.

Such a program takes values apart and puts them together, but it makes callables in three ways
only: it finds them in the standard environment, it evaluates `lambda`, and it applies a data type,
which makes a thunk of a value that the type accepts.  `Genuine` says so of a value and of
everything inside it, and evaluations keep it (`genuineness`).

* `Reached`: the worlds and values that sequences of expressions reach;
* `Reached.genuine`: all of them are genuine.
-/

namespace Sexpr

variable {host : Host}

/-! ## values -/

/-- A value whose callables come from the standard environment. -/
inductive Genuine (host : Host) : Value → Prop
  | nil : Genuine host .nil
  | undefined : Genuine host .undefined
  | bool (b : Bool) : Genuine host (.bool b)
  | number (n : Number) : Genuine host (.number n)
  | string (s : String) : Genuine host (.string s)
  | symbol (name : Symbol) : Genuine host (.symbol name)
  | regexp (id : Ident) (source : String) : Genuine host (.regexp id source)
  | set {id : Ident} {xs : List Value} :
    (∀ x ∈ xs, Genuine host x) → Genuine host (.set id xs)
  | array {id : Ident} {xs : List Value} :
    (∀ x ∈ xs, Genuine host x) → Genuine host (.array id xs)
  | object {id : Ident} {es : List (String × Value)} :
    (∀ e ∈ es, Genuine host e.2) → Genuine host (.object id es)
  | pair {id : Ident} {a d : Value} :
    Genuine host a → Genuine host d → Genuine host (.pair id a d)
  | native {id : Ident} {name : String} {arity : Arity} {code : Code} :
    (name, arity, code) ∈ Code.standard → Genuine host (.native id name arity code)
  /-- A data type of the standard environment accepted the value. -/
  | thunk {id : Ident} {label : Symbol} {guard : Guard} {v : Value} :
    (label, guard) ∈ World.standardTypes → guard.accepts host v = true → Genuine host v →
      Genuine host (.thunk id label .identity v)
  | closure {id : Ident} {params : List Symbol} {env : Env} {body : List Value} :
    (∀ x ∈ body, Genuine host x) → Genuine host (.closure id params env body)
  | form {f : Form} : (f.name, f.rule) ∈ World.standardForms → Genuine host (.form f)
  | dataType {t : DataType} :
    (t.label, t.guard) ∈ World.standardTypes → t.maker = .identity → Genuine host (.dataType t)

theorem genuine_hereditary : Hereditary (Genuine host) where
  nil := .nil
  undefined := .undefined
  bool := .bool
  number := .number
  regexp := .regexp
  pair_iff id a d := by
    refine ⟨fun h => ?_, fun h => .pair h.1 h.2⟩
    cases h with
    | pair ha hd => exact ⟨ha, hd⟩
  set_iff id xs := by
    refine ⟨fun h => ?_, .set⟩
    cases h with
    | set hxs => exact hxs
  array_iff id xs := by
    refine ⟨fun h => ?_, .array⟩
    cases h with
    | array hxs => exact hxs
  object_iff id es := by
    refine ⟨fun h => ?_, .object⟩
    cases h with
    | object hes => exact hes

/-! ## the standard environment -/

/-- No function of the standard environment is one of the host. -/
theorem standard_ne_host {name : String} {arity : Arity} {code : Code}
    (h : (name, arity, code) ∈ Code.standard) (key : Nat) : code ≠ .host key := by
  rintro rfl
  simp [Code.standard] at h

/-- No special form of the standard environment is one of the host. -/
theorem standardForms_ne_host {name : Symbol} {rule : Rule}
    (h : (name, rule) ∈ World.standardForms) (key : Nat) : rule ≠ .host key := by
  rintro rfl
  simp [World.standardForms] at h

/-- Every function of the standard environment takes an argument. -/
theorem standard_ne_thunk {name : String} {code : Code} :
    (name, Arity.exact 0, code) ∉ Code.standard := by
  intro h
  have hall : ∀ e ∈ Code.standard, e.2.1 ≠ Arity.exact 0 := by decide
  exact hall _ h rfl

namespace World

theorem newIdent_every {P : Value → Prop} {w : World} (h : w.Every P) : w.newIdent.2.Every P := h

/-- What holds of the constants, the special forms, the functions and the data types holds of the
definitions of a new standard environment. -/
theorem newStandard_every {P : Value → Prop} (hnil : P .nil) (htrue : P (.bool true))
    (hform : ∀ f : Form, (f.name, f.rule) ∈ standardForms → P (.form f))
    (hfunction : ∀ id name arity code, (name, arity, code) ∈ Code.standard →
      P (.native id name arity code))
    (htype : ∀ t : DataType, (t.label, t.guard) ∈ standardTypes → t.maker = .identity →
      P (.dataType t)) (limits : Limits) :
    (newStandard {} limits).2.Every P := by
  have hroot : (newRoot {} limits).2.Every P := every_empty.newRoot limits
  have hforms := List.foldlRecOn standardForms
    (fun w (e : Symbol × Rule) => registerForm (newRoot {} limits).1 w e.1 e.2) hroot
    fun w hw e he => (newIdent_every hw).installForm _ (hform _ he)
  have hnames : World.Every P _ :=
    (hforms.bind (newRoot {} limits).1 "nil" hnil).bind (newRoot {} limits).1 "t" htrue
  have hfunctions := List.foldlRecOn Code.standard
    (fun w (e : String × Arity × Code) =>
      registerFunction (newRoot {} limits).1 w e.1 e.2.1 e.2.2) hnames
    fun w hw e he => (newIdent_every hw).bind _ e.1 (hfunction _ _ _ _ he)
  exact List.foldlRecOn standardTypes
    (fun w (e : Symbol × Guard) => registerType (newRoot {} limits).1 w e.1 e.2) hfunctions
    fun w hw e he => (newIdent_every hw).installType _ (htype _ he rfl)

/-- The definitions of a new standard environment are genuine. -/
theorem newStandard_genuine (limits : Limits) :
    (newStandard {} limits).2.Every (Genuine host) :=
  newStandard_every .nil (.bool true) (fun _ => .form) (fun _ _ _ _ => .native)
    (fun _ => .dataType) limits

end World

/-! ## evaluations -/

/-- All definitions and values are genuine. -/
def genuineness (host : Host) : Invariant host where
  holds := World.Every (Genuine host)
  scope _ := True
  fine := Genuine host
  hereditary := genuine_hereditary
  setJournal _ h := h
  modifySession _ _ h := h
  resolve_fine h _ hv := h.resolve hv
  bind h _ hv := h.bind _ _ hv
  extend h _ hargs := ⟨h.extend _ _ hargs, trivial⟩
  closure_fine _ hbody := .closure hbody
  body_fine := by
    intro _ _ _ _ h
    cases h with
    | closure hbody => exact hbody
  thunk_fine := by
    intro _ t v ht hv haccepts
    cases ht with
    | dataType hstandard hmaker =>
      rw [hmaker]
      exact .thunk hstandard haccepts hv
  build_fine := by
    intro _ _ _ _ h
    cases h with
    | thunk _ _ hv => exact .pure hv
  call_steady := by
    intro _ _ _ key _ _ h
    cases h with
    | native hstandard => exact (standard_ne_host hstandard key rfl).elim
  hosted_steady := by
    intro _ _ _ _ _ h
    cases h
  rule_steady := by
    intro _ key _ _ h hrule
    cases h with
    | form hstandard => exact (standardForms_ne_host hstandard key hrule).elim

/-- An evaluation of a genuine expression leaves a genuine world, and its value is genuine. -/
theorem eval_genuine {w : World} {env : Env} {expr : Value} (hw : w.Every (Genuine host))
    (hexpr : Genuine host expr) :
    ((World.eval host env expr).run w).2.Every (Genuine host) ∧
      ∀ v, ((World.eval host env expr).run w).1 = .ok v → Genuine host v := by
  have hagree := (genuineness host).coupling.eval env expr trivial hexpr
  exact (Invariant.run_eq hagree hw).2

/-! ## programs -/

/-- The expressions that are put together of data and known values. -/
inductive Composed (known : List Value) : Value → Prop
  | known {v : Value} : v ∈ known → Composed known v
  | nil : Composed known .nil
  | undefined : Composed known .undefined
  | bool (b : Bool) : Composed known (.bool b)
  | number (n : Number) : Composed known (.number n)
  | string (s : String) : Composed known (.string s)
  | symbol (name : Symbol) : Composed known (.symbol name)
  | regexp (id : Ident) (source : String) : Composed known (.regexp id source)
  | set {id : Ident} {xs : List Value} :
    (∀ x ∈ xs, Composed known x) → Composed known (.set id xs)
  | array {id : Ident} {xs : List Value} :
    (∀ x ∈ xs, Composed known x) → Composed known (.array id xs)
  | object {id : Ident} {es : List (String × Value)} :
    (∀ e ∈ es, Composed known e.2) → Composed known (.object id es)
  | pair {id : Ident} {a d : Value} :
    Composed known a → Composed known d → Composed known (.pair id a d)

theorem Composed.genuine {known : List Value} (hknown : ∀ v ∈ known, Genuine host v) {v : Value}
    (h : Composed known v) : Genuine host v := by
  induction h with
  | known hv => exact hknown _ hv
  | nil => exact .nil
  | undefined => exact .undefined
  | bool b => exact .bool b
  | number n => exact .number n
  | string s => exact .string s
  | symbol name => exact .symbol name
  | regexp id source => exact .regexp id source
  | set _ ih => exact .set ih
  | array _ ih => exact .array ih
  | object _ ih => exact .object ih
  | pair _ _ iha ihd => exact .pair iha ihd

/-- The environment that programs are evaluated in. -/
def standardEnv (limits : Limits) : Env := (World.newStandard {} limits).1

/-- The worlds that sequences of expressions reach in a new standard environment, with the values
that are known so far. -/
inductive Reached (host : Host) (limits : Limits) : World → List Value → Prop
  | start : Reached host limits (World.newStandard {} limits).2 []
  /-- Objects are made outside of evaluations too. -/
  | outside {w : World} {known : List Value} (journal : Journal) :
    Reached host limits w known → Reached host limits { w with journal } known
  | resolve {w : World} {known : List Value} {name : Symbol} {v : Value} :
    Reached host limits w known → w.resolve (standardEnv limits) name = some v →
      Reached host limits w (v :: known)
  | value {w w' : World} {known : List Value} {expr v : Value} :
    Reached host limits w known → Composed known expr →
      (World.eval host (standardEnv limits) expr).run w = (.ok v, w') →
      Reached host limits w' (v :: known)
  | fault {w w' : World} {known : List Value} {expr : Value} {f : Fault} :
    Reached host limits w known → Composed known expr →
      (World.eval host (standardEnv limits) expr).run w = (.error f, w') →
      Reached host limits w' known

/-- What programs reach is genuine. -/
theorem Reached.genuine {limits : Limits} {w : World} {known : List Value}
    (h : Reached host limits w known) :
    w.Every (Genuine host) ∧ ∀ v ∈ known, Genuine host v := by
  induction h with
  | start => exact ⟨World.newStandard_genuine limits, fun _ hv => (List.not_mem_nil hv).elim⟩
  | outside journal _ ih => exact ih
  | resolve _ hv ih => exact ⟨ih.1, List.forall_mem_cons.2 ⟨ih.1.resolve hv, ih.2⟩⟩
  | value _ hexpr hrun ih =>
    obtain ⟨hworld, hvalue⟩ := eval_genuine ih.1 (hexpr.genuine ih.2)
    rw [hrun] at hworld hvalue
    exact ⟨hworld, List.forall_mem_cons.2 ⟨hvalue _ rfl, ih.2⟩⟩
  | fault _ hexpr hrun ih =>
    obtain ⟨hworld, -⟩ := eval_genuine ih.1 (hexpr.genuine ih.2)
    rw [hrun] at hworld
    exact ⟨hworld, ih.2⟩

end Sexpr
