import Sexpr.Proofs.Coupling
import Sexpr.Proofs.Frames
import Sexpr.Standard

/-!
# Sexpr.Proofs.Confinement

Which scopes an evaluation can change.

Only `define` and `label` change a scope, and what they change is the values of the scope they are
evaluated in.  Programs of the host may do the same (`Program.Local`).  A call of a closure is
evaluated in a scope of its own, which was not there before.  So of the scopes that an evaluation
finds it can change one, its own, and only by binding values: names stay where they are and new ones
come after them (`Confined`).  A call of a closure leaves all scopes as they were.

The induction is that of `Sexpr.Proofs.Coupling`, for an invariant: the world is confined with
respect to the one at the start, and the environments in which expressions are evaluated are
the one at the start and those that came later.
-/

namespace Sexpr

/-! ## confined changes -/

/-- The second world comes from the first by binding values in one scope and adding scopes. -/
structure Confined (own : Nat) (w w' : World) : Prop where
  size_le : w.frames.size ≤ w'.frames.size
  frame_eq {i : Nat} : i < w.frames.size → i ≠ own → w'.frame i = w.frame i
  forms_eq {i : Nat} : i < w.frames.size → (w'.frame i).forms = (w.frame i).forms
  types_eq {i : Nat} : i < w.frames.size → (w'.frame i).types = (w.frame i).types
  names_prefix {i : Nat} : i < w.frames.size →
    (w.frame i).values.names <+: (w'.frame i).values.names

namespace Confined

variable {own : Nat} {w w' : World}

theorem refl (own : Nat) (w : World) : Confined own w w where
  size_le := Nat.le_refl _
  frame_eq _ _ := rfl
  forms_eq _ := rfl
  types_eq _ := rfl
  names_prefix _ := List.prefix_rfl

/-- Only the frames that were there at the start matter. -/
theorem congr {v : World} (h : Confined own w w') (hsize : w'.frames.size ≤ v.frames.size)
    (hframe : ∀ i < w.frames.size, v.frame i = w'.frame i) : Confined own w v where
  size_le := Nat.le_trans h.size_le hsize
  frame_eq hi hne := (hframe _ hi).trans (h.frame_eq hi hne)
  forms_eq hi := by rw [hframe _ hi]; exact h.forms_eq hi
  types_eq hi := by rw [hframe _ hi]; exact h.types_eq hi
  names_prefix hi := by rw [hframe _ hi]; exact h.names_prefix hi

/-- A binding in the own scope or in one that came later. -/
theorem bind (h : Confined own w w') {env : Env}
    (henv : env.frame = own ∨ w.frames.size ≤ env.frame) (name : Symbol) (v : Value) :
    Confined own w (w'.bind env name v) := by
  have hsize := w'.size_frames_bind env name v
  by_cases hin : env.frame < w.frames.size
  · have hown : env.frame = own := by
      rcases henv with rfl | hge
      · rfl
      · omega
    have hself := World.frame_bind_self (Nat.lt_of_lt_of_le hin h.size_le) name v
    refine ⟨by rw [hsize]; exact h.size_le, fun {i} hi hne => ?_, fun {i} hi => ?_,
      fun {i} hi => ?_, fun {i} hi => ?_⟩
    · rw [World.frame_bind_of_ne (by omega)]
      exact h.frame_eq hi hne
    all_goals by_cases heq : env.frame = i
    · rw [← heq, hself]
      exact h.forms_eq hin
    · rw [World.frame_bind_of_ne heq]
      exact h.forms_eq hi
    · rw [← heq, hself]
      exact h.types_eq hin
    · rw [World.frame_bind_of_ne heq]
      exact h.types_eq hi
    · rw [← heq, hself]
      exact (h.names_prefix hin).trans (Registry.names_prefix_insert _ _ _)
    · rw [World.frame_bind_of_ne heq]
      exact h.names_prefix hi
  · refine h.congr (Nat.le_of_eq hsize.symm) fun i hi => ?_
    exact World.frame_bind_of_ne (by omega) name v

/-- A new scope. -/
theorem extend (h : Confined own w w') (env : Env) (params : List Symbol) (args : List Value) :
    Confined own w (w'.extend env params args).2 := by
  refine h.congr ?_ fun i hi => World.frame_extend_of_lt (Nat.lt_of_lt_of_le hi h.size_le)
  unfold World.extend
  simp only [Array.size_push]
  omega

end Confined

/-! ## local programs -/

/-- The program evaluates and applies in one environment only, and changes scopes only by binding
values there. -/
def Program.Local (env : Env) : Program → Prop
  | .done _ => True
  | .act _ next => ∀ r, (next r).Local env
  | .scopes change next => ∀ w : World,
    ({ w with frames := change w.frames } = w ∨
      ∃ name v, { w with frames := change w.frames } = w.bind env name v) ∧
    (next w.frames).Local env
  | .limits _ next => ∀ limits, (next limits).Local env
  | .eval env' _ next => env' = env ∧ ∀ r, (next r).Local env
  | .apply env' _ _ next => env' = env ∧ ∀ r, (next r).Local env

/-- Programs of the host keep to the environment of the caller. -/
structure Host.Local (host : Host) : Prop where
  call (key : Nat) (env : Env) (args : List Value) : (host.call key env args).Local env
  rule (key : Nat) (env : Env) (args : Value) : (host.rule key env args).Local env

theorem Program.Forwards.toLocal {env : Env} {p : Program} (h : p.Forwards env) : p.Local env := by
  induction h with
  | done => trivial
  | act a _ ih => exact ih
  | eval | apply => exact ⟨rfl, fun _ => trivial⟩

theorem Host.Forwards.toLocal {host : Host} (h : host.Forwards) : host.Local :=
  ⟨fun key env args => (h.call key env args).toLocal,
    fun key env args => (h.rule key env args).toLocal⟩

/-! ## the invariant -/

/-- The world is confined with respect to the one at the start.  Expressions are evaluated in the
own scope and in scopes that came later. -/
def confined (own : Nat) (start : World) : Condition where
  holds := Confined own start
  scope env := env.frame = own ∨ start.frames.size ≤ env.frame
  fine _ := True
  setJournal _ h := h.congr (Nat.le_refl _) fun _ _ => rfl

theorem confined_steady {own : Nat} {start : World} {env : Env} {p : Program} (hp : p.Local env)
    (henv : (confined own start).scope env) : (confined own start).pairing.Steady p := by
  intro ask ask' hask
  induction p with
  | done outcome => exact .liftExcept fun _ _ => trivial
  | act a next ih => exact .settleAct fun r => ih r (hp r)
  | scopes change next ih =>
    rintro i _ w ⟨rfl, hw⟩
    obtain ⟨hchange, hnext⟩ := hp w
    have hw' : Confined own start { w with frames := change w.frames } := by
      rcases hchange with heq | ⟨name, v, heq⟩
      · rw [heq]
        exact hw
      · rw [heq]
        exact hw.bind henv name v
    exact ih w.frames hnext i _ _ ⟨rfl, hw'⟩
  | limits env' next ih =>
    rintro i _ w ⟨rfl, hw⟩
    exact ih (w.limits env') (hp _) i w w ⟨rfl, hw⟩
  | eval env' expr next ih =>
    obtain ⟨rfl, hnext⟩ := hp
    exact (hask.eval henv trivial).settle (fun v _ => ih _ (hnext _)) (fun f => ih _ (hnext _))
      fun _ hf => hf.elim
  | apply env' f args next ih =>
    obtain ⟨rfl, hnext⟩ := hp
    exact (hask.apply henv trivial fun _ _ => trivial).settle (fun v _ => ih _ (hnext _))
      (fun f => ih _ (hnext _)) fun _ hf => hf.elim

def confinement {host : Host} (hlocal : host.Local) (own : Nat) (start : World) :
    Invariant host where
  toCondition := confined own start
  hereditary := .of_true
  modifySession _ _ h := h.congr (Nat.le_refl _) fun _ _ => rfl
  resolve_fine _ _ _ := trivial
  bind h henv _ := h.bind henv _ _
  extend h _ _ := ⟨h.extend _ _ _, .inr h.size_le⟩
  closure_fine _ _ := trivial
  body_fine _ _ _ := trivial
  thunk_fine _ _ _ := trivial
  build_fine _ _ _ _ := trivial
  call_steady _ henv _ := confined_steady (hlocal.call _ _ _) henv
  hosted_steady _ henv _ := confined_steady (hlocal.call _ _ _) henv
  rule_steady _ _ henv _ := confined_steady (hlocal.rule _ _ _) henv

/-- However a computation ends, the world is confined. -/
theorem confined_of_agree {host : Host} {hlocal : host.Local} {own : Nat} {start : World}
    {m : EvalM Value} {P : Value → Prop}
    (h : (confinement hlocal own start).coupling.Agree P m m) :
    Confined own start (m.run start).2 :=
  (Invariant.run_eq h (.refl own start)).2.1

/-- A call of a closure changes no scope that was there before. -/
theorem frame_apply_closure {host : Host} (hlocal : host.Local) (n : Nat) (w : World)
    (caller : Env) (id : Ident) (params : List Symbol) (scope : Env) (body args : List Value)
    {i : Nat} (hi : i < w.frames.size) :
    ((apply host (evaluator host n) caller (.closure id params scope body) args).run w).2.frame i =
      w.frame i := by
  -- the own scope is one that is not there, so that only scopes that come later can change
  have hconfined : Confined w.frames.size w
      ((apply host (evaluator host n) caller (.closure id params scope body) args).run w).2 :=
    confined_of_agree (Coupling.applyClosure
      ((confinement hlocal w.frames.size w).coupling.evaluators n) trivial fun _ _ => trivial)
  exact hconfined.frame_eq hi (by omega)

/-- **Frame of evaluation**: an evaluation changes no scope that was there before except the values
of its own, where names keep their places and new ones come last; and nothing that is
defined in a call of a closure can be seen afterwards from any environment that was there
before, the scope of the closure and that of the caller among them. -/
theorem eval_confined {host : Host} (hlocal : host.Local) (w : World) (env : Env) (expr : Value) :
    Confined env.frame w ((World.eval host env expr).run w).2 ∧
      ∀ (n : Nat) (caller : Env) (id : Ident) (params : List Symbol) (scope : Env)
        (body args : List Value),
        let after :=
          ((apply host (evaluator host n) caller (.closure id params scope body) args).run w).2
        (∀ i < w.frames.size, after.frame i = w.frame i) ∧
          ∀ seen : Env, w.Holds seen → ∀ name, after.resolve seen name = w.resolve seen name := by
  have heval := (confinement hlocal env.frame w).coupling.eval env expr (.inl rfl) trivial
  refine ⟨confined_of_agree heval, ?_⟩
  intro n caller id params scope body args after
  have hframe : ∀ i < w.frames.size, after.frame i = w.frame i :=
    fun i hi => frame_apply_closure hlocal n w caller id params scope body args hi
  refine ⟨hframe, fun seen hseen name => ?_⟩
  exact World.resolve_congr (fun i hi => hframe i (hseen i hi)) name

/-- A function that defines a name by a function of the host, called from the scope that it was made
in: the call succeeds, and the name is as unknown there as before. -/
theorem eval_confined_define :
    let host := Script.host { functions := #[.eval] }
    let std := World.newStandard {} {}
    let define := Value.ofItems [.symbol "define", .symbol "y", .symbol "x"]
    let body := Value.ofItems
      [.native 1 "run" (.exact 1) (.host 0), .ofItems [.symbol "quote", define]]
    let f := Value.closure 0 ["x"] std.1 [body]
    let call := (apply host (evaluator host 9) std.1 f [.bool true]).run std.2
    call.1.toOption.isSome = true ∧ 0 < std.2.frames.size ∧ std.2.Holds std.1 ∧
      call.2.frame 0 = std.2.frame 0 ∧ call.2.resolve std.1 "y" = std.2.resolve std.1 "y" := by
  intro host std define body f call
  have hsize : 0 < std.2.frames.size := by decide +kernel
  have hholds : std.2.Holds std.1 := by
    unfold World.Holds
    decide +kernel
  obtain ⟨-, hcalls⟩ := eval_confined (Script.host_forwards _).toLocal std.2 std.1 .nil
  obtain ⟨hframe, hresolve⟩ := hcalls 9 std.1 0 ["x"] std.1 [body] [.bool true]
  exact ⟨by decide +kernel, hsize, hholds, hframe 0 hsize, hresolve std.1 hholds "y"⟩

end Sexpr
