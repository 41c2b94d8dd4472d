import Sexpr.Proofs.HeadSubstitution

/-!
# Sexpr.Proofs.Calls

Calls of the functions and of the special forms of the language.

A function is a value that has a name, the number of arguments it takes and what it computes
(`Primitive.toNative`).  To apply it is to check the number of the arguments and to compute
(`run_apply_toNative`).  To evaluate a call that names it is to evaluate the arguments and to apply
it to their values (`run_evalExpr_name`).

To evaluate a call that names a special form is to apply its rule to the arguments as they are
(`run_evalExpr_form`).
-/

namespace Sexpr

variable {host : Host} {ev : Evaluator} {env : Env} {w : World} {id : Ident} {args : List Value}

/-! ## functions -/

/-- A function of the language as a value. -/
def Primitive.toNative (p : Primitive) (id : Ident) : Value :=
  .native id p.name p.arity (.primitive p)

/-- A computation that makes no objects leaves the world as it was. -/
theorem run_attempt_liftM (r : Except Fault Value) :
    (EvalM.attempt (liftM r : Attempt Value)).run w = (r, w) := rfl

/-- Applying a value starts with all levels that the limits leave. -/
theorem World.run_apply (f : Value) :
    (World.apply host env f args).run w =
      (Sexpr.apply host (evaluator host w.headroom) env f args).run w := rfl

/-- Applying a function checks the number of the arguments and computes. -/
theorem run_apply_toNative (p : Primitive) :
    (apply host ev env (p.toNative id) args).run w =
      if p.arity.allows args.length then (EvalM.attempt (p.call host.library args)).run w
      else (.error { location := p.name, cause := .wrongArity p.arity args.length }, w) := by
  have hreduce : reduceCallable ev env (p.toNative id) = pure (p.toNative id) := rfl
  have hinvoke : invoke host ev env (p.toNative id) args = (do
      p.arity.check p.name args.length
      EvalM.attempt (p.call host.library args)) := rfl
  unfold apply
  rw [hreduce, pure_bind, hinvoke, Arity.check]
  split
  · rfl
  · rfl

theorem evalArguments_of_isProperList {args : Value} (h : args.isProperList = true) :
    evalArguments ev env args = evalEach ev env args.elements := by
  rw [Value.isProperList_eq] at h
  simp only [evalArguments, h, if_true, bind_pure]

/-- The body of a call that names a function evaluates the arguments and applies the function. -/
theorem run_evalExpr_name {p : Primitive} {fid : Ident}
    (hname : w.resolve env p.name = some (p.toNative fid))
    (hlimit : 0 < (w.limits env).unfoldings) (id : Ident) (args : Value) :
    (evalExpr host ev env (.pair id (.symbol p.name) args)).run w =
      (evalArguments ev env args >>= apply host ev env (p.toNative fid)).run w := by
  have hsymbol : ¬ ∃ name, p.toNative fid = .symbol name := by simp [Primitive.toNative]
  rw [run_evalExpr_pair, run_bind, run_reduceHead_symbol hname hsymbol rfl hlimit]
  rfl

/-! ## special forms -/

/-- Whether a value is a special form with a rule. -/
def Value.hasRule (rule : Rule) : Value → Bool
  | .form f => f.rule == rule
  | _ => false

/-- In an environment, a name stands for a special form with a rule. -/
def World.HasForm (w : World) (env : Env) (name : Symbol) (rule : Rule) : Prop :=
  (w.resolve env name).any (Value.hasRule rule) = true

variable {name : Symbol} {rule : Rule}

instance : Decidable (w.HasForm env name rule) := inferInstanceAs (Decidable (_ = true))

theorem World.HasForm.exists_form (h : w.HasForm env name rule) :
    ∃ f : Form, w.resolve env name = some (.form f) ∧ f.rule = rule := by
  unfold World.HasForm at h
  cases hv : w.resolve env name with
  | none =>
    rw [hv] at h
    cases h
  | some v =>
    rw [hv] at h
    cases v with
    | form f => exact ⟨f, rfl, eq_of_beq h⟩
    | _ => cases h

/-- The fault of a form whose name may not be replaced by its definition. -/
def unreplacedFault (name : Symbol) (expr : Value) : Fault :=
  Fault.during { location := "eval", cause := .unfoldingsExceeded name 0 } expr

/-- The body of a call that names a special form applies its rule, if the name may be replaced. -/
theorem run_evalExpr_form (hform : w.HasForm env name rule) (id : Ident) (args : Value) :
    (evalExpr host ev env (.pair id (.symbol name) args)).run w =
      if 0 < (w.limits env).unfoldings then (rule.apply host ev env args).run w
      else (.error (unreplacedFault name (.pair id (.symbol name) args)), w) := by
  obtain ⟨f, hf, rfl⟩ := hform.exists_form
  rw [run_evalExpr_pair, run_bind]
  rcases Nat.eq_zero_or_pos (w.limits env).unfoldings with hzero | hlimit
  · rw [if_neg (by omega)]
    unfold reduceHead
    rw [run_bind, run_get]
    simp only [hzero]
    rfl
  · rw [if_pos hlimit, run_reduceHead_symbol hf (by simp) rfl hlimit]
    rfl

end Sexpr
