import Sexpr.Eval.Apply
import Sexpr.Eval.Form

/-!
# Sexpr.Eval.Run

Evaluating expressions.

* A symbol stands for its definition.
* A tagged value is unwrapped.
* Any other pair is a form.  Its head is replaced by its definition as long as it is a symbol;
  a head that is a pair is evaluated, once.  A special form gets the arguments as they are, a
  function gets their values.
* Everything else stands for itself.

Evaluations nest, and every session has a limit for how deep.  `evalWithin` counts the
levels that are left: where none is left, evaluation fails.  `World.eval` starts it with
the levels that all sessions have left, which is never too few, since each level is
taken from one of them.
-/

namespace Sexpr

/-- Replaces a symbol by its definition as long as it is one, at most `left` times.  The result
comes with the number of replacements that are left. -/
def unfoldHead (env : Env) (expr : Value) (limit : Nat) : Nat → Value → EvalM (Value × Nat)
  | 0, .symbol name =>
    throw (Fault.during { location := "eval", cause := .unfoldingsExceeded name limit } expr)
  | left + 1, .symbol name => do unfoldHead env expr limit left (← EvalM.resolve env name)
  | left, head => return (head, left)

/-- The definition of the head of a form.  A head that is a pair is evaluated once. -/
def reduceHead (ev : Evaluator) (env : Env) (expr head : Value) : EvalM Value := do
  let limit := ((← get).limits env).unfoldings
  let (head, left) ← unfoldHead env expr limit limit head
  if head.isPair then
    let (head, _) ← unfoldHead env expr limit left (← ev.eval env head)
    return head
  else return head

/-- Evaluates a form whose head has been reduced. -/
def evalReduced (host : Host) (ev : Evaluator) (env : Env) (expr head args : Value) :
    EvalM Value := do
  match head with
  | .form f => f.rule.apply host ev env args
  | .dataType t =>
    if args.isNative then ev.unwrap env t args
    else EvalM.attempt (t.constructFrom host (← evalArguments ev env args))
  | head =>
    if head.isCallable then apply host ev env head (← evalArguments ev env args)
    else throw (Fault.during { location := "eval", cause := .unrecognized } expr)

/-- Evaluates an expression, given how the expressions inside it are evaluated. -/
def evalExpr (host : Host) (ev : Evaluator) (env : Env) (expr : Value) : EvalM Value :=
  match expr with
  | .symbol name => EvalM.resolve env name
  | .pair _ head args =>
    if expr.isTagged then unwrap ev env expr
    else do evalReduced host ev env expr (← reduceHead ev env expr head) args
  | v => return v

/-- Evaluates an expression with a number of levels left. -/
def evalWithin (host : Host) : Nat → Env → Value → EvalM Value
  | 0, env, expr => do throw ((← get).tooDeep env expr)
  | left + 1, env, expr =>
    EvalM.within env expr (evalExpr host (.ofEval host (evalWithin host left)) env expr)

/-- The evaluator with a number of levels left. -/
def evaluator (host : Host) (left : Nat) : Evaluator := .ofEval host (evalWithin host left)

namespace World

/-- Evaluates an expression. -/
def eval (host : Host) (env : Env) (expr : Value) : EvalM Value := do
  evalWithin host (← get).headroom env expr

/-- Applies a value to arguments. -/
def apply (host : Host) (env : Env) (f : Value) (args : List Value) : EvalM Value := do
  Sexpr.apply host (evaluator host (← get).headroom) env f args

/-- Unwraps a tagged value. -/
def unwrap (host : Host) (env : Env) (tagged : Value) : EvalM Value := do
  Sexpr.unwrap (evaluator host (← get).headroom) env tagged

end World

end Sexpr
