import Sexpr.Eval.Data

/-!
# Sexpr.Eval.Apply

Applying functions to arguments that have been evaluated.
-/

namespace Sexpr

/-- The arity of a lambda. -/
def lambdaArity (params : List Symbol) : Arity := .exact params.length

/-- Calls a native function, the number of arguments checked. -/
def callCode (host : Host) (ev : Evaluator) (env : Env) (code : Code) (args : List Value) :
    EvalM Value :=
  match code with
  | .primitive p => EvalM.attempt (p.call host.library args)
  | .unwrap => unwrap ev env (args.headD .nil)
  | .host key => (host.call key env args).run ev.toRequests

/-- Calls a function. -/
def invoke (host : Host) (ev : Evaluator) (env : Env) (f : Value) (args : List Value) :
    EvalM Value := do
  match f with
  | .native _ name arity code =>
    arity.check name args.length
    callCode host ev env code args
  | .thunk _ label maker v =>
    (Arity.exact 0).check (Value.thunkName label) args.length
    EvalM.act (maker.build host v)
  | .closure _ params scope body =>
    (lambdaArity params).check "lambda" args.length
    let inner ← EvalM.newEnv fun w => w.extend scope params args
    evalSequence ev inner body
  | .hosted _ params key =>
    (lambdaArity params).check "lambda" args.length
    (host.call key env args).run ev.toRequests
  | .dataType t => EvalM.attempt (t.constructFrom host args)
  | f => EvalM.fail "apply" (.irreducible f)

/-- A callable value, or one that a value evaluates to. -/
def reduceCallable (ev : Evaluator) (env : Env) (f : Value) : EvalM Value := do
  if f.isCallable then return f
  let g ← ev.eval env f
  if g.isCallable then return g else EvalM.fail "apply" (.irreducible f)

/-- Applies a value to arguments.  A value that is no function is evaluated first. -/
def apply (host : Host) (ev : Evaluator) (env : Env) (f : Value) (args : List Value) :
    EvalM Value := do
  invoke host ev env (← reduceCallable ev env f) args

/-- An application that a program of the host asks for, where a number of them can be nested. -/
def applyWithin (host : Host) (eval : Env → Value → EvalM Value) :
    Nat → Env → Value → List Value → EvalM Value
  | 0, _, _, _ => EvalM.fail "apply" .exhausted
  | room + 1, env, f, args =>
    apply host (.ofRequests host ⟨eval, applyWithin host eval room⟩) env f args

/-- The evaluator that leaves expressions to `eval`. -/
def Evaluator.ofEval (host : Host) (eval : Env → Value → EvalM Value) : Evaluator :=
  .ofRequests host ⟨eval, applyWithin host eval host.nesting⟩

end Sexpr
