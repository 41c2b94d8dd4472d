import Sexpr.Eval.Basic

/-!
# Sexpr.Eval.Form

The special forms, which get their arguments unevaluated.

```
(quote x)                 x
(cond (test body…) …)     the body of the first clause whose test is true
(lambda (param…) body…)   a function
(label name x)            binds the value of x to name and gives the value
(define name x)           binds the value of x to name and gives the name
(and x…)                  the first value that is false, or the last value
(or x…)                   the first value that is true, or the last value
```
-/

namespace Sexpr

/-- The arguments of a special form, whose number is checked. -/
def formArguments (name : String) (args : Value) (low : Nat) (high : Option Nat) :
    Except Fault (List Value) :=
  if args.tail.isNil then
    let n := args.length
    if n < low || high.any (· < n) then failure name (.wrongFormArity low high n)
    else .ok args.elements
  else failure name (.malformedForm args)

/-- An argument that has to be a symbol. -/
def symbolArgument (name : String) : Value → Except Fault Symbol
  | .symbol s => .ok s
  | v => failure name (.expectedSymbol v)

/-- The value of the first clause whose test is true.  A clause without a body has the value of
its test. -/
def evalClauses (ev : Evaluator) (env : Env) : List Value → EvalM Value
  | [] => return .nil
  | clause :: rest => do
    match ← formArguments "cond" clause 1 none with
    | [] => return .nil
    | test :: body =>
      let v ← ev.eval env test
      if v.isTruthy then
        if body.isEmpty then return v else evalSequence ev env body
      else evalClauses ev env rest

/-- Evaluates expressions until one has the given truth value; the last value is the result. -/
def evalUntil (ev : Evaluator) (env : Env) (stop : Bool) : Value → List Value → EvalM Value
  | last, [] => return last
  | _, expr :: rest => do
    let v ← ev.eval env expr
    if v.isTruthy == stop then return v else evalUntil ev env stop v rest

/-- The names in a parameter list. -/
def parameterNames (params : Value) : Except Fault (List Symbol) := do
  (← formArguments "lambda" params 0 none).mapM (symbolArgument "lambda")

/-- A new function with the given parameters and body. -/
def makeClosure (env : Env) (params : Value) (body : List Value) : EvalM Value := do
  let names ← parameterNames params
  EvalM.attempt do return .closure (← fresh) names env body

/-- Evaluates an expression and binds its value to a name. -/
def bindValue (ev : Evaluator) (env : Env) (form : String) (name expr : Value) :
    EvalM (Symbol × Value) := do
  let name ← symbolArgument form name
  let v ← ev.eval env expr
  modify fun w => w.bind env name v
  return (name, v)

/-- Applies the rule of a special form to its arguments. -/
def Rule.apply (host : Host) (ev : Evaluator) (env : Env) (rule : Rule) (args : Value) :
    EvalM Value := do
  match rule with
  | .quote => return (← formArguments "quote" args 1 (some 1)).headD .nil
  | .cond => evalClauses ev env (← formArguments "cond" args 0 none)
  | .lambda =>
    let items ← formArguments "lambda" args 2 none
    makeClosure env (items.headD .nil) items.tail
  | .label =>
    let items ← formArguments "label" args 2 (some 2)
    return (← bindValue ev env "label" (items.headD .nil) (items.tail.headD .nil)).2
  | .define =>
    let items ← formArguments "define" args 2 (some 2)
    return .symbol (← bindValue ev env "define" (items.headD .nil) (items.tail.headD .nil)).1
  | .and => evalUntil ev env false (.bool true) (← formArguments "and" args 0 none)
  | .or => evalUntil ev env true (.bool false) (← formArguments "or" args 0 none)
  | .host key => (host.rule key env args).run ev.toRequests

end Sexpr
