import Sexpr.Eval.Basic
import Sexpr.Primitive.Call

/-!
# Sexpr.Eval.Data

Data types and tagged values.

A data type checks a value when it is applied and makes a tagged value of it: a pair of the
type and a thunk.  The constructor of the type runs when the tagged value is unwrapped, which
needs the type to be visible under its label.
-/

namespace Sexpr

/-- Whether a guard accepts a value. -/
def Guard.accepts (host : Host) : Guard → Value → Bool
  | .kind k, v => k.holds v
  | .literal b, .bool c => b == c
  | .literal _, _ => false
  | .host key, v => host.accepts key v

/-- What a constructor makes of a value. -/
def Maker.build (host : Host) : Maker → Value → Action Value
  | .identity, v => pure v
  | .host key, v => host.construct key v

namespace DataType

/-- Whether the type accepts a value. -/
def accepts (host : Host) (t : DataType) (v : Value) : Bool := t.guard.accepts host v

/-- A new tagged value. -/
def tag (t : DataType) (v : Value) : Fresh Value := do
  let payload := Value.thunk (← fresh) t.label t.maker v
  Value.cons (.dataType t) payload

/-- The tagged value of an accepted value. -/
def construct (host : Host) (t : DataType) (v : Value) : Attempt Value :=
  if t.accepts host v then t.tag v else failure t.label (.rejected t.label v)

/-- Applies the type to a list of arguments. -/
def constructFrom (host : Host) (t : DataType) (args : List Value) : Attempt Value :=
  match args with
  | [v] => t.construct host v
  | args => failure t.label (.wrongArity (.exact 1) args.length)

end DataType

/-- The name under which faults of unwrapping are raised. -/
def unwrapLocation : String := "eval-data"

/-- Calls a native function that takes no arguments. -/
def force (host : Host) (ask : Requests) (env : Env) : Value → EvalM Value
  | .thunk _ _ maker v => EvalM.act (maker.build host v)
  | .native _ name (.exact 0) code =>
    match code with
    | .primitive p => EvalM.attempt (p.call host.library [])
    | .unwrap => EvalM.fail name (.wrongArity (.exact 1) 0)
    | .host key => (host.call key env []).run ask
  | v => EvalM.fail unwrapLocation (.undeclared v)

/-- Forces the payload of a tagged value whose type is visible under its label. -/
def unwrapPayload (host : Host) (ask : Requests) (env : Env) (t : DataType) (payload : Value) :
    EvalM Value := do
  match (← get).findType env t.label with
  | some u => if u.ident = t.ident then force host ask env payload else unregistered
  | none => unregistered
where
  unregistered : EvalM Value := EvalM.fail unwrapLocation (.unregistered t.label)

/-- The evaluator that forces payloads itself and leaves the rest to `ask`. -/
def Evaluator.ofRequests (host : Host) (ask : Requests) : Evaluator where
  toRequests := ask
  unwrap := unwrapPayload host ask

/-- Unwraps a tagged value. -/
def unwrap (ev : Evaluator) (env : Env) : Value → EvalM Value
  | .pair _ (.dataType t) payload => ev.unwrap env t payload
  | .pair _ v _ => EvalM.fail unwrapLocation (.notADataType v)
  | v => EvalM.fail unwrapLocation (.undeclared v)

end Sexpr
