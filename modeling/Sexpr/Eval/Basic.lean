import Sexpr.Host

/-!
# Sexpr.Eval.Basic

Computations of the evaluator.

An evaluation changes the world and gives a value or a fault; what was changed before a
fault stays changed.  The parts of the evaluator are written over an
`Evaluator`, which evaluates the expressions inside an expression, forces the payloads of
tagged values and does what programs of the host ask for, and `Sexpr.Eval.Run` ties the knot.
-/

namespace Sexpr

/-- Computations on the world that can fail. -/
abbrev EvalM := ExceptT Fault (StateM World)

/-- What a program of the host can ask for. -/
structure Requests where
  /-- The value of an expression. -/
  eval : Env → Value → EvalM Value
  /-- What a value gives when it is applied to arguments. -/
  apply : Env → Value → List Value → EvalM Value

/-- A way to evaluate expressions, to serve programs of the host and to force payloads. -/
structure Evaluator extends Requests where
  /-- What the payload of a value that is tagged with a type stands for. -/
  unwrap : Env → DataType → Value → EvalM Value

namespace EvalM

/-- Runs an action on the journal of the world. -/
def act {α : Type} (a : Action α) : EvalM α :=
  ExceptT.mk fun w =>
    let (r, journal) := a.run w.journal
    (r, { w with journal })

/-- Runs a computation that makes objects. -/
def attempt {α : Type} (a : Attempt α) : EvalM α := act (.ofAttempt a)

/-- Fails with a cause. -/
def fail {α : Type} (location : String) (cause : Cause) : EvalM α := throw { location, cause }

/-- Makes an environment. -/
def newEnv (make : World → Env × World) : EvalM Env := ExceptT.mk fun w =>
  let (env, w) := make w
  (.ok env, w)

/-- The definition of a name. -/
def resolve (env : Env) (name : Symbol) : EvalM Value := do
  match (← get).resolve env name with
  | some v => return v
  | none => throw (Fault.unbound name)

/-- Runs a computation and goes on with its outcome, a value or a fault, unless the fault has ended
the whole process. -/
def settle (m : EvalM Value) (next : Except Fault Value → EvalM Value) : EvalM Value :=
  ExceptT.mk fun w =>
    match m.run w with
    | (.ok v, w) => (next (.ok v)).run w
    | (.error f, w) => if f.cause.isFatal then (.error f, w) else (next (.error f)).run w

end EvalM

/-- Runs a program of the host. -/
def Program.run (ask : Requests) : Program → EvalM Value
  | .done outcome => liftM outcome
  | .act a next => EvalM.settle (EvalM.act a) fun r => (next r).run ask
  | .scopes change next => do
    let w ← get
    set { w with frames := change w.frames }
    (next w.frames).run ask
  | .limits env next => do (next ((← get).limits env)).run ask
  | .eval env expr next => EvalM.settle (ask.eval env expr) fun r => (next r).run ask
  | .apply env f args next => EvalM.settle (ask.apply env f args) fun r => (next r).run ask

/-- The fault of an evaluation that would be nested too deep. -/
def World.tooDeep (w : World) (env : Env) (expr : Value) : Fault :=
  Fault.during { location := "eval", cause := .depthExceeded (w.limits env).depth } expr

namespace Session

/-- Whether one more evaluation may be nested. -/
def hasRoom (s : Session) : Bool := s.depth < s.limits.depth

def deepen (s : Session) : Session := { s with depth := s.depth + 1 }

def surface (s : Session) : Session := { s with depth := s.depth - 1 }

end Session

/-- Runs the evaluation of an expression one level deeper, unless that is too deep.  The level is
counted before it is compared with the limit, and given back in any case. -/
def EvalM.within (env : Env) (expr : Value) (body : EvalM Value) : EvalM Value :=
  ExceptT.mk fun w =>
    let depth := (w.session env.session).depth + 1
    let w := w.modifySession env.session Session.deepen
    let (r, w) :=
      if (w.limits env).depth < depth then (.error (w.tooDeep env expr), w) else body.run w
    (r, w.modifySession env.session Session.surface)

/-- The values of expressions, from left to right. -/
def evalEach (ev : Evaluator) (env : Env) (exprs : List Value) : EvalM (List Value) :=
  exprs.mapM (ev.eval env)

/-- The value of the last of some expressions that are evaluated in order. -/
def evalSequence (ev : Evaluator) (env : Env) (body : List Value) : EvalM Value :=
  body.foldlM (fun _ expr => ev.eval env expr) .nil

/-- The values of an argument list.  Its elements are evaluated before its end is looked at. -/
def evalArguments (ev : Evaluator) (env : Env) (args : Value) : EvalM (List Value) := do
  let values ← evalEach ev env args.elements
  if args.tail.isNil then return values else EvalM.fail "eval" (.malformedCall args.tail)

end Sexpr
