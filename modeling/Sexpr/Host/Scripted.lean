import Sexpr.Host

/-!
# Sexpr.Host.Scripted

A host whose additions are chosen from a fixed list of behaviours.

A script is grown by adding behaviours; the key of a behaviour is its position.  It
serves sessions that need functions, special forms and data types from outside
without being written in Lean.
-/

namespace Sexpr

namespace Scripted

/-- What a function can do. -/
inductive Function where
  /-- Gives a fixed value. -/
  | constant (v : Value)
  /-- Gives the list of its arguments. -/
  | arguments
  /-- Logs the list of its arguments and gives the first of them, or `nil`. -/
  | record
  | fail (location : String)
  /-- Applies the first argument to the others. -/
  | apply
  /-- Evaluates the first argument. -/
  | eval
  deriving Inhabited

/-- What a special form can do. -/
inductive FormRule where
  /-- Gives the argument list. -/
  | arguments
  /-- Gives the first argument. -/
  | first
  /-- Evaluates the first argument. -/
  | evalFirst
  | constant (v : Value)
  | fail (location : String)
  deriving Inhabited

/-- What a constructor can do. -/
inductive Constructor where
  /-- Makes a list of one element. -/
  | box
  | fail (location : String)
  /-- Logs the value and gives it back. -/
  | record
  deriving Inhabited

/-- The fault of a behaviour that fails. -/
def failed (location : String) : Fault := { location, cause := .custom .value "failed" }

/-- What a function does. -/
def Function.call (env : Env) (args : List Value) : Function → Program
  | .constant v => .done (.ok v)
  | .arguments => .act (Action.ofAttempt (Value.list args)) .done
  | .record =>
    .act (do
      Action.record (← Action.ofAttempt (Value.list args))
      return args.headD .nil) .done
  | .fail location => .done (.error (failed location))
  | .apply =>
    match args with
    | [] => .done (.ok .nil)
    | f :: rest => .apply env f rest .done
  | .eval =>
    match args with
    | [] => .done (.ok .nil)
    | expr :: _ => .eval env expr .done

/-- What a special form does. -/
def FormRule.call (env : Env) (args : Value) : FormRule → Program
  | .arguments => .done (.ok args)
  | .first => .done args.car
  | .evalFirst =>
    match args.car with
    | .ok expr => .eval env expr .done
    | .error f => .done (.error f)
  | .constant v => .done (.ok v)
  | .fail location => .done (.error (failed location))

/-- What a constructor makes of a value. -/
def Constructor.call (v : Value) : Constructor → Action Value
  | .box => Action.ofAttempt (Value.list [v])
  | .fail location => throw (failed location)
  | .record => do
    Action.record v
    return v

end Scripted

/-- The behaviours that a session has added. -/
structure Script where
  functions : Array Scripted.Function := #[]
  rules : Array Scripted.FormRule := #[]
  constructors : Array Scripted.Constructor := #[]
  deriving Inhabited

namespace Script

/-- The key of the guard that accepts every value; every other key accepts none. -/
def anyKey : Nat := 1

/-- The host of a script. -/
def host (s : Script) : Host where
  library := .own
  accepts key _ := key == anyKey
  construct key v :=
    match s.constructors[key]? with
    | some c => c.call v
    | none => pure v
  call key env args :=
    match s.functions[key]? with
    | some f => f.call env args
    | none => .done (.ok .nil)
  rule key env args :=
    match s.rules[key]? with
    | some r => r.call env args
    | none => .done (.ok .nil)
  nesting := 1000000

/-- Adds a function and gives its key. -/
def addFunction (s : Script) (f : Scripted.Function) : Nat × Script :=
  (s.functions.size, { s with functions := s.functions.push f })

/-- Adds a special form and gives its key. -/
def addRule (s : Script) (r : Scripted.FormRule) : Nat × Script :=
  (s.rules.size, { s with rules := s.rules.push r })

/-- Adds a constructor and gives its key. -/
def addConstructor (s : Script) (c : Scripted.Constructor) : Nat × Script :=
  (s.constructors.size, { s with constructors := s.constructors.push c })

end Script

end Sexpr
