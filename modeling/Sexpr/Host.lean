import Sexpr.Algebra.Spine
import Sexpr.Library
import Sexpr.World.Basic

/-!
# Sexpr.Host

What a host adds to the language.

Functions, special forms, guards and constructors of the host occur in values as keys.
A `Host` says what the keys mean.  A function or special form of the host is a `Program`: it can
make objects, write to the log, look at the definitions of all scopes and change them, and it can
ask for evaluations and applications in any environment.  Whatever it asks for, it gets the outcome,
a value or a fault, and goes on as it likes.

Only evaluations count as levels of a session.  What bounds programs that apply each other without
an evaluation in between is the room that the machine has for them, which is part of the host.
-/

namespace Sexpr

/-- Computations that make objects, write to the log and can fail. -/
abbrev Action := ExceptT Fault (StateM Journal)

/-- A computation that makes objects, as an action. -/
def Action.ofAttempt {α : Type} (a : Attempt α) : Action α :=
  ExceptT.mk fun j =>
    let (r, next) := a.run j.next
    (r, { j with next })

/-- Adds a value to the log. -/
def Action.record (v : Value) : Action Unit := modify fun j => { j with log := j.log ++ [v] }

/-- What a function or special form of the host does with its arguments. -/
inductive Program where
  /-- Ends with a value or a fault. -/
  | done (outcome : Except Fault Value)
  /-- Makes objects and writes to the log. -/
  | act (a : Action Value) (next : Except Fault Value → Program)
  /-- Changes the frames of all scopes, and goes on with what they were. -/
  | scopes (change : Array Frame → Array Frame) (next : Array Frame → Program)
  /-- Looks at the limits of an environment. -/
  | limits (env : Env) (next : Limits → Program)
  /-- Evaluates an expression. -/
  | eval (env : Env) (expr : Value) (next : Except Fault Value → Program)
  /-- Applies a value to arguments. -/
  | apply (env : Env) (f : Value) (args : List Value) (next : Except Fault Value → Program)

/-- The meaning of the keys in values, and what else an evaluation takes from outside. -/
structure Host where
  library : Library
  /-- Whether a guard accepts a value. -/
  accepts : Nat → Value → Bool
  /-- What a constructor makes of a value. -/
  construct : Nat → Value → Action Value
  /-- What a function does with its arguments, in the environment of the caller. -/
  call : Nat → Env → List Value → Program
  /-- What a special form does with its unevaluated argument list, in the environment of the
  caller. -/
  rule : Nat → Env → Value → Program
  /-- How many applications that programs ask for can be nested without an evaluation in between. -/
  nesting : Nat

/-- The host that adds nothing. -/
def Host.none : Host where
  library := .own
  accepts _ _ := false
  construct _ v := pure v
  call _ _ _ := .done (.ok .nil)
  rule _ _ _ := .done (.ok .nil)
  nesting := 0

end Sexpr
