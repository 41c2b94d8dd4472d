import Sexpr.Limits
import Sexpr.Registry
import Sexpr.Value.Basic

/-!
# Sexpr.World.Basic

The state that evaluations share.

A world holds frames and sessions, both numbered from zero.  A frame has three
registries: bound values, special forms and data types.  An environment
(`Env`) is a chain of frames in a session; environments made from one root share its session, which
has the limits and counts how deep evaluations are nested.  Beside them the
world keeps a journal: the next identity, and the log that functions of the host write.
-/

namespace Sexpr

/-- One scope: its definitions of values, special forms and data types. -/
structure Frame where
  values : Registry Value := .empty
  forms : Registry Form := .empty
  types : Registry DataType := .empty
  deriving Inhabited

/-- What the environments of one root share. -/
structure Session where
  limits : Limits := {}
  /-- The number of evaluations in progress. -/
  depth : Nat := 0
  deriving DecidableEq, Repr, Inhabited

/-- The next identity, and what functions of the host have recorded. -/
structure Journal where
  next : Ident := 0
  log : List Value := []
  deriving Inhabited

/-- The state that evaluations share. -/
structure World where
  frames : Array Frame := #[]
  sessions : Array Session := #[]
  journal : Journal := {}
  deriving Inhabited

namespace World

/-- The frame of a number; an unused number has an empty one. -/
def frame (w : World) (i : Nat) : Frame := w.frames.getD i {}

def modifyFrame (w : World) (i : Nat) (f : Frame → Frame) : World :=
  { w with frames := w.frames.modify i f }

/-- A session in which nothing can be evaluated. -/
def closedSession : Session := { limits := { depth := 0 } }

/-- The session of a number; an unused number has a closed one. -/
def session (w : World) (i : Nat) : Session := w.sessions.getD i closedSession

def modifySession (w : World) (i : Nat) (f : Session → Session) : World :=
  { w with sessions := w.sessions.modify i f }

/-- The limits of an environment. -/
def limits (w : World) (env : Env) : Limits := (w.session env.session).limits

/-- How many evaluations can still be nested in some sessions, all of them taken together. -/
def levelsLeft : List Session → Nat
  | [] => 0
  | s :: sessions => s.limits.depth - s.depth + levelsLeft sessions

/-- How many evaluations can still be nested in all sessions. -/
def headroom (w : World) : Nat := levelsLeft w.sessions.toList

/-! ## Environments -/

/-- A new root environment, with a session and an empty frame of its own. -/
def newRoot (w : World) (limits : Limits) : Env × World :=
  ({ session := w.sessions.size, frame := w.frames.size, outer := [] },
    { w with sessions := w.sessions.push { limits }, frames := w.frames.push {} })

/-- A new environment inside `env` that binds parameters to arguments, one by one. -/
def extend (w : World) (env : Env) (params : List Symbol) (args : List Value) : Env × World :=
  ({ session := env.session, frame := w.frames.size, outer := env.frames },
    { w with frames := w.frames.push { values := Registry.empty.insertAll (params.zip args) } })

/-- A new environment inside `env` without definitions of its own. -/
def newChild (w : World) (env : Env) : Env × World := w.extend env [] []

/-! ## Definitions -/

/-- Binds a value in the innermost frame. -/
def bind (w : World) (env : Env) (name : Symbol) (v : Value) : World :=
  w.modifyFrame env.frame fun f => { f with values := f.values.insert name v }

/-- Removes a binding of the innermost frame. -/
def unbind (w : World) (env : Env) (name : Symbol) : World :=
  w.modifyFrame env.frame fun f => { f with values := f.values.erase name }

/-- Registers a special form under its own name in the innermost frame. -/
def installForm (w : World) (env : Env) (form : Form) : World :=
  w.modifyFrame env.frame fun f => { f with forms := f.forms.insert form.name form }

/-- Registers a data type under its label in the innermost frame. -/
def installType (w : World) (env : Env) (t : DataType) : World :=
  w.modifyFrame env.frame fun f => { f with types := f.types.insert t.label t }

/-- The first definition along the chain of frames. -/
def find? {α : Type} (w : World) (env : Env) (registry : Frame → Registry α) (name : Symbol) :
    Option α :=
  env.frames.findSome? fun i => (registry (w.frame i)).get? name

/-- The value bound to a name. -/
def findValue (w : World) (env : Env) (name : Symbol) : Option Value :=
  w.find? env Frame.values name

def findForm (w : World) (env : Env) (name : Symbol) : Option Form := w.find? env Frame.forms name

def findType (w : World) (env : Env) (name : Symbol) : Option DataType :=
  w.find? env Frame.types name

/-- The value bound to a name in the innermost frame. -/
def findHere (w : World) (env : Env) (name : Symbol) : Option Value :=
  (w.frame env.frame).values.get? name

/-- The definition of a name: a bound value, else a special form, else a data type. -/
def resolve (w : World) (env : Env) (name : Symbol) : Option Value :=
  match w.findValue env name with
  | some v => some v
  | none =>
    match w.findForm env name with
    | some f => some (.form f)
    | none => (w.findType env name).map .dataType

/-- A summary of the innermost frame. -/
def describe (w : World) (env : Env) : String :=
  let f := w.frame env.frame
  "Environment \x7b values: " ++ f.values.size.repr ++ ", forms: " ++ f.forms.size.repr ++
    ", types: " ++ f.types.size.repr ++ ", has_parent: " ++
    (if env.outer.isEmpty then "false" else "true") ++ " \x7d"

end World

end Sexpr
