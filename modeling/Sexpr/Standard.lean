import Sexpr.Primitive.Names
import Sexpr.Value.Collection
import Sexpr.World.Basic

/-!
# Sexpr.Standard

The standard environment: the special forms, the functions and the data types of the language.
-/

namespace Sexpr

namespace World

/-- The next identity. -/
def newIdent (w : World) : Ident × World :=
  (w.journal.next, { w with journal := { w.journal with next := w.journal.next + 1 } })

/-- The special forms with their names, in the order in which they are registered. -/
def standardForms : List (Symbol × Rule) :=
  [("quote", .quote), ("cond", .cond), ("lambda", .lambda), ("label", .label),
    ("define", .define), ("and", .and), ("or", .or)]

/-- Registers a new special form. -/
def registerForm (env : Env) (w : World) (name : Symbol) (rule : Rule) : World :=
  let (ident, w) := w.newIdent
  w.installForm env { ident, name, rule }

/-- Registers the special forms. -/
def registerForms (w : World) (env : Env) : World :=
  standardForms.foldl (fun w (name, rule) => registerForm env w name rule) w

/-- Binds a new native function under its name. -/
def registerFunction (env : Env) (w : World) (name : String) (arity : Arity) (code : Code) :
    World :=
  let (id, w) := w.newIdent
  w.bind env name (.native id name arity code)

/-- Binds the constants and the functions. -/
def registerFunctions (w : World) (env : Env) : World :=
  let w := (w.bind env "nil" .nil).bind env "t" (.bool true)
  Code.standard.foldl (fun w (name, arity, code) => registerFunction env w name arity code) w

/-- The data types with their labels, in the order in which they are registered. -/
def standardTypes : List (Symbol × Guard) :=
  Kind.all.map (fun k => (k.name, .kind k)) ++
    [("true", .literal true), ("false", .literal false)]

/-- Registers a new data type that makes of a value the value itself. -/
def registerType (env : Env) (w : World) (label : Symbol) (guard : Guard) : World :=
  let (ident, w) := w.newIdent
  w.installType env { ident, label, guard, maker := .identity }

/-- Registers the data types. -/
def registerTypes (w : World) (env : Env) : World :=
  standardTypes.foldl (fun w (label, guard) => registerType env w label guard) w

/-- A new root environment with the special forms, the functions and the data types. -/
def newStandard (w : World) (limits : Limits) : Env × World :=
  let (env, w) := w.newRoot limits
  (env, ((w.registerForms env).registerFunctions env).registerTypes env)

end World

end Sexpr
