import Sexpr.Algebra.Spine
import Sexpr.Value.Collection
import Sexpr.World.Basic

/-!
# Sexpr.World.Snapshot

Carrying definitions from one environment to another.

`World.snapshot` collects every definition that is visible from an environment, the inner ones
shadowing the outer ones in their places.  `World.merge` installs a snapshot in the
innermost frame of an environment: all of it, or nothing when a special form or a data type is
filed under a name other than its own.  `World.mergeModule` installs the
bindings of a module that is given as a value.
-/

namespace Sexpr

/-- Definitions taken out of an environment. -/
structure Snapshot where
  values : List (Symbol × Value) := []
  forms : List (Symbol × Form) := []
  types : List (Symbol × DataType) := []
  deriving Inhabited

namespace Snapshot

def addValue (s : Snapshot) (name : Symbol) (v : Value) : Snapshot :=
  { s with values := s.values ++ [(name, v)] }

def addForm (s : Snapshot) (name : Symbol) (f : Form) : Snapshot :=
  { s with forms := s.forms ++ [(name, f)] }

def addType (s : Snapshot) (name : Symbol) (t : DataType) : Snapshot :=
  { s with types := s.types ++ [(name, t)] }

/-- The last value under a name. -/
def get? (s : Snapshot) (name : Symbol) : Option Value :=
  (s.values.reverse.find? (·.1 = name)).map Prod.snd

def size (s : Snapshot) : Nat := s.values.length + s.forms.length + s.types.length

/-- The values as a new object. -/
def toObject (s : Snapshot) : Fresh Value := Value.newObject (Value.objectOf s.values)

/-- Checks that definitions are filed under their own names. -/
def checkFiled {α : Type} (own : α → Symbol) (misfiled : Symbol → Symbol → Cause)
    (entries : List (Symbol × α)) : Except Fault Unit :=
  entries.forM fun (key, a) =>
    if key = own a then .ok () else failure "merge" (misfiled (own a) key)

/-- Checks that every special form and every data type is filed under its own name. -/
def check (s : Snapshot) : Except Fault Unit := do
  checkFiled Form.name .misfiledForm s.forms
  checkFiled DataType.label .misfiledType s.types

end Snapshot

/-- The frame with all definitions of a snapshot. -/
def Frame.install (f : Frame) (s : Snapshot) : Frame :=
  { values := f.values.insertAll s.values
    forms := f.forms.insertAll s.forms
    types := f.types.insertAll s.types }

/-- The definitions of a frame. -/
def Frame.toSnapshot (f : Frame) : Snapshot :=
  { values := f.values.entries, forms := f.forms.entries, types := f.types.entries }

namespace World

/-- Every definition visible from an environment. -/
def snapshot (w : World) (env : Env) : Snapshot :=
  (env.frames.reverse.foldl (fun (f : Frame) i => f.install (w.frame i).toSnapshot) {}).toSnapshot

/-- Installs a snapshot in the innermost frame, once all of it has been checked. -/
def merge (env : Env) (s : Snapshot) : ExceptT Fault (StateM World) Unit := do
  s.check
  modify fun w => w.modifyFrame env.frame (·.install s)

/-- An entry of a module that is given as an association list. -/
def moduleEntry : Value → Except Fault (Symbol × Value)
  | .pair _ (.symbol name) v => .ok (name, v)
  | .pair _ (.string name) v => .ok (name, v)
  | .pair _ key _ => failure "merge" (.improperExportKey key)
  | v => failure "merge" (.malformedExport v)

/-- The bindings of a module: the entries of an object, or an association list with
symbols or strings as keys. -/
def moduleBindings : Value → Except Fault (List (Symbol × Value))
  | .object _ entries => .ok entries
  | .nil => .ok []
  | .pair id a d => do
    let bindings ← (Value.pair id a d).elements.mapM moduleEntry
    if d.tail.isNil then return bindings else failure "merge" (.improperExports d.tail)
  | v => failure "merge" (.noExports v.typeWord)

/-- Installs the bindings of a module in the innermost frame, once all of them have been read. -/
def mergeModule (env : Env) (module : Value) : ExceptT Fault (StateM World) Unit := do
  let bindings ← moduleBindings module
  modify fun w =>
    w.modifyFrame env.frame fun f => { f with values := f.values.insertAll bindings }

end World

end Sexpr
