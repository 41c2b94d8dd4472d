import Sexpr.Proofs.Frames
import Sexpr.Proofs.Run
import Sexpr.Standard

/-!
# Sexpr.Proofs.HeadSubstitution

A form means what the form with the definition of its head means.

Evaluating `(name . args)` replaces `name` by its definition `d` and goes on, while evaluating
`(d . args)` starts from `d`.  The two differ in how many unfoldings are left, and in
that a data type followed by a payload is recognised as a tagged value before its
head is looked at.  Neither can be seen in the result, apart from the limit itself and from the
expression that a fault shows.

The runs are compared step by step with the `Ending` in which the worlds are the same and faults
are the same but for the expression; the invariant of the loop is that the second run has one
unfolding more left.
-/

namespace Sexpr

variable {α : Type}

/-- Whether a cause is the limit for replacing heads. -/
def Cause.isUnfoldingLimit : Cause → Bool
  | .unfoldingsExceeded .. => true
  | _ => false

/-- Whether the limit for replacing heads ended a computation. -/
def stoppedByUnfolding : Except Fault α → Bool
  | .ok _ => false
  | .error f => f.cause.isUnfoldingLimit

/-- The fault without the expression that it shows. -/
def Fault.bare (f : Fault) : Fault := { f with expression := none }

/-- The same world and the same fault but for the expression, unless the limit for replacing heads
ends the first run. -/
def upToExpression : Ending where
  worlds w w' := w' = w
  faults f f' := f'.bare = f.bare
  excused f := f.cause.isUnfoldingLimit = true

theorem upToExpression_refl (r : Except Fault α × World) :
    upToExpression.Alike (fun a a' => a' = a) r r := by
  obtain ⟨_ | _, w⟩ := r
  · exact .error rfl rfl
  · exact .ok rfl rfl

variable {host : Host} {ev : Evaluator} {env : Env} {expr expr' : Value} {w : World}

/-! ## the loop -/

/-- With one unfolding more, a head that reduces reduces to the same definition. -/
theorem unfoldHead_spare (limit left : Nat) (head : Value) :
    upToExpression.Alike (fun r r' => r'.1 = r.1 ∧ r'.2 = r.2 + 1)
      ((unfoldHead env expr limit left head).run w)
      ((unfoldHead env expr' limit (left + 1) head).run w) := by
  induction left generalizing head with
  | zero =>
    by_cases hsymbol : ∃ name, head = .symbol name
    · obtain ⟨name, rfl⟩ := hsymbol
      exact .excused rfl
    · rw [unfoldHead_of_ne hsymbol, unfoldHead_of_ne hsymbol]
      exact .ok rfl ⟨rfl, rfl⟩
  | succ left ih =>
    by_cases hsymbol : ∃ name, head = .symbol name
    · obtain ⟨name, rfl⟩ := hsymbol
      unfold unfoldHead
      rw [run_bind, run_bind, run_resolve]
      cases w.resolve env name with
      | none => exact .error rfl rfl
      | some v => exact ih v
    · rw [unfoldHead_of_ne hsymbol, unfoldHead_of_ne hsymbol]
      exact .ok rfl ⟨rfl, rfl⟩

/-- A symbol reduces to what its definition reduces to. -/
theorem reduceHead_definition {name : Symbol} {d : Value} (hd : w.resolve env name = some d) :
    upToExpression.Alike (fun head head' => head' = head)
      ((reduceHead ev env expr (.symbol name)).run w) ((reduceHead ev env expr' d).run w) := by
  unfold reduceHead
  rw [run_bind, run_bind, run_get]
  cases hlimit : (w.limits env).unfoldings with
  | zero =>
    simp only [hlimit]
    exact .excused rfl
  | succ limit =>
    simp only [hlimit]
    have hfirst : (unfoldHead env expr (limit + 1) (limit + 1) (.symbol name)).run w =
        (unfoldHead env expr (limit + 1) limit d).run w := by
      rw [unfoldHead, run_bind, run_resolve, hd]
    have hstart : upToExpression.Alike (fun r r' => r'.1 = r.1 ∧ r'.2 = r.2 + 1)
        ((unfoldHead env expr (limit + 1) (limit + 1) (.symbol name)).run w)
        ((unfoldHead env expr' (limit + 1) (limit + 1) d).run w) := by
      rw [hfirst]
      exact unfoldHead_spare (limit + 1) limit d
    refine hstart.bind fun r r' v v' hr hv => ?_
    obtain ⟨head, left⟩ := r
    obtain ⟨hhead, hleft⟩ := hr
    rw [show r' = (head, left + 1) from Prod.ext hhead hleft]
    cases hv
    dsimp only
    split
    · refine (upToExpression_refl _).bind fun x x' u u' hx hu => ?_
      cases hx
      cases hu
      refine (unfoldHead_spare (limit + 1) left _).bind fun r r' v v' hr hv => ?_
      cases hv
      exact .ok rfl hr.1
    · exact .ok rfl rfl

/-! ## the form -/

/-- The expression matters only where it is not recognized. -/
theorem evalReduced_expr (head args : Value) :
    upToExpression.Alike (fun a a' => a' = a) ((evalReduced host ev env expr head args).run w)
      ((evalReduced host ev env expr' head args).run w) := by
  unfold evalReduced
  split
  · exact upToExpression_refl _
  · exact upToExpression_refl _
  · split
    · exact upToExpression_refl _
    · exact .error rfl rfl

/-- A head that is neither a symbol nor a pair is its own definition. -/
theorem run_reduceHead_of_ne {head : Value} (hsymbol : ¬ ∃ name, head = .symbol name)
    (hpair : head.isPair = false) :
    (reduceHead ev env expr head).run w = (.ok head, w) := by
  unfold reduceHead
  rw [run_bind, run_get]
  simp only [unfoldHead_of_ne hsymbol, pure_bind, hpair, Bool.false_eq_true, if_false]
  rfl

/-- A name of what is neither a symbol nor a pair reduces in one step, if one is allowed. -/
theorem run_reduceHead_symbol {name : Symbol} {d : Value} (hd : w.resolve env name = some d)
    (hsymbol : ¬ ∃ name, d = .symbol name) (hpair : d.isPair = false)
    (hlimit : 0 < (w.limits env).unfoldings) :
    (reduceHead ev env expr (.symbol name)).run w = (.ok d, w) := by
  obtain ⟨limit, hlimit⟩ := Nat.exists_eq_succ_of_ne_zero (Nat.ne_of_gt hlimit)
  unfold reduceHead
  rw [run_bind, run_get]
  simp only [hlimit]
  rw [run_bind, unfoldHead, run_bind, run_resolve, hd]
  simp only [unfoldHead_of_ne hsymbol]
  show (if d.isPair then _ else pure d : EvalM Value).run w = (.ok d, w)
  rw [hpair]
  rfl

/-- Every pair is evaluated as a form: recognising tagged values first is a shortcut. -/
theorem run_evalExpr_pair (id : Ident) (head args : Value) :
    (evalExpr host ev env (.pair id head args)).run w =
      (do
        let head' ← reduceHead ev env (.pair id head args) head
        evalReduced host ev env (.pair id head args) head' args : EvalM Value).run w := by
  by_cases htagged : (Value.pair id head args).isTagged = true
  · obtain ⟨t, rfl⟩ : ∃ t, head = .dataType t := by
      cases head with
      | dataType t => exact ⟨t, rfl⟩
      | _ => cases htagged
    have hnative : args.isNative = true := htagged
    rw [run_bind, run_reduceHead_of_ne (by simp) rfl]
    simp only [evalExpr, htagged, unwrap, evalReduced, hnative, if_true]
  · simp only [evalExpr, if_neg htagged]

theorem evalExpr_definition {name : Symbol} {d : Value} (hd : w.resolve env name = some d)
    (id id' : Ident) (args : Value) :
    upToExpression.Alike (fun a a' => a' = a)
      ((evalExpr host ev env (.pair id (.symbol name) args)).run w)
      ((evalExpr host ev env (.pair id' d args)).run w) := by
  rw [run_evalExpr_pair, run_evalExpr_pair]
  refine (reduceHead_definition hd).bind fun head head' v v' hhead hv => ?_
  cases hhead
  cases hv
  exact evalReduced_expr head args

/-! ## the evaluation -/

/-- The expression that is named when there is no room matters only for the fault. -/
theorem within_upToExpression {body body' : EvalM Value}
    (h : upToExpression.Alike (fun a a' => a' = a)
      (body.run (w.modifySession env.session Session.deepen))
      (body'.run (w.modifySession env.session Session.deepen))) :
    upToExpression.Alike (fun a a' => a' = a) ((EvalM.within env expr body).run w)
      ((EvalM.within env expr' body').run w) := by
  cases hroom : (w.session env.session).hasRoom with
  | false =>
    rw [run_within_of_full hroom, run_within_of_full hroom]
    exact .error rfl rfl
  | true =>
    rw [run_within_of_room hroom, run_within_of_room hroom]
    generalize body.run (w.modifySession env.session Session.deepen) = r at h ⊢
    generalize body'.run (w.modifySession env.session Session.deepen) = r' at h ⊢
    cases h with
    | ok hworlds hvalue =>
      cases hworlds
      exact .ok rfl hvalue
    | error hworlds hfault =>
      cases hworlds
      exact .error rfl hfault
    | excused hfault => exact .excused hfault

theorem evalWithin_definition {name : Symbol} {d : Value} (hd : w.resolve env name = some d)
    (left : Nat) (id id' : Ident) (args : Value) :
    upToExpression.Alike (fun a a' => a' = a)
      ((evalWithin host left env (.pair id (.symbol name) args)).run w)
      ((evalWithin host left env (.pair id' d args)).run w) := by
  cases left with
  | zero => exact .error rfl rfl
  | succ left =>
    have hdeep : (w.modifySession env.session Session.deepen).resolve env name = some d := hd
    exact within_upToExpression (evalExpr_definition hdeep id id' args)

/-- **Heads can be replaced by their definitions**: unless the limit for replacing heads stops the
form with the name, the form with the definition ends in the same value, or in the same fault but
for the expression that it shows, and leaves the same world. -/
theorem eval_head_definition (host : Host) (w : World) (env : Env) (name : Symbol)
    (d args : Value) (id id' : Ident) (hd : w.resolve env name = some d)
    (hends : stoppedByUnfolding
      ((World.eval host env (.pair id (.symbol name) args)).run w).1 = false) :
    ((World.eval host env (.pair id' d args)).run w).1.mapError Fault.bare =
        ((World.eval host env (.pair id (.symbol name) args)).run w).1.mapError Fault.bare ∧
      ((World.eval host env (.pair id' d args)).run w).2 =
        ((World.eval host env (.pair id (.symbol name) args)).run w).2 := by
  have halike : upToExpression.Alike (fun a a' => a' = a)
      ((World.eval host env (.pair id (.symbol name) args)).run w)
      ((World.eval host env (.pair id' d args)).run w) :=
    evalWithin_definition hd w.headroom id id' args
  rcases hname : (World.eval host env (.pair id (.symbol name) args)).run w with ⟨r, v⟩
  rcases hdef : (World.eval host env (.pair id' d args)).run w with ⟨r', v'⟩
  rw [hname, hdef] at halike
  rw [hname] at hends
  cases halike with
  | ok hworlds hvalue =>
    cases hvalue
    exact ⟨rfl, hworlds⟩
  | error hworlds hfault => exact ⟨congrArg Except.error hfault, hworlds⟩
  | excused hfault =>
    have hstopped : stoppedByUnfolding (.error _ : Except Fault Value) = true := hfault
    rw [hstopped] at hends
    cases hends

/-- A head that is defined by a pair is evaluated, and binds a name, in both forms. -/
theorem eval_head_definition_label :
    let std := World.newStandard {} {}
    let d := Value.ofItems [.symbol "label", .symbol "g", .symbol "cons"]
    let w := std.2.bind std.1 "f" d
    let args := Value.ofItems [.bool true, .symbol "g"]
    let first := (World.eval Host.none std.1 (.pair 0 (.symbol "f") args)).run w
    let second := (World.eval Host.none std.1 (.pair 0 d args)).run w
    stoppedByUnfolding first.1 = false ∧
      second.1.mapError Fault.bare = first.1.mapError Fault.bare ∧ second.2 = first.2 := by
  intro std d w args first second
  have hd : w.resolve std.1 "f" = some d := World.resolve_bind_self (by decide +kernel) "f" d
  have hends : stoppedByUnfolding first.1 = false := by decide +kernel
  exact ⟨hends, eval_head_definition Host.none w std.1 "f" d args 0 0 hd hends⟩

end Sexpr
