import Sexpr.Proofs.Application

/-!
# Sexpr.Proofs.Alternatives

The special forms `or` and `cond` evaluate the same expressions.

`(or e …)` and `(cond (e) …)` both evaluate the expressions from left to right, one level deeper
than the form, until one of them fails or has a true value.  What is evaluated before can change
what is true later, so the two are compared world by world: `Passes` says that some expressions
have false values, each in the world that the one before it has left, and `Tried` how
both forms end after that.

The forms differ in what they give when no value is true, and in what is said when a limit stops
the form itself, which names it (`run_eval_form`).
-/

namespace Sexpr

variable {host : Host} {ev : Evaluator} {env : Env} {w : World} {name : Symbol} {rule : Rule}

/-! ## forms within the limits -/

/-- How a form ends that is named: a limit stops it before its rule is applied, or the rule is
applied one level deeper. -/
theorem run_eval_form (host : Host) (hform : w.HasForm env name rule) (id : Ident) (args : Value) :
    let expr := Value.pair id (.symbol name) args
    let inner := w.modifySession env.session Session.deepen
    let body := (rule.apply host (evaluator host inner.headroom) env args).run inner
    (World.eval host env expr).run w =
      if (w.session env.session).hasRoom then
        if 0 < (w.limits env).unfoldings then
          (body.1, body.2.modifySession env.session Session.surface)
        else (.error (unreplacedFault name expr), w)
      else (.error (w.tooDeep env expr), w) := by
  intro expr inner body
  cases hroom : (w.session env.session).hasRoom with
  | false =>
    show (evalWithin host w.headroom env expr).run w = _
    cases w.headroom with
    | zero => rfl
    | succ left =>
      rw [evalWithin, run_within_of_full hroom]
      rfl
  | true =>
    have hinner : inner.HasForm env name rule := hform
    rw [World.run_eval_of_room host expr hroom, run_evalExpr_form hinner, World.limits_deepen,
      if_pos rfl]
    split
    · rfl
    · rw [World.surface_deepen]

/-! ## expressions that are tried -/

/-- Expressions that are evaluated one after another, each in the world that the one before has
left, and whose values are all false. -/
inductive Passes (eval : Value → EvalM Value) : World → List Value → List Value → World → Prop
  | nil (w : World) : Passes eval w [] [] w
  | cons {e v : Value} {es vs : List Value} {w u u' : World} :
    (eval e).run w = (.ok v, u) → v.isTruthy = false → Passes eval u es vs u' →
      Passes eval w (e :: es) (v :: vs) u'

/-- How two computations end that evaluate the same expressions until one of them fails or has a
true value.  If none does, the first gives the last value, which is `last` if there are no
expressions, and the second gives `nil`. -/
inductive Tried (eval : Value → EvalM Value) (last : Value) (es : List Value) (w : World) :
    Except Fault Value × World → Except Fault Value × World → Prop
  /-- The expressions behind the first true value are not evaluated. -/
  | found {before after vs : List Value} {e v : Value} {u u' : World} :
    es = before ++ e :: after → Passes eval w before vs u → (eval e).run u = (.ok v, u') →
      v.isTruthy = true → Tried eval last es w (.ok v, u') (.ok v, u')
  /-- The expressions behind the first fault are not evaluated. -/
  | failed {before after vs : List Value} {e : Value} {f : Fault} {u u' : World} :
    es = before ++ e :: after → Passes eval w before vs u → (eval e).run u = (.error f, u') →
      Tried eval last es w (.error f, u') (.error f, u')
  | exhausted {vs : List Value} {u : World} :
    Passes eval w es vs u → Tried eval last es w (.ok (vs.getLastD last), u) (.ok .nil, u)

variable {eval : Value → EvalM Value}

/-- An expression with a false value is passed over. -/
theorem Tried.cons {last e v : Value} {es : List Value} {u : World}
    {r r' : Except Fault Value × World} (he : (eval e).run w = (.ok v, u))
    (hv : v.isTruthy = false) (h : Tried eval v es u r r') : Tried eval last (e :: es) w r r' := by
  cases h with
  | found hes hpass hrun htrue =>
    rw [hes]
    exact .found (List.cons_append ..).symm (.cons he hv hpass) hrun htrue
  | failed hes hpass hrun =>
    rw [hes]
    exact .failed (List.cons_append ..).symm (.cons he hv hpass) hrun
  | exhausted hpass =>
    rw [← List.getLastD_cons (a := last)]
    exact .exhausted (.cons he hv hpass)

/-- The list of clauses that consist of a test alone.  Its pairs may be any pairs. -/
inductive Value.TestClauses : Value → List Value → Prop
  | nil : TestClauses .nil []
  | cons (id clauseId : Ident) (test : Value) {clauses : Value} {tests : List Value} :
    TestClauses clauses tests →
      TestClauses (.pair id (.pair clauseId test .nil) clauses) (test :: tests)

theorem Value.TestClauses.isProperList {clauses : Value} {tests : List Value}
    (h : clauses.TestClauses tests) : clauses.isProperList = true := by
  induction h with
  | nil => rfl
  | cons id clauseId test h ih => exact ih

/-- The loops of the two forms try the same expressions. -/
theorem tried_evalUntil_evalClauses {sessions : Array Session}
    (heval : ∀ e u, u.sessions = sessions → (ev.eval env e).run u = (eval e).run u)
    (hkept : ∀ e u, ((eval e).run u).2.sessions = u.sessions) {clauses : Value}
    {es : List Value} (hclauses : clauses.TestClauses es) (last : Value)
    (hw : w.sessions = sessions) :
    Tried eval last es w ((evalUntil ev env true last es).run w)
      ((evalClauses ev env clauses.elements).run w) := by
  induction hclauses generalizing last w with
  | nil => exact .exhausted (.nil w)
  | @cons id clauseId e clauses es hclauses ih =>
    have hclause : evalClauses ev env (Value.pair id (.pair clauseId e .nil) clauses).elements =
        (do
          let v ← ev.eval env e
          if v.isTruthy then return v else evalClauses ev env clauses.elements) := rfl
    rw [hclause, evalUntil, run_bind, run_bind, heval e w hw]
    have hsessions := hkept e w
    rcases hrun : (eval e).run w with ⟨_ | v, u⟩
    · exact .failed (List.nil_append _).symm (.nil w) hrun
    · rw [hrun, hw] at hsessions
      cases hv : v.isTruthy with
      | true =>
        simp only [hv]
        exact .found (List.nil_append _).symm (.nil w) hrun hv
      | false =>
        simp only [hv]
        exact .cons hrun hv (ih v hsessions)

/-! ## the two forms -/

theorem formArguments_of_isProperList (name : String) {args : Value}
    (h : args.isProperList = true) : formArguments name args 0 none = .ok args.elements := by
  rw [Value.isProperList_eq] at h
  simp [formArguments, h]

theorem Rule.apply_or {args : Value} (h : args.isProperList = true) :
    Rule.or.apply host ev env args = evalUntil ev env true (.bool false) args.elements := by
  simp only [Rule.apply, formArguments_of_isProperList "or" h]
  rfl

theorem Rule.apply_cond {clauses : Value} (h : clauses.isProperList = true) :
    Rule.cond.apply host ev env clauses = evalClauses ev env clauses.elements := by
  simp only [Rule.apply, formArguments_of_isProperList "cond" h]
  rfl

/-- **`or` and `cond` are one computation**: where both names stand for the special forms,
`(or e …)` and `(cond (e) …)` evaluate the same expressions, one level deeper and from left to
right, and leave the same world.  The first true value is the value of both, and the first fault
ends both.  If no value is true, `or` gives the last one, or false if there is none, and `cond`
gives `nil`.

A limit can also stop the forms themselves.  Then nothing is evaluated or changed, and the
fault names the form that was stopped. -/
theorem eval_or_cond (host : Host) (w : World) (env : Env) (args clauses : Value) (id id' : Ident)
    (hor : w.HasForm env "or" .or) (hcond : w.HasForm env "cond" .cond)
    (hargs : args.isProperList = true) (hclauses : clauses.TestClauses args.elements) :
    let first := Value.pair id (.symbol "or") args
    let second := Value.pair id' (.symbol "cond") clauses
    ((w.session env.session).hasRoom = false →
      (World.eval host env first).run w = (.error (w.tooDeep env first), w) ∧
      (World.eval host env second).run w = (.error (w.tooDeep env second), w)) ∧
    ((w.session env.session).hasRoom = true → (w.limits env).unfoldings = 0 →
      (World.eval host env first).run w = (.error (unreplacedFault "or" first), w) ∧
      (World.eval host env second).run w = (.error (unreplacedFault "cond" second), w)) ∧
    ((w.session env.session).hasRoom = true → 0 < (w.limits env).unfoldings →
      ∃ r r', Tried (World.eval host env) (.bool false) args.elements
          (w.modifySession env.session Session.deepen) r r' ∧
        (World.eval host env first).run w =
          (r.1, r.2.modifySession env.session Session.surface) ∧
        (World.eval host env second).run w =
          (r'.1, r'.2.modifySession env.session Session.surface)) := by
  intro first second
  rw [run_eval_form host hor, run_eval_form host hcond]
  refine ⟨fun hfull => ?_, fun hroom hzero => ?_, fun hroom hlimit => ?_⟩
  · simp only [hfull, Bool.false_eq_true, if_false]
    exact ⟨rfl, rfl⟩
  · simp only [hroom, hzero, Nat.lt_irrefl, if_true, if_false]
    exact ⟨rfl, rfl⟩
  · simp only [hroom, hlimit, if_true]
    rw [Rule.apply_or hargs, Rule.apply_cond hclauses.isProperList]
    refine ⟨_, _, tried_evalUntil_evalClauses (fun e u hu => ?_) ?_ hclauses (.bool false) rfl,
      rfl, rfl⟩
    · show (evalWithin host _ env e).run u = (evalWithin host u.headroom env e).run u
      rw [World.headroom, World.headroom, hu]
    · exact World.sessions_eval host env

/-- The same expression is false first and true later, and the last one, which would fail, is not
evaluated. -/
theorem eval_or_cond_define :
    let std := World.newStandard {} {}
    let w := std.2.bind std.1 "x" (.bool false)
    let tests := [.symbol "x",
      .ofItems [.symbol "not", .ofItems [.symbol "define", .symbol "x", .number (.int 7)]],
      .symbol "x", .ofItems [.symbol "car", .number (.int 5)]]
    let args := Value.ofItems tests
    let clauses := Value.ofItems (tests.map fun test => .ofItems [test])
    let first := (World.eval Host.none std.1 (.pair 0 (.symbol "or") args)).run w
    let second := (World.eval Host.none std.1 (.pair 0 (.symbol "cond") clauses)).run w
    (∃ r r', Tried (World.eval Host.none std.1) (.bool false) args.elements
        (w.modifySession std.1.session Session.deepen) r r' ∧
      first = (r.1, r.2.modifySession std.1.session Session.surface) ∧
      second = (r'.1, r'.2.modifySession std.1.session Session.surface)) ∧
    first.1.toOption.any (· == .number (.int 7)) = true ∧
    (first.2.resolve std.1 "x").any (· == .number (.int 7)) = true := by
  intro std w tests args clauses first second
  have hends : w.HasForm std.1 "or" .or ∧ w.HasForm std.1 "cond" .cond ∧
      (w.session std.1.session).hasRoom = true ∧ 0 < (w.limits std.1).unfoldings ∧
      first.1.toOption.any (· == .number (.int 7)) = true ∧
      (first.2.resolve std.1 "x").any (· == .number (.int 7)) = true := by decide +kernel
  obtain ⟨hor, hcond, hroom, hlimit, hseven⟩ := hends
  have hclauses : clauses.TestClauses args.elements :=
    .cons _ _ _ (.cons _ _ _ (.cons _ _ _ (.cons _ _ _ .nil)))
  have htried := eval_or_cond Host.none w std.1 args clauses 0 0 hor hcond rfl hclauses
  exact ⟨htried.2.2 hroom hlimit, hseven⟩

/-- Where no name may be replaced, each of the forms fails with a fault of its own. -/
theorem eval_or_cond_unreplaced :
    let std := World.newStandard {} { unfoldings := 0 }
    let first := Value.ofItems [.symbol "or"]
    let second := Value.ofItems [.symbol "cond"]
    std.2.HasForm std.1 "or" .or ∧ std.2.HasForm std.1 "cond" .cond ∧
    ∃ f g, (World.eval Host.none std.1 first).run std.2 = (.error f, std.2) ∧
      (World.eval Host.none std.1 second).run std.2 = (.error g, std.2) ∧
      f.message = "or did not reduce after 0 rewrites" ∧
      g.message = "cond did not reduce after 0 rewrites" ∧ f ≠ g := by
  intro std first second
  have hforms : std.2.HasForm std.1 "or" .or ∧ std.2.HasForm std.1 "cond" .cond ∧
      (std.2.session std.1.session).hasRoom = true ∧ ¬ 0 < (std.2.limits std.1).unfoldings := by
    decide +kernel
  obtain ⟨hor, hcond, hroom, hzero⟩ := hforms
  have hfirst := run_eval_form Host.none hor 0 .nil
  have hsecond := run_eval_form Host.none hcond 0 .nil
  simp only [hroom, hzero, if_true, if_false] at hfirst hsecond
  refine ⟨hor, hcond, _, _, hfirst, hsecond, rfl, rfl, fun heq => ?_⟩
  have hcause := congrArg Fault.cause heq
  simp [unreplacedFault, Fault.during] at hcause

end Sexpr
