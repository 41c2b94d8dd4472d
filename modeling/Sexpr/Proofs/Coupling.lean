import Sexpr.Proofs.Pairing

/-!
# Sexpr.Proofs.Coupling

Two evaluations side by side.

A `Coupling` is a pairing that evaluations keep.  Its laws ask of every step that an evaluation is
made of that it takes related worlds to related worlds and gives the same result in both: looking a
name up, binding it, entering a scope, nesting an evaluation, making an object, running a program of
the host.  From this follows, by going through the parts of the evaluator once, that evaluations of
the same expression from related worlds end alike (`Coupling.eval`).

Properties of one evaluation are couplings of a world with itself: an `Invariant` asks only for
the laws that are left then.
-/

namespace Sexpr

variable {α β : Type}

/-! ## couplings -/

/-- The second session stops an evaluation only where the first does. -/
def Session.Roomier (s s' : Session) : Prop :=
  (s.hasRoom = true → s'.hasRoom = true) ∧ s.limits.unfoldings ≤ s'.limits.unfoldings

/-- A relation between the worlds of two evaluations that every step of an evaluation keeps.  The
stage changes where evaluations nest. -/
structure Coupling (host : Host) (ι : Type) extends Pairing ι where
  hereditary : Hereditary fine
  -- Definitions
  resolve_eq {i : ι} {w w' : World} {env : Env} {name : Symbol} :
    worlds i w w' → scope env → fine (.symbol name) → w'.resolve env name = w.resolve env name
  resolve_fine {i : ι} {w w' : World} {env : Env} {name : Symbol} {v : Value} :
    worlds i w w' → scope env → w.resolve env name = some v → fine v
  findType_eq {i : ι} {w w' : World} {env : Env} {t : DataType} :
    worlds i w w' → scope env → fine (.dataType t) →
      w'.findType env t.label = w.findType env t.label
  bind {i : ι} {w w' : World} {env : Env} {name : Symbol} {v : Value} :
    worlds i w w' → scope env → fine (.symbol name) → fine v →
      worlds i (w.bind env name v) (w'.bind env name v)
  -- Scopes
  size_eq {i : ι} {w w' : World} : worlds i w w' → w'.frames.size = w.frames.size
  extend {i : ι} {w w' : World} {id : Ident} {params : List Symbol} {env : Env}
      {body args : List Value} :
    worlds i w w' → fine (.closure id params env body) → (∀ x ∈ args, fine x) →
      worlds i (w.extend env params args).2 (w'.extend env params args).2 ∧
        scope (w.extend env params args).1
  -- Limits
  session_eq {i : ι} {w w' : World} {env : Env} :
    worlds i w w' → scope env → w'.session env.session = w.session env.session ∨
      (w.session env.session).Roomier (w'.session env.session) ∧
        ∀ f : Fault, f.cause.isLimit = true → excused f
  headroom_eq {i : ι} {w w' : World} :
    worlds i w w' → w'.headroom = w.headroom ∨
      w.headroom ≤ w'.headroom ∧ ∀ f : Fault, f.cause.isLimit = true → excused f
  nest {i : ι} {w w' : World} {env : Env} :
    worlds i w w' → scope env → ∃ j : ι,
      worlds j (w.modifySession env.session Session.deepen)
        (w'.modifySession env.session Session.deepen) ∧
      ∀ v v' : World, worlds j v v' →
        worlds i (v.modifySession env.session Session.surface)
          (v'.modifySession env.session Session.surface)
  -- Callables
  closure_fine {id : Ident} {params : List Symbol} {env : Env} {body : List Value} :
    scope env → (∀ p ∈ params, fine (.symbol p)) → (∀ x ∈ body, fine x) →
      fine (.closure id params env body)
  body_fine {id : Ident} {params : List Symbol} {env : Env} {body : List Value} :
    fine (.closure id params env body) → ∀ x ∈ body, fine x
  thunk_fine {id : Ident} {t : DataType} {v : Value} :
    fine (.dataType t) → fine v → t.accepts host v = true → fine (.thunk id t.label t.maker v)
  build_fine {id : Ident} {label : Symbol} {maker : Maker} {v : Value} :
    fine (.thunk id label maker v) → Yields fine (maker.build host v)
  -- Functions and special forms of the host
  call_steady {id : Ident} {name : String} {arity : Arity} {key : Nat} {env : Env}
      {args : List Value} :
    fine (.native id name arity (.host key)) → scope env → (∀ x ∈ args, fine x) →
      toPairing.Steady (host.call key env args)
  hosted_steady {id : Ident} {params : List Symbol} {key : Nat} {env : Env} {args : List Value} :
    fine (.hosted id params key) → scope env → (∀ x ∈ args, fine x) →
      toPairing.Steady (host.call key env args)
  rule_steady {f : Form} {key : Nat} {env : Env} {args : Value} :
    fine (.form f) → f.rule = .host key → scope env → fine args →
      toPairing.Steady (host.rule key env args)

open Pairing

variable {host : Host} {ι : Type}

/-! ## steps -/

namespace Pairing.Agree

variable {c : Coupling host ι} {P : α → Prop}

theorem resolve {env : Env} {name : Symbol} (henv : c.scope env) (hname : c.fine (.symbol name)) :
    c.Agree c.fine (EvalM.resolve env name) (EvalM.resolve env name) := by
  intro i w w' hw
  rw [run_resolve, run_resolve, c.resolve_eq hw henv hname]
  cases h : w.resolve env name with
  | none => exact .error hw rfl
  | some v => exact .ok hw ⟨rfl, c.resolve_fine hw henv h⟩

/-- A scope that a call makes is the same in both worlds. -/
theorem newScope {id : Ident} {params : List Symbol} {scope : Env} {body args : List Value}
    (hclosure : c.fine (.closure id params scope body)) (hargs : ∀ x ∈ args, c.fine x) :
    c.Agree c.scope (EvalM.newEnv fun w => w.extend scope params args)
      (EvalM.newEnv fun w => w.extend scope params args) := by
  intro i w w' hw
  obtain ⟨hnext, hscope⟩ := c.extend hw hclosure hargs
  have henv : (w'.extend scope params args).1 = (w.extend scope params args).1 := by
    simp only [World.extend, c.size_eq hw]
  exact .ok hnext ⟨henv, hscope⟩

theorem modifyBind {env : Env} {name : Symbol} {v : Value} (henv : c.scope env)
    (hname : c.fine (.symbol name)) (hv : c.fine v) :
    c.Agree (fun _ => True) (modify fun w => w.bind env name v : EvalM PUnit)
      (modify fun w => w.bind env name v) :=
  fun _ _ _ hw => .ok (c.bind hw henv hname hv) ⟨rfl, trivial⟩

theorem tooDeep {env : Env} {expr : Value} (henv : c.scope env) :
    c.Agree P (do MonadExcept.throw ((← get).tooDeep env expr))
      (do MonadExcept.throw ((← get).tooDeep env expr)) := by
  intro i w w' hw
  rw [run_tooDeep, run_tooDeep]
  rcases c.session_eq hw henv with heq | ⟨-, hexcused⟩
  · rw [tooDeep_eq heq]
    exact .error hw rfl
  · exact .excused (hexcused _ rfl)

/-- A level that an evaluation takes is given back in both worlds. -/
theorem within {env : Env} {expr : Value} {body body' : EvalM Value} {P : Value → Prop}
    (henv : c.scope env) (hbody : c.Agree P body body') :
    c.Agree P (EvalM.within env expr body) (EvalM.within env expr body') := by
  intro i w w' hw
  cases hroom : (w.session env.session).hasRoom with
  | true =>
    have hroom' : (w'.session env.session).hasRoom = true := by
      rcases c.session_eq hw henv with heq | ⟨hroomier, -⟩
      · rw [heq]
        exact hroom
      · exact hroomier.1 hroom
    obtain ⟨j, hdeep, hback⟩ := c.nest hw henv
    rw [run_within_of_room hroom, run_within_of_room hroom']
    have hend := hbody j _ _ hdeep
    rcases hrun : body.run (w.modifySession env.session Session.deepen) with ⟨r, v⟩
    rcases hrun' : body'.run (w'.modifySession env.session Session.deepen) with ⟨r', v'⟩
    rw [hrun, hrun'] at hend
    cases hend with
    | ok hv hpost => exact .ok (hback _ _ hv) hpost
    | error hv hf => exact .error (hback _ _ hv) hf
    | excused hf => exact .excused hf
  | false =>
    rw [run_within_of_full hroom]
    rcases c.session_eq hw henv with heq | ⟨-, hexcused⟩
    · rw [run_within_of_full (by rw [heq]; exact hroom), tooDeep_eq heq]
      exact .error hw rfl
    · exact .excused (hexcused _ rfl)

end Pairing.Agree

namespace Coupling

variable {c : Coupling host ι} {ev ev' : Evaluator} {env : Env}

/-- Two evaluators agree on everything that can occur. -/
structure Evaluators (c : Coupling host ι) (ev ev' : Evaluator) : Prop
    extends c.Asking ev.toRequests ev'.toRequests where
  unwrap {env : Env} {t : DataType} {payload : Value} : c.scope env → c.fine (.dataType t) →
    c.fine payload → c.Agree c.fine (ev.unwrap env t payload) (ev'.unwrap env t payload)

/-! ## lists of expressions -/

theorem evalEach (hev : c.Evaluators ev ev') (henv : c.scope env) {exprs : List Value}
    (hexprs : ∀ e ∈ exprs, c.fine e) :
    c.Agree (fun vs => ∀ v ∈ vs, c.fine v) (Sexpr.evalEach ev env exprs)
      (Sexpr.evalEach ev' env exprs) := by
  unfold Sexpr.evalEach
  induction exprs with
  | nil => exact .pure fun v hv => (List.not_mem_nil hv).elim
  | cons e exprs ih =>
    obtain ⟨he, hrest⟩ := List.forall_mem_cons.1 hexprs
    rw [List.mapM_cons, List.mapM_cons]
    refine (hev.eval henv he).bind fun v hv => (ih hrest).bind fun vs hvs => ?_
    exact .pure (List.forall_mem_cons.2 ⟨hv, hvs⟩)

theorem evalSequence (hev : c.Evaluators ev ev') (henv : c.scope env) {body : List Value}
    (hbody : ∀ e ∈ body, c.fine e) :
    c.Agree c.fine (Sexpr.evalSequence ev env body) (Sexpr.evalSequence ev' env body) := by
  unfold Sexpr.evalSequence
  generalize hstart : Value.nil = start
  have hfine : c.fine start := hstart ▸ c.hereditary.nil
  clear hstart
  induction body generalizing start with
  | nil => exact .pure hfine
  | cons e body ih =>
    obtain ⟨he, hrest⟩ := List.forall_mem_cons.1 hbody
    rw [List.foldlM_cons, List.foldlM_cons]
    exact (hev.eval henv he).bind fun v hv => ih hrest v hv

theorem evalArguments (hev : c.Evaluators ev ev') (henv : c.scope env) {args : Value}
    (hargs : c.fine args) :
    c.Agree (fun vs => ∀ v ∈ vs, c.fine v) (Sexpr.evalArguments ev env args)
      (Sexpr.evalArguments ev' env args) := by
  refine (evalEach hev henv (c.hereditary.elements hargs)).bind fun vs hvs => ?_
  split
  · exact .pure hvs
  · exact .fail _ _

/-! ## special forms -/

/-- The arguments of a special form are elements of its argument list. -/
theorem formArguments_fine {name : String} {args : Value} {low : Nat} {high : Option Nat}
    (hargs : c.fine args) :
    ∀ items, formArguments name args low high = .ok items → ∀ x ∈ items, c.fine x := by
  intro items h
  unfold formArguments at h
  split at h
  · dsimp only at h
    split at h
    · cases h
    · cases h
      exact c.hereditary.elements hargs
  · cases h

theorem formArguments (name : String) {args : Value} (low : Nat) (high : Option Nat)
    (hargs : c.fine args) :
    c.Agree (fun items => ∀ x ∈ items, c.fine x)
      (liftM (Sexpr.formArguments name args low high))
      (liftM (Sexpr.formArguments name args low high)) :=
  .liftExcept (formArguments_fine hargs)

theorem evalClauses (hev : c.Evaluators ev ev') (henv : c.scope env) {clauses : List Value}
    (hclauses : ∀ x ∈ clauses, c.fine x) :
    c.Agree c.fine (Sexpr.evalClauses ev env clauses) (Sexpr.evalClauses ev' env clauses) := by
  induction clauses with
  | nil => exact .pure c.hereditary.nil
  | cons clause rest ih =>
    obtain ⟨hclause, hrest⟩ := List.forall_mem_cons.1 hclauses
    unfold Sexpr.evalClauses
    refine (formArguments "cond" 1 none hclause).bind fun parts hparts => ?_
    cases parts with
    | nil => exact .pure c.hereditary.nil
    | cons test body =>
      obtain ⟨htest, hbody⟩ := List.forall_mem_cons.1 hparts
      refine (hev.eval henv htest).bind fun v hv => ?_
      split
      · split
        · exact .pure hv
        · exact evalSequence hev henv hbody
      · exact ih hrest

theorem evalUntil (hev : c.Evaluators ev ev') (henv : c.scope env) {stop : Bool} {last : Value}
    {exprs : List Value} (hlast : c.fine last) (hexprs : ∀ x ∈ exprs, c.fine x) :
    c.Agree c.fine (Sexpr.evalUntil ev env stop last exprs)
      (Sexpr.evalUntil ev' env stop last exprs) := by
  induction exprs generalizing last with
  | nil => exact .pure hlast
  | cons e rest ih =>
    obtain ⟨he, hrest⟩ := List.forall_mem_cons.1 hexprs
    unfold Sexpr.evalUntil
    refine (hev.eval henv he).bind fun v hv => ?_
    split
    · exact .pure hv
    · exact ih hv hrest

/-- The parameters of a function are symbols of its parameter list. -/
theorem parameterNames_fine {params : Value} (hparams : c.fine params) :
    ∀ names, parameterNames params = .ok names → ∀ p ∈ names, c.fine (.symbol p) := by
  refine forall_ok_bind (formArguments_fine hparams) fun items hitems names hnames p hp => ?_
  obtain ⟨x, hx, hsymbol⟩ := exists_mem_of_mapM_eq_ok hnames hp
  have hfine := hitems x hx
  unfold symbolArgument at hsymbol
  split at hsymbol
  · cases hsymbol
    exact hfine
  · cases hsymbol

theorem makeClosure (henv : c.scope env) {params : Value} {body : List Value}
    (hparams : c.fine params) (hbody : ∀ x ∈ body, c.fine x) :
    c.Agree c.fine (Sexpr.makeClosure env params body) (Sexpr.makeClosure env params body) := by
  refine (Agree.liftExcept (parameterNames_fine hparams)).bind fun names hnames => ?_
  refine Agree.attempt (Yields.bind (yields_true _) fun id _ => ?_)
  exact .pure (c.closure_fine henv hnames hbody)

theorem bindValue (hev : c.Evaluators ev ev') (henv : c.scope env) {form : String}
    {name expr : Value} (hname : c.fine name) (hexpr : c.fine expr) :
    c.Agree (fun r => c.fine (.symbol r.1) ∧ c.fine r.2) (Sexpr.bindValue ev env form name expr)
      (Sexpr.bindValue ev' env form name expr) := by
  have hsymbol : ∀ s, symbolArgument form name = .ok s → c.fine (.symbol s) := by
    intro s hs
    unfold symbolArgument at hs
    split at hs
    · cases hs
      exact hname
    · cases hs
  refine (Agree.liftExcept hsymbol).bind fun s hs => (hev.eval henv hexpr).bind fun v hv => ?_
  exact (Agree.modifyBind henv hs hv).bind fun _ _ => .pure ⟨hs, hv⟩

/-- The first of some values, or `nil`. -/
theorem headD_fine {items : List Value} (h : ∀ x ∈ items, c.fine x) :
    c.fine (items.headD .nil) := by
  cases items with
  | nil => exact c.hereditary.nil
  | cons x items => exact h x List.mem_cons_self

theorem tail_fine {items : List Value} (h : ∀ x ∈ items, c.fine x) : ∀ x ∈ items.tail, c.fine x :=
  fun x hx => h x (List.mem_of_mem_tail hx)

theorem ruleApply (hev : c.Evaluators ev ev') (henv : c.scope env) {f : Form} {args : Value}
    (hf : c.fine (.form f)) (hargs : c.fine args) :
    c.Agree c.fine (f.rule.apply host ev env args) (f.rule.apply host ev' env args) := by
  unfold Rule.apply
  cases hrule : f.rule with
  | quote =>
    exact (formArguments "quote" 1 (some 1) hargs).bind fun items h => .pure (headD_fine h)
  | cond =>
    exact (formArguments "cond" 0 none hargs).bind fun items h => evalClauses hev henv h
  | «lambda» =>
    refine (formArguments "lambda" 2 none hargs).bind fun items h => ?_
    exact makeClosure henv (headD_fine h) (tail_fine h)
  | label =>
    refine (formArguments "label" 2 (some 2) hargs).bind fun items h => ?_
    refine (bindValue hev henv (headD_fine h) (headD_fine (tail_fine h))).bind fun r hr => ?_
    exact .pure hr.2
  | define =>
    refine (formArguments "define" 2 (some 2) hargs).bind fun items h => ?_
    refine (bindValue hev henv (headD_fine h) (headD_fine (tail_fine h))).bind fun r hr => ?_
    exact .pure hr.1
  | and =>
    refine (formArguments "and" 0 none hargs).bind fun items h => ?_
    exact evalUntil hev henv (c.hereditary.bool true) h
  | or =>
    refine (formArguments "or" 0 none hargs).bind fun items h => ?_
    exact evalUntil hev henv (c.hereditary.bool false) h
  | host key => exact c.rule_steady hf hrule henv hargs _ _ hev.toAsking

/-! ## applying functions -/

theorem unwrap (hev : c.Evaluators ev ev') (henv : c.scope env) {tagged : Value}
    (htagged : c.fine tagged) :
    c.Agree c.fine (Sexpr.unwrap ev env tagged) (Sexpr.unwrap ev' env tagged) := by
  unfold Sexpr.unwrap
  split
  · obtain ⟨ht, hpayload⟩ := (c.hereditary.pair_iff _ _ _).1 htagged
    exact hev.unwrap henv ht hpayload
  · exact .fail _ _
  · exact .fail _ _

/-- A data type makes a tagged value of a value that it accepts. -/
theorem construct_fine {t : DataType} {v : Value} (ht : c.fine (.dataType t)) (hv : c.fine v) :
    Yields c.fine (t.construct host v) := by
  unfold DataType.construct
  split
  · next haccepts =>
    refine Yields.lift (Gives.bind (P := fun _ => True) (fun _ => trivial) fun id _ => ?_)
    exact c.hereditary.cons ht (c.thunk_fine ht hv haccepts)
  · exact Yields.liftExcept fun _ h => by cases h

theorem constructFrom_fine {t : DataType} {args : List Value} (ht : c.fine (.dataType t))
    (hargs : ∀ x ∈ args, c.fine x) : Yields c.fine (t.constructFrom host args) := by
  unfold DataType.constructFrom
  split
  · exact construct_fine ht (hargs _ List.mem_cons_self)
  · exact Yields.liftExcept fun _ h => by cases h

theorem callCode (hev : c.Evaluators ev ev') (henv : c.scope env) {id : Ident} {name : String}
    {arity : Arity} {code : Code} {args : List Value} (hf : c.fine (.native id name arity code))
    (hargs : ∀ x ∈ args, c.fine x) :
    c.Agree c.fine (Sexpr.callCode host ev env code args)
      (Sexpr.callCode host ev' env code args) := by
  unfold Sexpr.callCode
  cases code with
  | primitive p => exact .attempt (c.hereditary.call hargs)
  | unwrap => exact unwrap hev henv (headD_fine hargs)
  | host key => exact c.call_steady hf henv hargs _ _ hev.toAsking

/-- A check of the number of arguments. -/
theorem checkArity (arity : Arity) (name : String) (given : Nat) :
    c.Agree (fun _ => True) (liftM (arity.check name given)) (liftM (arity.check name given)) :=
  .liftExcept fun _ _ => trivial

/-- The scope of the caller does not matter for a call of a closure. -/
theorem invokeClosure (hev : c.Evaluators ev ev') {id : Ident} {params : List Symbol} {scope : Env}
    {body args : List Value} (hf : c.fine (.closure id params scope body))
    (hargs : ∀ x ∈ args, c.fine x) :
    c.Agree c.fine (Sexpr.invoke host ev env (.closure id params scope body) args)
      (Sexpr.invoke host ev' env (.closure id params scope body) args) := by
  unfold Sexpr.invoke
  refine (checkArity _ _ _).bind fun _ _ => (Agree.newScope hf hargs).bind fun inner hinner => ?_
  exact evalSequence hev hinner (c.body_fine hf)

theorem invoke (hev : c.Evaluators ev ev') (henv : c.scope env) {f : Value} {args : List Value}
    (hf : c.fine f) (hargs : ∀ x ∈ args, c.fine x) :
    c.Agree c.fine (Sexpr.invoke host ev env f args) (Sexpr.invoke host ev' env f args) := by
  by_cases hclosure : ∃ id params scope body, f = .closure id params scope body
  · obtain ⟨id, params, scope, body, rfl⟩ := hclosure
    exact invokeClosure hev hf hargs
  unfold Sexpr.invoke
  split
  · exact (checkArity _ _ _).bind fun _ _ => callCode hev henv hf hargs
  · exact (checkArity _ _ _).bind fun _ _ => .act (c.build_fine hf)
  · exact (hclosure ⟨_, _, _, _, rfl⟩).elim
  · refine (checkArity _ _ _).bind fun _ _ => ?_
    exact c.hosted_steady hf henv hargs _ _ hev.toAsking
  · exact .attempt (constructFrom_fine hf hargs)
  · exact .fail _ _

theorem applyClosure (hev : c.Evaluators ev ev') {id : Ident} {params : List Symbol} {scope : Env}
    {body args : List Value} (hf : c.fine (.closure id params scope body))
    (hargs : ∀ x ∈ args, c.fine x) :
    c.Agree c.fine (Sexpr.apply host ev env (.closure id params scope body) args)
      (Sexpr.apply host ev' env (.closure id params scope body) args) := by
  have hreduce : ∀ ev, Sexpr.reduceCallable ev env (.closure id params scope body) =
      pure (.closure id params scope body) := fun _ => rfl
  unfold Sexpr.apply
  rw [hreduce, hreduce, pure_bind, pure_bind]
  exact invokeClosure hev hf hargs

theorem reduceCallable (hev : c.Evaluators ev ev') (henv : c.scope env) {f : Value}
    (hf : c.fine f) :
    c.Agree c.fine (Sexpr.reduceCallable ev env f) (Sexpr.reduceCallable ev' env f) := by
  unfold Sexpr.reduceCallable
  split
  · exact .pure hf
  · refine (hev.eval henv hf).bind fun g hg => ?_
    split
    · exact .pure hg
    · exact .fail _ _

theorem apply (hev : c.Evaluators ev ev') (henv : c.scope env) {f : Value} {args : List Value}
    (hf : c.fine f) (hargs : ∀ x ∈ args, c.fine x) :
    c.Agree c.fine (Sexpr.apply host ev env f args) (Sexpr.apply host ev' env f args) := by
  unfold Sexpr.apply
  exact (reduceCallable hev henv hf).bind fun g hg => invoke hev henv hg hargs

/-! ## evaluating expressions -/

/-- The second evaluation may unfold the head of a form as often as the first, or more often where
the limit is excused. -/
def Spares (c : Coupling host ι) (limit limit' left left' : Nat) : Prop :=
  (limit' = limit ∧ left' = left) ∨
    (left ≤ left' ∧ ∀ f : Fault, f.cause.isLimit = true → c.excused f)

theorem unfoldHead (henv : c.scope env) {expr head : Value} {limit limit' left left' : Nat}
    (hleft : c.Spares limit limit' left left') (hhead : c.fine head) :
    c.Couples (fun r r' => r'.1 = r.1 ∧ c.fine r.1 ∧ c.Spares limit limit' r.2 r'.2)
      (Sexpr.unfoldHead env expr limit left head)
      (Sexpr.unfoldHead env expr limit' left' head) := by
  induction left generalizing left' head with
  | zero =>
    by_cases hsymbol : ∃ name, head = .symbol name
    · obtain ⟨name, rfl⟩ := hsymbol
      intro i w w' hw
      rcases hleft with ⟨rfl, rfl⟩ | ⟨-, hexcused⟩
      · exact .error hw rfl
      · exact .excused (hexcused _ rfl)
    · rw [unfoldHead_of_ne hsymbol, unfoldHead_of_ne hsymbol]
      exact fun i w w' hw => .ok hw ⟨rfl, hhead, hleft⟩
  | succ left ih =>
    by_cases hsymbol : ∃ name, head = .symbol name
    · obtain ⟨name, rfl⟩ := hsymbol
      obtain ⟨left', rfl⟩ : ∃ k, left' = k + 1 := by
        rcases hleft with ⟨-, rfl⟩ | ⟨hle, -⟩
        · exact ⟨left, rfl⟩
        · exact ⟨left' - 1, by omega⟩
      have hnext : c.Spares limit limit' left left' := by
        rcases hleft with ⟨hlimit, heq⟩ | ⟨hle, hexcused⟩
        · exact .inl ⟨hlimit, by omega⟩
        · exact .inr ⟨by omega, hexcused⟩
      refine Couples.bind (Agree.resolve henv hhead) fun v v' hv => ?_
      obtain ⟨rfl, hfine⟩ := hv
      exact ih hnext hfine
    · rw [unfoldHead_of_ne hsymbol, unfoldHead_of_ne hsymbol]
      exact fun i w w' hw => .ok hw ⟨rfl, hhead, hleft⟩

theorem reduceHead (hev : c.Evaluators ev ev') (henv : c.scope env) {expr head : Value}
    (hhead : c.fine head) :
    c.Agree c.fine (Sexpr.reduceHead ev env expr head) (Sexpr.reduceHead ev' env expr head) := by
  intro i w w' hw
  unfold Sexpr.reduceHead
  rw [run_bind, run_bind, run_get, run_get]
  have hspares : c.Spares (w.limits env).unfoldings (w'.limits env).unfoldings
      (w.limits env).unfoldings (w'.limits env).unfoldings := by
    rcases c.session_eq hw henv with heq | ⟨hroomier, hexcused⟩
    · have hlimits : w'.limits env = w.limits env := by simp only [World.limits, heq]
      exact .inl ⟨by rw [hlimits], by rw [hlimits]⟩
    · exact .inr ⟨hroomier.2, hexcused⟩
  refine Couples.bind (unfoldHead henv hspares hhead) (fun r r' hr => ?_) i w w' hw
  obtain ⟨head, left⟩ := r
  obtain ⟨head', left'⟩ := r'
  obtain ⟨rfl, hfine, hleft⟩ := hr
  dsimp only
  split
  · refine Couples.bind (hev.eval henv hfine) fun v v' hv => ?_
    obtain ⟨rfl, hv⟩ := hv
    refine Couples.bind (unfoldHead henv hleft hv) fun r r' hr => ?_
    obtain ⟨heq, hfine, -⟩ := hr
    rw [heq]
    exact Agree.pure hfine
  · exact Agree.pure hfine

theorem evalReduced (hev : c.Evaluators ev ev') (henv : c.scope env) {expr head args : Value}
    (hhead : c.fine head) (hargs : c.fine args) :
    c.Agree c.fine (Sexpr.evalReduced host ev env expr head args)
      (Sexpr.evalReduced host ev' env expr head args) := by
  unfold Sexpr.evalReduced
  split
  · exact ruleApply hev henv hhead hargs
  · split
    · exact hev.unwrap henv hhead hargs
    · refine (evalArguments hev henv hargs).bind fun vs hvs => ?_
      exact .attempt (constructFrom_fine hhead hvs)
  · split
    · exact (evalArguments hev henv hargs).bind fun vs hvs => apply hev henv hhead hvs
    · exact .throw _

theorem evalExpr (hev : c.Evaluators ev ev') (henv : c.scope env) {expr : Value}
    (hexpr : c.fine expr) :
    c.Agree c.fine (Sexpr.evalExpr host ev env expr) (Sexpr.evalExpr host ev' env expr) := by
  unfold Sexpr.evalExpr
  split
  · exact .resolve henv hexpr
  · obtain ⟨hhead, hargs⟩ := (c.hereditary.pair_iff _ _ _).1 hexpr
    split
    · exact unwrap hev henv hexpr
    · refine (reduceHead hev henv hhead).bind fun head hfine => ?_
      exact evalReduced hev henv hfine hargs
  · exact .pure hexpr

/-! ## tying the knot -/

theorem force {ask ask' : Requests} (hask : c.Asking ask ask') (henv : c.scope env)
    {payload : Value} (hpayload : c.fine payload) :
    c.Agree c.fine (Sexpr.force host ask env payload) (Sexpr.force host ask' env payload) := by
  have hnone : ∀ x ∈ ([] : List Value), c.fine x := fun _ hx => (List.not_mem_nil hx).elim
  unfold Sexpr.force
  split
  · exact .act (c.build_fine hpayload)
  · split
    · exact .attempt (c.hereditary.call hnone)
    · exact .fail _ _
    · exact c.call_steady hpayload henv hnone _ _ hask
  · exact .fail _ _

/-- Evaluators that force payloads themselves agree when the rest of them does. -/
theorem ofRequests {ask ask' : Requests} (hask : c.Asking ask ask') :
    c.Evaluators (.ofRequests host ask) (.ofRequests host ask') where
  toAsking := hask
  unwrap {env t payload} henv ht hpayload := by
    intro i w w' hw
    show (c.ending i).Alike _ ((unwrapPayload host ask env t payload).run w)
      ((unwrapPayload host ask' env t payload).run w')
    unfold unwrapPayload
    rw [run_bind, run_bind, run_get, run_get]
    simp only
    rw [c.findType_eq hw henv ht]
    split
    · split
      · exact force hask henv hpayload i w w' hw
      · exact Agree.fail _ _ i w w' hw
    · exact Agree.fail _ _ i w w' hw

/-- What programs can ask for agrees when evaluations do, however many applications are nested. -/
theorem asking {eval eval' : Env → Value → EvalM Value}
    (heval : ∀ env expr, c.scope env → c.fine expr →
      c.Agree c.fine (eval env expr) (eval' env expr)) (room : Nat) :
    c.Asking ⟨eval, applyWithin host eval room⟩ ⟨eval', applyWithin host eval' room⟩ := by
  induction room with
  | zero => exact ⟨heval _ _, fun _ _ _ => .fail _ _⟩
  | succ room ih => exact ⟨heval _ _, fun henv hf hargs => apply (ofRequests ih) henv hf hargs⟩

theorem ofEval {eval eval' : Env → Value → EvalM Value}
    (heval : ∀ env expr, c.scope env → c.fine expr →
      c.Agree c.fine (eval env expr) (eval' env expr)) :
    c.Evaluators (.ofEval host eval) (.ofEval host eval') :=
  ofRequests (asking heval host.nesting)

/-- The second evaluation may have more levels left than the first where the limit is excused. -/
theorem evalWithin {n n' : Nat}
    (hn : n' = n ∨ n ≤ n' ∧ ∀ f : Fault, f.cause.isLimit = true → c.excused f) {expr : Value}
    (henv : c.scope env) (hexpr : c.fine expr) :
    c.Agree c.fine (Sexpr.evalWithin host n env expr) (Sexpr.evalWithin host n' env expr) := by
  induction n generalizing n' env expr with
  | zero =>
    rcases hn with rfl | ⟨-, hexcused⟩
    · exact Agree.tooDeep henv
    · exact fun i w w' hw => .excused (hexcused _ rfl)
  | succ n ih =>
    obtain ⟨k, rfl, hk⟩ : ∃ k, n' = k + 1 ∧
        (k = n ∨ n ≤ k ∧ ∀ f : Fault, f.cause.isLimit = true → c.excused f) := by
      rcases hn with rfl | ⟨hle, hexcused⟩
      · exact ⟨n, rfl, .inl rfl⟩
      · exact ⟨n' - 1, by omega, .inr ⟨by omega, hexcused⟩⟩
    refine Agree.within henv (evalExpr (ofEval fun env expr henv hexpr => ?_) henv hexpr)
    exact ih hk henv hexpr

theorem evaluators (c : Coupling host ι) (n : Nat) :
    c.Evaluators (evaluator host n) (evaluator host n) :=
  ofEval fun _ _ henv hexpr => evalWithin (.inl rfl) henv hexpr

/-- Evaluations of the same expression from related worlds end alike. -/
theorem eval (c : Coupling host ι) (env : Env) (expr : Value) (henv : c.scope env)
    (hexpr : c.fine expr) :
    c.Agree c.fine (World.eval host env expr) (World.eval host env expr) := by
  intro i w w' hw
  unfold World.eval
  rw [run_bind, run_bind, run_get, run_get]
  exact evalWithin (c.headroom_eq hw) henv hexpr i w w' hw

end Coupling

/-! ## invariants -/

/-- A property of worlds, with what may occur in them.  Making objects and writing to the log does
not matter for it. -/
structure Condition where
  /-- The worlds that have the property. -/
  holds : World → Prop
  /-- The environments in which expressions are evaluated. -/
  scope : Env → Prop
  /-- The values that occur. -/
  fine : Value → Prop
  setJournal {w : World} (journal : Journal) : holds w → holds { w with journal }

/-- A world that has the property, paired with itself. -/
def Condition.pairing (c : Condition) : Pairing Unit where
  worlds _ w w' := w' = w ∧ c.holds w
  scope := c.scope
  fine := c.fine
  excused _ := False
  journal_eq := by
    rintro _ _ _ ⟨rfl, _⟩
    rfl
  setJournal := by
    rintro _ _ _ journal ⟨rfl, h⟩
    exact ⟨rfl, c.setJournal journal h⟩

/-- A property of worlds that every step of an evaluation keeps. -/
structure Invariant (host : Host) extends Condition where
  hereditary : Hereditary fine
  modifySession {w : World} (session : Nat) (f : Session → Session) :
    holds w → holds (w.modifySession session f)
  resolve_fine {w : World} {env : Env} {name : Symbol} {v : Value} :
    holds w → scope env → w.resolve env name = some v → fine v
  bind {w : World} {env : Env} {name : Symbol} {v : Value} :
    holds w → scope env → fine v → holds (w.bind env name v)
  extend {w : World} {id : Ident} {params : List Symbol} {env : Env} {body args : List Value} :
    holds w → fine (.closure id params env body) → (∀ x ∈ args, fine x) →
      holds (w.extend env params args).2 ∧ scope (w.extend env params args).1
  closure_fine {id : Ident} {params : List Symbol} {env : Env} {body : List Value} :
    scope env → (∀ x ∈ body, fine x) → fine (.closure id params env body)
  body_fine {id : Ident} {params : List Symbol} {env : Env} {body : List Value} :
    fine (.closure id params env body) → ∀ x ∈ body, fine x
  thunk_fine {id : Ident} {t : DataType} {v : Value} :
    fine (.dataType t) → fine v → t.accepts host v = true → fine (.thunk id t.label t.maker v)
  build_fine {id : Ident} {label : Symbol} {maker : Maker} {v : Value} :
    fine (.thunk id label maker v) → Yields fine (maker.build host v)
  call_steady {id : Ident} {name : String} {arity : Arity} {key : Nat} {env : Env}
      {args : List Value} :
    fine (.native id name arity (.host key)) → scope env → (∀ x ∈ args, fine x) →
      toCondition.pairing.Steady (host.call key env args)
  hosted_steady {id : Ident} {params : List Symbol} {key : Nat} {env : Env} {args : List Value} :
    fine (.hosted id params key) → scope env → (∀ x ∈ args, fine x) →
      toCondition.pairing.Steady (host.call key env args)
  rule_steady {f : Form} {key : Nat} {env : Env} {args : Value} :
    fine (.form f) → f.rule = .host key → scope env → fine args →
      toCondition.pairing.Steady (host.rule key env args)

namespace Invariant

/-- A world that has the property, coupled with itself. -/
def coupling (c : Invariant host) : Coupling host Unit where
  toPairing := c.pairing
  hereditary := c.hereditary
  resolve_eq := by
    rintro _ _ _ _ _ ⟨rfl, _⟩ _ _
    rfl
  resolve_fine hw henv hv := c.resolve_fine hw.2 henv hv
  findType_eq := by
    rintro _ _ _ _ _ ⟨rfl, _⟩ _ _
    rfl
  bind := by
    rintro _ _ _ _ _ _ ⟨rfl, h⟩ henv _ hv
    exact ⟨rfl, c.bind h henv hv⟩
  size_eq := by
    rintro _ _ _ ⟨rfl, _⟩
    rfl
  extend := by
    rintro _ _ _ _ _ _ _ _ ⟨rfl, h⟩ hclosure hargs
    obtain ⟨hnext, hscope⟩ := c.extend h hclosure hargs
    exact ⟨⟨rfl, hnext⟩, hscope⟩
  session_eq := by
    rintro _ _ _ _ ⟨rfl, _⟩ _
    exact .inl rfl
  headroom_eq := by
    rintro _ _ _ ⟨rfl, _⟩
    exact .inl rfl
  nest := by
    rintro _ _ _ env ⟨rfl, h⟩ _
    refine ⟨(), ⟨rfl, c.modifySession env.session Session.deepen h⟩, ?_⟩
    rintro _ _ ⟨rfl, h⟩
    exact ⟨rfl, c.modifySession env.session Session.surface h⟩
  closure_fine henv _ hbody := c.closure_fine henv hbody
  body_fine := c.body_fine
  thunk_fine := c.thunk_fine
  build_fine := c.build_fine
  call_steady := c.call_steady
  hosted_steady := c.hosted_steady
  rule_steady := c.rule_steady

/-- Computations that agree end in the same way, and the world has the property then. -/
theorem run_eq {c : Invariant host} {P : α → Prop} {m m' : EvalM α}
    (h : c.coupling.Agree P m m') {w : World} (hw : c.holds w) :
    m'.run w = m.run w ∧ c.holds (m.run w).2 ∧ ∀ a, (m.run w).1 = .ok a → P a := by
  have hstart : c.coupling.worlds () w w := ⟨rfl, hw⟩
  have hend := h () w w hstart
  generalize m.run w = r at hend ⊢
  generalize m'.run w = r' at hend ⊢
  cases hend with
  | ok hv hpost =>
    refine ⟨Prod.ext (congrArg Except.ok hpost.1) hv.1, hv.2, fun a ha => ?_⟩
    cases ha
    exact hpost.2
  | error hv hf =>
    refine ⟨Prod.ext (congrArg Except.error hf.symm) hv.1, hv.2, fun a ha => ?_⟩
    cases ha
  | excused hf => exact hf.elim

end Invariant

end Sexpr
