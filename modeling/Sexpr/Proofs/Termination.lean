import Sexpr.Proofs.Depth

/-!
# Sexpr.Proofs.Termination

Evaluations come to an end.

That `evalWithin` is a total function says little: it counts the levels that are left, and
`unfoldHead` the replacements that are left, so that both recurse on a number.  Here
is the evaluator without these numbers.  Its head loop goes on as long as there is
something to replace (`headTurn`), and its evaluations nest as long as the sessions let them.  All
that keeps it from running forever are the two limits that it compares its counters with.

To be a definition, it is given a number of levels and, for each loop, a number of turns, and
reports that it `diverged` where they are used up.  With one level more than all sessions have left,
and two turns more than the loop may make replacements, this never happens: whatever the report is,
calls end as they do with the evaluator that counts (`call_terminates`).
-/

namespace Sexpr

variable {host : Host} {ev : Evaluator} {env : Env} {expr : Value}

/-! ## the head loop -/

/-- Where the loop that reduces the head of a form stands. -/
structure HeadState where
  head : Value
  /-- How many symbols were replaced. -/
  replaced : Nat := 0
  /-- Whether a pair was evaluated. -/
  evaluated : Bool := false

/-- One turn of the loop, or nothing if the head is reduced. -/
def headTurn (ev : Evaluator) (env : Env) (expr : Value) (limit : Nat) (s : HeadState) :
    EvalM (Option HeadState) := do
  match s.head with
  | .symbol name =>
    if limit < s.replaced + 1 then
      throw (Fault.during
        { location := "eval", cause := .unfoldingsExceeded name s.replaced } expr)
    else
      let head ← EvalM.resolve env name
      return some { s with head, replaced := s.replaced + 1 }
  | .pair .. =>
    if s.evaluated then return none
    else
      let head ← ev.eval env s.head
      return some { s with head, evaluated := true }
  | _ => return none

/-- The loop, which gives up after a number of turns. -/
def headLoop (diverged : Fault) (ev : Evaluator) (env : Env) (expr : Value) (limit : Nat) :
    Nat → HeadState → EvalM Value
  | 0, _ => throw diverged
  | turns + 1, s => do
    match ← headTurn ev env expr limit s with
    | some s => headLoop diverged ev env expr limit turns s
    | none => return s.head

section

variable {diverged : Fault} {limit left replaced turns : Nat} {evaluated : Bool} {head : Value}

theorem headLoop_symbol (h : replaced < limit) (name : Symbol) :
    headLoop diverged ev env expr limit (turns + 1) ⟨.symbol name, replaced, evaluated⟩ = (do
      let head ← EvalM.resolve env name
      headLoop diverged ev env expr limit turns ⟨head, replaced + 1, evaluated⟩) := by
  simp only [headLoop, headTurn, if_neg (Nat.not_lt.2 (Nat.succ_le_of_lt h)), bind_assoc,
    pure_bind]

theorem headLoop_symbol_full (name : Symbol) :
    headLoop diverged ev env expr limit (turns + 1) ⟨.symbol name, limit, evaluated⟩ =
      throw (Fault.during
        { location := "eval", cause := .unfoldingsExceeded name limit } expr) := by
  simp only [headLoop, headTurn, if_pos (Nat.lt_succ_self limit)]
  rfl

theorem headLoop_pair (h : head.isPair = true) :
    headLoop diverged ev env expr limit (turns + 1) ⟨head, replaced, false⟩ = (do
      let head ← ev.eval env head
      headLoop diverged ev env expr limit turns ⟨head, replaced, true⟩) := by
  cases head with
  | pair id a d =>
    simp only [headLoop, headTurn, Bool.false_eq_true, if_false, bind_assoc, pure_bind]
  | _ => cases h

/-- The loop ends at a head that is no symbol, nor a pair that is yet to be evaluated. -/
theorem headLoop_reduced (hsymbol : ¬ ∃ name, head = .symbol name)
    (hpair : head.isPair = true → evaluated = true) :
    headLoop diverged ev env expr limit (turns + 1) ⟨head, replaced, evaluated⟩ = pure head := by
  cases head with
  | symbol name => exact (hsymbol ⟨name, rfl⟩).elim
  | pair id a d => simp only [headLoop, headTurn, hpair rfl, if_true, pure_bind]
  | _ => simp only [headLoop, headTurn, pure_bind]

/-- As long as it finds symbols, the loop replaces them; what follows is asked of `k`.  There are
enough turns for all replacements that are left, and `spare` more. -/
theorem headLoop_unfoldHead (spare : Nat) {k : Value × Nat → EvalM Value}
    (hk : ∀ {head left replaced turns}, (¬ ∃ name, head = .symbol name) →
      replaced + left = limit → left + spare < turns →
      headLoop diverged ev env expr limit turns ⟨head, replaced, evaluated⟩ = k (head, left))
    (hleft : replaced + left = limit) (hturns : left + spare < turns) (head : Value) :
    headLoop diverged ev env expr limit turns ⟨head, replaced, evaluated⟩ =
      unfoldHead env expr limit left head >>= k := by
  induction left generalizing head replaced turns with
  | zero =>
    by_cases hsymbol : ∃ name, head = .symbol name
    · obtain ⟨name, rfl⟩ := hsymbol
      obtain ⟨turns, rfl⟩ : ∃ t, turns = t + 1 := ⟨turns - 1, by omega⟩
      obtain rfl : replaced = limit := hleft
      rw [headLoop_symbol_full]
      rfl
    · rw [unfoldHead_of_ne hsymbol, pure_bind]
      exact hk hsymbol hleft hturns
  | succ left ih =>
    by_cases hsymbol : ∃ name, head = .symbol name
    · obtain ⟨name, rfl⟩ := hsymbol
      obtain ⟨turns, rfl⟩ : ∃ t, turns = t + 1 := ⟨turns - 1, by omega⟩
      rw [headLoop_symbol (by omega), unfoldHead, bind_assoc]
      exact bind_congr fun head => ih (by omega) (by omega) head
    · rw [unfoldHead_of_ne hsymbol, pure_bind]
      exact hk hsymbol hleft hturns

end

/-- Reduces a head by the loop, where `turns` says how many turns it may take under a limit. -/
def reduceByTurns (diverged : Fault) (turns : Nat → Nat) (ev : Evaluator) (env : Env)
    (expr head : Value) : EvalM Value := do
  let limit := ((← get).limits env).unfoldings
  headLoop diverged ev env expr limit (turns limit) { head }

/-- Two turns more than replacements are allowed are enough for the loop: one for a pair that is
evaluated, and one to see that the head is reduced. -/
theorem reduceByTurns_eq (diverged : Fault) {turns : Nat → Nat}
    (hturns : ∀ limit, limit + 2 ≤ turns limit) (ev : Evaluator) (env : Env) (expr head : Value) :
    reduceByTurns diverged turns ev env expr head = reduceHead ev env expr head := by
  unfold reduceByTurns reduceHead
  refine bind_congr fun w => ?_
  have hlimit := hturns (w.limits env).unfoldings
  generalize (w.limits env).unfoldings = limit at hlimit ⊢
  -- Until a pair is found, two turns are kept for it and for the end; after it, one for the end.
  refine headLoop_unfoldHead 1 (fun {head left replaced turns} hsymbol hleft hspare => ?_)
    (Nat.zero_add limit) (Nat.lt_of_succ_le hlimit) head
  obtain ⟨turns, rfl⟩ : ∃ t, turns = t + 1 := ⟨turns - 1, by omega⟩
  dsimp only
  split
  · next hpair =>
    rw [headLoop_pair hpair]
    refine bind_congr fun v => ?_
    refine headLoop_unfoldHead 0 (fun {head left replaced turns} hsymbol hleft hspare => ?_) hleft
      (by omega) v
    obtain ⟨turns, rfl⟩ : ∃ t, turns = t + 1 := ⟨turns - 1, by omega⟩
    exact headLoop_reduced hsymbol fun _ => rfl
  · next hpair => exact headLoop_reduced hsymbol fun h => (hpair h).elim

/-- One turn less is not enough: here the head is a pair, and no symbol may be replaced. -/
example (diverged : Fault) (env : Env) (expr : Value) :
    let ev := Evaluator.ofEval Host.none fun _ _ => pure .nil
    headLoop diverged ev env expr 0 1 { head := .pair 0 .nil .nil } = throw diverged := rfl

/-! ## what the loop does -/

/-- The loop has come from a head and a world to a state and a world, and has dealt with some heads
on the way, the last one first. -/
inductive HeadTurns (ev : Evaluator) (env : Env) (expr : Value) (limit : Nat) (head : Value)
    (w : World) : List Value → HeadState → World → Prop
  | start : HeadTurns ev env expr limit head w [] { head } w
  | turn {heads : List Value} {s s' : HeadState} {v v' : World} :
    HeadTurns ev env expr limit head w heads s v →
      (headTurn ev env expr limit s).run v = (.ok (some s'), v') →
      HeadTurns ev env expr limit head w (s.head :: heads) s' v'

/-- Whether a value is a symbol. -/
def Value.isSymbol (v : Value) : Bool := v.symbol?.isSome

/-- A result that is made of the result of one step. -/
theorem exists_of_run_bind_pure {α β : Type} {m : EvalM α} {f : α → β} {b : β} {v v' : World}
    (h : (m >>= fun a => pure (some (f a))).run v = (.ok (some b), v')) : ∃ a, b = f a := by
  rw [run_bind] at h
  rcases hm : m.run v with ⟨_ | a, u⟩
  · rw [hm] at h
    cases h
  · rw [hm] at h
    cases h
    exact ⟨a, rfl⟩

/-- A turn replaces a symbol while this is allowed, or evaluates a pair if none was. -/
theorem headTurn_cases {limit : Nat} {s s' : HeadState} {v v' : World}
    (h : (headTurn ev env expr limit s).run v = (.ok (some s'), v')) :
    (s.head.isSymbol = true ∧ s.head.isPair = false ∧ s.replaced < limit ∧
        s'.replaced = s.replaced + 1 ∧ s'.evaluated = s.evaluated) ∨
      (s.head.isPair = true ∧ s.head.isSymbol = false ∧ s.evaluated = false ∧
        s'.replaced = s.replaced ∧ s'.evaluated = true) := by
  obtain ⟨head, replaced, evaluated⟩ := s
  cases head with
  | symbol name =>
    by_cases hfull : limit < replaced + 1
    · simp only [headTurn, if_pos hfull] at h
      cases h
    · simp only [headTurn, if_neg hfull] at h
      have hlt : replaced < limit := by omega
      obtain ⟨d, rfl⟩ := exists_of_run_bind_pure h
      exact .inl ⟨rfl, rfl, hlt, rfl, rfl⟩
  | pair id a d =>
    cases evaluated with
    | true => cases h
    | false =>
      obtain ⟨d, rfl⟩ := exists_of_run_bind_pure h
      exact .inr ⟨rfl, rfl, rfl, rfl, rfl⟩
  | _ => cases h

/-- What the counters of the loop say is true, and they keep to the limit. -/
theorem HeadTurns.counts {limit : Nat} {head : Value} {w : World} {heads : List Value}
    {s : HeadState} {v : World} (h : HeadTurns ev env expr limit head w heads s v) :
    heads.countP Value.isSymbol = s.replaced ∧ s.replaced ≤ limit ∧
      heads.countP Value.isPair = s.evaluated.toNat := by
  induction h with
  | start => exact ⟨rfl, Nat.zero_le limit, rfl⟩
  | turn _ hturn ih =>
    obtain ⟨hsymbols, hlimit, hpairs⟩ := ih
    rcases headTurn_cases hturn with ⟨hsymbol, hpair, hlt, hreplaced, hevaluated⟩ |
      ⟨hpair, hsymbol, hnone, hreplaced, hevaluated⟩
    · rw [List.countP_cons, List.countP_cons, hsymbol, hpair, hreplaced, hevaluated]
      exact ⟨by rw [hsymbols]; rfl, hlt, hpairs⟩
    · rw [List.countP_cons, List.countP_cons, hsymbol, hpair, hreplaced, hevaluated, hpairs, hnone]
      exact ⟨hsymbols, hlimit, rfl⟩

/-! ## evaluations without bounds -/

/-- Evaluates an expression as `evalExpr` does, the head of a form by the loop. -/
def evalExprByTurns (host : Host) (diverged : Fault) (turns : Nat → Nat) (ev : Evaluator)
    (env : Env) (expr : Value) : EvalM Value :=
  match expr with
  | .symbol name => EvalM.resolve env name
  | .pair _ head args =>
    if expr.isTagged then unwrap ev env expr
    else do
      evalReduced host ev env expr (← reduceByTurns diverged turns ev env expr head) args
  | v => return v

theorem evalExprByTurns_eq (host : Host) (diverged : Fault) {turns : Nat → Nat}
    (hturns : ∀ limit, limit + 2 ≤ turns limit) (ev : Evaluator) (env : Env) (expr : Value) :
    evalExprByTurns host diverged turns ev env expr = evalExpr host ev env expr := by
  cases expr with
  | pair id head args => simp only [evalExprByTurns, evalExpr, reduceByTurns_eq diverged hturns]
  | _ => rfl

/-- Evaluates an expression as deep as the sessions let it.  Where a number of levels or the turns
of a loop are used up, it has diverged. -/
def evalUnbounded (host : Host) (diverged : Fault) (turns : Nat → Nat) :
    Nat → Env → Value → EvalM Value
  | 0, _, _ => throw diverged
  | levels + 1, env, expr =>
    EvalM.within env expr
      (evalExprByTurns host diverged turns
        (.ofEval host (evalUnbounded host diverged turns levels)) env expr)

/-- The body of an evaluation that finds room has one level less left. -/
theorem levels_enter {busy : Nat → Nat} {left : Nat} {body body' : EvalM Value}
    (hbody : (levels host (Function.update busy env.session (busy env.session + 1)) left).Agree
      (fun _ => True) body body') :
    (levels host busy (left + 1)).Agree (fun _ => True) (EvalM.within env expr body)
      (EvalM.within env expr body') := by
  rw [levels_agree_iff] at hbody ⊢
  intro w hw
  cases hroom : (w.session env.session).hasRoom with
  | false =>
    rw [run_within_of_full hroom, run_within_of_full hroom]
    exact ⟨rfl, rfl⟩
  | true =>
    rw [run_within_of_room hroom, run_within_of_room hroom]
    obtain ⟨hrun, hsessions⟩ := hbody _ (hw.enter hroom)
    rw [hrun]
    exact ⟨rfl, World.sessions_surface hsessions⟩

/-- With one level more than all sessions have left, an evaluation does not diverge. -/
theorem evalUnbounded_agree (host : Host) (diverged : Fault) {turns : Nat → Nat}
    (hturns : ∀ limit, limit + 2 ≤ turns limit) {left n : Nat} (hn : left < n) (busy : Nat → Nat)
    (env : Env) (expr : Value) :
    (levels host busy left).Agree (fun _ => True) (evalWithin host left env expr)
      (evalUnbounded host diverged turns n env expr) := by
  obtain ⟨n, rfl⟩ : ∃ k, n = k + 1 := ⟨n - 1, by omega⟩
  induction left generalizing n busy env expr with
  | zero =>
    -- No session has room then, so the session refuses what the count of levels refuses.
    rw [levels_agree_iff]
    intro w hw
    unfold evalWithin evalUnbounded
    rw [run_tooDeep, run_within_of_full (hw.hasRoom_eq_false env.session)]
    exact ⟨rfl, rfl⟩
  | succ left ih =>
    obtain ⟨n, rfl⟩ : ∃ k, n = k + 1 := ⟨n - 1, by omega⟩
    unfold evalWithin evalUnbounded
    rw [evalExprByTurns_eq host diverged hturns]
    refine levels_enter (Coupling.evalExpr ?_ trivial trivial)
    exact Coupling.ofEval fun env expr _ _ => ih _ env expr n (by omega)

/-- **Evaluations terminate**: a call of an evaluator that stops by itself only where a limit is
exceeded gives a value or a fault, whatever the definitions are, before it nests deeper than the
levels that all sessions have left and one more, and before a head loop takes more than
two turns beyond its limit.  The loop is what reduces the heads of forms; of the heads that it deals
with, no more are symbols that it replaces than the limit allows, and at most one is a pair that
it evaluates. -/
theorem call_terminates (host : Host) (w : World) (call : Call) (diverged : Fault)
    (turns : Nat → Nat) (hturns : ∀ limit, limit + 2 ≤ turns limit) (n : Nat)
    (hn : w.headroom < n) :
    (call.runWith host (evalUnbounded host diverged turns n)).run w = (call.run host).run w ∧
      (∀ ev env expr head,
        reduceByTurns diverged turns ev env expr head = reduceHead ev env expr head) ∧
      ∀ ev env expr head heads s v,
        HeadTurns ev env expr (w.limits env).unfoldings head w heads s v →
          heads.countP Value.isSymbol ≤ (w.limits env).unfoldings ∧
            heads.countP Value.isPair ≤ 1 := by
  refine ⟨?_, reduceByTurns_eq diverged hturns, ?_⟩
  · have hagree := call.runWith_agree fun env expr =>
      evalUnbounded_agree host diverged hturns hn (fun i => (w.session i).depth) env expr
    rw [call.run_eq_runWith]
    exact (levels_agree_iff.1 hagree w (.start w)).1
  · intro ev env expr head heads s v hrun
    obtain ⟨hsymbols, hlimit, hpairs⟩ := hrun.counts
    rw [hsymbols, hpairs]
    exact ⟨hlimit, s.evaluated.toNat_le⟩

/-- Names that stand for each other, and a function that calls itself, are stopped. -/
theorem call_terminates_cyclic :
    let std := World.newStandard {} ⟨4, 3⟩
    let loop := Value.ofItems [.symbol "f"]
    let w := ((std.2.bind std.1 "a" (.symbol "b")).bind std.1 "b" (.symbol "a")).bind std.1 "f"
      (.closure 0 [] std.1 [loop])
    let cycle := Call.eval std.1 (.ofItems [.symbol "a"])
    let self := Call.apply std.1 (.symbol "f") []
    ∀ diverged, ∀ call ∈ [cycle, self],
      (call.runWith Host.none (evalUnbounded Host.none diverged (· + 2) 5)).run w =
          (call.run Host.none).run w ∧
        stoppedByLimit ((call.run Host.none).run w).1 = true := by
  intro std loop w cycle self diverged call hcall
  have hstopped : ∀ call ∈ [cycle, self],
      stoppedByLimit ((call.run Host.none).run w).1 = true := by decide +kernel
  have hterminates := call_terminates Host.none w call diverged (· + 2) (fun _ => Nat.le_refl _) 5
    (by decide +kernel)
  exact ⟨hterminates.1, hstopped call hcall⟩

end Sexpr
