import Sexpr.Host.Scripted
import Sexpr.Proofs.Hereditary

/-!
# Sexpr.Proofs.Pairing

Two computations side by side.

A `Pairing` relates the worlds of two computations and says which environments and values may occur
in them.  Two computations *agree* when from related worlds they end alike, with the same result
(`Pairing.Agree`), where faults that the pairing excuses may end the first of them early.

A program of the host is *steady* when its two runs agree, however what it asks for is done, as
long as that agrees (`Pairing.Steady`).  A program can look at its outcomes and go on after a fault,
so where faults are excused this takes a program that heeds them (`Program.Heeds`): once it has got
such a fault, it can do what it likes but ends in such a fault too.

Programs that ask for one thing at most and pass its outcome on (`Program.Forwards`), such as those
of a script, heed everything.
-/

namespace Sexpr

variable {α β ι : Type}

/-! ## programs that heed faults -/

namespace Program

/-- Whatever the program is answered, it ends in a fault of the given kind. -/
def Doomed (stops : Fault → Prop) : Program → Prop
  | .done (.ok _) => False
  | .done (.error f) => stops f
  | .act _ next => ∀ r, (next r).Doomed stops
  | .scopes _ next => ∀ frames, (next frames).Doomed stops
  | .limits _ next => ∀ limits, (next limits).Doomed stops
  | .eval _ _ next => ∀ r, (next r).Doomed stops
  | .apply _ _ _ next => ∀ r, (next r).Doomed stops

/-- The program does not recover from faults of the given kind. -/
def Heeds (stops : Fault → Prop) : Program → Prop
  | .done _ => True
  | .act _ next => ∀ r, (next r).Heeds stops
  | .scopes _ next => ∀ frames, (next frames).Heeds stops
  | .limits _ next => ∀ limits, (next limits).Heeds stops
  | .eval _ _ next =>
    (∀ r, (next r).Heeds stops) ∧ ∀ f, stops f → (next (.error f)).Doomed stops
  | .apply _ _ _ next =>
    (∀ r, (next r).Heeds stops) ∧ ∀ f, stops f → (next (.error f)).Doomed stops

/-- What the program does does not depend on the limits of environments. -/
def IgnoresLimits : Program → Prop
  | .done _ => True
  | .act _ next => ∀ r, (next r).IgnoresLimits
  | .scopes _ next => ∀ frames, (next frames).IgnoresLimits
  | .limits _ next => (∀ l l', next l = next l') ∧ ∀ l, (next l).IgnoresLimits
  | .eval _ _ next => ∀ r, (next r).IgnoresLimits
  | .apply _ _ _ next => ∀ r, (next r).IgnoresLimits

/-- Where no fault is of the kind, there is nothing to heed. -/
theorem heeds_of_never {stops : Fault → Prop} (h : ∀ f, ¬ stops f) (p : Program) :
    p.Heeds stops := by
  induction p with
  | done outcome => trivial
  | act a next ih => exact ih
  | scopes change next ih => exact ih
  | limits env next ih => exact ih
  | eval env expr next ih => exact ⟨ih, fun f hf => (h f hf).elim⟩
  | apply env g args next ih => exact ⟨ih, fun f hf => (h f hf).elim⟩

/-- The program makes objects and ends, or evaluates or applies something in one environment at the
end and passes the outcome on. -/
inductive Forwards (env : Env) : Program → Prop
  | done (outcome : Except Fault Value) : Forwards env (.done outcome)
  | act (a : Action Value) {next : Except Fault Value → Program} :
    (∀ r, Forwards env (next r)) → Forwards env (.act a next)
  | eval (expr : Value) : Forwards env (.eval env expr .done)
  | apply (f : Value) (args : List Value) : Forwards env (.apply env f args .done)

namespace Forwards

variable {env : Env} {p : Program}

theorem heeds (h : p.Forwards env) (stops : Fault → Prop) : p.Heeds stops := by
  induction h with
  | done => trivial
  | act a _ ih => exact ih
  | eval | apply => exact ⟨fun _ => trivial, fun _ hf => hf⟩

theorem ignoresLimits (h : p.Forwards env) : p.IgnoresLimits := by
  induction h with
  | done => trivial
  | act a _ ih => exact ih
  | eval | apply => exact fun _ => trivial

end Forwards

end Program

/-- Programs of the host do not recover from a limit. -/
structure Host.HeedsLimits (host : Host) : Prop where
  call (key : Nat) (env : Env) (args : List Value) :
    (host.call key env args).Heeds fun f => f.cause.isLimit = true
  rule (key : Nat) (env : Env) (args : Value) :
    (host.rule key env args).Heeds fun f => f.cause.isLimit = true

/-- Programs of the host do not depend on the limits of environments. -/
structure Host.IgnoresLimits (host : Host) : Prop where
  call (key : Nat) (env : Env) (args : List Value) : (host.call key env args).IgnoresLimits
  rule (key : Nat) (env : Env) (args : Value) : (host.rule key env args).IgnoresLimits

/-- Programs of the host ask for one thing at most, in the environment of the caller, and pass its
outcome on. -/
structure Host.Forwards (host : Host) : Prop where
  call (key : Nat) (env : Env) (args : List Value) : (host.call key env args).Forwards env
  rule (key : Nat) (env : Env) (args : Value) : (host.rule key env args).Forwards env

theorem Host.Forwards.heedsLimits {host : Host} (h : host.Forwards) : host.HeedsLimits :=
  ⟨fun key env args => (h.call key env args).heeds _,
    fun key env args => (h.rule key env args).heeds _⟩

theorem Host.Forwards.ignoresLimits {host : Host} (h : host.Forwards) : host.IgnoresLimits :=
  ⟨fun key env args => (h.call key env args).ignoresLimits,
    fun key env args => (h.rule key env args).ignoresLimits⟩

theorem Scripted.Function.call_forwards (f : Scripted.Function) (env : Env) (args : List Value) :
    (f.call env args).Forwards env := by
  cases f with
  | constant | fail => exact .done _
  | arguments | record => exact .act _ .done
  | apply =>
    cases args with
    | nil => exact .done _
    | cons f rest => exact .apply f rest
  | eval =>
    cases args with
    | nil => exact .done _
    | cons expr rest => exact .eval expr

theorem Scripted.FormRule.call_forwards (r : Scripted.FormRule) (env : Env) (args : Value) :
    (r.call env args).Forwards env := by
  cases r with
  | evalFirst =>
    simp only [call]
    cases args.car with
    | ok expr => exact .eval expr
    | error f => exact .done _
  | _ => exact .done _

/-- A script has no functions and special forms that look at an outcome. -/
theorem Script.host_forwards (s : Script) : s.host.Forwards where
  call key env args := by
    simp only [host]
    cases s.functions[key]? with
    | none => exact .done _
    | some f => exact f.call_forwards env args
  rule key env args := by
    simp only [host]
    cases s.rules[key]? with
    | none => exact .done _
    | some r => exact r.call_forwards env args

/-- A computation that, from any world, ends in a fault of the given kind. -/
def EvalM.Stops (stops : Fault → Prop) (m : EvalM α) : Prop :=
  ∀ w, ∃ f v, m.run w = (.error f, v) ∧ stops f

/-- What follows a computation stops, whatever the computation gives, so all of it does. -/
theorem EvalM.Stops.settle {stops : Fault → Prop}
    (hfatal : ∀ f : Fault, f.cause.isFatal = true → stops f) (m : EvalM Value)
    {next : Except Fault Value → EvalM Value} (hnext : ∀ r, EvalM.Stops stops (next r)) :
    EvalM.Stops stops (EvalM.settle m next) := by
  intro w
  rw [run_settle]
  rcases m.run w with ⟨r, v⟩
  cases r with
  | ok x => exact hnext _ v
  | error f =>
    cases hf : f.cause.isFatal with
    | true => exact ⟨f, v, if_pos hf, hfatal f hf⟩
    | false => simpa [hf] using hnext _ v

/-- A fault that ends the whole process is one of a limit. -/
theorem Cause.isLimit_of_isFatal {c : Cause} (h : c.isFatal = true) : c.isLimit = true := by
  cases c <;> cases h
  rfl

theorem Program.Doomed.run {stops : Fault → Prop}
    (hfatal : ∀ f : Fault, f.cause.isFatal = true → stops f) {p : Program} (hp : p.Doomed stops)
    (ask : Requests) : EvalM.Stops stops (p.run ask) := by
  induction p with
  | done outcome =>
    intro w
    cases outcome with
    | ok v => exact hp.elim
    | error f => exact ⟨f, w, rfl, hp⟩
  | act a next ih => exact .settle hfatal _ fun r => ih r (hp r)
  | scopes change next ih => exact fun w => ih w.frames (hp _) { w with frames := change w.frames }
  | limits env next ih => exact fun w => ih (w.limits env) (hp _) w
  | eval env expr next ih => exact .settle hfatal _ fun r => ih r (hp r)
  | apply env g args next ih => exact .settle hfatal _ fun r => ih r (hp r)

/-! ## pairings -/

/-- A relation between the worlds of two computations, which have made the same objects and written
the same log.  It may depend on a stage. -/
structure Pairing (ι : Type) where
  /-- The worlds that are related at a stage. -/
  worlds : ι → World → World → Prop
  /-- The environments in which expressions are evaluated. -/
  scope : Env → Prop
  /-- The values that occur. -/
  fine : Value → Prop
  /-- The faults of the first computation after which nothing is asked of the second. -/
  excused : Fault → Prop
  journal_eq {i : ι} {w w' : World} : worlds i w w' → w'.journal = w.journal
  setJournal {i : ι} {w w' : World} (journal : Journal) :
    worlds i w w' → worlds i { w with journal } { w' with journal }

namespace Pairing

variable (c : Pairing ι)

/-- How two computations may end that started at a stage. -/
def ending (i : ι) : Ending := { worlds := c.worlds i, faults := Eq, excused := c.excused }

/-- From related worlds, two computations end alike, with results that are related. -/
def Couples (post : α → α → Prop) (m m' : EvalM α) : Prop :=
  ∀ i w w', c.worlds i w w' → (c.ending i).Alike post (m.run w) (m'.run w')

/-- From related worlds, two computations end alike, with the same result. -/
def Agree (P : α → Prop) (m m' : EvalM α) : Prop := c.Couples (fun a a' => a' = a ∧ P a) m m'

/-- Two ways to serve programs of the host agree on everything that can occur. -/
structure Asking (ask ask' : Requests) : Prop where
  eval {env : Env} {expr : Value} : c.scope env → c.fine expr →
    c.Agree c.fine (ask.eval env expr) (ask'.eval env expr)
  apply {env : Env} {f : Value} {args : List Value} : c.scope env → c.fine f →
    (∀ x ∈ args, c.fine x) → c.Agree c.fine (ask.apply env f args) (ask'.apply env f args)

/-- Runs of the program agree when what it asks for does. -/
def Steady (p : Program) : Prop :=
  ∀ ask ask', c.Asking ask ask' → c.Agree c.fine (p.run ask) (p.run ask')

variable {c}
variable {P : α → Prop} {Q : β → Prop}

/-! ## steps -/

theorem Couples.bind {post : α → α → Prop} {post' : β → β → Prop} {m m' : EvalM α}
    {k k' : α → EvalM β} (hm : c.Couples post m m')
    (hk : ∀ a a', post a a' → c.Couples post' (k a) (k' a')) :
    c.Couples post' (m >>= k) (m' >>= k') := by
  intro i w w' hw
  exact (hm i w w' hw).bind fun a a' v v' hpost hv => hk a a' hpost i v v' hv

namespace Agree

theorem pure {a : α} (h : P a) : c.Agree P (Pure.pure a) (Pure.pure a) :=
  fun _ _ _ hw => .ok hw ⟨rfl, h⟩

theorem throw (f : Fault) : c.Agree P (MonadExcept.throw f) (MonadExcept.throw f) :=
  fun _ _ _ hw => .error hw rfl

theorem fail (location : String) (cause : Cause) :
    c.Agree P (EvalM.fail location cause) (EvalM.fail location cause) :=
  throw _

theorem bind {m m' : EvalM α} {k k' : α → EvalM β} (hm : c.Agree P m m')
    (hk : ∀ a, P a → c.Agree Q (k a) (k' a)) : c.Agree Q (m >>= k) (m' >>= k') :=
  Couples.bind hm fun a _ h => h.1 ▸ hk a h.2

theorem mono {P' : α → Prop} {m m' : EvalM α} (hm : c.Agree P m m') (h : ∀ a, P a → P' a) :
    c.Agree P' m m' := by
  intro i w w' hw
  exact (hm i w w' hw).mono fun a _ ha => ⟨ha.1, h a ha.2⟩

theorem liftExcept {r : Except Fault α} (h : ∀ a, r = .ok a → P a) :
    c.Agree P (liftM r) (liftM r) := by
  intro i w w' hw
  cases r with
  | ok a => exact .ok hw ⟨rfl, h a rfl⟩
  | error f => exact .error hw rfl

theorem act {a : Action α} (h : Yields P a) : c.Agree P (EvalM.act a) (EvalM.act a) := by
  intro i w w' hw
  rw [run_act, run_act, c.journal_eq hw]
  have hnext := c.setJournal (a.run w.journal).2 hw
  cases hr : (a.run w.journal).1 with
  | ok x => exact .ok hnext ⟨rfl, h _ x hr⟩
  | error f => exact .error hnext rfl

theorem attempt {a : Attempt α} (h : Yields P a) :
    c.Agree P (EvalM.attempt a) (EvalM.attempt a) :=
  act fun j x hx => h j.next x hx

/-- Going on with the outcome of a computation.  Where a fault of the first computation is excused,
what follows it has to stop as well. -/
theorem settle {P Q : Value → Prop} {m m' : EvalM Value}
    {next next' : Except Fault Value → EvalM Value} (hm : c.Agree P m m')
    (hok : ∀ v, P v → c.Agree Q (next (.ok v)) (next' (.ok v)))
    (herror : ∀ f, c.Agree Q (next (.error f)) (next' (.error f)))
    (hexcused : ∀ f, c.excused f → EvalM.Stops c.excused (next (.error f))) :
    c.Agree Q (EvalM.settle m next) (EvalM.settle m' next') := by
  intro i w w' hw
  have hend := hm i w w' hw
  rw [run_settle, run_settle]
  rcases hrun : m.run w with ⟨r, v⟩
  rcases hrun' : m'.run w' with ⟨r', v'⟩
  rw [hrun, hrun'] at hend
  cases hend with
  | @ok a a' _ _ hv hpost =>
    obtain ⟨rfl, ha⟩ := hpost
    exact hok _ ha i v v' hv
  | @error f f' _ _ hv hf =>
    obtain rfl : f = f' := hf
    cases hfatal : f.cause.isFatal with
    | true => simpa [hfatal] using .error hv rfl
    | false => simpa [hfatal] using herror f i v v' hv
  | @excused f _ _ hf =>
    cases hfatal : f.cause.isFatal with
    | true => simpa [hfatal] using .excused hf
    | false =>
      obtain ⟨g, u, hstop, hg⟩ := hexcused f hf v
      simpa [hfatal, hstop] using .excused hg

/-- Going on with the outcome of an action, which is the same in both worlds. -/
theorem settleAct {P : Value → Prop} {a : Action Value}
    {next next' : Except Fault Value → EvalM Value} (hnext : ∀ r, c.Agree P (next r) (next' r)) :
    c.Agree P (EvalM.settle (EvalM.act a) next) (EvalM.settle (EvalM.act a) next') := by
  intro i w w' hw
  have hnew := c.setJournal (a.run w.journal).2 hw
  rw [run_settle, run_settle, run_act, run_act, c.journal_eq hw]
  cases (a.run w.journal).1 with
  | ok v => exact hnext _ i _ _ hnew
  | error f =>
    cases hfatal : f.cause.isFatal with
    | true => simpa [hfatal] using .error hnew rfl
    | false => simpa [hfatal] using hnext _ i _ _ hnew

end Agree

/-! ## programs of the host -/

/-- A pairing in which every environment and every value may occur, between worlds that have the
same definitions, whatever these are. -/
structure Open (c : Pairing ι) : Prop where
  scope (env : Env) : c.scope env
  fine (v : Value) : c.fine v
  frames_eq {i : ι} {w w' : World} : c.worlds i w w' → w'.frames = w.frames
  setFrames {i : ι} {w w' : World} (frames : Array Frame) :
    c.worlds i w w' → c.worlds i { w with frames } { w' with frames }
  fatal {f g : Fault} : c.excused f → g.cause.isFatal = true → c.excused g

/-- A program that heeds what is excused can do what it likes. -/
theorem Open.steady (hc : c.Open) {p : Program} (hheeds : p.Heeds c.excused)
    (hlimits : (∀ i w w' env, c.worlds i w w' → w'.limits env = w.limits env) ∨ p.IgnoresLimits) :
    c.Steady p := by
  intro ask ask' hask
  have hstops : ∀ {next : Except Fault Value → Program},
      (∀ f, c.excused f → (next (.error f)).Doomed c.excused) →
      ∀ f, c.excused f → EvalM.Stops c.excused ((next (.error f)).run ask) :=
    fun hdoomed f hf => (hdoomed f hf).run (fun _ => hc.fatal hf) ask
  induction p with
  | done outcome => exact .liftExcept fun v _ => hc.fine v
  | act a next ih =>
    exact .settleAct fun r => ih r (hheeds r) (hlimits.imp_right fun h => h r)
  | scopes change next ih =>
    intro i w w' hw
    have hnext := ih w.frames (hheeds _) (hlimits.imp_right fun h => h _) i _ _
      (hc.setFrames (change w.frames) hw)
    rw [Program.run_scopes, Program.run_scopes, hc.frames_eq hw]
    exact hnext
  | limits env next ih =>
    intro i w w' hw
    have hsame : next (w'.limits env) = next (w.limits env) := by
      rcases hlimits with heq | hignores
      · rw [heq i w w' env hw]
      · exact hignores.1 _ _
    have hnext := ih (w.limits env) (hheeds _) (hlimits.imp_right fun h => h.2 _) i w w' hw
    rw [Program.run_limits, Program.run_limits, hsame]
    exact hnext
  | eval env expr next ih =>
    exact (hask.eval (hc.scope env) (hc.fine expr)).settle
      (fun v _ => ih _ (hheeds.1 _) (hlimits.imp_right fun h => h _))
      (fun f => ih _ (hheeds.1 _) (hlimits.imp_right fun h => h _)) (hstops hheeds.2)
  | apply env f args next ih =>
    exact (hask.apply (hc.scope env) (hc.fine f) fun x _ => hc.fine x).settle
      (fun v _ => ih _ (hheeds.1 _) (hlimits.imp_right fun h => h _))
      (fun f => ih _ (hheeds.1 _) (hlimits.imp_right fun h => h _)) (hstops hheeds.2)

end Pairing

end Sexpr
