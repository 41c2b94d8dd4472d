import Mathlib.Logic.Function.Basic
import Sexpr.Proofs.Transparency

/-!
# Sexpr.Proofs.Depth

The levels that evaluations take.

An evaluation takes a level of its session while the body of its expression is evaluated.  Whatever
happens there, an evaluation or an application leaves the sessions as it found them, so
a sequence of them does, however each of them ends.

That the limit of a session is never exceeded is not said with the counter of the session:
`evalAudited` evaluates as `evalWithin` does and carries along how many evaluations are in progress
in each session.  It raises an alarm in place of evaluating a body when these are more than
the limit allows, and also when an expression is not evaluated although its session has
room.  No alarm is ever raised.
-/

namespace Sexpr

variable {host : Host} {α : Type}

/-! ## levels of a world -/

namespace World

/-- Taking a level of a session leaves one level less if there was room. -/
theorem levelsLeft_deepen (sessions : List Session) (k : Nat) :
    levelsLeft (sessions.modify k Session.deepen) +
      (if (sessions.getD k closedSession).hasRoom then 1 else 0) = levelsLeft sessions := by
  induction sessions generalizing k with
  | nil => simp [levelsLeft, closedSession, Session.hasRoom]
  | cons s sessions ih =>
    cases k with
    | zero =>
      simp only [List.modify_zero_cons, levelsLeft, List.getD_cons_zero, Session.hasRoom,
        decide_eq_true_eq, Session.deepen]
      split <;> omega
    | succ k =>
      have := ih k
      simp only [List.modify_succ_cons, levelsLeft, List.getD_cons_succ]
      omega

/-- The levels of one session are among those of all sessions. -/
theorem levels_le_levelsLeft (sessions : List Session) (k : Nat) :
    (sessions.getD k closedSession).limits.depth - (sessions.getD k closedSession).depth ≤
      levelsLeft sessions := by
  induction sessions generalizing k with
  | nil => simp [levelsLeft, closedSession]
  | cons s sessions ih =>
    cases k with
    | zero =>
      simp only [List.getD_cons_zero, levelsLeft]
      omega
    | succ k =>
      have := ih k
      simp only [List.getD_cons_succ, levelsLeft]
      omega

theorem session_eq_getD (w : World) (k : Nat) :
    w.session k = w.sessions.toList.getD k closedSession := by
  unfold session
  rw [Array.getD_eq_getD_getElem?, List.getD_eq_getElem?_getD, Array.getElem?_toList]

theorem headroom_deepen (w : World) (k : Nat) :
    (w.modifySession k Session.deepen).headroom + (if (w.session k).hasRoom then 1 else 0) =
      w.headroom := by
  unfold headroom modifySession
  rw [Array.toList_modify, session_eq_getD]
  exact levelsLeft_deepen _ k

theorem levels_le_headroom (w : World) (k : Nat) :
    (w.session k).limits.depth - (w.session k).depth ≤ w.headroom := by
  rw [session_eq_getD]
  exact levels_le_levelsLeft _ k

/-- A session that has room is one that exists. -/
theorem lt_size_of_hasRoom {w : World} {k : Nat} (h : (w.session k).hasRoom = true) :
    k < w.sessions.size := by
  refine Nat.lt_of_not_le fun hge => ?_
  have hclosed : w.session k = closedSession := by
    unfold session
    rw [Array.getD_eq_getD_getElem?, Array.getElem?_eq_none hge]
    rfl
  rw [hclosed] at h
  cases h

/-- An evaluation that finds room evaluates the expression one level deeper. -/
theorem run_eval_of_room (host : Host) {w : World} {env : Env} (expr : Value)
    (hroom : (w.session env.session).hasRoom = true) :
    let inner := w.modifySession env.session Session.deepen
    let body := (evalExpr host (evaluator host inner.headroom) env expr).run inner
    (World.eval host env expr).run w =
      (body.1, body.2.modifySession env.session Session.surface) := by
  intro inner body
  have hlevels := w.headroom_deepen env.session
  rw [if_pos hroom] at hlevels
  show (evalWithin host w.headroom env expr).run w = _
  rw [← hlevels, evalWithin, run_within_of_room hroom]
  rfl

/-- The session counters are at least `busy`, and all sessions together leave at most `left`
levels. -/
structure Counts (w : World) (busy : Nat → Nat) (left : Nat) : Prop where
  busy_le (i : Nat) : busy i ≤ (w.session i).depth
  headroom_le : w.headroom ≤ left

namespace Counts

variable {w : World} {busy : Nat → Nat} {left : Nat}

theorem start (w : World) : w.Counts (fun i => (w.session i).depth) w.headroom :=
  ⟨fun _ => Nat.le_refl _, Nat.le_refl _⟩

theorem congr (h : w.Counts busy left) {v : World} (hv : v.sessions = w.sessions) :
    v.Counts busy left := by
  have hsession : ∀ i, v.session i = w.session i := fun i => by unfold session; rw [hv]
  have hheadroom : v.headroom = w.headroom := by unfold headroom; rw [hv]
  exact ⟨fun i => by rw [hsession]; exact h.busy_le i, by rw [hheadroom]; exact h.headroom_le⟩

theorem deepen (h : w.Counts busy left) (k : Nat) :
    (w.modifySession k Session.deepen).Counts busy left := by
  refine ⟨fun i => ?_, ?_⟩
  · refine Nat.le_trans (h.busy_le i) ?_
    rcases w.session_modifySession_or k i with hsame | hdeep
    · exact Nat.le_of_eq (by rw [hsame])
    · rw [hdeep]
      exact Nat.le_succ _
  · have := w.headroom_deepen k
    have := h.headroom_le
    omega

/-- An evaluation that finds room is one more in its session, and leaves one level less. -/
theorem enter (h : w.Counts busy (left + 1)) {k : Nat} (hroom : (w.session k).hasRoom = true) :
    (w.modifySession k Session.deepen).Counts (Function.update busy k (busy k + 1)) left := by
  refine ⟨fun i => ?_, ?_⟩
  · by_cases hik : k = i
    · subst hik
      rw [session_modifySession_self (lt_size_of_hasRoom hroom), Function.update_self]
      exact Nat.succ_le_succ (h.busy_le k)
    · rw [session_modifySession_of_ne hik, Function.update_of_ne (Ne.symm hik)]
      exact h.busy_le i
  · have hdeepen := w.headroom_deepen k
    rw [if_pos hroom] at hdeepen
    have := h.headroom_le
    omega

theorem hasRoom_eq_false (h : w.Counts busy 0) (k : Nat) : (w.session k).hasRoom = false := by
  have hdeepen := w.headroom_deepen k
  have := h.headroom_le
  cases hroom : (w.session k).hasRoom with
  | false => rfl
  | true =>
    rw [if_pos hroom] at hdeepen
    omega

end Counts

end World

/-! ## the coupling -/

/-- The sessions are those at the stage, and they are counted. -/
def counted (busy : Nat → Nat) (left : Nat) : Pairing (Array Session) where
  worlds sessions w w' := w' = w ∧ w.sessions = sessions ∧ w.Counts busy left
  scope _ := True
  fine _ := True
  excused _ := False
  journal_eq := by
    rintro _ _ _ ⟨rfl, _⟩
    rfl
  setJournal := by
    rintro _ _ _ journal ⟨rfl, hsessions, hcounts⟩
    exact ⟨rfl, hsessions, hcounts.congr rfl⟩

/-- Programs of the host get at the sessions only through the evaluations that they ask for. -/
theorem counted_steady (busy : Nat → Nat) (left : Nat) (p : Program) :
    (counted busy left).Steady p := by
  have hopen : (counted busy left).Open := by
    refine ⟨fun _ => trivial, fun _ => trivial, ?_, ?_, fun h => h.elim⟩
    · rintro _ _ _ ⟨rfl, _⟩
      rfl
    · rintro _ _ _ frames ⟨rfl, hsessions, hcounts⟩
      exact ⟨rfl, hsessions, hcounts.congr rfl⟩
  refine hopen.steady (Program.heeds_of_never (fun _ h => h) p) (.inl ?_)
  rintro _ _ _ env ⟨rfl, _⟩
  rfl

/-- Every evaluation leaves the sessions as they are. -/
def levels (host : Host) (busy : Nat → Nat) (left : Nat) : Coupling host (Array Session) where
  toPairing := counted busy left
  hereditary := .of_true
  resolve_eq := by
    rintro _ _ _ _ _ ⟨rfl, _⟩ _ _
    rfl
  resolve_fine _ _ _ := trivial
  findType_eq := by
    rintro _ _ _ _ _ ⟨rfl, _⟩ _ _
    rfl
  bind := by
    rintro _ _ _ _ _ _ ⟨rfl, hsessions, hcounts⟩ _ _ _
    exact ⟨rfl, hsessions, hcounts.congr rfl⟩
  size_eq := by
    rintro _ _ _ ⟨rfl, _⟩
    rfl
  extend := by
    rintro _ _ _ _ _ _ _ _ ⟨rfl, hsessions, hcounts⟩ _ _
    exact ⟨⟨rfl, hsessions, hcounts.congr rfl⟩, trivial⟩
  session_eq := by
    rintro _ _ _ _ ⟨rfl, _⟩ _
    exact .inl rfl
  headroom_eq := by
    rintro _ _ _ ⟨rfl, _⟩
    exact .inl rfl
  nest := by
    rintro _ _ w env ⟨rfl, rfl, hcounts⟩ _
    refine ⟨_, ⟨rfl, rfl, hcounts.deepen env.session⟩, ?_⟩
    rintro _ v ⟨rfl, hsessions, _⟩
    have hback := World.sessions_surface hsessions
    exact ⟨rfl, hback, hcounts.congr hback⟩
  closure_fine _ _ _ := trivial
  body_fine _ _ _ := trivial
  thunk_fine _ _ _ := trivial
  build_fine _ _ _ _ := trivial
  call_steady _ _ _ := counted_steady _ _ _
  hosted_steady _ _ _ := counted_steady _ _ _
  rule_steady _ _ _ _ := counted_steady _ _ _

variable {busy : Nat → Nat} {left : Nat} {env : Env}

/-- Computations agree when they end in the same way and leave the sessions as they were. -/
theorem levels_agree_iff {m m' : EvalM α} :
    (levels host busy left).Agree (fun _ => True) m m' ↔
      ∀ w : World, w.Counts busy left →
        m'.run w = m.run w ∧ (m.run w).2.sessions = w.sessions := by
  constructor
  · intro h w hw
    have hend := h w.sessions w w ⟨rfl, rfl, hw⟩
    generalize m.run w = r at hend ⊢
    generalize m'.run w = r' at hend ⊢
    cases hend with
    | ok hv hpost => exact ⟨Prod.ext (congrArg Except.ok hpost.1) hv.1, hv.2.1⟩
    | error hv hf => exact ⟨Prod.ext (congrArg Except.error hf.symm) hv.1, hv.2.1⟩
    | excused hf => exact hf.elim
  · rintro h _ _ w ⟨rfl, rfl, hw⟩
    obtain ⟨hrun, hsessions⟩ := h w hw
    rw [hrun]
    rcases hresult : m.run w with ⟨r, v⟩
    rw [hresult] at hsessions
    have hv : (levels host busy left).worlds w.sessions v v :=
      ⟨rfl, hsessions, hw.congr hsessions⟩
    cases r with
    | ok a => exact .ok hv ⟨rfl, trivial⟩
    | error f => exact .error hv rfl

/-! ## audited evaluations -/

/-- Evaluates an expression with a number of levels left, where `busy` says how many evaluations
are in progress in each session.  An alarm is raised when the body of the expression would be
evaluated beyond the limit, and when no level is left although the session has room.  An alarm
whose cause is fatal is caught by no program of the host. -/
def evalAudited (host : Host) (alarm : Fault) : Nat → (Nat → Nat) → Env → Value → EvalM Value
  | 0, _, env, expr => do
    let w ← get
    if (w.session env.session).hasRoom then throw alarm else throw (w.tooDeep env expr)
  | left + 1, busy, env, expr =>
    EvalM.within env expr do
      let busy := Function.update busy env.session (busy env.session + 1)
      if busy env.session ≤ ((← get).limits env).depth then
        evalExpr host (.ofEval host (evalAudited host alarm left busy)) env expr
      else throw alarm

/-- One more evaluation than there were in progress is within the limit when there was room. -/
theorem World.Counts.lt_limit {w : World} (h : w.Counts busy left)
    (hroom : (w.session env.session).hasRoom = true) :
    busy env.session + 1 ≤ ((w.modifySession env.session Session.deepen).limits env).depth := by
  rw [limits_deepen, limits]
  have hbusy := h.busy_le env.session
  simp only [Session.hasRoom, decide_eq_true_eq] at hroom
  omega

/-- The body of an evaluation that finds room is evaluated within the limit. -/
theorem levels_within {expr : Value} {body body' : EvalM Value} (alarm : Fault)
    (hbody : (levels host (Function.update busy env.session (busy env.session + 1)) left).Agree
      (fun _ => True) body body') :
    (levels host busy (left + 1)).Agree (fun _ => True) (EvalM.within env expr body)
      (EvalM.within env expr do
        let busy := Function.update busy env.session (busy env.session + 1)
        if busy env.session ≤ ((← get).limits env).depth then body' else throw alarm) := by
  rw [levels_agree_iff] at hbody ⊢
  intro w hw
  cases hroom : (w.session env.session).hasRoom with
  | false =>
    rw [run_within_of_full hroom, run_within_of_full hroom]
    exact ⟨rfl, rfl⟩
  | true =>
    rw [run_within_of_room hroom, run_within_of_room hroom]
    obtain ⟨hrun, hsessions⟩ := hbody _ (hw.enter hroom)
    rw [run_bind, run_get]
    simp only [Function.update_self]
    rw [if_pos (hw.lt_limit hroom), hrun]
    exact ⟨rfl, World.sessions_surface hsessions⟩

/-- An audited evaluation ends as the plain one does. -/
theorem evalAudited_agree (host : Host) (alarm : Fault) (left : Nat) (busy : Nat → Nat) (env : Env)
    (expr : Value) :
    (levels host busy left).Agree (fun _ => True) (evalWithin host left env expr)
      (evalAudited host alarm left busy env expr) := by
  induction left generalizing busy env expr with
  | zero =>
    rw [levels_agree_iff]
    intro w hw
    unfold evalWithin evalAudited
    rw [run_tooDeep, run_bind, run_get]
    simp only [hw.hasRoom_eq_false]
    exact ⟨rfl, trivial⟩
  | succ left ih =>
    refine levels_within alarm (Coupling.evalExpr ?_ trivial trivial)
    exact Coupling.ofEval fun env expr _ _ => ih _ env expr

/-- An alarm would be raised: here one evaluation is in progress that was not counted. -/
example (alarm : Fault) :
    let w : World := { sessions := #[{ limits := { depth := 1 } }] }
    let env : Env := { session := 0, frame := 0, outer := [] }
    ((evalAudited Host.none alarm 1 (fun _ => 1) env .nil).run w).1 = .error alarm := rfl

/-! ## calls -/

/-- What is asked of the interpreter. -/
inductive Call where
  | eval (env : Env) (expr : Value)
  | apply (env : Env) (f : Value) (args : List Value)

namespace Call

def run (host : Host) : Call → EvalM Value
  | .eval env expr => World.eval host env expr
  | .apply env f args => World.apply host env f args

/-- The call, given how expressions are evaluated. -/
def runWith (host : Host) (eval : Env → Value → EvalM Value) : Call → EvalM Value
  | .eval env expr => eval env expr
  | .apply env f args => Sexpr.apply host (.ofEval host eval) env f args

/-- The call when its evaluations are audited. -/
def runAudited (host : Host) (alarm : Fault) (call : Call) : EvalM Value := do
  let w ← get
  call.runWith host (evalAudited host alarm w.headroom fun i => (w.session i).depth)

/-- A call starts with the levels that all sessions have left. -/
theorem run_eq_runWith (call : Call) (w : World) :
    (call.run host).run w = (call.runWith host (evalWithin host w.headroom)).run w := by
  cases call with
  | eval env expr => rfl
  | apply env f args => rfl

/-- Calls agree when the evaluations in them do. -/
theorem runWith_agree {eval eval' : Env → Value → EvalM Value}
    (heval : ∀ env expr,
      (levels host busy left).Agree (fun _ => True) (eval env expr) (eval' env expr))
    (call : Call) :
    (levels host busy left).Agree (fun _ => True) (call.runWith host eval)
      (call.runWith host eval') := by
  cases call with
  | eval env expr => exact heval env expr
  | apply env f args =>
    exact Coupling.apply (Coupling.ofEval fun env expr _ _ => heval env expr) trivial trivial
      fun _ _ => trivial

/-- A call leaves the sessions as they were, however many levels it may take. -/
theorem sessions_runWith (call : Call) (left : Nat) (w : World) :
    ((call.runWith host (evalWithin host left)).run w).2.sessions = w.sessions := by
  have heval : ∀ env expr, (levels host (fun i => (w.session i).depth) w.headroom).Agree
      (fun _ => True) (evalWithin host left env expr) (evalWithin host left env expr) :=
    fun _ _ => Coupling.evalWithin (.inl rfl) trivial trivial
  exact (levels_agree_iff.1 (runWith_agree heval call) w (.start w)).2

end Call

/-- An evaluation leaves the sessions as they were. -/
theorem World.sessions_eval (host : Host) (env : Env) (expr : Value) (w : World) :
    ((World.eval host env expr).run w).2.sessions = w.sessions := by
  have hcall : (World.eval host env expr).run w =
      ((Call.eval env expr).runWith host (evalWithin host w.headroom)).run w :=
    (Call.eval env expr).run_eq_runWith w
  rw [hcall]
  exact (Call.eval env expr).sessions_runWith w.headroom w

/-- The world after some calls, whatever came out of each of them. -/
def World.after (host : Host) (w : World) (calls : List Call) : World :=
  calls.foldl (fun w call => ((call.run host).run w).2) w

theorem sessions_after (calls : List Call) (w : World) :
    (w.after host calls).sessions = w.sessions := by
  unfold World.after
  induction calls generalizing w with
  | nil => rfl
  | cons call calls ih =>
    rw [List.foldl_cons, ih, call.run_eq_runWith]
    exact call.sessions_runWith _ w

/-- **Levels are given back and never exceed the limit**: after calls that succeeded or failed a
world has other definitions and another journal only.  Every further call leaves the sessions
as they are, with any number of levels left, and the evaluations that are in progress
when the body of an expression is evaluated are never more than the limit of the session
allows. -/
theorem levels_given_back (host : Host) (w : World) (calls : List Call) (call : Call)
    (alarm : Fault) :
    let now := w.after host calls
    now = { w with frames := now.frames, journal := now.journal } ∧
      ((call.run host).run now).2.sessions = now.sessions ∧
      (∀ left, ((call.runWith host (evalWithin host left)).run now).2.sessions = now.sessions) ∧
      (call.runAudited host alarm).run now = (call.run host).run now := by
  intro now
  refine ⟨?_, ?_, fun left => call.sessions_runWith left now, ?_⟩
  · rw [← sessions_after calls w]
  · rw [call.run_eq_runWith]
    exact call.sessions_runWith _ now
  · have hagree := call.runWith_agree fun env expr =>
      evalAudited_agree host alarm now.headroom (fun i => (now.session i).depth) env expr
    rw [call.run_eq_runWith]
    exact (levels_agree_iff.1 hagree now (.start now)).1

end Sexpr
