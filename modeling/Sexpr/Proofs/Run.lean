import Sexpr.Eval.Run

/-!
# Sexpr.Proofs.Run

Computations of the evaluator, run from a given world.

The first sections say what the counters of a world do and what single steps do.  The last compares
how two runs end: `Ending` says which worlds and which faults count as alike, and two computations
whose steps end alike end alike (`Ending.Alike.bind`).
-/

namespace Sexpr

variable {α β σ : Type}

/-! ## sessions -/

namespace World

theorem session_modifySession_of_ne {w : World} {i j : Nat} {f : Session → Session} (h : i ≠ j) :
    (w.modifySession i f).session j = w.session j := by
  unfold session modifySession
  rw [Array.getD_eq_getD_getElem?, Array.getD_eq_getD_getElem?, Array.getElem?_modify, if_neg h]

theorem session_modifySession_self {w : World} {i : Nat} {f : Session → Session}
    (h : i < w.sessions.size) : (w.modifySession i f).session i = f (w.session i) := by
  unfold session modifySession
  rw [Array.getD_eq_getD_getElem?, Array.getD_eq_getD_getElem?, Array.getElem?_modify, if_pos rfl,
    Array.getElem?_eq_getElem h]
  rfl

theorem modifySession_of_size_le {w : World} {i : Nat} {f : Session → Session}
    (h : w.sessions.size ≤ i) : w.modifySession i f = w := by
  unfold modifySession
  have hsame : w.sessions.modify i f = w.sessions := by
    apply Array.ext_getElem?
    intro k
    rw [Array.getElem?_modify]
    split
    · next hk =>
      subst hk
      rw [Array.getElem?_eq_none h]
      rfl
    · rfl
  rw [hsame]

/-- Changes of one session show in another either all or not at all. -/
theorem session_modifySession_or (w : World) (k i : Nat) :
    (∀ f, (w.modifySession k f).session i = w.session i) ∨
      ∀ f, (w.modifySession k f).session i = f (w.session i) := by
  by_cases hk : k = i
  · subst hk
    rcases Nat.lt_or_ge k w.sessions.size with hlt | hge
    · exact .inr fun f => session_modifySession_self hlt
    · exact .inl fun f => by rw [modifySession_of_size_le hge]
  · exact .inl fun f => session_modifySession_of_ne hk

theorem limits_deepen (w : World) (k : Nat) (env : Env) :
    (w.modifySession k Session.deepen).limits env = w.limits env := by
  unfold limits
  rcases w.session_modifySession_or k env.session with hsame | hdeep
  · rw [hsame]
  · rw [hdeep]
    rfl

/-- The level that was taken last is given back. -/
theorem sessions_surface {v w : World} {k : Nat}
    (h : v.sessions = (w.modifySession k Session.deepen).sessions) :
    (v.modifySession k Session.surface).sessions = w.sessions := by
  unfold modifySession at h ⊢
  rw [h]
  apply Array.ext_getElem?
  intro i
  simp only [Array.getElem?_modify]
  split
  · rw [Option.map_map]
    exact Option.map_id'
  · rfl

theorem surface_deepen (w : World) (k : Nat) :
    (w.modifySession k Session.deepen).modifySession k Session.surface = w :=
  congrArg (fun sessions => { w with sessions })
    (sessions_surface (v := w.modifySession k Session.deepen) (w := w) rfl)

end World

/-! ## steps -/

/-- One step of a computation that can fail, then the rest. -/
theorem run_bind (m : ExceptT Fault (StateM σ) α) (k : α → ExceptT Fault (StateM σ) β) (s : σ) :
    (m >>= k).run s = match m.run s with
      | (.ok a, s') => (k a).run s'
      | (.error f, s') => (.error f, s') := by
  have hstep : (m >>= k).run s = ExceptT.bindCont k (m.run s).1 (m.run s).2 := rfl
  rw [hstep]
  obtain ⟨r, s'⟩ := m.run s
  cases r with
  | ok a => rfl
  | error f => rfl

theorem run_get (w : World) : (get : EvalM World).run w = (.ok w, w) := rfl

theorem run_resolve (env : Env) (name : Symbol) (w : World) :
    (EvalM.resolve env name).run w = match w.resolve env name with
      | some v => (.ok v, w)
      | none => (.error (Fault.unbound name), w) := by
  unfold EvalM.resolve
  rw [run_bind, run_get]
  simp only
  cases w.resolve env name with
  | none => rfl
  | some v => rfl

theorem run_settle (m : EvalM Value) (next : Except Fault Value → EvalM Value) (w : World) :
    (EvalM.settle m next).run w = match m.run w with
      | (.ok v, w') => (next (.ok v)).run w'
      | (.error f, w') => if f.cause.isFatal then (.error f, w') else (next (.error f)).run w' :=
  rfl

theorem run_act (a : Action α) (w : World) :
    (EvalM.act a).run w =
      ((a.run w.journal).1, { w with journal := (a.run w.journal).2 }) := rfl

theorem Program.run_scopes (ask : Requests) (change : Array Frame → Array Frame)
    (next : Array Frame → Program) (w : World) :
    ((Program.scopes change next).run ask).run w =
      ((next w.frames).run ask).run { w with frames := change w.frames } := rfl

theorem Program.run_limits (ask : Requests) (env : Env) (next : Limits → Program) (w : World) :
    ((Program.limits env next).run ask).run w = ((next (w.limits env)).run ask).run w := rfl

/-- What a type has made of a value is built under every tag that is visible. -/
theorem run_unwrapPayload_thunk {w : World} {env : Env} {tag u : DataType}
    (hu : w.findType env tag.label = some u) (hsame : u.ident = tag.ident) (host : Host)
    (ask : Requests) (id : Ident) (label : Symbol) (maker : Maker) (v : Value) :
    (unwrapPayload host ask env tag (.thunk id label maker v)).run w =
      (EvalM.act (maker.build host v)).run w := by
  unfold unwrapPayload
  rw [run_bind, run_get]
  simp only [hu, if_pos hsame, force]

/-- A level that has been counted is beyond the limit where there was no room for it. -/
theorem World.depth_lt_iff (w : World) (env : Env) :
    ((w.modifySession env.session Session.deepen).limits env).depth <
        (w.session env.session).depth + 1 ↔ (w.session env.session).hasRoom = false := by
  rw [limits_deepen, Session.hasRoom, decide_eq_false_iff_not, limits]
  omega

/-- The body of an evaluation runs one level deeper, where there is room. -/
theorem run_within_of_room {env : Env} {expr : Value} {body : EvalM Value} {w : World}
    (h : (w.session env.session).hasRoom = true) :
    (EvalM.within env expr body).run w =
      ((body.run (w.modifySession env.session Session.deepen)).1,
        (body.run (w.modifySession env.session Session.deepen)).2.modifySession env.session
          Session.surface) := by
  have hroom := mt (w.depth_lt_iff env).1 (by rw [h]; exact Bool.noConfusion)
  unfold EvalM.within
  rw [ExceptT.run_mk]
  simp only [if_neg hroom]

/-- Where there is no room, the body of an evaluation does not run, and the level that was counted
is given back. -/
theorem run_within_of_full {env : Env} {expr : Value} {body : EvalM Value} {w : World}
    (h : (w.session env.session).hasRoom = false) :
    (EvalM.within env expr body).run w = (.error (w.tooDeep env expr), w) := by
  have hfull := (w.depth_lt_iff env).2 h
  unfold EvalM.within
  rw [ExceptT.run_mk]
  simp only [if_pos hfull, World.surface_deepen]
  simp only [World.tooDeep, World.limits_deepen]

/-- The fault depends on the session only. -/
theorem tooDeep_eq {w w' : World} {env : Env} {expr : Value}
    (h : w'.session env.session = w.session env.session) :
    w'.tooDeep env expr = w.tooDeep env expr := by
  simp only [World.tooDeep, World.limits, h]

theorem run_tooDeep (env : Env) (expr : Value) (w : World) :
    (do throw ((← get).tooDeep env expr) : EvalM α).run w = (.error (w.tooDeep env expr), w) :=
  rfl

/-- Only a symbol is unfolded. -/
theorem unfoldHead_of_ne {env : Env} {expr head : Value} {limit left : Nat}
    (h : ¬ ∃ name, head = .symbol name) :
    unfoldHead env expr limit left head = pure (head, left) := by
  unfold unfoldHead
  split
  · exact (h ⟨_, rfl⟩).elim
  · exact (h ⟨_, rfl⟩).elim
  · rfl

/-- A result that passes a test. -/
theorem exists_ok_of_any {r : Except Fault α} {test : α → Bool}
    (h : r.toOption.any test = true) : ∃ a, r = .ok a ∧ test a = true := by
  cases r with
  | ok a => exact ⟨a, rfl, h⟩
  | error f => cases h

/-- Whether a limit ended a computation. -/
def stoppedByLimit : Except Fault α → Bool
  | .ok _ => false
  | .error f => f.cause.isLimit

/-- A list as an expression from outside; its pairs were not made by an evaluation. -/
def Value.ofItems (items : List Value) : Value := items.foldr (.pair 0) .nil

/-! ## two runs -/

/-- What counts as ending alike. -/
structure Ending where
  /-- The worlds that are left. -/
  worlds : World → World → Prop
  /-- The faults that are raised. -/
  faults : Fault → Fault → Prop
  /-- The faults of the first run after which nothing is asked of the second. -/
  excused : Fault → Prop

namespace Ending

variable {e : Ending}

/-- Two runs that end alike, with results that are related. -/
inductive Alike (e : Ending) (post : α → α → Prop) :
    Except Fault α × World → Except Fault α × World → Prop
  | ok {a a' : α} {w w' : World} :
    e.worlds w w' → post a a' → Alike e post (.ok a, w) (.ok a', w')
  | error {f f' : Fault} {w w' : World} :
    e.worlds w w' → e.faults f f' → Alike e post (.error f, w) (.error f', w')
  | excused {f : Fault} {w : World} {r : Except Fault α × World} :
    e.excused f → Alike e post (.error f, w) r

/-- Runs that go on alike after they ended alike. -/
theorem Alike.bind {post : α → α → Prop} {post' : β → β → Prop} {m m' : EvalM α}
    {k k' : α → EvalM β} {w w' : World} (hm : e.Alike post (m.run w) (m'.run w'))
    (hk : ∀ a a' v v', post a a' → e.worlds v v' →
      e.Alike post' ((k a).run v) ((k' a').run v')) :
    e.Alike post' ((m >>= k).run w) ((m' >>= k').run w') := by
  rw [run_bind, run_bind]
  rcases hrun : m.run w with ⟨r, v⟩
  rcases hrun' : m'.run w' with ⟨r', v'⟩
  rw [hrun, hrun'] at hm
  cases hm with
  | ok hv hpost => exact hk _ _ _ _ hpost hv
  | error hv hf => exact .error hv hf
  | excused hf => exact .excused hf

theorem Alike.mono {post post' : α → α → Prop} {r r' : Except Fault α × World}
    (h : e.Alike post r r') (hpost : ∀ a a', post a a' → post' a a') : e.Alike post' r r' := by
  cases h with
  | ok hv ha => exact .ok hv (hpost _ _ ha)
  | error hv hf => exact .error hv hf
  | excused hf => exact .excused hf

end Ending

end Sexpr
