import Sexpr.Proofs.Depth
import Sexpr.Proofs.Genuine

/-!
# Sexpr.Proofs.Guards

What the guards of data types promise about unwrapped values.

A data type checks a value when it makes a thunk of it.  Unwrapping a pair looks at its tag and
forces its payload, and does not check again.  So what an unwrapped value satisfies is the
guard of the type that made the payload.  It is the guard of the tag as well when the tag is
that type, but a program can put the payload under another tag.

A program unwraps in the middle of evaluations, which may fail later on.  To speak about all of it,
`evalWatched` evaluates as `evalWithin` does and raises an alarm at the first unwrapping whose
result a check rejects.  In programs of a standard environment every unwrapped value is
accounted for (`Accounted`), and no alarm is ever raised.
-/

namespace Sexpr

variable {host : Host}

/-! ## watching unwrappings -/

/-- The evaluator that raises an alarm where a payload gives a value that the check rejects.  What
programs of the host ask for stays as it is. -/
def Evaluator.watched (check : DataType → Value → Value → Bool) (alarm : Fault)
    (ev : Evaluator) : Evaluator where
  toRequests := ev.toRequests
  unwrap env t payload := do
    let v ← ev.unwrap env t payload
    if check t payload v then return v else throw alarm

/-- Evaluates an expression with a number of levels left, and watches every unwrapping. -/
def evalWatched (host : Host) (check : DataType → Value → Value → Bool) (alarm : Fault) :
    Nat → Env → Value → EvalM Value
  | 0, env, expr => do throw ((← get).tooDeep env expr)
  | left + 1, env, expr =>
    EvalM.within env expr
      (evalExpr host ((Evaluator.ofEval host (evalWatched host check alarm left)).watched check
        alarm) env expr)

/-- Evaluates an expression, and watches every unwrapping. -/
def World.evalWatched (host : Host) (check : DataType → Value → Value → Bool) (alarm : Fault)
    (env : Env) (expr : Value) : EvalM Value := do
  Sexpr.evalWatched host check alarm (← get).headroom env expr

/-- A check that always holds changes nothing. -/
theorem Pairing.Agree.check {ι : Type} {c : Pairing ι} {P : Value → Prop}
    {m m' : EvalM Value} (h : c.Agree P m m') {check : Value → Bool} {alarm : Fault}
    (hcheck : ∀ v, P v → check v = true) :
    c.Agree P m (do
      let v ← m'
      if check v then return v else MonadExcept.throw alarm) := by
  rw [← bind_pure m]
  refine h.bind fun v hv => ?_
  rw [if_pos (hcheck v hv)]
  exact .pure hv

/-! ## values that are accounted for -/

/-- The payload under a tag is a thunk that a standard data type made of the value.  That type
accepts the value, and so does the tag if it has the same label. -/
def Accounted (host : Host) (tag : DataType) (payload v : Value) : Prop :=
  ∃ id label guard, payload = .thunk id label .identity v ∧
    (label, guard) ∈ World.standardTypes ∧ guard.accepts host v = true ∧
    (tag.label = label → tag.accepts host v = true)

/-- Whether a standard data type that accepts the value can have made the payload under a tag, and
the tag accepts the value if it has the same label. -/
def accounted (host : Host) (tag : DataType) (payload v : Value) : Bool :=
  match payload with
  | .thunk _ label _ _ =>
    (World.standardTypes.any fun (name, guard) => name == label && guard.accepts host v) &&
      (tag.label != label || tag.accepts host v)
  | _ => false

theorem accounted_eq_true {tag : DataType} {payload v : Value}
    (h : Accounted host tag payload v) : accounted host tag payload v = true := by
  obtain ⟨id, label, guard, rfl, hstandard, haccepts, htag⟩ := h
  have hany : (World.standardTypes.any fun (name, guard) =>
      name == label && guard.accepts host v) = true :=
    List.any_eq_true.2 ⟨(label, guard), hstandard, by simp only [BEq.rfl, haccepts, Bool.and_self]⟩
  unfold accounted
  simp only [hany, Bool.true_and]
  by_cases hlabel : tag.label = label
  · rw [htag hlabel, Bool.or_true]
  · rw [bne_iff_ne.2 hlabel, Bool.true_or]

/-- Standard data types of one label have one guard. -/
theorem standardTypes_guard_unique {label : Symbol} {guard guard' : Guard}
    (h : (label, guard) ∈ World.standardTypes) (h' : (label, guard') ∈ World.standardTypes) :
    guard' = guard := by
  have hall : ∀ e ∈ World.standardTypes, ∀ e' ∈ World.standardTypes, e'.1 = e.1 → e'.2 = e.2 := by
    decide +kernel
  exact hall _ h _ h' rfl

/-- A genuine payload is a thunk, or it cannot be forced. -/
theorem force_genuine {payload : Value} (h : Genuine host payload) :
    (∃ id label guard v, payload = .thunk id label .identity v ∧
      (label, guard) ∈ World.standardTypes ∧ guard.accepts host v = true ∧ Genuine host v) ∨
    ∀ ask env, force host ask env payload = EvalM.fail unwrapLocation (.undeclared payload) := by
  cases h with
  | @thunk id label guard v hstandard haccepts hv =>
    exact .inl ⟨id, label, guard, v, rfl, hstandard, haccepts, hv⟩
  | @native id name arity code hstandard =>
    refine .inr fun ask env => ?_
    unfold force
    split
    · next heq => cases heq
    · next heq =>
      cases heq
      exact (standard_ne_thunk hstandard).elim
    · rfl
  | _ => exact .inr fun _ _ => rfl

/-- What a genuine payload gives is accounted for. -/
theorem force_accounted {ask ask' : Requests} {env : Env} {tag : DataType} {payload : Value}
    (htag : Genuine host (.dataType tag)) (hpayload : Genuine host payload) :
    (genuineness host).coupling.Agree (fun v => Genuine host v ∧ Accounted host tag payload v)
      (force host ask env payload) (force host ask' env payload) := by
  rcases force_genuine hpayload with ⟨id, label, guard, v, rfl, hstandard, haccepts, hv⟩ | hfail
  · have htagged : tag.label = label → tag.accepts host v = true := by
      intro hlabel
      cases htag with
      | dataType htype _ =>
        rw [hlabel] at htype
        unfold DataType.accepts
        rw [standardTypes_guard_unique hstandard htype]
        exact haccepts
    have haccounted : Accounted host tag (.thunk id label .identity v) v :=
      ⟨id, label, guard, rfl, hstandard, haccepts, htagged⟩
    exact Pairing.Agree.act (Yields.pure ⟨hv, haccounted⟩)
  · rw [hfail, hfail]
    exact .fail _ _

theorem unwrapPayload_accounted (ask ask' : Requests) (env : Env)
    {tag : DataType} {payload : Value} (htag : Genuine host (.dataType tag))
    (hpayload : Genuine host payload) :
    (genuineness host).coupling.Agree (fun v => Genuine host v ∧ Accounted host tag payload v)
      (unwrapPayload host ask env tag payload) (unwrapPayload host ask' env tag payload) := by
  rintro i _ w ⟨rfl, hw⟩
  unfold unwrapPayload
  rw [run_bind, run_bind, run_get]
  simp only
  split
  · split
    · exact force_accounted htag hpayload i w w ⟨rfl, hw⟩
    · exact Pairing.Agree.fail _ _ i w w ⟨rfl, hw⟩
  · exact Pairing.Agree.fail _ _ i w w ⟨rfl, hw⟩

/-! ## programs -/

/-- A watched evaluation of a genuine expression ends as the plain one does. -/
theorem evalWatched_agree (alarm : Fault) (n : Nat) (env : Env) {expr : Value}
    (hexpr : Genuine host expr) :
    (genuineness host).coupling.Agree (Genuine host) (evalWithin host n env expr)
      (evalWatched host (accounted host) alarm n env expr) := by
  induction n generalizing env expr with
  | zero => exact Pairing.Agree.tooDeep trivial
  | succ n ih =>
    refine Pairing.Agree.within trivial (Coupling.evalExpr ?_ trivial hexpr)
    refine ⟨(Coupling.ofEval fun _ _ _ hexpr => ih _ hexpr).toAsking,
      fun {env t payload} _ ht hpayload => ?_⟩
    have hunwrap := unwrapPayload_accounted (evaluator host n).toRequests
      (Evaluator.ofEval host (evalWatched host (accounted host) alarm n)).toRequests env ht hpayload
    exact (hunwrap.check fun v hv => accounted_eq_true hv.2).mono fun v hv => hv.1

/-- Evaluating a tagged value unwraps it. -/
theorem evalWithin_accounted (n : Nat) (env : Env) (id : Ident) {tag : DataType}
    {payload : Value} (htag : Genuine host (.dataType tag)) (hpayload : Genuine host payload)
    (hnative : payload.isNative = true) :
    (genuineness host).coupling.Agree (fun v => Genuine host v ∧ Accounted host tag payload v)
      (evalWithin host n env (.pair id (.dataType tag) payload))
      (evalWithin host n env (.pair id (.dataType tag) payload)) := by
  cases n with
  | zero => exact Pairing.Agree.tooDeep trivial
  | succ n =>
    have hexpr : ∀ ev, evalExpr host ev env (.pair id (.dataType tag) payload) =
        ev.unwrap env tag payload := by
      intro ev
      simp only [evalExpr, Value.isTagged, hnative, if_true, unwrap]
    refine Pairing.Agree.within trivial ?_
    rw [hexpr]
    exact unwrapPayload_accounted _ _ env htag hpayload

section

variable {w : World} {env : Env} {tag u : DataType}

/-- What a type of the language made of a value unwraps to the value, under whichever tag is
visible. -/
theorem run_eval_thunk (hu : w.findType env tag.label = some u) (hsame : u.ident = tag.ident)
    (hroom : (w.session env.session).hasRoom = true) (id thunkId : Ident) (label : Symbol)
    (v : Value) :
    (World.eval host env (.pair id (.dataType tag) (.thunk thunkId label .identity v))).run w =
      (.ok v, w) := by
  let inner := w.modifySession env.session Session.deepen
  have hinner : inner.findType env tag.label = some u := hu
  have hbody : (evalExpr host (evaluator host inner.headroom) env
      (.pair id (.dataType tag) (.thunk thunkId label .identity v))).run inner = (.ok v, inner) :=
    run_unwrapPayload_thunk hinner hsame host _ thunkId label .identity v
  rw [World.run_eval_of_room host _ hroom, hbody, World.surface_deepen]

end

/-- **Unwrapped values satisfy the guard of the type that made them**: whenever a program unwraps a
pair, the payload is a thunk that a data type made of the value, which that type
accepts, and so does the tag if it has the same label; no unwrapping in the middle of an
evaluation gives a value that is not accounted for; and under any tag that is registered a thunk
unwraps to the value that it was made of. -/
theorem unwrap_accounted (host : Host) (limits : Limits) {w : World} {known : List Value}
    (hw : Reached host limits w known) :
    (∀ id tag payload v, Composed known (.pair id (.dataType tag) payload) →
      ((World.unwrap host (standardEnv limits) (.pair id (.dataType tag) payload)).run w).1 =
          .ok v ∨
        payload.isNative = true ∧
          ((World.eval host (standardEnv limits) (.pair id (.dataType tag) payload)).run w).1 =
            .ok v →
      Accounted host tag payload v) ∧
    (∀ expr, Composed known expr → ∀ alarm,
      (World.evalWatched host (accounted host) alarm (standardEnv limits) expr).run w =
        (World.eval host (standardEnv limits) expr).run w) ∧
    ∀ id tag thunkId label maker v u,
      let pair := Value.pair id (.dataType tag) (.thunk thunkId label maker v)
      Composed known pair →
      w.findType (standardEnv limits) tag.label = some u → u.ident = tag.ident →
        (World.unwrap host (standardEnv limits) pair).run w = (.ok v, w) ∧
        ((w.session (standardEnv limits).session).hasRoom = true →
          (World.eval host (standardEnv limits) pair).run w = (.ok v, w)) := by
  obtain ⟨hworld, hknown⟩ := hw.genuine
  refine ⟨fun id tag payload v hpair hrun => ?_, fun expr hexpr alarm => ?_, ?_⟩
  · obtain ⟨htag, hpayload⟩ := (genuine_hereditary.pair_iff _ _ _).1 (hpair.genuine hknown)
    rcases hrun with hunwrap | ⟨hnative, heval⟩
    · have hagree := unwrapPayload_accounted (evaluator host w.headroom).toRequests
        (evaluator host w.headroom).toRequests (standardEnv limits) htag hpayload
      exact ((Invariant.run_eq hagree hworld).2.2 v hunwrap).2
    · have hagree := evalWithin_accounted w.headroom (standardEnv limits) id htag hpayload hnative
      exact ((Invariant.run_eq hagree hworld).2.2 v heval).2
  · have hagree := evalWatched_agree alarm w.headroom (standardEnv limits) (hexpr.genuine hknown)
    exact (Invariant.run_eq hagree hworld).1
  · intro id tag thunkId label maker v u pair hpair hu hsame
    obtain ⟨-, hpayload⟩ := (genuine_hereditary.pair_iff _ _ _).1 (hpair.genuine hknown)
    -- In programs of a standard environment thunks are made by the types of the language.
    obtain rfl : maker = .identity := by
      cases hpayload with
      | thunk _ _ _ => rfl
    have hunwrap := run_unwrapPayload_thunk hu hsame host
      (evaluator host w.headroom).toRequests thunkId label .identity v
    exact ⟨hunwrap, fun hroom => run_eval_thunk hu hsame hroom id thunkId label v⟩

/-! ## a payload under another tag -/

/-- `(cons string (cdr (number 1)))` -/
def swappedTag : Value :=
  .ofItems [.symbol "cons", .symbol "string",
    .ofItems [.symbol "cdr", .ofItems [.symbol "number", .number (.int 1)]]]

/-- The data type in front of a pair. -/
def Value.tag? : Value → Option DataType
  | .pair _ (.dataType t) _ => some t
  | _ => none

theorem Value.eq_pair_of_tag? {v : Value} {tag : DataType} (h : v.tag? = some tag) :
    ∃ id payload, v = .pair id (.dataType tag) payload := by
  unfold Value.tag? at h
  split at h
  · cases h
    exact ⟨_, _, rfl⟩
  · cases h

/-- The program makes a pair that is tagged `string`, and `string` does not accept what the pair
unwraps to. -/
theorem eval_swappedTag :
    let std := World.newStandard {} {}
    ∃ id tag payload w v,
      (World.eval Host.none std.1 swappedTag).run std.2 =
        (.ok (.pair id (.dataType tag) payload), w) ∧
      (tag.label, tag.guard) = ("string", .kind .string) ∧
      w.findType std.1 tag.label = some tag ∧ (w.session std.1.session).hasRoom = true ∧
      ((World.unwrap Host.none std.1 (.pair id (.dataType tag) payload)).run w).1 = .ok v ∧
      tag.accepts Host.none v = false := by
  intro std
  have hrun :
      (((World.eval Host.none std.1 swappedTag).run std.2).1.toOption.any fun pair =>
        pair.tag?.any fun tag =>
          decide ((tag.label, tag.guard) = ("string", .kind .string) ∧
            ((World.eval Host.none std.1 swappedTag).run std.2).2.findType std.1 tag.label =
              some tag ∧
            (((World.eval Host.none std.1 swappedTag).run std.2).2.session
              std.1.session).hasRoom = true) &&
            ((World.unwrap Host.none std.1 pair).run
              ((World.eval Host.none std.1 swappedTag).run std.2).2).1.toOption.any fun v =>
                !tag.accepts Host.none v) = true := by decide +kernel
  generalize (World.eval Host.none std.1 swappedTag).run std.2 = made at hrun ⊢
  obtain ⟨pair, hmade, htags⟩ := exists_ok_of_any hrun
  obtain ⟨tag, htag, hvalue⟩ := Option.any_eq_true _ _ |>.1 htags
  obtain ⟨id, payload, rfl⟩ := Value.eq_pair_of_tag? htag
  obtain ⟨hstring, hunwraps⟩ := Bool.and_eq_true_iff.1 hvalue
  obtain ⟨v, hunwrap, hrejects⟩ := exists_ok_of_any hunwraps
  obtain ⟨hlabel, hvisible, hroom⟩ := of_decide_eq_true hstring
  exact ⟨id, tag, payload, made.2, v, Prod.ext hmade rfl, hlabel, hvisible, hroom, hunwrap,
    (Bool.not_eq_true' _).mp hrejects⟩

/-- What the pair unwraps to is accounted for: `number` made the payload.  Evaluating the pair gives
the same. -/
theorem unwrap_accounted_swappedTag :
    ∃ id tag payload w v,
      Reached Host.none {} w [.pair id (.dataType tag) payload] ∧
      ((World.unwrap Host.none (standardEnv {}) (.pair id (.dataType tag) payload)).run w).1 =
        .ok v ∧
      Accounted Host.none tag payload v ∧
      (World.eval Host.none (standardEnv {}) (.pair id (.dataType tag) payload)).run w =
        (.ok v, w) := by
  obtain ⟨id, tag, payload, w, v, hmade, -, hvisible, hroom, hunwrap, -⟩ := eval_swappedTag
  have hexpr : Composed [] swappedTag :=
    .pair (.symbol _) (.pair (.symbol _) (.pair (.pair (.symbol _) (.pair (.pair (.symbol _)
      (.pair (.number _) .nil)) .nil)) .nil))
  have hw : Reached Host.none {} w [.pair id (.dataType tag) payload] := .value .start hexpr hmade
  have hpair : Composed [.pair id (.dataType tag) payload] (.pair id (.dataType tag) payload) :=
    .known List.mem_cons_self
  obtain ⟨haccounts, -, hthunks⟩ := unwrap_accounted Host.none {} hw
  have haccounted := haccounts id tag payload v hpair (.inl hunwrap)
  have ⟨thunkId, label, _, hpayload, _⟩ := haccounted
  subst hpayload
  exact ⟨id, tag, _, w, v, hw, hunwrap, haccounted,
    (hthunks id tag thunkId label .identity v tag hpair hvisible rfl).2 hroom⟩

/-- A tag does not vouch for what it unwraps to: in a standard environment a program unwraps a pair
that is tagged `string`, directly and through `eval-data`, and `string` does not accept what
it gets. -/
theorem eval_data_swapped_tag :
    let std := World.newStandard {} {}
    (∃ id tag payload w v,
      (World.eval Host.none std.1 swappedTag).run std.2 =
        (.ok (.pair id (.dataType tag) payload), w) ∧
      (tag.label, tag.guard) ∈ World.standardTypes ∧
      ((World.unwrap Host.none std.1 (.pair id (.dataType tag) payload)).run w).1 = .ok v ∧
      tag.accepts Host.none v = false) ∧
    ∃ v, ((World.eval Host.none std.1 (.ofItems [.symbol "eval-data", swappedTag])).run std.2).1 =
        .ok v ∧
      Guard.accepts Host.none (.kind .string) v = false := by
  intro std
  constructor
  · obtain ⟨id, tag, payload, w, v, hmade, hstring, -, -, hunwrap, hrejects⟩ := eval_swappedTag
    refine ⟨id, tag, payload, w, v, hmade, ?_, hunwrap, hrejects⟩
    rw [hstring]
    decide +kernel
  · have hprogram :
        (((World.eval Host.none std.1 (.ofItems [.symbol "eval-data", swappedTag])).run
          std.2).1.toOption.any fun v => !Guard.accepts Host.none (.kind .string) v) = true := by
      decide +kernel
    obtain ⟨v, hvalue, hrejects⟩ := exists_ok_of_any hprogram
    exact ⟨v, hvalue, (Bool.not_eq_true' _).mp hrejects⟩

end Sexpr
