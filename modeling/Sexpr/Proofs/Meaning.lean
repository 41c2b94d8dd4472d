import Mathlib
import Sexpr.Proofs.Application
import Sexpr.Proofs.Standard
import Sexpr.Proofs.Variadic

/-!
# Sexpr.Proofs.Meaning

Arithmetic expressions evaluate to what they mean, as long as they are not too high.

A `Term` is a tree of sums, products and identities with words at its leaves.  It means an integer,
and it has a height.  An expression that is a term written down (`Term.Written`) is evaluated one
level deeper than the expression it stands in, so as many levels are needed as the term is high,
and one level less is not enough:

* `Term.Ends`: how an evaluation ends that finds a number of levels;
* `evalEach_ends`: a list of expressions ends in a fault as soon as one of them is too high.
-/

namespace Sexpr

/-! ## terms -/

/-- An arithmetic expression. -/
inductive Term where
  | literal (n : Int64)
  | sum (args : List Term)
  | product (args : List Term)
  | identity (arg : Term)

namespace Term

/-- The integer that a term means. -/
def meaning : Term → Int
  | .literal n => n.toInt
  | .sum args => (args.map meaning).sum
  | .product args => (args.map meaning).prod
  | .identity arg => arg.meaning

/-- The integer that a term means, as a value in normal form. -/
def value (t : Term) : Value := .number (.ofInt t.meaning)

/-- The height of a term; a call without arguments is as high as a literal. -/
def height : Term → Nat
  | .literal _ => 1
  | .sum args => (args.map height).foldr max 0 + 1
  | .product args => (args.map height).foldr max 0 + 1
  | .identity arg => arg.height + 1

/-- An expression is the term written down.  Its pairs may be any pairs. -/
inductive Written : Term → Value → Prop
  | literal (n : Int64) : Written (.literal n) (.number (.int n))
  | sum {terms : List Term} {args : Value} (id : Ident) :
    args.isProperList = true → List.Forall₂ Written terms args.elements →
      Written (.sum terms) (.pair id (.symbol "+") args)
  | product {terms : List Term} {args : Value} (id : Ident) :
    args.isProperList = true → List.Forall₂ Written terms args.elements →
      Written (.product terms) (.pair id (.symbol "*") args)
  | identity {term : Term} {arg : Value} (id argId : Ident) :
    Written term arg →
      Written (.identity term) (.pair id (.symbol "identity") (.pair argId arg .nil))

theorem one_le_height (t : Term) : 1 ≤ t.height := by
  cases t <;> simp [height]

/-- A call is one higher than each of its arguments. -/
theorem foldr_max_le_iff (terms : List Term) (n : Nat) :
    (terms.map height).foldr max 0 ≤ n ↔ ∀ t ∈ terms, t.height ≤ n := by
  induction terms with
  | nil => simp
  | cons t terms ih => simp [ih]

end Term

/-! ## levels -/

/-- In an environment, the names of arithmetic stand for the functions of the language. -/
def World.HasArithmetic (w : World) (env : Env) : Prop :=
  ∀ p ∈ [Primitive.add, .mul, .identity], ∃ id, w.resolve env p.name = some (p.toNative id)

theorem World.hasArithmetic_newStandard (w : World) (limits : Limits) :
    (w.newStandard limits).2.HasArithmetic (w.newStandard limits).1 := by
  intro p hp
  have hstandard : ∀ p ∈ [Primitive.add, .mul, .identity],
      (p.name, p.arity, Code.primitive p) ∈ Code.standard := by decide
  exact w.resolve_newStandard limits (hstandard p hp)

/-- Arithmetic can be evaluated in an environment, and so many levels are left. -/
structure World.Ready (w : World) (env : Env) (room : Nat) : Prop where
  functions : w.HasArithmetic env
  unfolds : 0 < (w.limits env).unfoldings
  room_eq : (w.limits env).depth - (w.session env.session).depth = room

namespace World.Ready

variable {w : World} {env : Env} {room : Nat}

theorem hasRoom_eq (h : w.Ready env room) :
    (w.session env.session).hasRoom = decide (0 < room) := by
  have hroom : (w.session env.session).limits.depth - (w.session env.session).depth = room :=
    h.room_eq
  rw [Session.hasRoom, decide_eq_decide]
  omega

/-- The session after a level was taken. -/
theorem session_deepen (h : w.Ready env (room + 1)) :
    (w.modifySession env.session Session.deepen).session env.session =
      (w.session env.session).deepen :=
  World.session_modifySession_self (World.lt_size_of_hasRoom (by simp [h.hasRoom_eq]))

theorem deepen (h : w.Ready env (room + 1)) :
    (w.modifySession env.session Session.deepen).Ready env room where
  functions := h.functions
  unfolds := by
    rw [World.limits_deepen]
    exact h.unfolds
  room_eq := by
    rw [World.limits_deepen, h.session_deepen]
    show (w.limits env).depth - ((w.session env.session).depth + 1) = room
    have := h.room_eq
    omega

end World.Ready

/-! ## evaluations -/

/-- The fault of an expression that is nested too deep. -/
def tooDeepFault (limit : Nat) (expr : Value) : Fault :=
  Fault.during { location := "eval", cause := .depthExceeded limit } expr

/-- How the evaluation of a term ends: with the integer that it means if there are as many levels as
it is high, and with a fault if there are not. -/
structure Term.Ends (t : Term) (room limit : Nat) (w : World)
    (ending : Except Fault Value × World) : Prop where
  value : t.height ≤ room → ending = (.ok t.value, w)
  fault : room < t.height → ∃ part, ending = (.error (tooDeepFault limit part), w)

/-- No term is so low that it needs no level. -/
theorem Term.ends_zero (t : Term) (limit : Nat) (w : World) (part : Value) :
    t.Ends 0 limit w (.error (tooDeepFault limit part), w) where
  value h := by
    have := t.one_le_height
    omega
  fault _ := ⟨part, rfl⟩

/-- The level that the body of an evaluation has taken is given back. -/
theorem Term.Ends.surface {t : Term} {room limit : Nat} {w : World} {k : Nat}
    {ending : Except Fault Value × World}
    (h : t.Ends room limit (w.modifySession k Session.deepen) ending) :
    t.Ends room limit w (ending.1, ending.2.modifySession k Session.surface) where
  value hroom := by
    rw [h.value hroom, World.surface_deepen]
  fault hroom := by
    obtain ⟨part, hpart⟩ := h.fault hroom
    rw [hpart, World.surface_deepen]
    exact ⟨part, rfl⟩

section

variable {host : Host} {ev : Evaluator} {env : Env} {w : World} {room limit : Nat}
  {terms : List Term}

/-- Expressions are evaluated from left to right, up to the first that is too high. -/
theorem evalEach_ends
    (heval : ∀ t v, Term.Written t v → t.Ends room limit w ((ev.eval env v).run w))
    {exprs : List Value} (hexprs : List.Forall₂ Term.Written terms exprs) :
    ((∀ t ∈ terms, t.height ≤ room) → (evalEach ev env exprs).run w =
      (.ok (terms.map Term.value), w)) ∧
    ((∃ t ∈ terms, room < t.height) →
      ∃ part, (evalEach ev env exprs).run w = (.error (tooDeepFault limit part), w)) := by
  unfold evalEach
  induction hexprs with
  | nil => exact ⟨fun _ => rfl, by simp⟩
  | @cons t v terms exprs hwritten _ ih =>
    have hends := heval t v hwritten
    rw [List.mapM_cons, run_bind]
    refine ⟨fun hall => ?_, fun hhigh => ?_⟩
    · obtain ⟨ht, hrest⟩ := List.forall_mem_cons.1 hall
      rw [hends.value ht]
      simp only [run_bind, ih.1 hrest]
      rfl
    · by_cases ht : t.height ≤ room
      · have hrest : ∃ t ∈ terms, room < t.height := by simpa [Nat.not_lt.2 ht] using hhigh
        obtain ⟨part, hpart⟩ := ih.2 hrest
        rw [hends.value ht]
        simp only [run_bind, hpart]
        exact ⟨part, rfl⟩
      · obtain ⟨part, hpart⟩ := hends.fault (by omega)
        rw [hpart]
        exact ⟨part, rfl⟩

/-- A term is a call with some terms as arguments: it is one higher than they are, and the function
makes what the term means of what they mean. -/
structure Term.Calls (t : Term) (p : Primitive) (terms : List Term) : Prop where
  mem : p ∈ [Primitive.add, .mul, .identity]
  height_eq : t.height = (terms.map Term.height).foldr max 0 + 1
  run_apply (host : Host) (ev : Evaluator) (env : Env) (w : World) (id : Ident) :
    (apply host ev env (p.toNative id) (terms.map Term.value)).run w =
      (.ok t.value, w)

theorem Term.integer?_value (terms : List Term) :
    List.Forall₂ (·.integer? = some ·) (terms.map Term.value) (terms.map Term.meaning) := by
  simp [List.forall₂_map_left_iff, List.forall₂_map_right_iff, List.forall₂_same, Value.integer?,
    Value.number?, value]

theorem Term.calls_sum (terms : List Term) : (Term.sum terms).Calls .add terms where
  mem := by simp
  height_eq := by rw [height]
  run_apply host ev env w id := by
    rw [value, meaning]
    exact Primitive.run_apply_add (integer?_value terms)

theorem Term.calls_product (terms : List Term) : (Term.product terms).Calls .mul terms where
  mem := by simp
  height_eq := by rw [height]
  run_apply host ev env w id := by
    rw [value, meaning]
    exact Primitive.run_apply_mul (integer?_value terms)

theorem Term.calls_identity (term : Term) : (Term.identity term).Calls .identity [term] where
  mem := by simp
  height_eq := by simp [height]
  run_apply host ev env w id := by
    rw [run_apply_toNative, value, meaning]
    rfl

/-- A term that is written down is a word or a call. -/
theorem Term.Written.cases {t : Term} {expr : Value} (h : t.Written expr) :
    (∃ n, t = .literal n ∧ expr = .number (.int n)) ∨
      ∃ p terms id args, t.Calls p terms ∧ expr = .pair id (.symbol p.name) args ∧
        args.isProperList = true ∧ List.Forall₂ Term.Written terms args.elements := by
  cases h with
  | literal n => exact .inl ⟨n, rfl, rfl⟩
  | @sum terms args id hproper hargs =>
    exact .inr ⟨_, _, id, args, calls_sum terms, rfl, hproper, hargs⟩
  | @product terms args id hproper hargs =>
    exact .inr ⟨_, _, id, args, calls_product terms, rfl, hproper, hargs⟩
  | @identity term arg id argId harg =>
    exact .inr ⟨_, _, id, _, calls_identity term, rfl, rfl, .cons harg .nil⟩

/-- The body of a call has one level less for its arguments. -/
theorem evalExpr_ends (hready : w.Ready env room)
    (heval : ∀ t v, Term.Written t v → t.Ends room limit w ((ev.eval env v).run w))
    {t : Term} {expr : Value} (hwritten : t.Written expr) :
    t.Ends (room + 1) limit w ((evalExpr host ev env expr).run w) := by
  rcases hwritten.cases with ⟨n, rfl, rfl⟩ | ⟨p, terms, id, args, hcalls, rfl, hproper, hargs⟩
  · refine ⟨fun _ => ?_, fun h => ?_⟩
    · rw [Term.value, Term.meaning, Number.ofInt_toInt]
      rfl
    · simp [Term.height] at h
  · obtain ⟨fid, hname⟩ := hready.functions p hcalls.mem
    obtain ⟨hvalues, hfault⟩ := evalEach_ends heval hargs
    have hheight : t.height ≤ room + 1 ↔ ∀ s ∈ terms, s.height ≤ room := by
      rw [hcalls.height_eq, Nat.succ_le_succ_iff, Term.foldr_max_le_iff]
    rw [run_evalExpr_name hname hready.unfolds, evalArguments_of_isProperList hproper, run_bind]
    refine ⟨fun h => ?_, fun h => ?_⟩
    · rw [hvalues (hheight.1 h)]
      exact hcalls.run_apply host ev env w fid
    · have hhigh : ∃ s ∈ terms, room < s.height := by
        simpa [hheight] using Nat.not_le.2 h
      obtain ⟨part, hpart⟩ := hfault hhigh
      rw [hpart]
      exact ⟨part, rfl⟩

/-- An evaluation needs as many levels as the term is high.  The induction is on the levels that the
evaluator counts, which are enough for those of the session. -/
theorem evalWithin_ends (host : Host) {left : Nat} (hready : w.Ready env room)
    (hleft : room ≤ left) {t : Term} {expr : Value} (hwritten : t.Written expr) :
    t.Ends room (w.limits env).depth w ((evalWithin host left env expr).run w) := by
  induction left generalizing w room t expr with
  | zero =>
    obtain rfl : room = 0 := Nat.le_zero.1 hleft
    exact t.ends_zero _ w expr
  | succ left ih =>
    rw [evalWithin]
    cases room with
    | zero =>
      rw [run_within_of_full (by simp [hready.hasRoom_eq])]
      exact t.ends_zero _ w expr
    | succ room =>
      rw [run_within_of_room (by simp [hready.hasRoom_eq])]
      refine Term.Ends.surface (evalExpr_ends hready.deepen (fun s v hs => ?_) hwritten)
      rw [← World.limits_deepen]
      exact ih hready.deepen (Nat.le_of_succ_le_succ hleft) hs

end

/-- **Arithmetic evaluates to what it means**: where the names of arithmetic stand for the functions
of the language and a name may be replaced, a term that is written down evaluates to the integer
that it means, in normal form, if its height and the levels that are taken already do not exceed
the limit, and to the fault of an evaluation that is too deep if they do.  Both leave the world as
it was. -/
theorem eval_arithmetic (host : Host) (w : World) (env : Env) (t : Term) (expr : Value)
    (hwritten : t.Written expr) (hfunctions : w.HasArithmetic env)
    (hunfolds : 1 ≤ (w.limits env).unfoldings) :
    ((w.session env.session).depth + t.height ≤ (w.limits env).depth →
      ∃ r, (World.eval host env expr).run w = (.ok (.number r), w) ∧ r.Holds t.meaning) ∧
    ((w.limits env).depth < (w.session env.session).depth + t.height →
      ∃ f, (World.eval host env expr).run w = (.error f, w) ∧ f.location = "eval" ∧
        f.cause = .depthExceeded (w.limits env).depth ∧ f.cause.category = .evaluation) := by
  have hready : w.Ready env _ := ⟨hfunctions, hunfolds, rfl⟩
  have hends := evalWithin_ends host hready (w.levels_le_headroom env.session) hwritten
  refine ⟨fun h => ⟨_, hends.value (by omega), Number.holds_ofInt _⟩, fun h => ?_⟩
  have hone := t.one_le_height
  obtain ⟨part, hpart⟩ := hends.fault (by omega)
  exact ⟨_, hpart, rfl, rfl, rfl⟩

/-- `(* (+ max (identity 1)) (*) 2)` is four levels high.  It has a sum that is no word and a
product without arguments. -/
theorem eval_arithmetic_levels :
    let t := Term.product
      [.sum [.literal Int64.maxValue, .identity (.literal 1)], .product [], .literal 2]
    let expr := Value.ofItems [.symbol "*",
      .ofItems [.symbol "+", .number (.int Int64.maxValue),
        .ofItems [.symbol "identity", .number (.int 1)]],
      .ofItems [.symbol "*"], .number (.int 2)]
    let enough := World.newStandard {} { depth := 4, unfoldings := 1 }
    let few := World.newStandard {} { depth := 3, unfoldings := 1 }
    t.Written expr ∧ t.height = 4 ∧ t.meaning = 18446744073709551616 ∧
      (∃ r, (World.eval Host.none enough.1 expr).run enough.2 = (.ok (.number r), enough.2) ∧
        r.Holds t.meaning) ∧
      ∃ f, (World.eval Host.none few.1 expr).run few.2 = (.error f, few.2) ∧
        f.cause = .depthExceeded 3 := by
  intro t expr enough few
  have hwritten : t.Written expr :=
    .product _ rfl (.cons
      (.sum _ rfl (.cons (.literal _) (.cons (.identity _ _ (.literal _)) .nil)))
      (.cons (.product _ rfl .nil) (.cons (.literal _) .nil)))
  have hheight : t.height = 4 := by simp [t, Term.height]
  have hmeaning : t.meaning = 18446744073709551616 := by
    have hmax : Int64.maxValue.toInt = 9223372036854775807 := by decide
    simp [t, Term.meaning, hmax]
  obtain ⟨hvalue, -⟩ := eval_arithmetic Host.none enough.2 enough.1 t expr hwritten
    (World.hasArithmetic_newStandard {} _) (by decide +kernel)
  obtain ⟨-, hfault⟩ := eval_arithmetic Host.none few.2 few.1 t expr hwritten
    (World.hasArithmetic_newStandard {} _) (by decide +kernel)
  obtain ⟨f, hf, -, hcause, -⟩ := hfault (by rw [hheight]; decide +kernel)
  exact ⟨hwritten, hheight, hmeaning, hvalue (by rw [hheight]; decide +kernel), f, hf, hcause⟩

end Sexpr
