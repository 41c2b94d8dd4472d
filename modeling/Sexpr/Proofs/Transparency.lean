import Sexpr.Proofs.Coupling
import Sexpr.Standard

/-!
# Sexpr.Proofs.Transparency

The limits of a session do not show.

An evaluation under two limits is coupled with the same evaluation under higher ones: at every
moment the two worlds differ in the limits of one session only (`relaxation`).  A limit
can stop the first evaluation earlier, and nothing in the language catches the fault it
raises then.  So an evaluation that ends in anything else ends in the same way under higher limits
and leaves the same world, unless a program of the host catches such a fault or looks at the limits.
-/

namespace Sexpr

namespace World

/-- The world with other limits in one session. -/
def setLimits (w : World) (session : Nat) (limits : Limits) : World :=
  w.modifySession session fun s => { s with limits }

/-! ## sessions -/

/-- Changes that do not depend on each other can be made in either order. -/
theorem modifySession_comm {w : World} {i j : Nat} {f g : Session → Session}
    (h : ∀ s, f (g s) = g (f s)) :
    (w.modifySession i f).modifySession j g = (w.modifySession j g).modifySession i f := by
  unfold modifySession
  have hsame : (w.sessions.modify i f).modify j g = (w.sessions.modify j g).modify i f := by
    apply Array.ext_getElem?
    intro k
    simp only [Array.getElem?_modify]
    cases w.sessions[k]? with
    | none => split <;> split <;> rfl
    | some s =>
      split <;> split <;> simp only [Option.map_some, h]
  rw [hsame]

theorem setLimits_setLimits (w : World) (i : Nat) (low high : Limits) :
    (w.setLimits i low).setLimits i high = w.setLimits i high := by
  unfold setLimits modifySession
  have hsame : (w.sessions.modify i fun s => { s with limits := low }).modify i
      (fun s => { s with limits := high }) =
      w.sessions.modify i fun s => { s with limits := high } := by
    apply Array.ext_getElem?
    intro k
    simp only [Array.getElem?_modify]
    split
    · cases w.sessions[k]? with
      | none => rfl
      | some s => rfl
    · rfl
  rw [hsame]

/-! ## headroom -/

theorem levelsLeft_modify_le {sessions : List Session} {i : Nat} {low high : Limits}
    (h : low.depth ≤ high.depth) :
    levelsLeft (sessions.modify i fun s => { s with limits := low }) ≤
      levelsLeft (sessions.modify i fun s => { s with limits := high }) := by
  induction sessions generalizing i with
  | nil => simp
  | cons s sessions ih =>
    cases i with
    | zero =>
      simp only [List.modify_zero_cons, levelsLeft]
      omega
    | succ i =>
      have := ih (i := i)
      simp only [List.modify_succ_cons, levelsLeft]
      omega

/-- Higher limits leave more levels. -/
theorem headroom_setLimits_le (w : World) (i : Nat) {low high : Limits}
    (h : low.depth ≤ high.depth) :
    (w.setLimits i low).headroom ≤ (w.setLimits i high).headroom := by
  unfold headroom setLimits modifySession
  simp only [Array.toList_modify]
  exact levelsLeft_modify_le h

end World

/-! ## the coupling -/

/-- The session of an environment under low and under high limits. -/
theorem session_setLimits_or {low high : Limits} (hdepth : low.depth ≤ high.depth)
    (hunfoldings : low.unfoldings ≤ high.unfoldings) (w : World) (i j : Nat) :
    (w.setLimits i high).session j = (w.setLimits i low).session j ∨
      ((w.setLimits i low).session j).Roomier ((w.setLimits i high).session j) := by
  unfold World.setLimits
  rcases w.session_modifySession_or i j with hsame | hset
  · exact .inl (by rw [hsame, hsame])
  · refine .inr ?_
    rw [hset, hset]
    refine ⟨fun hroom => ?_, hunfoldings⟩
    simp only [Session.hasRoom, decide_eq_true_eq] at hroom ⊢
    omega

/-- Worlds that differ in the limits of one session only. -/
def relaxed (session : Nat) (low high : Limits) : Pairing Unit where
  worlds _ w w' := ∃ v : World, w = v.setLimits session low ∧ w' = v.setLimits session high
  scope _ := True
  fine _ := True
  excused f := f.cause.isLimit = true
  journal_eq := by
    rintro _ _ _ ⟨v, rfl, rfl⟩
    rfl
  setJournal := by
    rintro _ _ _ journal ⟨v, rfl, rfl⟩
    exact ⟨{ v with journal }, rfl, rfl⟩

theorem relaxed_open (session : Nat) (low high : Limits) : (relaxed session low high).Open where
  scope _ := trivial
  fine _ := trivial
  frames_eq := by
    rintro _ _ _ ⟨v, rfl, rfl⟩
    rfl
  setFrames := by
    rintro _ _ _ frames ⟨v, rfl, rfl⟩
    exact ⟨{ v with frames }, rfl, rfl⟩
  fatal _ hfatal := Cause.isLimit_of_isFatal hfatal

/-- Evaluations from worlds that differ in the limits of one session only. -/
def relaxation {host : Host} (hheeds : host.HeedsLimits) (hignores : host.IgnoresLimits)
    (session : Nat) {low high : Limits} (hdepth : low.depth ≤ high.depth)
    (hunfoldings : low.unfoldings ≤ high.unfoldings) : Coupling host Unit where
  toPairing := relaxed session low high
  hereditary := .of_true
  resolve_eq := by
    rintro _ _ _ _ _ ⟨v, rfl, rfl⟩ _ _
    rfl
  resolve_fine _ _ _ := trivial
  findType_eq := by
    rintro _ _ _ _ _ ⟨v, rfl, rfl⟩ _ _
    rfl
  bind := by
    rintro _ _ _ env name x ⟨v, rfl, rfl⟩ _ _ _
    exact ⟨v.bind env name x, rfl, rfl⟩
  size_eq := by
    rintro _ _ _ ⟨v, rfl, rfl⟩
    rfl
  extend := by
    rintro _ _ _ _ params env _ args ⟨v, rfl, rfl⟩ _ _
    exact ⟨⟨(v.extend env params args).2, rfl, rfl⟩, trivial⟩
  session_eq := by
    rintro _ _ _ env ⟨v, rfl, rfl⟩ _
    exact (session_setLimits_or hdepth hunfoldings v session env.session).imp id
      fun h => ⟨h, fun _ hf => hf⟩
  headroom_eq := by
    rintro _ _ _ ⟨v, rfl, rfl⟩
    exact .inr ⟨v.headroom_setLimits_le session hdepth, fun _ hf => hf⟩
  nest := by
    rintro _ _ _ env ⟨v, rfl, rfl⟩ _
    refine ⟨(), ⟨v.modifySession env.session Session.deepen, ?_, ?_⟩, ?_⟩
    · exact World.modifySession_comm fun _ => rfl
    · exact World.modifySession_comm fun _ => rfl
    · rintro _ _ ⟨u, rfl, rfl⟩
      refine ⟨u.modifySession env.session Session.surface, ?_, ?_⟩
      · exact World.modifySession_comm fun _ => rfl
      · exact World.modifySession_comm fun _ => rfl
  closure_fine _ _ _ := trivial
  body_fine _ _ _ := trivial
  thunk_fine _ _ _ := trivial
  build_fine _ _ _ _ := trivial
  call_steady _ _ _ := (relaxed_open ..).steady (hheeds.call ..) (.inr (hignores.call ..))
  hosted_steady _ _ _ := (relaxed_open ..).steady (hheeds.call ..) (.inr (hignores.call ..))
  rule_steady _ _ _ _ := (relaxed_open ..).steady (hheeds.rule ..) (.inr (hignores.rule ..))

/-- **Limits are transparent**: an evaluation that no limit stops ends in the same value or fault
under higher limits, and leaves the same world: the same definitions in the same order, the same
objects and the same log.  Programs of the host may take part if they neither recover from a limit
nor look at the limits. -/
theorem eval_setLimits_of_le {host : Host} (hheeds : host.HeedsLimits)
    (hignores : host.IgnoresLimits) (w : World) (env : Env) (expr : Value)
    {low high : Limits} (hdepth : low.depth ≤ high.depth)
    (hunfoldings : low.unfoldings ≤ high.unfoldings)
    (hends : stoppedByLimit
      ((World.eval host env expr).run (w.setLimits env.session low)).1 = false) :
    (World.eval host env expr).run (w.setLimits env.session high) =
      (((World.eval host env expr).run (w.setLimits env.session low)).1,
        ((World.eval host env expr).run (w.setLimits env.session low)).2.setLimits env.session
          high) := by
  have hcoupled := (relaxation hheeds hignores env.session hdepth hunfoldings).eval env expr
    trivial trivial () (w.setLimits env.session low) (w.setLimits env.session high) ⟨w, rfl, rfl⟩
  rcases hlow : (World.eval host env expr).run (w.setLimits env.session low) with ⟨r, v⟩
  rcases hhigh : (World.eval host env expr).run (w.setLimits env.session high) with ⟨r', v'⟩
  rw [hlow, hhigh] at hcoupled
  rw [hlow] at hends
  cases hcoupled with
  | ok hworlds hvalue =>
    obtain ⟨u, rfl, rfl⟩ := hworlds
    rw [World.setLimits_setLimits, hvalue.1]
  | error hworlds hfault =>
    cases hfault
    obtain ⟨u, rfl, rfl⟩ := hworlds
    rw [World.setLimits_setLimits]
  | excused hf =>
    have hstopped : stoppedByLimit (.error _ : Except Fault Value) = true := hf
    rw [hstopped] at hends
    cases hends

/-- A call that needs four levels and one unfolding, and one more level for the function of the host
that evaluates it, gives the same under the default limits. -/
theorem eval_setLimits_of_le_call :
    let host := Script.host { functions := #[.eval] }
    let std := World.newStandard {} {}
    let call := Value.ofItems [.ofItems [.symbol "lambda", .ofItems [.symbol "x"],
      .ofItems [.symbol "define", .symbol "y", .ofItems [.symbol "cons", .symbol "x", .nil]]],
      .bool true]
    let expr := Value.ofItems
      [.native 1 "run" (.exact 1) (.host 0), .ofItems [.symbol "quote", call]]
    let low := (World.eval host std.1 expr).run (std.2.setLimits std.1.session ⟨5, 1⟩)
    stoppedByLimit low.1 = false ∧
      (World.eval host std.1 expr).run (std.2.setLimits std.1.session ⟨128, 64⟩) =
        (low.1, low.2.setLimits std.1.session ⟨128, 64⟩) := by
  intro host std call expr low
  have hends : stoppedByLimit low.1 = false := by decide +kernel
  have hforwards := Script.host_forwards { functions := #[.eval] }
  exact ⟨hends, eval_setLimits_of_le hforwards.heedsLimits hforwards.ignoresLimits std.2 std.1 expr
    (by decide) (by decide) hends⟩

end Sexpr
