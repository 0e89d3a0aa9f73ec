import Lox.Proofs.CurrentFrame
import Lox.Proofs.Lockstep
import Lox.Proofs.Supervision

/-!
# Runs at a breakpoint

Two runs with breakpoints at the same site and machine differ only if they get there, and then only in
how they stop (`breakpoints_differ`). So a run that a breakpoint stops has then the machine of the
breakpoint, in the frame that was running at the start (`Reaches.stops`), and two breakpoints that stop a
run in different ways show that it gets there (`reaches_of_differing`).
-/

namespace Lox
open Run

/-! ## Runs under a watch -/

namespace Passage

variable {R : Machine → Machine → Prop} (passage : Passage R)

include passage

theorem supervised {α : Type} (watch : Watch) (site : Site) {action : Run α} (respects : Respects R action) :
    Respects R (supervised watch site action) := by
  intro m
  unfold leaves
  cases said : watch site m with
  | none =>
      rw [supervised_of_none said]
      exact respects m
  | some stop =>
      rw [supervised_of_some said]
      exact passage.refl m

theorem under (watch : Watch) (fuel : Nat) :
    (∀ e, Respects R (evaluateUnder watch fuel e)) ∧ ∀ a, Respects R (executeUnder watch fuel a) := by
  induction fuel with
  | zero => exact ⟨fun _ => passage.starve, fun _ => passage.starve⟩
  | succ fuel ih =>
      obtain ⟨evaluates, executes⟩ := ih
      constructor
      · intro e
        exact passage.supervised watch (.expr e) (passage.evaluateWith evaluates executes e)
      · intro a
        exact passage.supervised watch (.stmt a) (passage.executeWith evaluates executes fuel a)

end Passage

/-! ## Two ways to stop -/

/--
The actions do the same, or each stops in its own way and with its own machine, in one and the same frame.
If `starving`, the first one may also be out of fuel.
-/
def StopApart (starving : Prop) (m m' : Machine) (stop stop' : Stop) ⦃α : Type⦄ (x y : Run α) : Prop :=
  ∀ start, x start = y start ∨ (starving ∧ ∃ m₁, x start = .error .outOfFuel m₁) ∨ ∃ frame,
    x start = .error stop { m with current := frame } ∧ y start = .error stop' { m' with current := frame }

namespace StopApart

variable {starving : Prop} {m m' : Machine} {stop stop' : Stop} {α β : Type}

theorem bind {x y : Run α} {f g : α → Run β} (first : StopApart starving m m' stop stop' x y)
    (rest : ∀ a, StopApart starving m m' stop stop' (f a) (g a)) :
    StopApart starving m m' stop stop' (x >>= f) (y >>= g) := by
  intro start
  rcases first start with same | ⟨allowed, m₁, starved⟩ | ⟨frame, stopped, stopped'⟩
  · cases ended : y start with
    | ok a after =>
        rw [bind_of ended, bind_of (same.trans ended)]
        exact rest a after
    | error other after =>
        rw [bind_of_error ended, bind_of_error (same.trans ended)]
        exact .inl rfl
  · exact .inr (.inl ⟨allowed, m₁, bind_of_error starved⟩)
  · exact .inr (.inr ⟨frame, bind_of_error stopped, bind_of_error stopped'⟩)

theorem within (inner : FrameId) {x y : Run α} (inside : StopApart starving m m' stop stop' x y) :
    StopApart starving m m' stop stop' (Run.within inner x) (Run.within inner y) := by
  intro start
  rcases inside { start with current := inner } with same | ⟨allowed, m₁, starved⟩ | ⟨frame, stopped, stopped'⟩
  · exact .inl (within_of_eq same)
  · exact .inr (.inl ⟨allowed, _, within_of_error starved⟩)
  · have left := within_of_error stopped
    have right := within_of_error stopped'
    exact .inr (.inr ⟨start.current, left, right⟩)

theorem lockstep (starving : Prop) (m m' : Machine) (stop stop' : Stop) :
    Lockstep (StopApart starving m m' stop stop') where
  stop _ _ := .inl rfl
  look _ _ := .inl rfl
  bind := bind
  within := within
  newFrame _ _ := .inl rfl
  define _ _ _ _ := .inl rfl
  newIdentity _ := .inl rfl
  newInstance _ _ := .inl rfl
  setField _ _ _ _ := .inl rfl
  emit _ _ := .inl rfl

end StopApart

/-! ## Two breakpoints at one place -/

section Differing

variable {α : Type} {m start : Machine} {x : Stop → Run α}
  (differ : ∀ stop stop', StopApart False m m stop stop' (x stop) (x stop'))

include differ

theorem stops_there (reaches : ∀ stop, ∃ m', x stop start = .error stop m') (stop : Stop) :
    ∃ frame, x stop start = .error stop { m with current := frame } := by
  obtain ⟨other, different⟩ := stop.exists_ne
  obtain ⟨m₁, ended⟩ := reaches stop
  obtain ⟨m₂, ended'⟩ := reaches other
  rcases differ stop other start with same | ⟨⟨⟩, -⟩ | ⟨frame, stopped, -⟩
  · rw [ended, ended'] at same
    cases same
    exact (different rfl).elim
  · exact ⟨frame, stopped⟩

theorem stops_anyhow {stop stop' : Stop} {m₁ m₂ : Machine} (different : stop ≠ stop')
    (ended : x stop start = .error stop m₁) (ended' : x stop' start = .error stop' m₂) (other : Stop) :
    ∃ m', x other start = .error other m' := by
  rcases differ other stop start with same | ⟨⟨⟩, -⟩ | ⟨frame, stopped, -⟩
  · rcases differ other stop' start with same' | ⟨⟨⟩, -⟩ | ⟨frame, stopped, -⟩
    · rw [same, ended, ended'] at same'
      cases same'
      exact (different rfl).elim
    · exact ⟨_, stopped⟩
  · exact ⟨_, stopped⟩

end Differing

theorem breakpoints_differ_here (site : Site) {m : Machine} {stop stop' : Stop} {α : Type} (here : Site)
    {x y : Run α} (same : StopApart False m m stop stop' x y) :
    StopApart False m m stop stop' (supervised (breakpoint site m stop) here x)
      (supervised (breakpoint site m stop') here y) := by
  intro start
  by_cases arrived : here = site ∧ start = m
  · obtain ⟨rfl, rfl⟩ := arrived
    exact .inr (.inr ⟨start.current, supervised_of_some breakpoint_self, supervised_of_some breakpoint_self⟩)
  · rw [supervised_of_none (breakpoint_elsewhere arrived), supervised_of_none (breakpoint_elsewhere arrived)]
    exact same start

theorem of_marks {α : Type} {P : Prop} {start : Machine} {x : Stop → Run α} (y : Run α)
    (relates : ∀ mark, x mark start = y start ∨ (∃ m', x mark start = .error .outOfFuel m') ∨ P)
    (stops : ∀ mark, ∃ m', x mark start = .error mark m') : P := by
  have marked (mark : Stop) (other : mark ≠ .outOfFuel) : (∃ m', y start = .error mark m') ∨ P := by
    obtain ⟨m', stopped⟩ := stops mark
    rcases relates mark with same | ⟨m₁, starved⟩ | holds
    · exact .inl ⟨m', same.symm.trans stopped⟩
    · cases stopped.symm.trans starved
      exact (other rfl).elim
    · exact .inr holds
  rcases marked (.defect .escapedReturn) Stop.noConfusion with ⟨m₁, ended⟩ | holds
  · rcases marked (.output .flushFailed) Stop.noConfusion with ⟨m₂, ended'⟩ | holds
    · cases ended.symm.trans ended'
    · exact holds
  · exact holds

/-! ## Programs -/

variable {fuel : Nat} {program : List Stmt} {distances : Distances} {start m : Machine} {site : Site}

theorem breakpoints_differ (fuel : Nat) (site : Site) (m : Machine) (stop stop' : Stop) :
    (∀ e, StopApart False m m stop stop' (evaluateUnder (breakpoint site m stop) fuel e)
      (evaluateUnder (breakpoint site m stop') fuel e)) ∧
    ∀ body, StopApart False m m stop stop' (executeAll (executeUnder (breakpoint site m stop) fuel) body)
      (executeAll (executeUnder (breakpoint site m stop') fuel) body) := by
  have lockstep := StopApart.lockstep False m m stop stop'
  obtain ⟨evaluates, executes⟩ := lockstep.under (breakpoints_differ_here site) fuel
  exact ⟨evaluates, lockstep.executeAll executes⟩

/-- Where a breakpoint stops a run, everything but the running frame is as at the breakpoint. -/
theorem Reaches.stops (reaches : Reaches fuel program distances start site m) (stop : Stop) :
    executeAll (executeUnder (breakpoint site m stop) fuel) program { start with distances } =
      .error stop { m with current := start.current } := by
  obtain ⟨frame, stopped⟩ :=
    stops_there (fun stop stop' => (breakpoints_differ fuel site m stop stop').2 program) reaches stop
  have respects := Restores.passage.executeAll (Restores.passage.under (breakpoint site m stop) fuel).2 program
  have back : frame = start.current := (respects.of_error stopped).current
  rw [stopped, back]

theorem Reaches.respects {R : Machine → Machine → Prop} (passage : Passage R)
    (reaches : Reaches fuel program distances start site m) :
    R { start with distances } { m with current := start.current } := by
  have respects := passage.executeAll (passage.under (breakpoint site m .outOfFuel) fuel).2 program
  exact respects.of_error (reaches.stops .outOfFuel)

theorem reaches_of_differing {stop stop' : Stop} {m₁ m₂ : Machine} (different : stop ≠ stop')
    (ended : executeAll (executeUnder (breakpoint site m stop) fuel) program { start with distances } =
      .error stop m₁)
    (ended' : executeAll (executeUnder (breakpoint site m stop') fuel) program { start with distances } =
      .error stop' m₂) : Reaches fuel program distances start site m :=
  stops_anyhow (fun stop stop' => (breakpoints_differ fuel site m stop stop').2 program) different ended ended'

/-! ## Expressions -/

/-- The evaluation of an expression gets to a site with a machine, where any breakpoint stops it. -/
def Expr.Reaches (fuel : Nat) (e : Expr) (start : Machine) (site : Site) (m : Machine) : Prop :=
  ∀ stop, ∃ m', evaluateUnder (breakpoint site m stop) fuel e start = .error stop m'

theorem Expr.Reaches.respects {R : Machine → Machine → Prop} (passage : Passage R) {e : Expr}
    (reaches : e.Reaches fuel start site m) : ∃ frame, R start { m with current := frame } := by
  obtain ⟨frame, stopped⟩ :=
    stops_there (fun stop stop' => (breakpoints_differ fuel site m stop stop').1 e) reaches .outOfFuel
  exact ⟨frame, ((passage.under (breakpoint site m .outOfFuel) fuel).1 e).of_error stopped⟩

end Lox
