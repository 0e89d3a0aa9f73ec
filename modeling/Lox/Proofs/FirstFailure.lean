import Lox.Proofs.Breakpoints
import Lox.Proofs.Defects
import Lox.Proofs.Finish
import Lox.Proofs.Fuel

/-!
# The first failure

An expression or statement that fails ends the run, wherever it stands: the failure passes through all
that is around it, and what was written before stays (`executeAll_fails`). A run reports that failure if
flushing the sink succeeds. If it does not, the failure of flushing is reported instead
(`first_failure_reported`).
-/

namespace Lox
open Run Simulation

/-- The site fails on a machine, which is left as given. -/
def Site.Fails (fuel : Nat) (site : Site) (m : Machine) (stop : Stop) (after : Machine) : Prop :=
  match site with
  | .expr e => evaluate fuel e m = .error stop after
  | .stmt a => execute fuel a m = .error stop after

variable {fuel level : Nat} {program : List Stmt} {distances : Distances} {start : Machine} {site : Site}
  {m after : Machine} {stop : Stop}

theorem Site.Fails.more (fails : site.Fails level m stop after) (fed : stop ≠ .outOfFuel) {more : Nat}
    (le : level ≤ more) : site.Fails more m stop after := by
  cases site with
  | expr e => exact (evaluate_prolongs le e).eq_of_error fails fed
  | stmt a => exact (execute_prolongs le a).eq_of_error fails fed

theorem Site.Fails.current (fails : site.Fails level m stop after) : after.current = m.current := by
  cases site with
  | expr e => exact ((Restores.passage.evaluate level e).of_error fails).current
  | stmt a => exact ((Restores.passage.execute level a).of_error fails).current

/-! ## Where a breakpoint stops -/

/--
Where the first action is stopped with a mark, the second one fails. Elsewhere they do the same, unless the
first one is out of fuel.
-/
abbrev FailsAt (m : Machine) (mark stop : Stop) (after : Machine) ⦃α : Type⦄ (x y : Run α) : Prop :=
  StopApart True m after mark stop x y

theorem failsAt_starve {mark : Stop} {α : Type} (y : Run α) : FailsAt m mark stop after Run.starve y :=
  fun start => .inr (.inl ⟨trivial, start, rfl⟩)

theorem failsAt_supervised {here : Site} {mark : Stop} {α : Type} {x y : Run α}
    (same : FailsAt m mark stop after x y) (fails : here = site → y m = .error stop after)
    (back : after.current = m.current) :
    FailsAt m mark stop after (supervised (breakpoint site m mark) here x) y := by
  intro start
  by_cases arrived : here = site ∧ start = m
  · obtain ⟨rfl, rfl⟩ := arrived
    refine .inr (.inr ⟨start.current, supervised_of_some breakpoint_self, ?_⟩)
    rw [fails rfl, ← back]
  · rw [supervised_of_none (breakpoint_elsewhere arrived)]
    exact same start

theorem fails_under (fails : site.Fails level m stop after) (fed : stop ≠ .outOfFuel) (mark : Stop)
    (fuel : Nat) :
    (∀ e, FailsAt m mark stop after
      (evaluateUnder (breakpoint site m mark) fuel e) (evaluate (fuel + level) e)) ∧
    ∀ a, FailsAt m mark stop after
      (executeUnder (breakpoint site m mark) fuel a) (execute (fuel + level) a) := by
  have lockstep := StopApart.lockstep True m after mark stop
  induction fuel with
  | zero => exact ⟨fun _ => failsAt_starve _, fun _ => failsAt_starve _⟩
  | succ fuel ih =>
      obtain ⟨evaluates, executes⟩ := ih
      have here : site.Fails (fuel + 1 + level) m stop after := fails.more fed (Nat.le_add_left _ _)
      rw [Nat.succ_add] at here ⊢
      constructor
      · intro e
        have inside := lockstep.evaluateWith evaluates executes e
        rw [evaluateUnder, evaluate, onStack_eq]
        apply failsAt_supervised inside _ fails.current
        rintro rfl
        rwa [Site.Fails, evaluate, onStack_eq] at here
      · intro a
        have inside := lockstep.executeWith evaluates executes fuel level (fun _ _ => failsAt_starve _) a
        rw [executeUnder, execute, onStack_eq]
        apply failsAt_supervised inside _ fails.current
        rintro rfl
        rwa [Site.Fails, execute, onStack_eq] at here

theorem failed_of_marks {α : Type} {x : Stop → Run α} {y : Run α}
    (relates : ∀ mark, FailsAt m mark stop after (x mark) y)
    (stops : ∀ mark, ∃ m', x mark start = .error mark m') :
    ∃ frame, y start = .error stop { after with current := frame } := by
  refine of_marks y (fun mark => ?_) stops
  rcases relates mark start with same | ⟨-, starved⟩ | ⟨frame, -, failed⟩
  · exact .inl same
  · exact .inr (.inl starved)
  · exact .inr (.inr ⟨frame, failed⟩)

theorem executeAll_fails (reaches : Reaches fuel program distances start site m)
    (fails : site.Fails level m stop after) (fed : stop ≠ .outOfFuel) :
    executeAll (execute (fuel + level)) program { start with distances } =
      .error stop { after with current := start.current } := by
  have relates (mark : Stop) : FailsAt m mark stop after
      (executeAll (executeUnder (breakpoint site m mark) fuel) program)
      (executeAll (execute (fuel + level)) program) :=
    (StopApart.lockstep True m after mark stop).executeAll (fails_under fails fed mark fuel).2 program
  obtain ⟨frame, failed⟩ := failed_of_marks relates reaches
  have back : frame = start.current :=
    ((Restores.passage.program (fuel + level) program).of_error failed).current
  rw [failed, back]

/-! ## Runs from source text -/

variable {source : String}

theorem executeAll_genuine (accepted : Accepted program distances) {sink : Sink} {clock : Float}
    (ended : executeAll (execute fuel) program { Machine.initial sink clock with distances } =
      .error stop after)
    (defect : Defect) : stop ≠ .defect defect := by
  rintro rfl
  have interpreted : interpret fuel program distances (.initial sink clock) =
      .error (.defect defect) after := by
    rw [interpret, ended, finish]
  exact genuine_of_interpret accepted interpreted

theorem run_failed (checked : check source = .ok (program, distances)) {sink : Sink} {clock : Float}
    {more : Nat}
    (ended : executeAll (execute fuel) program { Machine.initial sink clock with distances } =
      .error stop after)
    (fed : stop ≠ .outOfFuel) (le : fuel ≤ more) :
    run more source (.initial sink clock) = (.error (.stopped (sink.flush.elim stop .output)), after) := by
  have still : executeAll (execute more) program { Machine.initial sink clock with distances } =
      .error stop after := (executeAll_prolongs le program).eq_of_error ended fed
  have flushes : after.sink.flush = sink.flush :=
    ((sameKind_passage.program more program).of_error still).flush
  apply run_of_error checked
  cases flushed : sink.flush with
  | none => exact interpret_of_error (flushes.trans flushed) still
  | some error =>
      have genuine := executeAll_genuine (accepted_of_check checked) still
      exact interpret_of_lost (flushes.trans flushed) genuine fed still

/--
If the statements fail, or anything that their run gets to, then the run ends there, with any larger amount
of fuel. It reports that failure if the sink can be flushed. If not, it reports that flushing failed.
-/
theorem first_failure_reported (checked : check source = .ok (program, distances)) (sink : Sink) (clock : Float)
    (fuel : Nat) :
    (∀ stop after,
      executeAll (execute fuel) program { Machine.initial sink clock with distances } = .error stop after →
      stop ≠ .outOfFuel → (∀ defect, stop ≠ .defect defect) ∧ ∀ more, fuel ≤ more →
        run more source (.initial sink clock) = (.error (.stopped (sink.flush.elim stop .output)), after)) ∧
    ∀ site m level stop after, Reaches fuel program distances (.initial sink clock) site m →
      site.Fails level m stop after → stop ≠ .outOfFuel → ∀ more, fuel + level ≤ more →
        run more source (.initial sink clock) =
          (.error (.stopped (sink.flush.elim stop .output)), { after with current := Store.globals }) := by
  constructor
  · intro stop after ended fed
    exact ⟨executeAll_genuine (accepted_of_check checked) ended, fun more le => run_failed checked ended fed le⟩
  · intro site m level stop after reaches fails fed more le
    exact run_failed checked (executeAll_fails reaches fails fed) fed le

/-- The call fails, and what follows does not matter. -/
theorem failed_call_reported :
    ∃ program distances after, check "nil(); print nil;" = .ok (program, distances) ∧
      ∀ more, 5 ≤ more → run more "nil(); print nil;" (.initial .unlimited 0) =
        (.error (.stopped (.runtime ⟨.notCallable, 1⟩)), after) := by
  let call : Expr := .call (.literal .nil) ⟨.symbol .rightParen, ")", 1⟩ []
  let program : List Stmt := [.expression call, .print (.literal .nil)]
  have checked : check "nil(); print nil;" = .ok (program, .empty) := by cbv
  let start := Machine.initial .unlimited 0
  have reaches : Reaches 3 program .empty start (.expr call) start := by
    intro stop
    have arrives : evaluateUnder (breakpoint (.expr call) start stop) 2 call start = .error stop start := by
      rw [evaluateUnder, supervised_of_some breakpoint_self]
    have elsewhere : breakpoint (.expr call) start stop (.stmt (.expression call)) start = none :=
      breakpoint_elsewhere fun arrived => Site.noConfusion arrived.1
    have passes : executeUnder (breakpoint (.expr call) start stop) 3 (.expression call) start =
        .error stop start := by
      rw [executeUnder, supervised_of_none elsewhere, executeWith]
      exact bind_of_error arrives
    exact ⟨start, bind_of_error passes⟩
  have fails : Site.Fails 2 (.expr call) start (.runtime ⟨.notCallable, 1⟩) start := rfl
  obtain ⟨-, reported⟩ := first_failure_reported checked .unlimited 0 3
  exact ⟨program, .empty, start, checked, reported _ _ _ _ _ reaches fails Stop.noConfusion⟩

/-- The failure of a call is lost if the sink cannot be flushed. -/
theorem failed_call_lost :
    ∃ program distances after, check "nil();" = .ok (program, distances) ∧
      executeAll (execute 3) program { Machine.initial ⟨.empty, none, true⟩ 0 with distances } =
        .error (.runtime ⟨.notCallable, 1⟩) after ∧
      run 3 "nil();" (.initial ⟨.empty, none, true⟩ 0) = (.error (.stopped (.output .flushFailed)), after) := by
  let program : List Stmt := [.expression (.call (.literal .nil) ⟨.symbol .rightParen, ")", 1⟩ [])]
  have checked : check "nil();" = .ok (program, .empty) := by cbv
  exact ⟨program, .empty, _, checked, rfl, run_of_error checked rfl⟩

end Lox
