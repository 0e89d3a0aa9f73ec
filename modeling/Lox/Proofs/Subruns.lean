import Lox.Proofs.Breakpoints
import Lox.Proofs.Watches

/-!
# Runs inside of runs

A run that gets to a site goes on as the site does on its own. So whatever the site gets to, with any
amount of fuel, the run gets to as well, with that much more of it (`Reaches.trans`).
-/

namespace Lox
open Run

namespace Site

/-- The watch stops the site on this machine. -/
def Stops (watch : Watch) (level : Nat) (m : Machine) (stop : Stop) : Site → Prop
  | expr e => ∃ m', evaluateUnder watch level e m = .error stop m'
  | stmt a => ∃ m', executeUnder watch level a m = .error stop m'

/-- On its own the site gets from a machine to a target, where any breakpoint stops it. -/
def Reaches (level : Nat) (site : Site) (m : Machine) (target : Site) (there : Machine) : Prop :=
  ∀ stop, site.Stops (breakpoint target there stop) level m stop

end Site

/-- The actions do the same, or the first one is out of fuel, or the second one is stopped. -/
def Caught (stop : Stop) ⦃α : Type⦄ (x y : Run α) : Prop :=
  ∀ start, x start = y start ∨ (∃ m', x start = .error .outOfFuel m') ∨ ∃ m', y start = .error stop m'

namespace Caught

variable {stop : Stop} {α β : Type}

theorem bind {x y : Run α} {f g : α → Run β} (first : Caught stop x y) (rest : ∀ a, Caught stop (f a) (g a)) :
    Caught stop (x >>= f) (y >>= g) := by
  intro start
  rcases first start with same | ⟨m', starved⟩ | ⟨m', stopped⟩
  · cases ended : y start with
    | ok a after =>
        rw [bind_of ended, bind_of (same.trans ended)]
        exact rest a after
    | error other after =>
        rw [bind_of_error ended, bind_of_error (same.trans ended)]
        exact .inl rfl
  · exact .inr (.inl ⟨m', bind_of_error starved⟩)
  · exact .inr (.inr ⟨m', bind_of_error stopped⟩)

theorem within (frame : FrameId) {x y : Run α} (inside : Caught stop x y) :
    Caught stop (Run.within frame x) (Run.within frame y) := by
  intro start
  rcases inside { start with current := frame } with same | ⟨m', starved⟩ | ⟨m', stopped⟩
  · exact .inl (within_of_eq same)
  · exact .inr (.inl ⟨_, within_of_error starved⟩)
  · exact .inr (.inr ⟨_, within_of_error stopped⟩)

theorem lockstep (stop : Stop) : Lockstep (Caught stop) where
  stop _ _ := .inl rfl
  look _ _ := .inl rfl
  bind := bind
  within := within
  newFrame _ _ := .inl rfl
  define _ _ _ _ := .inl rfl
  newIdentity _ := .inl rfl
  newInstance _ _ := .inl rfl
  setField _ _ _ _ := .inl rfl
  emit _ _ := .inl rfl

theorem starve (y : Run α) : Caught stop Run.starve y := fun start => .inr (.inl ⟨start, rfl⟩)

theorem supervised (watch : Watch) (site : Site) {x y : Run α} (same : Caught stop x y) :
    Caught stop (supervised watch site x) (supervised watch site y) := by
  intro start
  cases said : watch site start with
  | some other =>
      rw [supervised_of_some said, supervised_of_some said]
      exact .inl rfl
  | none =>
      rw [supervised_of_none said, supervised_of_none said]
      exact same start

theorem of_error {x y : Run α} {start m' : Machine} (caught : Caught stop x y) (fed : stop ≠ .outOfFuel)
    (stopped : x start = .error stop m') : ∃ m', y start = .error stop m' := by
  rcases caught start with same | ⟨m₁, starved⟩ | stopped'
  · exact ⟨m', same.symm.trans stopped⟩
  · cases starved.symm.trans stopped
    exact (fed rfl).elim
  · exact stopped'

end Caught

/-! ## More fuel under a watch -/

variable {watch : Watch} {stop : Stop} {fuel level : Nat} {site target : Site} {m there start : Machine}

theorem caught_more (watch : Watch) (stop : Stop) (level fuel : Nat) :
    (∀ e, Caught stop (evaluateUnder watch fuel e) (evaluateUnder watch (fuel + level) e)) ∧
      ∀ a, Caught stop (executeUnder watch fuel a) (executeUnder watch (fuel + level) a) := by
  induction fuel with
  | zero => exact ⟨fun _ => .starve _, fun _ => .starve _⟩
  | succ fuel ih =>
      obtain ⟨evaluates, executes⟩ := ih
      rw [Nat.succ_add]
      constructor
      · intro e
        exact .supervised watch (.expr e) ((Caught.lockstep stop).evaluateWith evaluates executes e)
      · intro a
        apply Caught.supervised watch (.stmt a)
        exact (Caught.lockstep stop).executeWith evaluates executes fuel level (fun _ _ => .starve _) a

theorem Site.Stops.more (stops : site.Stops watch level m stop) (fed : stop ≠ .outOfFuel) (fuel : Nat) :
    site.Stops watch (fuel + level) m stop := by
  rw [Nat.add_comm]
  cases site with
  | expr e =>
      obtain ⟨m', stopped⟩ := stops
      exact ((caught_more watch stop fuel level).1 e).of_error fed stopped
  | stmt a =>
      obtain ⟨m', stopped⟩ := stops
      exact ((caught_more watch stop fuel level).2 a).of_error fed stopped

/-! ## Behind a breakpoint -/

theorem caught_at_breakpoint {here : Site} {mark : Stop} {α : Type} {x y : Run α} (same : Caught stop x y)
    (behind : here = site → ∃ m', supervised watch here y m = .error stop m')
    (only : ∀ site m other, watch site m = some other → other = stop) :
    Caught stop (supervised (breakpoint site m mark) here x) (supervised watch here y) := by
  intro start
  by_cases arrived : here = site ∧ start = m
  · obtain ⟨rfl, rfl⟩ := arrived
    exact .inr (.inr (behind rfl))
  · rw [supervised_of_none (breakpoint_elsewhere arrived)]
    cases said : watch here start with
    | some other =>
        rw [supervised_of_some said, only here start other said]
        exact .inr (.inr ⟨start, rfl⟩)
    | none =>
        rw [supervised_of_none said]
        exact same start

theorem caught_behind (stops : site.Stops watch level m stop) (fed : stop ≠ .outOfFuel)
    (only : ∀ site m other, watch site m = some other → other = stop) (mark : Stop) (fuel : Nat) :
    (∀ e, Caught stop (evaluateUnder (breakpoint site m mark) fuel e) (evaluateUnder watch (fuel + level) e)) ∧
      ∀ a, Caught stop (executeUnder (breakpoint site m mark) fuel a) (executeUnder watch (fuel + level) a) := by
  induction fuel with
  | zero => exact ⟨fun _ => .starve _, fun _ => .starve _⟩
  | succ fuel ih =>
      obtain ⟨evaluates, executes⟩ := ih
      have behind := stops.more fed (fuel + 1)
      rw [Nat.succ_add] at behind ⊢
      constructor
      · intro e
        refine caught_at_breakpoint ((Caught.lockstep stop).evaluateWith evaluates executes e) ?_ only
        rintro rfl
        exact behind
      · intro a
        refine caught_at_breakpoint ((Caught.lockstep stop).executeWith evaluates executes fuel level
          (fun _ _ => .starve _) a) ?_ only
        rintro rfl
        exact behind

/-! ## Calls -/

/-- Where a breakpoint stops what follows an action, it stops the sequence, if not earlier. -/
theorem Watched.stops_after {α β : Type} {x : Watch → Run α} {f : α → Run β} {a : α} {m' : Machine}
    (watched : Watched x) (ended : x silent m = .ok a m')
    (stops : ∃ m₁, f a m' = .error stop m₁) :
    ∃ m₁, (x (breakpoint target there stop) >>= f) m = .error stop m₁ := by
  rcases watched (breakpoint target there stop) m with same | ⟨site, m₁, speaks, stops'⟩
  · rw [bind_of ((same silent fun _ _ _ => rfl).symm.trans ended)]
    exact stops
  · obtain ⟨stop', said⟩ := Option.ne_none_iff_exists'.mp speaks
    obtain ⟨m₂, stopped⟩ := stops' _ stop' (fun _ _ => id) said
    rw [stop_of_breakpoint said] at stopped
    exact ⟨m₂, bind_of_error stopped⟩

theorem reaches_of_parts {e : Expr}
    (stops : ∀ stop, ∃ m', evaluateWith (evaluateUnder (breakpoint target there stop) level)
      (executeUnder (breakpoint target there stop) level) e m = .error stop m') :
    (Site.expr e).Reaches (level + 1) m target there := by
  intro stop
  rw [Site.Stops, evaluateUnder]
  cases said : breakpoint target there stop (.expr e) m with
  | some other =>
      rw [supervised_of_some said, stop_of_breakpoint said]
      exact ⟨m, rfl⟩
  | none =>
      rw [supervised_of_none said]
      exact stops stop

section Called

variable {callee : Expr} {paren : Token} {arguments : List Expr} {value : Value} {values : List Value}
  {m₁ m₂ : Machine}

theorem reaches_of_callee (reaches : (Site.expr callee).Reaches level m target there) :
    (Site.expr (.call callee paren arguments)).Reaches (level + 1) m target there := by
  apply reaches_of_parts
  intro stop
  obtain ⟨m', stopped⟩ := reaches stop
  exact ⟨m', bind_of_error stopped⟩

theorem reaches_of_arguments (called : evaluate level callee m = .ok value m₁)
    (stops : ∀ stop, ∃ m',
      evaluateAll (evaluateUnder (breakpoint target there stop) level) arguments m₁ = .error stop m') :
    (Site.expr (.call callee paren arguments)).Reaches (level + 1) m target there := by
  apply reaches_of_parts
  intro stop
  rw [← (under_silent level).1] at called
  obtain ⟨m', stopped⟩ := stops stop
  exact ((Watched.under level).1 callee).stops_after called ⟨m', bind_of_error stopped⟩

theorem reaches_of_call (called : evaluate level callee m = .ok value m₁)
    (given : evaluateAll (evaluate level) arguments m₁ = .ok values m₂)
    (stops : ∀ stop, ∃ m',
      callChecked (executeUnder (breakpoint target there stop) level) value paren values m₂ = .error stop m') :
    (Site.expr (.call callee paren arguments)).Reaches (level + 1) m target there := by
  apply reaches_of_parts
  intro stop
  rw [← (under_silent level).1] at called given
  have watched := (Watched.under level).1
  exact (watched callee).stops_after called
    ((Watched.evaluateAll watched arguments).stops_after given (stops stop))

end Called

/-! ## Programs -/

variable {program : List Stmt} {distances : Distances}

theorem Reaches.trans (reaches : Reaches fuel program distances start site m)
    (goesOn : site.Reaches level m target there) :
    Reaches (fuel + level) program distances start target there := by
  have stopped (stop : Stop) (fed : stop ≠ .outOfFuel) : ∃ m',
      executeAll (executeUnder (breakpoint target there stop) (fuel + level)) program { start with distances } =
        .error stop m' := by
    have caught (mark : Stop) := (Caught.lockstep stop).executeAll
      (caught_behind (goesOn stop) fed (fun _ _ _ => stop_of_breakpoint) mark fuel).2 program
    exact of_marks _ (fun mark => caught mark { start with distances }) reaches
  obtain ⟨m₁, ended⟩ := stopped (.defect .escapedReturn) Stop.noConfusion
  obtain ⟨m₂, ended'⟩ := stopped (.output .flushFailed) Stop.noConfusion
  exact reaches_of_differing Stop.noConfusion ended ended'

end Lox
