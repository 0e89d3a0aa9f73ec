import Lox.Evaluation

/-!
# Runs under supervision

A run under supervision is a run of the program that shows each expression and statement to a watch
before it evaluates or executes it, together with the machine, and that stops there if the watch
says so. Under a watch that never says so it is the run of the program (`executeUnder_silent`). A
run reaches a site with a machine if a breakpoint for just this site and machine stops it
(`Reaches`).
-/

namespace Lox
open Run

/-- What a run is about to evaluate or to execute. -/
inductive Site where
  | expr (e : Expr)
  | stmt (a : Stmt)

abbrev Watch := Site → Machine → Option Stop

def supervised {α : Type} (watch : Watch) (site : Site) (action : Run α) : Run α := fun m =>
  match watch site m with
  | some stop => .error stop m
  | none => action m

section Supervised

variable {α : Type} {watch : Watch} {site : Site} {action : Run α} {m : Machine}

theorem supervised_of_some {stop : Stop} (said : watch site m = some stop) :
    supervised watch site action m = .error stop m := by
  rw [supervised, said]

theorem supervised_of_none (quiet : watch site m = none) : supervised watch site action m = action m := by
  rw [supervised, quiet]

end Supervised

mutual

def evaluateUnder (watch : Watch) : Nat → Expr → Run Value
  | 0, _ => starve
  | fuel + 1, expression =>
    supervised watch (.expr expression)
      (evaluateWith (evaluateUnder watch fuel) (executeUnder watch fuel) expression)

def executeUnder (watch : Watch) : Nat → Stmt → Run Flow
  | 0, _ => starve
  | fuel + 1, statement =>
    supervised watch (.stmt statement)
      (executeWith fuel (evaluateUnder watch fuel) (executeUnder watch fuel) statement)

end

def silent : Watch := fun _ _ => none

theorem under_silent (fuel : Nat) :
    evaluateUnder silent fuel = evaluate fuel ∧ executeUnder silent fuel = execute fuel := by
  induction fuel with
  | zero => exact ⟨by funext e; rw [evaluateUnder, evaluate], by funext a; rw [executeUnder, execute]⟩
  | succ fuel ih =>
      refine ⟨?_, ?_⟩
      · funext e
        rw [evaluateUnder, evaluate, onStack_eq, ih.1, ih.2]
        rfl
      · funext a
        rw [executeUnder, execute, onStack_eq, ih.1, ih.2]
        rfl

theorem executeUnder_silent (fuel : Nat) : executeUnder silent fuel = execute fuel :=
    (under_silent fuel).2

theorem Stop.exists_ne (stop : Stop) : ∃ other : Stop, other ≠ stop := by
  by_cases starved : stop = .outOfFuel
  · exact ⟨.defect .escapedReturn, starved ▸ Stop.noConfusion⟩
  · exact ⟨.outOfFuel, Ne.symm starved⟩

open Classical in
noncomputable def breakpoint (site : Site) (m : Machine) (stop : Stop) : Watch := fun site' m' =>
  if site' = site ∧ m' = m then some stop else none

theorem breakpoint_eq_some {site site' : Site} {m m' : Machine} {stop stop' : Stop}
    (fired : breakpoint site m stop site' m' = some stop') : site' = site ∧ m' = m := by
  unfold breakpoint at fired
  split at fired
  · rename_i same
    exact same
  · cases fired

theorem stop_of_breakpoint {site site' : Site} {m m' : Machine} {stop stop' : Stop}
    (fired : breakpoint site m stop site' m' = some stop') : stop' = stop := by
  unfold breakpoint at fired
  split at fired
  · exact (Option.some.inj fired).symm
  · cases fired

theorem breakpoint_self {site : Site} {m : Machine} {stop : Stop} : breakpoint site m stop site m = some stop :=
  if_pos ⟨rfl, rfl⟩

theorem breakpoint_elsewhere {site site' : Site} {m m' : Machine} {stop : Stop} (away : ¬(site' = site ∧ m' = m)) :
    breakpoint site m stop site' m' = none :=
  if_neg away

/--
The run of a program from a start gets to a site with a machine, where any breakpoint stops it.
-/
def Reaches (fuel : Nat) (program : List Stmt) (distances : Distances) (start : Machine)
    (site : Site) (m : Machine) :
    Prop :=
  ∀ stop, ∃ m', executeAll
    (executeUnder (breakpoint site m stop) fuel) program { start with distances } = .error stop m'

end Lox
