import Mathlib
import Lox.Proofs.CurrentFrame
import Lox.Proofs.Lockstep
import Lox.Proofs.Output

/-!
# More fuel

With more fuel a run that has ended ends in the same way, and one that was out of fuel goes on: it has
then written at least what it had written before (`interpret_prolongs`).
-/

namespace Lox
open Run

/-- The second action does what the first one does, unless that runs out of fuel. Then it goes on. -/
structure Prolongs {α : Type} (x y : Run α) : Prop where
  extends' : Respects Extends y
  same (m : Machine) : y m = x m ∨ ∃ m₁, x m = .error .outOfFuel m₁ ∧ Extends m₁ (leaves y m)

namespace Prolongs

variable {α β : Type}

theorem of_respects {x : Run α} (respects : Respects Extends x) : Prolongs x x :=
  ⟨respects, fun _ => .inl rfl⟩

theorem starve {y : Run α} (respects : Respects Extends y) : Prolongs Run.starve y :=
  ⟨respects, fun m => .inr ⟨m, rfl, respects m⟩⟩

theorem bind {x y : Run α} {f g : α → Run β} (first : Prolongs x y) (rest : ∀ a, Prolongs (f a) (g a)) :
    Prolongs (x >>= f) (y >>= g) := by
  refine ⟨extends_passage.bind first.extends' fun a => (rest a).extends', fun m => ?_⟩
  rcases first.same m with same | ⟨m₁, starved, more⟩
  · cases ended : x m with
    | ok a m' =>
        rw [ended] at same
        rw [bind_of ended, bind_of same]
        rcases (rest a).same m' with same' | ⟨m₁, starved, more⟩
        · exact .inl same'
        · refine .inr ⟨m₁, starved, ?_⟩
          rwa [leaves, bind_of same]
    | error stop m' =>
        rw [ended] at same
        rw [bind_of_error ended, bind_of_error same]
        exact .inl rfl
  · exact .inr ⟨m₁, bind_of_error starved, more.trans (extends_passage.after (fun a => (rest a).extends') m)⟩

theorem within {frame : FrameId} {x y : Run α} (inside : Prolongs x y) :
    Prolongs (Run.within frame x) (Run.within frame y) := by
  refine ⟨extends_passage.inside frame inside.extends', fun m => ?_⟩
  rcases inside.same { m with current := frame } with same | ⟨m₁, starved, more⟩
  · exact .inl (within_of_eq same)
  · refine .inr ⟨{ m₁ with current := m.current }, within_of_error starved, ?_⟩
    rw [leaves_within]
    exact more

theorem lockstep : Lockstep @Prolongs where
  stop _ := of_respects (extends_passage.unchanged fun _ => rfl)
  look _ := of_respects (extends_passage.unchanged fun _ => rfl)
  bind := bind
  within _ := within
  newFrame enclosing := of_respects (extends_passage.newFrame enclosing)
  define frame name value := of_respects (extends_passage.define frame name value)
  newIdentity := of_respects extends_passage.newIdentity
  newInstance type := of_respects (extends_passage.newInstance type)
  setField i name value := of_respects (extends_passage.setField i name value)
  emit text := of_respects (extends_passage.emit text)

section Ends

variable {x y : Run α} {m after : Machine} (prolongs : Prolongs x y)

include prolongs

theorem eq_of_ok {a : α} (ended : x m = .ok a after) : y m = .ok a after := by
  rcases prolongs.same m with same | ⟨m₁, starved, -⟩
  · exact same.trans ended
  · cases ended.symm.trans starved

theorem eq_of_error {stop : Stop} (ended : x m = .error stop after) (fed : stop ≠ .outOfFuel) :
    y m = .error stop after := by
  rcases prolongs.same m with same | ⟨m₁, starved, -⟩
  · exact same.trans ended
  · cases ended.symm.trans starved
    exact (fed rfl).elim

end Ends

end Prolongs

theorem prolongs (fuel extra : Nat) :
    (∀ e, Prolongs (evaluate fuel e) (evaluate (fuel + extra) e)) ∧
      ∀ a, Prolongs (execute fuel a) (execute (fuel + extra) a) := by
  have evaluates := extends_passage.evaluate
  have executes := extends_passage.execute
  induction fuel with
  | zero =>
      constructor
      · intro e
        rw [evaluate]
        exact .starve (evaluates _ e)
      · intro a
        rw [execute]
        exact .starve (executes _ a)
  | succ fuel ih =>
      rw [Nat.succ_add]
      constructor
      · intro e
        rw [evaluate, evaluate, onStack_eq, onStack_eq]
        exact Prolongs.lockstep.evaluateWith ih.1 ih.2 e
      · intro a
        rw [execute, execute, onStack_eq, onStack_eq]
        apply Prolongs.lockstep.executeWith ih.1 ih.2 fuel extra
        intro condition body
        exact .starve (extends_passage.repeatWhile (evaluates _ condition) (executes _ body) extra)

/-! ## Runs that end -/

variable {fuel more : Nat} {m : Machine}

theorem evaluate_prolongs (le : fuel ≤ more) (e : Expr) : Prolongs (evaluate fuel e) (evaluate more e) := by
  obtain ⟨extra, rfl⟩ := Nat.exists_eq_add_of_le le
  exact (prolongs fuel extra).1 e

theorem execute_prolongs (le : fuel ≤ more) (a : Stmt) : Prolongs (execute fuel a) (execute more a) := by
  obtain ⟨extra, rfl⟩ := Nat.exists_eq_add_of_le le
  exact (prolongs fuel extra).2 a

theorem executeAll_prolongs (le : fuel ≤ more) (body : List Stmt) :
    Prolongs (executeAll (execute fuel) body) (executeAll (execute more) body) :=
  Prolongs.lockstep.executeAll (execute_prolongs le) body

theorem evaluate_more {e : Expr} (ended : ∀ m', evaluate fuel e m ≠ .error .outOfFuel m') (le : fuel ≤ more) :
    evaluate more e m = evaluate fuel e m := by
  rcases (evaluate_prolongs le e).same m with same | ⟨m₁, starved, -⟩
  · exact same
  · exact (ended m₁ starved).elim

theorem evaluate_unique {e : Expr} (ended : ∀ m', evaluate fuel e m ≠ .error .outOfFuel m')
    (ended' : ∀ m', evaluate more e m ≠ .error .outOfFuel m') : evaluate fuel e m = evaluate more e m := by
  rcases Nat.le_total fuel more with le | le
  · exact (evaluate_more ended le).symm
  · exact evaluate_more ended' le

theorem interpret_prolongs {program : List Stmt} {distances : Distances} (le : fuel ≤ more) :
    interpret more program distances m = interpret fuel program distances m ∨
      ∃ m₁, interpret fuel program distances m = .error .outOfFuel m₁ ∧
        Extends m₁ (leaves (interpret more program distances) m) := by
  rcases (executeAll_prolongs le program).same { m with distances } with same | ⟨m₁, starved, goesOn⟩
  · rw [interpret, interpret, same]
    exact .inl rfl
  · refine .inr ⟨m₁, ?_, ?_⟩
    · rw [interpret, starved, finish]
    · rwa [leaves_interpret]

end Lox
