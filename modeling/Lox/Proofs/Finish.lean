import Lox.Proofs.CurrentFrame
import Lox.Program

/-!
# How runs end

The end of a run from source text by the end of its statements and by whether flushing the sink
succeeds.
-/

namespace Lox

variable {m after : Machine} {fuel : Nat} {source : String} {program : List Stmt} {distances : Distances}
  {stop : Stop}

theorem interpret_of_normal (flushed : after.sink.flush = none)
    (ended : executeAll (execute fuel) program { m with distances } = .ok .normal after) :
    interpret fuel program distances m = .ok () after := by
  rw [interpret, ended]
  simp only [finish, flushed]

theorem interpret_of_returned {value : Value} (flushed : after.sink.flush = none)
    (ended : executeAll (execute fuel) program { m with distances } = .ok (.returned value) after) :
    interpret fuel program distances m = .error (.defect .escapedReturn) after := by
  rw [interpret, ended]
  simp only [finish, flushed]

theorem interpret_of_error (flushed : after.sink.flush = none)
    (ended : executeAll (execute fuel) program { m with distances } = .error stop after) :
    interpret fuel program distances m = .error stop after := by
  rw [interpret, ended]
  cases stop <;> simp only [finish, flushed]

/-- If flushing fails, nothing is left of the error before it. -/
theorem interpret_of_lost {error : OutputError} (failed : after.sink.flush = some error)
    (genuine : ∀ defect, stop ≠ .defect defect) (fed : stop ≠ .outOfFuel)
    (ended : executeAll (execute fuel) program { m with distances } = .error stop after) :
    interpret fuel program distances m = .error (.output error) after := by
  rw [interpret, ended]
  cases stop with
  | runtime _ => simp only [finish, failed]
  | output _ => simp only [finish, failed]
  | defect defect => exact (genuine defect rfl).elim
  | outOfFuel => exact (fed rfl).elim

/-! ## Runs from source text -/

theorem run_of_ok (checked : check source = .ok (program, distances))
    (ended : interpret fuel program distances m = .ok () after) : run fuel source m = (.ok (), after) := by
  rw [run, checked]
  simp only [ended]

theorem run_of_error (checked : check source = .ok (program, distances))
    (ended : interpret fuel program distances m = .error stop after) :
    run fuel source m = (.error (.stopped stop), after) := by
  rw [run, checked]
  simp only [ended]

theorem run_leaves (checked : check source = .ok (program, distances)) :
    (run fuel source m).2 = leaves (interpret fuel program distances) m := by
  rw [leaves]
  cases ended : interpret fuel program distances m with
  | ok _ after => rw [run_of_ok checked ended]
  | error stop after => rw [run_of_error checked ended]

end Lox
