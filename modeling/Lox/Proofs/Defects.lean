import Lox.Proofs.Lexical.Simulation

/-!
# Checked programs run into no defect

What only unchecked programs can run into, `super` without a method around it and `return` without a
function, does not happen in a run from source text (`run_without_defect`).
-/

namespace Lox
open Simulation

/--
At a `super`, its distance leads to a class, and one link less to the instance of the running
method.
-/
theorem inherited_of_placed {program : List Stmt} {distances : Distances}
    (accepted : Accepted program distances) {keyword : Reference} {method : Token} {m : Machine}
    (placed : Setting.Placed ⟨program, distances, silent⟩ (.expr (.inherited keyword method)) m) :
    ∃ inner parent i, m.distances.find? keyword.id = some (inner + 1) ∧
      m.store.getAt? m.current (inner + 1) "super" = some (.ofClass parent) ∧
      m.store.getAt? m.current inner "this" = some (.ofInstance i) := by
  obtain ⟨W, c, s, finals, names, r, visit, agree, chain⟩ := placed
  obtain ⟨-, inner, entry, this, super⟩ := Visit.inherited_inv accepted visit
  have tidy := visit.tidy accepted
  obtain ⟨v, w, classHere, -, -, typed⟩ := local_related agree chain super tidy.super
  obtain ⟨v', w', instanceHere, -, -, typed'⟩ := local_related agree chain this tidy.this
  obtain ⟨parent, rfl⟩ := typed.2 rfl
  obtain ⟨i, rfl⟩ := typed'.1 rfl
  exact ⟨inner, parent, i, agree.distances ▸ entry, classHere, instanceHere⟩

theorem not_returned (program : List Stmt) {distances : Distances}
    (accepted : Accepted program distances) (fuel : Nat) (sink : Sink) (clock : Float)
    (value : Value) (m : Machine) :
    executeAll (execute fuel) program { Machine.initial sink clock with distances } ≠
      .ok (.returned value) m := by
  intro returned
  have outcome := silent_outcome accepted fuel sink clock
  rw [returned] at outcome
  generalize Lexical.executeAll _ _ program _ = result at outcome
  cases outcome with
  | done _ _ _ related =>
      cases related with
      | returned inFunction => exact inFunction rfl

/--
The run of a source comes to no defect, because it never gets to a place where there could be one.
-/
theorem run_without_defect (fuel : Nat) (source : String) (sink : Sink) (clock : Float) :
    (∀ defect, (run fuel source (.initial sink clock)).1 ≠ .error (.stopped (.defect defect))) ∧
      ∀ program distances, check source = .ok (program, distances) →
        (∀ value m, executeAll (execute fuel) program { Machine.initial sink clock with distances } ≠
          .ok (.returned value) m) ∧
        ∀ keyword method m,
          Reaches fuel program distances (.initial sink clock) (.expr (.inherited keyword method)) m →
          ∃ inner parent i, m.distances.find? keyword.id = some (inner + 1) ∧
            m.store.getAt? m.current (inner + 1) "super" = some (.ofClass parent) ∧
            m.store.getAt? m.current inner "this" = some (.ofInstance i) := by
  refine ⟨fun defect ended => ?_, fun program distances checked => ?_⟩
  · rw [run] at ended
    cases checked : check source with
    | error errors =>
        rw [checked] at ended
        cases ended
    | ok accepted =>
        obtain ⟨program, distances⟩ := accepted
        rw [checked] at ended
        cases result : interpret fuel program distances (.initial sink clock) with
        | ok _ m =>
            simp only [result] at ended
            cases ended
        | error stop m =>
            simp only [result, Except.error.injEq, Failure.stopped.injEq] at ended
            rw [ended] at result
            exact genuine_of_interpret (accepted_of_check checked) result
  · have accepted := accepted_of_check checked
    exact ⟨not_returned program accepted fuel sink clock, fun keyword method m reached =>
      inherited_of_placed accepted (placed_of_reaches accepted reached)⟩

end Lox
