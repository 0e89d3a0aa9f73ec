import Mathlib
import Lox.Proofs.Lexical.Simulation

/-!
# Scoping is lexical

A checked program means the same whether names are found over frames by distance or at the locations
that were in force where they are written (`interpret_eq_lexical`).
-/

namespace Lox
open Simulation

def observe {σ : Type} (sink : σ → Sink) : EStateM.Result Stop σ Unit → Except Stop Unit × Sink
  | .ok () m => (.ok (), sink m)
  | .error stop m => (.error stop, sink m)

theorem observe_finish {S : Setting} {touched : Option FrameId} {W : World} {frame : FrameId}
    {result : EStateM.Result Stop Machine Flow}
    {result' : EStateM.Result Stop Lexical.Machine Lexical.Flow} (unwatched : S.watch = silent)
    (outcome : Outcome S touched W frame (RelatedFlow S.program .topLevel) result result') :
    observe Machine.sink (finish Machine.sink result) =
      observe Lexical.Machine.sink (finish Lexical.Machine.sink result') := by
  cases outcome with
  | done _ agree _ related =>
      have sink := agree.sink
      cases related with
      | normal =>
          simp only [finish, sink]
          split <;> simp [observe, sink]
      | returned =>
          simp only [finish, sink]
          split <;> simp [observe, sink]
  | @stopped stop m r _ sink =>
      cases stop with
      | runtime error | output error =>
          simp only [finish, sink]
          split <;> simp [observe, sink]
      | defect | outOfFuel => simp [finish, observe, sink]
  | watched fired =>
      rw [unwatched] at fired
      cases fired

/--
For any amount of fuel, a checked program over frames with the distances that the check has found
ends as it does over locations, and leaves the same output.
-/
theorem interpret_eq_lexical {source : String} {program : List Stmt} {distances : Distances}
    (checked : check source = .ok (program, distances)) (fuel : Nat) (sink : Sink) (clock : Float) :
    observe Machine.sink (interpret fuel program distances (.initial sink clock)) =
      observe Lexical.Machine.sink (Lexical.interpret fuel program (.initial sink clock)) :=
  observe_finish rfl (silent_outcome (accepted_of_check checked) fuel sink clock)

/-- A function goes on to use the variable that was in force where it was declared. -/
theorem interpret_eq_lexical_of_capture :
    ∃ program distances,
      check "var a = \"global\"; \x7b fun f() \x7b print a; \x7d var a = \"local\"; f(); \x7d" =
        .ok (program, distances) ∧
      observe Machine.sink (interpret 10 program distances (.initial .unlimited 0)) =
        observe Lexical.Machine.sink (Lexical.interpret 10 program (.initial .unlimited 0)) ∧
      (observe Lexical.Machine.sink (Lexical.interpret 10 program (.initial .unlimited 0))).2.held =
        "global\n".toUTF8 := by
  let name (text : String) : Token := ⟨.identifier, text, 1⟩
  let program : List Stmt := [.varDecl (name "a") (some (.literal (.string "global"))),
    .block [.funDecl ⟨name "f", [], [.print (.read ⟨0, name "a"⟩)]⟩,
      .varDecl (name "a") (some (.literal (.string "local"))),
      .expression (.call (.read ⟨1, name "f"⟩) ⟨.symbol .rightParen, ")", 1⟩ [])]]
  have checked : check "var a = \"global\"; \x7b fun f() \x7b print a; \x7d var a = \"local\"; f(); \x7d" =
      .ok (program, Bindings.empty.insert 1 0) := by cbv
  exact ⟨program, _, checked, interpret_eq_lexical checked 10 .unlimited 0, rfl⟩

end Lox
