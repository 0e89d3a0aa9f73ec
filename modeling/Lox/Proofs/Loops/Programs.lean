import Mathlib
import Lox.Proofs.LexicalScoping
import Lox.Proofs.Loops.Direct

/-!
# Programs with loops

A reading says which statements of a program are loops with clauses. Under any reading a program means what
it means with the trees in place of the loops (`loop_trees_mean_loops`).
-/

namespace Lox
open Simulation

namespace Lexical
open Run

theorem continued_finish {x y : Run Flow} (more : Continued x y) :
    Continued (fun m => finish Machine.sink (x m)) (fun m => finish Machine.sink (y m)) := by
  intro m
  rcases more m with same | ⟨m', starved⟩
  · exact .inl (congrArg (finish Machine.sink) same)
  · exact .inr ⟨m', congrArg (finish Machine.sink) starved⟩

/-- Which statements are read as loops with clauses. One tree may have several readings. -/
structure Reading where
  loop? : Stmt → Option Loop
  tree_of_loop? : ∀ {a : Stmt} {loop : Loop}, loop? a = some loop → loop.tree = a

namespace Reading

variable (reading : Reading)

mutual

def evaluate : Nat → Names → Expr → Run Value
  | 0, _, _ => starve
  | fuel + 1, names, expression => evaluateWith (evaluate fuel) (execute fuel) names expression

def execute : Nat → Place → Stmt → Run (Place × Flow)
  | 0, _, _ => starve
  | fuel + 1, place, statement =>
    match reading.loop? statement with
    | some loop => loop.run (evaluate fuel) (execute fuel) fuel place
    | none => executeWith fuel (evaluate fuel) (execute fuel) place statement

end

def interpret (fuel : Nat) (program : List Stmt) : Run Unit := fun m =>
  finish Machine.sink (executeAll (reading.execute fuel) .topLevel program m)

theorem unfolds (fuel : Nat) :
    (∀ names e, Continued (Lexical.evaluate fuel names e) (reading.evaluate fuel names e)) ∧
      ∀ place a, Continued (Lexical.execute fuel place a) (reading.execute fuel place a) := by
  induction fuel with
  | zero => exact ⟨fun _ _ => .starve _, fun _ _ => .starve _⟩
  | succ fuel ih =>
      obtain ⟨evaluates, executes⟩ := ih
      refine ⟨.evaluateWith evaluates executes, fun place a => ?_⟩
      rw [Reading.execute]
      cases read : reading.loop? a with
      | none => exact .executeWith (Nat.le_refl _) evaluates executes place a
      | some loop =>
          rw [← reading.tree_of_loop? read]
          refine .trans (Loop.unfold_tree fuel place) ?_
          exact loop.run_continued (Nat.le_refl _) evaluates executes place

theorem folds (fuel : Nat) :
    (∀ names e, Continued (reading.evaluate fuel names e) (Lexical.evaluate (4 * fuel) names e)) ∧
      ∀ place a, Continued (reading.execute fuel place a) (Lexical.execute (4 * fuel) place a) := by
  induction fuel with
  | zero => exact ⟨fun _ _ => .starve _, fun _ _ => .starve _⟩
  | succ fuel ih =>
      obtain ⟨evaluates, executes⟩ := ih
      have le : fuel ≤ 4 * fuel := by omega
      have more := continued (show 4 * fuel + 1 ≤ 4 * (fuel + 1) by omega)
      constructor
      · intro names e
        exact .trans (.evaluateWith evaluates executes names e) (more.1 names e)
      · intro place a
        rw [Reading.execute]
        cases read : reading.loop? a with
        | none => exact .trans (.executeWith le evaluates executes place a) (more.2 place a)
        | some loop =>
            rw [← reading.tree_of_loop? read]
            exact .trans (loop.run_continued le evaluates executes place) (Loop.fold_tree (4 * fuel) place)

open Classical in
noncomputable def of (loops : List Loop) : Reading where
  loop? a := loops.find? fun loop => loop.tree = a
  tree_of_loop? found := by simpa using List.find?_some found

theorem interpret_unfolds (fuel : Nat) (program : List Stmt) :
    Continued (Lexical.interpret fuel program) (reading.interpret fuel program) :=
  continued_finish (.executeAll (reading.unfolds fuel).2 program .topLevel)

theorem interpret_folds (fuel : Nat) (program : List Stmt) :
    Continued (reading.interpret fuel program) (Lexical.interpret (4 * fuel) program) :=
  continued_finish (.executeAll (reading.folds fuel).2 program .topLevel)

end Reading

end Lexical

/-! ## Runs over frames and by readings -/

/--
Both runs stop for the same reason, and have then written the same output; or both end well, in machines that
agree on all that they hold.
-/
inductive Alike (program : List Stmt) (distances : Distances) :
    EStateM.Result Stop Machine Unit → EStateM.Result Stop Lexical.Machine Unit → Prop where
  | done {W : World} {m : Machine} {r : Lexical.Machine} :
      Agree program distances W m r → Alike program distances (.ok () m) (.ok () r)
  | stopped {stop : Stop} {m : Machine} {r : Lexical.Machine} :
      r.sink = m.sink → Alike program distances (.error stop m) (.error stop r)

theorem fed_of_observe {σ : Type} {sink : σ → Sink} {result : EStateM.Result Stop σ Unit}
    (normal : (observe sink result).1.isOk = true) (m : σ) : result ≠ .error .outOfFuel m := by
  rintro rfl
  cases normal

section Alike

variable {program : List Stmt} {distances : Distances}

theorem Alike.ended {result : EStateM.Result Stop Machine Unit}
    {result' : EStateM.Result Stop Lexical.Machine Unit} (alike : Alike program distances result result')
    (ended : ∀ m, result ≠ .error .outOfFuel m) (r : Lexical.Machine) :
    result' ≠ .error .outOfFuel r := by
  cases alike with
  | done agree => nofun
  | stopped same =>
      rintro ⟨⟩
      exact ended _ rfl

theorem Alike.observe {result : EStateM.Result Stop Machine Unit}
    {result' : EStateM.Result Stop Lexical.Machine Unit} (alike : Alike program distances result result') :
    observe Lexical.Machine.sink result' = observe Machine.sink result := by
  cases alike with
  | done agree => exact congrArg _ agree.sink
  | stopped same => exact congrArg _ same

theorem alike_finish {touched : Option FrameId} {W : World} {frame : FrameId}
    {result : EStateM.Result Stop Machine Flow}
    {result' : EStateM.Result Stop Lexical.Machine Lexical.Flow}
    (outcome : Outcome ⟨program, distances, silent⟩ touched W frame (RelatedFlow program .topLevel) result
      result') :
    Alike program distances (finish Machine.sink result) (finish Lexical.Machine.sink result') := by
  cases outcome with
  | done _ agree _ related =>
      have sink := agree.sink
      cases related with
      | normal =>
          simp only [finish, sink]
          split
          · exact .stopped sink
          · exact .done agree
      | returned =>
          simp only [finish, sink]
          split <;> exact .stopped sink
  | @stopped stop m r _ sink =>
      cases stop with
      | runtime error | output error =>
          simp only [finish, sink]
          split <;> exact .stopped sink
      | defect | outOfFuel => exact .stopped sink
  | watched fired => cases fired

theorem alike_lexical (accepted : Accepted program distances) (fuel : Nat) (sink : Sink) (clock : Float) :
    Alike program distances (interpret fuel program distances (.initial sink clock))
      (Lexical.interpret fuel program (.initial sink clock)) :=
  alike_finish (silent_outcome accepted fuel sink clock)

end Alike

/--
A loop with clauses means what it says. The tree that the parser makes of the clauses ends as the loop does,
at any place and in any machine. So a program ends as it does under any reading of its loops, and a checked
program also does so over frames.
-/
theorem loop_trees_mean_loops {source : String} {program : List Stmt} {distances : Distances}
    (checked : check source = .ok (program, distances)) :
    (∀ {ts us : List Token} {k k' n n' : Nat} {d : Bool} {initializer : Option Stmt} {body : Stmt}
      {condition increment : Option Expr}, Grammar.LoopInitializer ts k initializer k' →
      Grammar.Statement d us n body n' →
      ∃ loop : Lexical.Loop, loop.start.map Lexical.Loop.Start.statement = initializer ∧
        loop.condition = condition ∧ loop.increment = increment ∧ loop.body = body ∧
        loop.tree = Parser.loopStatement initializer condition increment body) ∧
    (∀ (loop : Lexical.Loop) (place : Lexical.Place) (m : Lexical.Machine)
      (result : EStateM.Result Stop Lexical.Machine (Lexical.Place × Lexical.Flow)),
      (∀ m', result ≠ .error .outOfFuel m') →
      ((∃ fuel, Lexical.execute fuel place loop.tree m = result) ↔
        ∃ fuel, loop.run (Lexical.evaluate fuel) (Lexical.execute fuel) fuel place m = result)) ∧
    (∀ (reading : Lexical.Reading) (fuel : Nat) (m : Lexical.Machine),
      ((∀ r, Lexical.interpret fuel program m ≠ .error .outOfFuel r) →
        reading.interpret fuel program m = Lexical.interpret fuel program m) ∧
      ((∀ r, reading.interpret fuel program m ≠ .error .outOfFuel r) →
        Lexical.interpret (4 * fuel) program m = reading.interpret fuel program m)) ∧
    ∀ (reading : Lexical.Reading) (fuel : Nat) (sink : Sink) (clock : Float),
      ((∀ m, interpret fuel program distances (.initial sink clock) ≠ .error .outOfFuel m) →
        Alike program distances (interpret fuel program distances (.initial sink clock))
          (reading.interpret fuel program (.initial sink clock))) ∧
      ((∀ r, reading.interpret fuel program (.initial sink clock) ≠ .error .outOfFuel r) →
        Alike program distances (interpret (4 * fuel) program distances (.initial sink clock))
          (reading.interpret fuel program (.initial sink clock))) := by
  have accepted := accepted_of_check checked
  refine ⟨fun first body => Lexical.Loop.exists_loop first body _ _,
    fun loop place m result => Lexical.Loop.run_iff,
    fun reading fuel m => ⟨(reading.interpret_unfolds fuel program).of_ended rfl,
      (reading.interpret_folds fuel program).of_ended rfl⟩,
    fun reading fuel sink clock => ⟨fun ended => ?_, fun ended => ?_⟩⟩
  · have alike := alike_lexical accepted fuel sink clock
    rwa [(reading.interpret_unfolds fuel program).of_ended rfl (alike.ended ended)]
  · rw [← (reading.interpret_folds fuel program).of_ended rfl ended]
    exact alike_lexical accepted (4 * fuel) sink clock

/-- A function made in a round sees what the increment of that round leaves behind. -/
theorem later_increment_seen :
    ∃ (program : List Stmt) (distances : Distances) (loop : Lexical.Loop),
      check "var g; for (var on = true; on; on = false) \x7b fun f() \x7b print on; \x7d g = f; \x7d g();" =
        .ok (program, distances) ∧
      loop.tree ∈ program ∧ (Lexical.Reading.of [loop]).loop? loop.tree = some loop ∧
      (∀ m, interpret 7 program distances (.initial .unlimited 0) ≠ .error .outOfFuel m) ∧
      Alike program distances (interpret 7 program distances (.initial .unlimited 0))
        ((Lexical.Reading.of [loop]).interpret 7 program (.initial .unlimited 0)) ∧
      (observe Lexical.Machine.sink
        ((Lexical.Reading.of [loop]).interpret 7 program (.initial .unlimited 0))).2.held =
          "false\n".toUTF8 := by
  let name (text : String) : Token := ⟨.identifier, text, 1⟩
  let f : FunctionDecl := ⟨name "f", [], [.print (.read ⟨2, name "on"⟩)]⟩
  let loop : Lexical.Loop := ⟨some (.varDecl (name "on") (some (.literal (.boolean true)))),
    some (.read ⟨0, name "on"⟩), some (.assign ⟨1, name "on"⟩ (.literal (.boolean false))),
    .block [.funDecl f, .expression (.assign ⟨3, name "g"⟩ (.read ⟨4, name "f"⟩))],
    by simp [Stmt.Plain, Stmt.PlainAll, FunctionDecl.Plain, f], rfl⟩
  let program : List Stmt := [.varDecl (name "g") none, loop.tree,
    .expression (.call (.read ⟨5, name "g"⟩) ⟨.symbol .rightParen, ")", 1⟩ [])]
  let distances : Distances := ⟨[(0, 0), (2, 3), (4, 0), (1, 1)]⟩
  have checked : check
      "var g; for (var on = true; on; on = false) \x7b fun f() \x7b print on; \x7d g = f; \x7d g();" =
      .ok (program, distances) := by cbv
  have normal :
      (observe Machine.sink (interpret 7 program distances (.initial .unlimited 0))).1.isOk = true := by
    decide +kernel
  have written : (observe Machine.sink (interpret 7 program distances (.initial .unlimited 0))).2.held =
      "false\n".toUTF8 := by
    decide +kernel
  have fed := fed_of_observe normal
  have alike := ((loop_trees_mean_loops checked).2.2.2 (.of [loop]) 7 .unlimited 0).1 fed
  have mem : loop.tree ∈ program := by simp [program]
  have read : (Lexical.Reading.of [loop]).loop? loop.tree = some loop := by simp [Lexical.Reading.of]
  refine ⟨program, distances, loop, checked, mem, read, fed, alike, ?_⟩
  rw [alike.observe, written]

end Lox
