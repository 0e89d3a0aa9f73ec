import Mathlib
import Lox.Proofs.CurrentFrame
import Lox.Proofs.LexicalScoping
import Lox.Proofs.Output
import Lox.Proofs.Parser.Prefix
import Lox.Proofs.Rerun
import Lox.Proofs.ScopeRules

/-!
# What follows a program

A program that goes on with more tokens does the same as without them until it is done, and then the
rest runs on the machine that it has left (`prefix_unaffected`). The references of the first part have
the same numbers and the same distances in both programs, and only code of the first part runs before
the rest, so the entries of the rest are not looked at.
-/

namespace Lox
open Grammar Lox.Parser

/-! ## Distances -/

theorem Scoping.stmts_append (context : Context) (first rest : List Stmt) (s : Scoping) :
    stmts context (first ++ rest) s = stmts context rest (stmts context first s) := by
  induction first generalizing s with
  | nil => rw [List.nil_append, stmts]
  | cons a first ih => rw [List.cons_append, stmts, stmts, ih]

theorem referencesAll_append (first rest : List Stmt) :
    Stmt.referencesAll (first ++ rest) = Stmt.referencesAll first ++ Stmt.referencesAll rest := by
  induction first with
  | nil => rw [List.nil_append, Stmt.referencesAll, List.nil_append]
  | cons a first ih => rw [List.cons_append, Stmt.referencesAll, Stmt.referencesAll, ih, List.append_assoc]

theorem distances_append {first rest : List Stmt} {distances both : Distances}
    (distinct : ((Stmt.referencesAll (first ++ rest)).map Reference.id).Nodup)
    (resolved : Distances.ofProgram first = .ok distances)
    (resolvedBoth : Distances.ofProgram (first ++ rest) = .ok both) :
    ∀ r ∈ Stmt.referencesAll first, both.find? r.id = distances.find? r.id := by
  intro r mem
  rw [← (resolved_inv resolved).2, ← (resolved_inv resolvedBoth).2, Scoping.stmts_append]
  refine (Scoping.stmts_segment _ rest _).others r.id fun mem' => ?_
  rw [referencesAll_append, List.map_append, List.nodup_append] at distinct
  exact distinct.2.2 _ (List.mem_map_of_mem mem) _ mem' rfl

/-! ## The first part with the entries of both -/

section Extended

variable {listed : Reference → Prop} {distances both : Distances}

/-- The run of the first part, repeated with the distances of the whole program. -/
def extended (listed : Reference → Prop) (distances both : Distances) : Rerun :=
  ⟨listed, silent, distances, both, .byDistance⟩

theorem extended_faithful (agree : ∀ r, listed r → both.find? r.id = distances.find? r.id) :
    (extended listed distances both).Faithful where
  reads r m known sound _ := by
    have same : both.find? r.id = m.distances.find? r.id := sound.table ▸ agree r known
    change lookUp r { m with distances := both } = _
    unfold lookUp
    simp only [same]
    split
    · rfl
    · rfl
  writes r value fuel v m m' known _ _ sound := by
    have same : both.find? r.id = m'.distances.find? r.id := sound.table ▸ agree r known
    change assign r v { m' with distances := both } = _
    unfold assign
    simp only [same]
    split
    · rfl
    · rfl
  inherits r method m known sound := by
    have same : both.find? r.id = m.distances.find? r.id := sound.table ▸ agree r known
    have means : findInherited { m with distances := both } r = findInherited m r := by
      unfold findInherited
      simp only [same]
    change getInherited r method { m with distances := both } = Rerun.moved _ (getInherited r method m)
    rw [getInherited, bind_get, means, bind_get]
    cases findInherited m r with
    | none => rfl
    | some pair =>
        simp only
        cases pair.1.findMethod? method.lexeme <;> rfl

theorem executeAll_extended (agree : ∀ r, listed r → both.find? r.id = distances.find? r.id)
    {program : List Stmt} (inside : ∀ r ∈ Stmt.referencesAll program, listed r) (fuel : Nat) (sink : Sink)
    (clock : Float) :
    executeAll (execute fuel) program { Machine.initial sink clock with distances := both } =
      (extended listed distances both).moved
        (executeAll (execute fuel) program { Machine.initial sink clock with distances }) := by
  have follows := Rerun.program_follows (extended_faithful agree) fuel program
    (m := { Machine.initial sink clock with distances }) inside ⟨rfl, .initial⟩
  change (extended listed distances both).Follows _ (executeAll (executeUnder silent fuel) program _)
    (executeAll (Access.byDistance.execute fuel) program { Machine.initial sink clock with distances := both })
    at follows
  rw [executeUnder_silent, (Access.byDistance_eq fuel).2] at follows
  rcases follows.moved_or_halted with moved | ⟨site, m₁, stop, m, spoken, -⟩
  · exact moved
  · cases spoken

end Extended

/-! ## Programs that go on -/

theorem executeAll_append {execute : Stmt → Run Flow} {first rest : List Stmt} {m m' : Machine}
    (ended : executeAll execute first m = .ok .normal m') :
    executeAll execute (first ++ rest) m = executeAll execute rest m' := by
  induction first generalizing m with
  | nil =>
      cases ended
      rfl
  | cons a first ih =>
      rw [executeAll, bind_ok] at ended
      obtain ⟨flow, m₁, here, ended⟩ := ended
      rw [List.cons_append, executeAll, bind_of here]
      cases flow with
      | normal => exact ih ended
      | returned value => cases ended

theorem executeAll_append_of_ne {execute : Stmt → Run Flow} {first rest : List Stmt} {m : Machine}
    (stops : ∀ m', executeAll execute first m ≠ .ok .normal m') :
    executeAll execute (first ++ rest) m = executeAll execute first m := by
  induction first generalizing m with
  | nil => exact (stops m rfl).elim
  | cons a first ih =>
      rw [List.cons_append, executeAll, executeAll]
      cases here : execute a m with
      | ok flow m₁ =>
          rw [executeAll] at stops
          rw [bind_of here, bind_of here]
          cases flow with
          | normal => exact ih fun m' ended => stops m' ((bind_of here).trans ended)
          | returned value => rfl
      | error stop m₁ => rw [bind_of_error here, bind_of_error here]

theorem observe_sink (action : Run Unit) (m : Machine) :
    (observe Machine.sink (action m)).2 = (leaves action m).sink := by
  unfold leaves
  cases action m <;> rfl

theorem observe_finish_moved (R : Rerun) (result : EStateM.Result Stop Machine Flow) :
    observe Machine.sink (finish Machine.sink (R.moved result)) =
      observe Machine.sink (finish Machine.sink result) := by
  cases result with
  | ok flow m =>
      cases flow <;> simp only [Rerun.moved, Rerun.there, finish] <;> cases m.sink.flush <;> rfl
  | error stop m =>
      cases stop <;> simp only [Rerun.moved, Rerun.there, finish] <;> cases m.sink.flush <;> rfl

/--
If the tokens of a program go on, other than with `else`, then the program goes on. It first does what
it does alone, with the same output, and with the same error if it fails. If it does not, the rest runs
on the machine that it leaves.
-/
theorem prefix_unaffected {tokens ending others : List Token} {program both : List Stmt}
    {distances distances' : Distances} (ended : nextKind ending = .endOfInput)
    (separate : nextKind others ≠ .symbol .elseWord)
    (parsed : parseProgram (tokens ++ ending) = .ok program)
    (resolved : Distances.ofProgram program = .ok distances)
    (parsedBoth : parseProgram (tokens ++ others) = .ok both)
    (resolvedBoth : Distances.ofProgram both = .ok distances') (fuel : Nat) (sink : Sink) (clock : Float) :
    let start := Machine.initial sink clock
    let alone := observe Machine.sink (interpret fuel program distances start)
    let together := observe Machine.sink (interpret fuel both distances' start)
    ∃ rest, both = program ++ rest ∧
      (∃ more, together.2.held = alone.2.held ++ more) ∧
      ((∀ m, executeAll (execute fuel) program { start with distances } ≠ .ok .normal m) →
        together = alone) ∧
      ∀ m, executeAll (execute fuel) program { start with distances } = .ok .normal m →
        executeAll (execute fuel) program { start with distances := distances' } =
          .ok .normal { m with distances := distances' } ∧
        executeAll (execute fuel) both { start with distances := distances' } =
          executeAll (execute fuel) rest { m with distances := distances' } := by
  intro start alone together
  obtain ⟨rest, rfl⟩ := parseProgram_append ended separate parsed parsedBoth
  have agree := distances_append (distinct_of_parsed parsedBoth) resolved resolvedBoth
  have moved := executeAll_extended agree (fun _ => id) fuel sink clock
  have goesOn (m : Machine)
      (done : executeAll (execute fuel) program { start with distances } = .ok .normal m) :
      executeAll (execute fuel) program { start with distances := distances' } =
          .ok .normal { m with distances := distances' } ∧
        executeAll (execute fuel) (program ++ rest) { start with distances := distances' } =
          executeAll (execute fuel) rest { m with distances := distances' } := by
    have first : executeAll (execute fuel) program { start with distances := distances' } =
        .ok .normal { m with distances := distances' } := moved.trans (by rw [done]; rfl)
    exact ⟨first, executeAll_append first⟩
  have stops (fails : ∀ m, executeAll (execute fuel) program { start with distances } ≠ .ok .normal m) :
      together = alone := by
    -- with the larger table the first part does the same, so it fails here, too
    have failsAgain (m : Machine) :
        executeAll (execute fuel) program { start with distances := distances' } ≠ .ok .normal m := by
      intro done
      rw [moved] at done
      obtain ⟨m', same⟩ := Rerun.moved_ok done
      exact fails m' same
    change observe Machine.sink (finish Machine.sink (executeAll (execute fuel) (program ++ rest) _)) = _
    rw [executeAll_append_of_ne failsAgain, moved]
    exact observe_finish_moved _ _
  refine ⟨rest, rfl, ?_, stops, goesOn⟩
  by_cases done : ∃ m, executeAll (execute fuel) program { start with distances } = .ok .normal m
  · obtain ⟨m, done⟩ := done
    obtain ⟨more, written⟩ :=
      extends_passage.program fuel rest { m with distances := distances' }
    refine ⟨more, ?_⟩
    rw [observe_sink, observe_sink, leaves_interpret, leaves_interpret]
    unfold leaves at written ⊢
    rw [(goesOn m done).2, done]
    exact written
  · rw [stops fun m ended => done ⟨m, ended⟩]
    exact ⟨.empty, by simp⟩

/-- The tokens of `var a = nil; fun f() { print a; }`, followed by those of `a = true; f();`. -/
theorem prefix_unaffected_of_call :
    let mark (symbol : Symbol) : Token := ⟨.symbol symbol, symbol.spelling, 1⟩
    let name (text : String) : Token := ⟨.identifier, text, 1⟩
    let tokens := [mark .varWord, name "a", mark .equal, mark .nilWord, mark .semicolon,
      mark .funWord, name "f", mark .leftParen, mark .rightParen, mark .leftBrace, mark .printWord,
      name "a", mark .semicolon, mark .rightBrace]
    let others := [name "a", mark .equal, mark .trueWord, mark .semicolon,
      name "f", mark .leftParen, mark .rightParen, mark .semicolon, missingEnd]
    let start := Machine.initial .unlimited 0
    ∃ program both distances distances', nextKind [missingEnd] = .endOfInput ∧
      nextKind others ≠ .symbol .elseWord ∧ parseProgram (tokens ++ [missingEnd]) = .ok program ∧
      Distances.ofProgram program = .ok distances ∧ parseProgram (tokens ++ others) = .ok both ∧
      Distances.ofProgram both = .ok distances' ∧ ∃ rest, both = program ++ rest ∧
      ∀ m, executeAll (execute 10) program { start with distances } = .ok .normal m →
        executeAll (execute 10) both { start with distances := distances' } =
          executeAll (execute 10) rest { m with distances := distances' } := by
  intro mark name tokens others start
  let program : List Stmt := [.varDecl (name "a") (some (.literal .nil)),
    .funDecl ⟨name "f", [], [.print (.read ⟨0, name "a"⟩)]⟩]
  let rest : List Stmt := [.expression (.assign ⟨1, name "a"⟩ (.literal (.boolean true))),
    .expression (.call (.read ⟨2, name "f"⟩) (mark .rightParen) [])]
  have separate : nextKind others ≠ .symbol .elseWord := nofun
  have parsed : parseProgram (tokens ++ [missingEnd]) = .ok program := by cbv
  have parsedBoth : parseProgram (tokens ++ others) = .ok (program ++ rest) := by cbv
  have resolved : Distances.ofProgram program = .ok .empty := by cbv
  have resolvedBoth : Distances.ofProgram (program ++ rest) = .ok .empty := by cbv
  obtain ⟨others', same, -, -, goesOn⟩ := prefix_unaffected rfl separate parsed resolved
    parsedBoth resolvedBoth 10 .unlimited 0
  exact ⟨program, _, _, _, rfl, separate, parsed, resolved, parsedBoth, resolvedBoth, others', same,
    fun m done => (goesOn m done).2⟩

end Lox
