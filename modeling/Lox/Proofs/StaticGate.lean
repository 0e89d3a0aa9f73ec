import Lox.Proofs.Defects
import Lox.Proofs.FirstFailure
import Lox.Proofs.LoneExpression
import Lox.Proofs.Output
import Lox.Proofs.Recovery
import Lox.Proofs.ScopeRules

/-!
# What is checked before a run

A source is not run if scanning or parsing it finds an error, or else if its names are misused
(`check_eq_error`). All the errors of one kind are reported, and nothing has happened to the machine. Any
other source is run with a table of its local references, until it ends without an error or with one
(`run_gated`).
-/

namespace Lox

variable {source : String} {tokens : List Token} {program : List Stmt} {distances : Distances}

/-! ## Errors of the stages -/

theorem parseProgram_eq_error {errors : List SyntaxError} :
    parseProgram tokens = .error errors ↔
      errors ≠ [] ∧ errors = Parser.found (Parser.program ⟨tokens, 0, #[]⟩) := by
  have same := Parser.syntaxErrors_eq tokens
  rw [syntaxErrors] at same
  constructor
  · intro failed
    rw [failed] at same
    exact ⟨Parser.run_nonempty failed, same⟩
  · rintro ⟨some, rfl⟩
    cases parsed : parseProgram tokens with
    | ok program =>
        rw [parsed] at same
        exact (some same.symm).elim
    | error errors =>
        rw [parsed] at same
        exact congrArg Except.error same

theorem ofProgram_eq_error {errors : List ScopeError} (parsed : parseProgram tokens = .ok program) :
    Distances.ofProgram program = .error errors ↔ errors ≠ [] ∧ errors = violations program := by
  rw [Distances.ofProgram, ← errors_eq_violations parsed]
  generalize (Scoping.stmts .topLevel program .start) = s
  by_cases clean : s.errors = #[]
  · simp [clean]
  · have some : s.errors.toList ≠ [] := fun none => clean (Array.toList_eq_nil_iff.mp none)
    rw [if_neg fun isEmpty => clean (Array.isEmpty_iff.mp isEmpty), Except.error.injEq]
    exact ⟨fun same => same ▸ ⟨some, rfl⟩, fun both => both.2.symm⟩

/-- The errors for which a source is not run. -/
inductive Rejected (source : String) : List StaticError → Prop where
  | text (fault : (scan source).2 ≠ [] ∨ ∃ errors, parseProgram (scan source).1 = .error errors) :
      Rejected source ((scan source).2.map .lexical ++
        (Parser.found (Parser.program ⟨(scan source).1, 0, #[]⟩)).map .grammar)
  | scopes {program : List Stmt} (clean : (scan source).2 = [])
      (parsed : parseProgram (scan source).1 = .ok program) (misused : violations program ≠ []) :
      Rejected source ((violations program).map .scope)

theorem found_of_parsed (parsed : parseProgram tokens = .ok program) :
    Parser.found (Parser.program ⟨tokens, 0, #[]⟩) = [] := by
  have same := Parser.syntaxErrors_eq tokens
  rw [syntaxErrors, parsed] at same
  exact same.symm

theorem Rejected.nonempty {errors : List StaticError} (rejected : Rejected source errors) : errors ≠ [] := by
  cases rejected with
  | text fault =>
      rcases fault with lexical | ⟨errors, failed⟩
      · simp [lexical]
      · obtain ⟨some, rfl⟩ := parseProgram_eq_error.mp failed
        simp [some]
  | scopes clean parsed misused => simpa using misused

theorem rejected_of_check {errors : List StaticError} (failed : check source = .error errors) :
    Rejected source errors := by
  unfold check at failed
  simp only at failed
  split at failed
  · rename_i failures parsed
    cases failed
    obtain ⟨-, rfl⟩ := parseProgram_eq_error.mp parsed
    exact .text (.inr ⟨_, parsed⟩)
  · rename_i program parsed
    split at failed
    · rename_i clean
      split at failed
      · rename_i failures resolved
        cases failed
        obtain ⟨some, rfl⟩ := (ofProgram_eq_error parsed).mp resolved
        exact .scopes (List.isEmpty_iff.mp clean) parsed some
      · cases failed
    · rename_i lexical
      cases failed
      have rejected : Rejected source _ := .text (.inl fun none => lexical (List.isEmpty_iff.mpr none))
      rwa [found_of_parsed parsed, List.map_nil, List.append_nil] at rejected

theorem check_of_rejected {errors : List StaticError} (rejected : Rejected source errors) :
    check source = .error errors := by
  unfold check
  cases rejected with
  | text fault =>
      cases parsed : parseProgram (scan source).1 with
      | error failures =>
          obtain ⟨-, rfl⟩ := parseProgram_eq_error.mp parsed
          simp only [parsed]
      | ok program =>
          have lexical : (scan source).2 ≠ [] :=
            fault.resolve_right fun ⟨_, failed⟩ => by cases parsed.symm.trans failed
          have notEmpty : (scan source).2.isEmpty = false := by simpa using lexical
          rw [found_of_parsed parsed, List.map_nil, List.append_nil]
          simp [parsed, notEmpty]
  | scopes clean parsed misused =>
      have resolved := (ofProgram_eq_error parsed).mpr ⟨misused, rfl⟩
      simp [parsed, clean, resolved]

theorem check_eq_error {errors : List StaticError} : check source = .error errors ↔ Rejected source errors :=
  ⟨rejected_of_check, check_of_rejected⟩

theorem exists_rejected : (∃ errors, Rejected source errors) ↔
    (scan source).2 ≠ [] ∨ (∃ errors, parseProgram (scan source).1 = .error errors) ∨
      ∃ program errors, parseProgram (scan source).1 = .ok program ∧
        Distances.ofProgram program = .error errors := by
  constructor
  · rintro ⟨errors, rejected⟩
    cases rejected with
    | text fault => exact fault.imp_right .inl
    | @scopes program clean parsed misused =>
        exact .inr (.inr ⟨program, _, parsed, (ofProgram_eq_error parsed).mpr ⟨misused, rfl⟩⟩)
  · rintro (lexical | syntactic | ⟨program, errors, parsed, resolved⟩)
    · exact ⟨_, .text (.inl lexical)⟩
    · exact ⟨_, .text (.inr syntactic)⟩
    · by_cases clean : (scan source).2 = []
      · obtain ⟨misused, rfl⟩ := (ofProgram_eq_error parsed).mp resolved
        exact ⟨_, .scopes clean parsed misused⟩
      · exact ⟨_, .text (.inl clean)⟩

/-! ## Runs -/

variable {fuel : Nat} {sink : Sink} {clock : Float}

/--
How the run of an accepted source ends. A run that ends has flushed the sink, so that a sink that fails then
shows in the outcome.
-/
inductive EndsOn (sink : Sink) : Except Failure Unit → Prop where
  | done (flushed : sink.flush = none) : EndsOn sink (.ok ())
  | runtime (error : RuntimeError) (flushed : sink.flush = none) : EndsOn sink (.error (.stopped (.runtime error)))
  | output (error : OutputError) (lost : ∀ failure, sink.flush = some failure → error = failure) :
      EndsOn sink (.error (.stopped (.output error)))
  | outOfFuel : EndsOn sink (.error (.stopped .outOfFuel))

theorem EndsOn.lost {failure : OutputError} (failed : sink.flush = some failure) :
    EndsOn sink (.error (.stopped (.output failure))) :=
  .output failure fun _ same => Option.some.inj (failed.symm.trans same)

theorem endsOn_normal (checked : check source = .ok (program, distances)) {after : Machine}
    (ended : executeAll (execute fuel) program { Machine.initial sink clock with distances } =
      .ok .normal after) : EndsOn sink (run fuel source (.initial sink clock)).1 := by
  have kept : after.sink.flush = sink.flush := ((sameKind_passage.program fuel program).of_ok ended).flush
  cases flushed : sink.flush with
  | none =>
      rw [run_of_ok checked (interpret_of_normal (kept.trans flushed) ended)]
      exact .done flushed
  | some failure =>
      have lost : interpret fuel program distances (.initial sink clock) = .error (.output failure) after := by
        rw [interpret, ended]
        simp only [finish, kept.trans flushed]
      rw [run_of_error checked lost]
      exact .lost flushed

theorem endsOn_error (checked : check source = .ok (program, distances)) {stop : Stop} {after : Machine}
    (ended : executeAll (execute fuel) program { Machine.initial sink clock with distances } =
      .error stop after) : EndsOn sink (run fuel source (.initial sink clock)).1 := by
  by_cases starved : stop = .outOfFuel
  · subst starved
    have starves : interpret fuel program distances (.initial sink clock) = .error .outOfFuel after := by
      rw [interpret, ended]
      rfl
    rw [run_of_error checked starves]
    exact .outOfFuel
  · rw [run_failed checked ended starved Nat.le.refl]
    cases flushed : sink.flush with
    | some failure => exact .lost flushed
    | none =>
        cases stop with
        | runtime error => exact .runtime error flushed
        | output error => exact .output error fun _ same => by cases flushed.symm.trans same
        | defect defect => exact (executeAll_genuine (accepted_of_check checked) ended defect rfl).elim
        | outOfFuel => exact (starved rfl).elim

theorem endsOn_of_accepted (checked : check source = .ok (program, distances)) :
    EndsOn sink (run fuel source (.initial sink clock)).1 := by
  cases ended : executeAll (execute fuel) program { Machine.initial sink clock with distances } with
  | error stop after => exact endsOn_error checked ended
  | ok flow after =>
      cases flow with
      | normal => exact endsOn_normal checked ended
      | returned value =>
          exact (not_returned program (accepted_of_check checked) fuel sink clock value after ended).elim

/--
A source is rejected if scanning, parsing or checking its names finds an error. Then its run reports all of
them and leaves the machine alone. If not, its statements are run with a table that has the distance of each
reference to a local name, and the outcome is no error, or one.
-/
theorem run_gated (source : String) (sink : Sink) (clock : Float) :
    (∀ fuel, (∃ errors, (run fuel source (.initial sink clock)).1 = .error (.static errors)) ↔
      (scan source).2 ≠ [] ∨ (∃ errors, parseProgram (scan source).1 = .error errors) ∨
        ∃ program errors, parseProgram (scan source).1 = .ok program ∧
          Distances.ofProgram program = .error errors) ∧
      ((∃ errors, errors ≠ [] ∧ Rejected source errors ∧ ∀ fuel,
          run fuel source (.initial sink clock) = (.error (.static errors), .initial sink clock)) ∨
        ∃ program distances, parseProgram (scan source).1 = .ok program ∧
          Distances.ofProgram program = .ok distances ∧
          (∀ path occurrence reference distance, (path, occurrence) ∈ occurrences program →
            occurrence.reference? = some reference →
              (distances.find? reference.id = some distance ↔ Nearest reference.name path.scopes distance)) ∧
          ∀ fuel, EndsOn sink (run fuel source (.initial sink clock)).1 ∧
            (run fuel source (.initial sink clock)).2 =
              leaves (executeAll (execute fuel) program) { Machine.initial sink clock with distances }) := by
  cases checked : check source with
  | error errors =>
      have stopped : ∀ fuel,
          run fuel source (.initial sink clock) = (.error (.static errors), .initial sink clock) :=
        fun fuel => by rw [run, checked]
      have rejected := check_eq_error.mp checked
      refine ⟨fun fuel => ?_, .inl ⟨errors, rejected.nonempty, rejected, stopped⟩⟩
      rw [← exists_rejected, stopped]
      exact ⟨fun _ => ⟨errors, rejected⟩, fun _ => ⟨errors, rfl⟩⟩
  | ok both =>
      obtain ⟨program, distances⟩ := both
      obtain ⟨parsed, resolved⟩ := check_inv checked
      refine ⟨fun fuel => ?_, .inr ⟨program, distances, parsed, resolved, ?_, fun fuel => ⟨?_, ?_⟩⟩⟩
      · rw [← exists_rejected]
        constructor
        · rintro ⟨errors, static⟩
          have ends : EndsOn sink (run fuel source (.initial sink clock)).1 := endsOn_of_accepted checked
          rw [static] at ends
          cases ends
        · rintro ⟨errors, rejected⟩
          cases checked.symm.trans (check_eq_error.mpr rejected)
      · intro path occurrence reference distance listed refers
        rw [find?_of_occurrence parsed resolved listed refers, nearest?_eq_some]
      · exact endsOn_of_accepted checked
      · rw [run_leaves checked, leaves_interpret]

end Lox
