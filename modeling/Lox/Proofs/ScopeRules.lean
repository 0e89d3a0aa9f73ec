import Mathlib
import Lox.Proofs.Accepted
import Lox.Proofs.Scope.Resolution

/-!
# Distances and misuse

What checking the scopes of a parsed program answers. If it accepts the program, the distances are
those to the nearest scopes with the names, as the tree tells them (`distances_nearest`); and it
reports just the occurrences that break a rule, one by one and in their order
(`reports_violations`).
-/

namespace Lox
open Scoping

/-! ## Recording -/

variable {met : List (Path × Occurrence)} {distances : Distances}

theorem find?_record_of_ne {id : Nat} {entry : Path × Occurrence}
    (other : ∀ r, entry.2.reference? = some r → r.id ≠ id) :
    (record distances entry).find? id = distances.find? id := by
  obtain ⟨path, occurrence⟩ := entry
  rw [record]
  split
  · rename_i r refers
    split
    · exact Bindings.find?_insert_of_ne _ _ (other r refers).symm
    · rfl
  · rfl

theorem find?_record_self {path : Path} {occurrence : Occurrence} {r : Reference}
    (refers : occurrence.reference? = some r) (fresh : distances.find? r.id = none) :
    (record distances (path, occurrence)).find? r.id = nearest? r.name path.scopes := by
  rw [record, refers]
  cases found : nearest? r.name path.scopes with
  | none => simpa [found] using fresh
  | some distance => simp [found]

theorem find?_foldl_of_notMem {id : Nat} (other : id ∉ (referencesIn met).map Reference.id) :
    (met.foldl record distances).find? id = distances.find? id := by
  induction met generalizing distances with
  | nil => rfl
  | cons entry rest ih =>
      have split : referencesIn (entry :: rest) = referencesIn [entry] ++ referencesIn rest :=
        referencesIn_append [entry] rest
      rw [split, List.map_append, List.mem_append, not_or] at other
      rw [List.foldl_cons, ih other.2]
      refine find?_record_of_ne fun r refers same => other.1 ?_
      simp [referencesIn, refers, same]

theorem find?_foldl_of_mem {path : Path} {occurrence : Occurrence} {r : Reference}
    (distinct : ((referencesIn met).map Reference.id).Nodup) (listed : (path, occurrence) ∈ met)
    (refers : occurrence.reference? = some r) (fresh : distances.find? r.id = none) :
    (met.foldl record distances).find? r.id = nearest? r.name path.scopes := by
  induction met generalizing distances with
  | nil => cases listed
  | cons entry rest ih =>
      have split : referencesIn (entry :: rest) = referencesIn [entry] ++ referencesIn rest :=
        referencesIn_append [entry] rest
      rw [split, List.map_append, List.nodup_append] at distinct
      obtain ⟨-, distinctRest, apart⟩ := distinct
      rw [List.foldl_cons]
      rcases List.mem_cons.mp listed with rfl | later
      · have here : r.id ∈ (referencesIn [(path, occurrence)]).map Reference.id := by
          simp [referencesIn, refers]
        rw [find?_foldl_of_notMem fun there => apart _ here _ there rfl]
        exact find?_record_self refers fresh
      · have there : r.id ∈ (referencesIn rest).map Reference.id :=
          List.mem_map_of_mem (List.mem_filterMap.mpr ⟨_, later, refers⟩)
        refine ih distinctRest later ?_
        rw [find?_record_of_ne fun other refersHere same => ?_, fresh]
        refine apart other.id ?_ r.id there same
        simp [referencesIn, refersHere]

/-! ## Parsed programs -/

variable {tokens : List Token} {program : List Stmt}

theorem program_meets (parsed : parseProgram tokens = .ok program) :
    Meets .start (occurrences program) (stmts .topLevel program .start) := by
  obtain ⟨ts, rest, n, -, derived, -⟩ := Parser.parseProgram_reads parsed
  exact stmts_meets program (fun _ => []) [] .start derived.plain opens_program
    ⟨.nil, fun _ => nofun, fun _ => rfl⟩

theorem distinct_of_parsed (parsed : parseProgram tokens = .ok program) :
    ((Stmt.referencesAll program).map Reference.id).Nodup := by
  obtain ⟨ts, rest, n, -, derived, -⟩ := Parser.parseProgram_reads parsed
  exact derived.numbered.distinct

theorem errors_eq_violations (parsed : parseProgram tokens = .ok program) :
    (stmts .topLevel program .start).errors.toList = violations program :=
  (program_meets parsed).errors

theorem no_violations (parsed : parseProgram tokens = .ok program)
    (resolved : Distances.ofProgram program = .ok distances) : violations program = [] := by
  rw [← errors_eq_violations parsed, (resolved_inv resolved).1]

theorem distances_eq_foldl (parsed : parseProgram tokens = .ok program)
    (resolved : Distances.ofProgram program = .ok distances) :
    distances = (occurrences program).foldl record .empty := by
  rw [← (resolved_inv resolved).2]
  exact (program_meets parsed).distances (no_violations parsed resolved)

theorem references_of_program (program : List Stmt) :
    referencesIn (occurrences program) = Stmt.referencesAll program :=
  Stmt.referencesIn_occurrencesAll program _ []

theorem find?_of_occurrence {path : Path} {occurrence : Occurrence} {r : Reference}
    (parsed : parseProgram tokens = .ok program)
    (resolved : Distances.ofProgram program = .ok distances)
    (listed : (path, occurrence) ∈ occurrences program) (refers : occurrence.reference? = some r) :
    distances.find? r.id = nearest? r.name path.scopes := by
  have distinct := distinct_of_parsed parsed
  rw [← references_of_program] at distinct
  rw [distances_eq_foldl parsed resolved]
  exact find?_foldl_of_mem distinct listed refers rfl

/--
In the table of an accepted program, each reference has as its distance that of the nearest scope
with its name, and it has none if there is no such scope. There are no other entries.
-/
theorem distances_nearest (parsed : parseProgram tokens = .ok program)
    (resolved : Distances.ofProgram program = .ok distances) :
    referencesIn (occurrences program) = Stmt.referencesAll program ∧
      ((Stmt.referencesAll program).map Reference.id).Nodup ∧
      (∀ path occurrence reference, (path, occurrence) ∈ occurrences program →
        occurrence.reference? = some reference → ∀ distance,
          distances.find? reference.id = some distance ↔
            Nearest reference.name path.scopes distance) ∧
      ∀ id distance, distances.find? id = some distance →
        ∃ reference ∈ Stmt.referencesAll program, reference.id = id := by
  refine ⟨references_of_program program, distinct_of_parsed parsed,
    fun path occurrence reference listed refers distance => ?_, fun id distance entry => ?_⟩
  · rw [find?_of_occurrence parsed resolved listed refers, nearest?_eq_some]
  · by_contra none
    have other : id ∉ (referencesIn (occurrences program)).map Reference.id := by
      rw [references_of_program, List.mem_map]
      exact none
    rw [distances_eq_foldl parsed resolved, find?_foldl_of_notMem other] at entry
    cases entry

set_option maxRecDepth 2000 in
theorem nearest_super_of_method :
    ∃ program distances path keyword method,
      parseProgram (scan "\x7b var a; class B < A \x7b m(x) \x7b return super.m(a); \x7d \x7d \x7d").1 =
        .ok program ∧ Distances.ofProgram program = .ok distances ∧
      (path, .inherited keyword method) ∈ occurrences program ∧ Nearest "super" path.scopes 2 := by
  let m : Token := ⟨.identifier, "m", 1⟩
  let keyword : Reference := ⟨1, ⟨.symbol .superWord, "super", 1⟩⟩
  let call : Expr := .call (.inherited keyword m) ⟨.symbol .rightParen, ")", 1⟩
    [.read ⟨2, ⟨.identifier, "a", 1⟩⟩]
  let method : FunctionDecl :=
    ⟨m, [⟨.identifier, "x", 1⟩], [.returnStmt ⟨.symbol .returnWord, "return", 1⟩ (some call)]⟩
  let program : List Stmt :=
    [.block [.varDecl ⟨.identifier, "a", 1⟩ none,
      .classDecl ⟨.identifier, "B", 1⟩ (some ⟨0, ⟨.identifier, "A", 1⟩⟩) [method]]]
  have parsed : parseProgram
      (scan "\x7b var a; class B < A \x7b m(x) \x7b return super.m(a); \x7d \x7d \x7d").1 =
        .ok program := by cbv
  have resolved : Distances.ofProgram program = .ok ⟨[(1, 2), (2, 3)]⟩ := by cbv
  obtain ⟨path, listed⟩ : ∃ path, (path, .inherited keyword m) ∈ occurrences program := by
    simp [program, method, call, occurrences, Stmt.occurrencesAll, Stmt.occurrences,
      FunctionDecl.occurrencesAll, FunctionDecl.occurrences, Expr.occurrences?, Expr.occurrences,
      Expr.occurrencesAll]
  obtain ⟨-, -, entries, -⟩ := distances_nearest parsed resolved
  exact ⟨program, _, path, keyword, m, parsed, resolved, listed, (entries _ _ _ listed rfl 2).mp rfl⟩

/-- Checking a parsed program reports its violations, and accepts it if there are none. -/
theorem reports_violations (parsed : parseProgram tokens = .ok program) :
    (∀ errors, Distances.ofProgram program = .error errors ↔
      errors = violations program ∧ violations program ≠ []) ∧
      ((∃ distances, Distances.ofProgram program = .ok distances) ↔ violations program = []) := by
  have same := errors_eq_violations parsed
  have clean : (stmts .topLevel program .start).errors.isEmpty = (violations program).isEmpty := by
    rw [← same, Array.isEmpty_toList]
  rw [Distances.ofProgram, clean, same]
  cases violations program with
  | nil => simp
  | cons first rest => simp [eq_comm]

set_option maxRecDepth 2000 in
theorem every_misuse_reported :
    ∃ program, parseProgram (scan ("return this; class A < A \x7b init() \x7b return super.x; \x7d \x7d " ++
        "\x7b var a = a; \x7d")).1 = .ok program ∧
      violations program ≠ [] ∧ Distances.ofProgram program = .error (violations program) ∧
      (violations program).map ScopeError.cause =
        [.topLevelReturn, .thisOutsideClass, .selfInheritance, .initializerResult, .ownInitializer] := by
  let A : Token := ⟨.identifier, "A", 1⟩
  let a : Token := ⟨.identifier, "a", 1⟩
  let keyword : Token := ⟨.symbol .returnWord, "return", 1⟩
  let result : Expr := .inherited ⟨2, ⟨.symbol .superWord, "super", 1⟩⟩ ⟨.identifier, "x", 1⟩
  let program : List Stmt :=
    [.returnStmt keyword (some (.self ⟨0, ⟨.symbol .thisWord, "this", 1⟩⟩)),
      .classDecl A (some ⟨1, A⟩)
        [⟨⟨.identifier, "init", 1⟩, [], [.returnStmt keyword (some result)]⟩],
      .block [.varDecl a (some (.read ⟨3, a⟩))]]
  have parsed : parseProgram (scan ("return this; class A < A \x7b init() \x7b return super.x; \x7d \x7d " ++
      "\x7b var a = a; \x7d")).1 = .ok program := by cbv
  have causes : (violations program).map ScopeError.cause =
      [.topLevelReturn, .thisOutsideClass, .selfInheritance, .initializerResult, .ownInitializer] := by
    cbv
  have broken : violations program ≠ [] := by
    intro none
    rw [none] at causes
    cases causes
  exact ⟨program, parsed, broken, ((reports_violations parsed).1 _).mpr ⟨rfl, broken⟩, causes⟩

end Lox
