import Lox.Proofs.Grammar.Trees
import Lox.Proofs.Lexical.Fuel
import Lox.Syntax.Parser

/-!
# Loops with clauses

What a loop with clauses means by itself (`Loop.run`): it opens one scope and runs the initializer there
once; each round then runs the body in that same scope and evaluates the increment; what comes after the
loop is outside of the scope. The tree that the parser makes of the clauses has blocks for some of them
only and spends more fuel on nesting. But where one of the two ends the other one ends in the same way
(`Loop.run_iff`).
-/

namespace Lox.Lexical
open Run

inductive Loop.Start where
  | varDecl (name : Token) (value : Option Expr)
  | expression (value : Expr)

def Loop.Start.statement : Loop.Start → Stmt
  | .varDecl name value => .varDecl name value
  | .expression value => .expression value

structure Loop where
  start : Option Loop.Start
  condition : Option Expr
  increment : Option Expr
  body : Stmt
  plain : body.Plain
  single : body.isDeclaration = false

namespace Loop

/-! ## What a loop means -/

section Meaning

variable (evaluate : Names → Expr → Run Value) (execute : Place → Stmt → Run (Place × Flow))

/-- Opens a scope and runs the initializer in it. -/
def enter (names : Names) : Option Start → Run Place
  | none => pure (.inside names)
  | some (.varDecl name value) => do
    let place ← declare (.inside names) name.lexeme
    let value ← match value with
      | some expression => evaluate place.names expression
      | none => pure .nil
    define place name.lexeme value
    pure place
  | some (.expression value) => do
    let _ ← evaluate names value
    pure (.inside names)

def test (names : Names) : Option Expr → Run Value
  | some condition => evaluate names condition
  | none => pure (.boolean true)

def advance (names : Names) : Option Expr → Run Unit
  | some increment => do let _ ← evaluate names increment
  | none => pure ()

/-- Runs a statement for how it ends. -/
def perform (place : Place) (a : Stmt) : Run Flow := do
  let (_, flow) ← execute place a
  pure flow

def goRound (test : Run Value) (body : Run Flow) (advance : Run Unit) : Nat → Run Flow
  | 0 => starve
  | rounds + 1 => do
    if (← test).isTruthy then
      match ← body with
      | .normal => do
        advance
        goRound test body advance rounds
      | .returned value => pure (.returned value)
    else pure .normal

def run (loop : Loop) (rounds : Nat) (place : Place) : Run (Place × Flow) := do
  let inner ← enter evaluate place.names loop.start
  let flow ← goRound (test evaluate inner.names loop.condition) (perform execute inner loop.body)
    (advance evaluate inner.names loop.increment) rounds
  pure (place, flow)

end Meaning

def tree (loop : Loop) : Stmt :=
  Parser.loopStatement (loop.start.map Start.statement) loop.condition loop.increment loop.body

/-! ## Statements that declare nothing -/

section Places

variable {fuel : Nat} {place : Place} {a b : Stmt}

theorem perform_expression (e : Expr) :
    perform (execute (fuel + 1)) place (.expression e) =
      (do advance (evaluate fuel) place.names (some e); pure .normal) := by
  simp [execute, executeWith, perform, advance]

theorem perform_whileLoop (condition : Expr) (body : Stmt) :
    perform (execute (fuel + 1)) place (.whileLoop condition body) =
      repeatWhile (evaluate fuel place.names condition) (perform (execute fuel) place body) fuel := by
  simp [execute, executeWith, perform]

theorem perform_ifElse (condition : Expr) (thenBranch : Stmt) (elseBranch : Option Stmt) :
    perform (execute (fuel + 1)) place (.ifElse condition thenBranch elseBranch) = (do
      if (← evaluate fuel place.names condition).isTruthy then perform (execute fuel) place thenBranch
      else
        match elseBranch with
        | some statement => perform (execute fuel) place statement
        | none => pure .normal) := by
  simp only [execute, executeWith, perform, bind_assoc]
  refine bind_congr fun value => ?_
  split
  · simp
  · cases elseBranch <;> simp

theorem execute_of_single (single : a.isDeclaration = false) :
    execute fuel place a = do return (place, ← perform (execute fuel) place a) := by
  cases fuel with
  | zero => rfl
  | succ fuel =>
      cases a with
      | varDecl _ _ | funDecl _ | classDecl _ _ _ => cases single
      | expression _ | print _ | block _ | whileLoop _ _ => simp [execute, executeWith, perform]
      | ifElse condition thenBranch elseBranch =>
          simp only [execute, executeWith, perform, bind_assoc]
          refine bind_congr fun value => ?_
          split
          · simp
          · cases elseBranch <;> simp
      | returnStmt _ value => cases value <;> simp [execute, executeWith, perform]

/-- A statement that declares nothing does not see which names the running scope has declared. -/
theorem perform_inside (plain : a.Plain) (single : a.isDeclaration = false) :
    perform (execute fuel) place a = perform (execute fuel) (.inside place.names) a := by
  induction fuel generalizing a place with
  | zero => rfl
  | succ fuel ih =>
      cases a with
      | varDecl _ _ | funDecl _ | classDecl _ _ _ => cases single
      | expression _ | print _ | block _ => simp [execute, executeWith, perform, Place.inside]
      | whileLoop condition body =>
          rw [perform_whileLoop, perform_whileLoop, ih plain.1 plain.2]
          rfl
      | ifElse condition thenBranch elseBranch =>
          rw [perform_ifElse, perform_ifElse]
          cases elseBranch with
          | none =>
              rw [ih plain.1 plain.2]
              rfl
          | some statement =>
              obtain ⟨plain, single, plain', single'⟩ := plain
              dsimp only
              rw [ih plain single, ih plain' single']
              rfl
      | returnStmt _ value => cases value <;> simp [execute, executeWith, perform, Place.inside]

/-! ## Rounds -/

/-- Goes on with the second action, unless the first one has returned. -/
def andThen (first second : Run Flow) : Run Flow := do
  match ← first with
  | .normal => second
  | .returned value => pure (.returned value)

theorem andThen_normal (body : Run Flow) : andThen body (pure .normal) = body := by
  have same (flow : Flow) : (match flow with
      | .normal => pure .normal
      | .returned value => pure (.returned value) : Run Flow) = pure flow := by
    cases flow <;> rfl
  simp only [andThen, same, bind_pure]

theorem goRound_eq (test : Run Value) (body : Run Flow) (advance : Run Unit) (rounds : Nat) :
    goRound test body advance rounds =
      repeatWhile test (andThen body (do advance; pure .normal)) rounds := by
  induction rounds with
  | zero => rfl
  | succ rounds ih =>
      rw [goRound, repeatWhile, ih]
      refine bind_congr fun value => ?_
      split
      · rw [andThen, bind_assoc]
        refine bind_congr fun flow => ?_
        cases flow with
        | normal => simp
        | returned value => simp
      · rfl

theorem executeAll_single (execute : Place → Stmt → Run (Place × Flow)) :
    executeAll execute place [a] = perform execute place a := by
  refine bind_congr fun (place, flow) => ?_
  cases flow <;> rfl

theorem execute_block (body : List Stmt) :
    execute (fuel + 1) place (.block body) = (do
      return (place, ← executeAll (execute fuel) (.inside place.names) body)) := rfl

theorem perform_block (single : a.isDeclaration = false) :
    perform (execute (fuel + 1)) place (.block [a, b]) =
      andThen (perform (execute fuel) (.inside place.names) a)
        (perform (execute fuel) (.inside place.names) b) := by
  rw [perform, execute_block, executeAll, execute_of_single single, andThen]
  simp only [bind_assoc, pure_bind]
  refine bind_congr fun flow => ?_
  cases flow with
  | normal => exact (bind_pure _).trans (executeAll_single _)
  | returned value => rfl

theorem executeAll_start (first : Start) (names : Names) :
    executeAll (execute (fuel + 1)) (.inside names) [first.statement, b] = (do
      let inner ← enter (evaluate fuel) names (some first)
      perform (execute (fuel + 1)) inner b) := by
  have opened : execute (fuel + 1) (.inside names) first.statement =
      (do return (← enter (evaluate fuel) names (some first), .normal)) := by
    cases first with
    | varDecl name value =>
        cases value <;> simp [execute, executeWith, Start.statement, enter, Place.inside]
    | expression value => simp [execute, executeWith, Start.statement, enter, Place.inside]
  rw [executeAll, opened]
  simp only [bind_assoc, pure_bind]
  exact bind_congr fun inner => executeAll_single _

end Places

/-! ## More fuel -/

section Fuel

variable {evaluate evaluate' : Names → Expr → Run Value}
  {execute execute' : Place → Stmt → Run (Place × Flow)}

theorem andThen_continued {x x' y y' : Run Flow} (first : Continued x x') (second : Continued y y') :
    Continued (andThen x y) (andThen x' y') := by
  refine .bind first fun flow => ?_
  cases flow with
  | normal => exact second
  | returned value => exact .refl _

theorem goRound_continued {test test' : Run Value} {body body' : Run Flow} {advance advance' : Run Unit}
    {rounds rounds' : Nat} (tests : Continued test test') (runs : Continued body body')
    (advances : Continued advance advance') (le : rounds ≤ rounds') :
    Continued (goRound test body advance rounds) (goRound test' body' advance' rounds') := by
  rw [goRound_eq, goRound_eq]
  exact .repeatWhile tests (andThen_continued runs (.bind advances fun _ => .refl _)) le

theorem enter_continued (evaluates : ∀ names e, Continued (evaluate names e) (evaluate' names e))
    (names : Names) (start : Option Start) :
    Continued (enter evaluate names start) (enter evaluate' names start) := by
  cases start with
  | none => exact .refl _
  | some first =>
      cases first with
      | varDecl name value =>
          refine .bind (.refl _) fun place => ?_
          cases value with
          | none => exact .refl _
          | some expression => exact .bind (evaluates _ expression) fun value => .refl _
      | expression value => exact .bind (evaluates _ value) fun _ => .refl _

theorem run_continued (loop : Loop) {rounds rounds' : Nat} (le : rounds ≤ rounds')
    (evaluates : ∀ names e, Continued (evaluate names e) (evaluate' names e))
    (executes : ∀ place a, Continued (execute place a) (execute' place a)) (place : Place) :
    Continued (loop.run evaluate execute rounds place) (loop.run evaluate' execute' rounds' place) := by
  refine .bind (enter_continued evaluates _ _) fun inner => ?_
  refine .bind (goRound_continued ?_ ?_ ?_ le) fun _ => .refl _
  · cases loop.condition with
    | none => exact .refl _
    | some condition => exact evaluates _ condition
  · exact .bind (executes _ _) fun _ => .refl _
  · cases loop.increment with
    | none => exact .refl _
    | some increment => exact .bind (evaluates _ increment) fun _ => .refl _

end Fuel

/-!
## The tree of a loop

Each part of the tree is continued by the part of the loop that it stands for (`unfold_round` and so on),
and this one is continued by the part of the tree with the fuel that blocks take (`fold_round` and so on).
-/

section Trees

variable {loop : Loop} {place : Place}

def round (loop : Loop) : Stmt := Grammar.withIncrement loop.body loop.increment

def iteration (loop : Loop) : Stmt :=
  .whileLoop (loop.condition.getD (.literal (.boolean true))) loop.round

theorem tree_of_none (missing : loop.start = none) : loop.tree = loop.iteration := by
  rw [tree, missing, iteration, round]
  cases loop.increment <;> rfl

theorem tree_of_start {first : Start} (start : loop.start = some first) :
    loop.tree = .block [first.statement, loop.iteration] := by
  rw [tree, start, iteration, round]
  cases loop.increment <;> rfl

theorem plain_iteration (loop : Loop) : loop.iteration.Plain := by
  rw [iteration, round, Stmt.Plain]
  cases loop.increment with
  | none => exact ⟨loop.plain, loop.single⟩
  | some increment =>
      simp only [Grammar.withIncrement, Stmt.Plain, Stmt.PlainAll]
      exact ⟨⟨loop.plain, trivial, trivial⟩, rfl⟩

theorem perform_continued {fuel more : Nat} (le : fuel ≤ more) (place : Place) (a : Stmt) :
    Continued (perform (execute fuel) place a) (perform (execute more) place a) :=
  .bind ((continued le).2 place a) fun _ => .refl _

theorem unfold_test (fuel : Nat) (names : Names) (condition : Option Expr) :
    Continued (evaluate fuel names (condition.getD (.literal (.boolean true))))
      (test (evaluate fuel) names condition) := by
  cases condition with
  | none => exact (continued (Nat.le_succ fuel)).1 names (.literal (.boolean true))
  | some condition => exact .refl _

theorem fold_test (fuel : Nat) (names : Names) (condition : Option Expr) :
    Continued (test (evaluate fuel) names condition)
      (evaluate (fuel + 1) names (condition.getD (.literal (.boolean true)))) := by
  cases condition with
  | none => exact .refl _
  | some condition => exact (continued (Nat.le_succ fuel)).1 names condition

theorem unfold_round (fuel : Nat) (place : Place) :
    Continued (perform (execute fuel) place loop.round)
      (andThen (perform (execute fuel) place loop.body)
        (do advance (evaluate fuel) place.names loop.increment; pure .normal)) := by
  rw [round]
  cases loop.increment with
  | none =>
      rw [advance, pure_bind, andThen_normal]
      exact .refl _
  | some increment =>
      -- The tree runs the body in a block, which the body does not see.
      have inside : perform (execute fuel) place loop.body = _ := perform_inside loop.plain loop.single
      refine .trans (perform_continued (Nat.le_succ fuel) place _) ?_
      rw [Grammar.withIncrement, perform_block loop.single, inside]
      refine andThen_continued (.refl _) (.trans (perform_continued (Nat.le_succ fuel) _ _) ?_)
      rw [perform_expression]
      exact .refl _

theorem fold_round (fuel : Nat) (place : Place) :
    Continued
      (andThen (perform (execute fuel) place loop.body)
        (do advance (evaluate fuel) place.names loop.increment; pure .normal))
      (perform (execute (fuel + 2)) place loop.round) := by
  rw [round]
  cases loop.increment with
  | none =>
      rw [advance, pure_bind, andThen_normal]
      exact perform_continued (Nat.le_add_right fuel 2) _ _
  | some increment =>
      rw [Grammar.withIncrement, perform_block loop.single, perform_inside loop.plain loop.single]
      refine andThen_continued (perform_continued (Nat.le_succ fuel) _ _) ?_
      rw [perform_expression]
      exact .refl _

theorem unfold_iteration (fuel : Nat) (place : Place) :
    Continued (perform (execute (fuel + 1)) place loop.iteration)
      (goRound (test (evaluate fuel) place.names loop.condition) (perform (execute fuel) place loop.body)
        (advance (evaluate fuel) place.names loop.increment) fuel) := by
  rw [iteration, perform_whileLoop, goRound_eq]
  exact .repeatWhile (unfold_test fuel _ _) (unfold_round fuel place) (Nat.le_refl _)

theorem fold_iteration (fuel : Nat) (place : Place) :
    Continued
      (goRound (test (evaluate fuel) place.names loop.condition) (perform (execute fuel) place loop.body)
        (advance (evaluate fuel) place.names loop.increment) fuel)
      (perform (execute (fuel + 3)) place loop.iteration) := by
  have le : fuel + 1 ≤ fuel + 2 := Nat.le_succ _
  rw [iteration, perform_whileLoop, goRound_eq]
  refine .repeatWhile (.trans (fold_test fuel _ _) ?_) (fold_round fuel place) (Nat.le_add_right _ _)
  exact (continued le).1 _ _

theorem unfold_tree (fuel : Nat) (place : Place) :
    Continued (execute (fuel + 1) place loop.tree) (loop.run (evaluate fuel) (execute fuel) fuel place) := by
  rw [run]
  cases start : loop.start with
  | none =>
      rw [tree_of_none start, execute_of_single rfl, perform_inside loop.plain_iteration rfl]
      exact .bind (unfold_iteration fuel _) fun flow => .refl _
  | some first =>
      have more := Continued.executeAll (continued (Nat.le_succ fuel)).2
        [first.statement, loop.iteration] (.inside place.names)
      rw [executeAll_start] at more
      rw [tree_of_start start, execute_block, ← bind_assoc]
      refine .bind (more.trans (.bind (.refl _) fun inner => ?_)) fun flow => .refl _
      exact unfold_iteration fuel inner

theorem fold_tree (fuel : Nat) (place : Place) :
    Continued (loop.run (evaluate fuel) (execute fuel) fuel place) (execute (fuel + 4) place loop.tree) := by
  rw [run]
  cases start : loop.start with
  | none =>
      rw [tree_of_none start, execute_of_single rfl, perform_inside loop.plain_iteration rfl]
      refine .bind (.trans (fold_iteration fuel _) ?_) fun flow => .refl _
      exact perform_continued (Nat.le_succ _) _ _
  | some first =>
      rw [tree_of_start start, execute_block, executeAll_start, bind_assoc]
      refine .bind (enter_continued (continued (Nat.le_add_right fuel 2)).1 _ _) fun inner => ?_
      exact .bind (fold_iteration fuel inner) fun flow => .refl _

theorem run_iff {m : Machine} {result : EStateM.Result Stop Machine (Place × Flow)}
    (ended : ∀ m', result ≠ .error .outOfFuel m') :
    (∃ fuel, execute fuel place loop.tree m = result) ↔
      ∃ fuel, loop.run (evaluate fuel) (execute fuel) fuel place m = result := by
  constructor
  · rintro ⟨fuel, same⟩
    have more := (continued (Nat.le_succ fuel)).2 place loop.tree
    exact ⟨fuel, (more.trans (unfold_tree fuel place)).of_ended same ended⟩
  · rintro ⟨fuel, same⟩
    exact ⟨fuel + 4, (fold_tree fuel place).of_ended same ended⟩

end Trees

/-! ## Loops of the grammar -/

theorem exists_start {ts : List Token} {n n' : Nat} {initializer : Option Stmt} :
    Grammar.LoopInitializer ts n initializer n' →
      ∃ start : Option Start, start.map Start.statement = initializer
  | .absent _ => ⟨none, rfl⟩
  | .variable derived => by
      cases derived
      exact ⟨some (.varDecl _ _), rfl⟩
  | .expression derived => by
      cases derived
      exact ⟨some (.expression _), rfl⟩

theorem exists_loop {ts us : List Token} {k k' n n' : Nat} {d : Bool} {initializer : Option Stmt}
    {body : Stmt} (first : Grammar.LoopInitializer ts k initializer k')
    (derived : Grammar.Statement d us n body n') (condition increment : Option Expr) :
    ∃ loop : Loop, loop.start.map Start.statement = initializer ∧ loop.condition = condition ∧
      loop.increment = increment ∧ loop.body = body ∧
      loop.tree = Parser.loopStatement initializer condition increment body := by
  obtain ⟨start, rfl⟩ := exists_start first
  let loop : Loop := ⟨start, condition, increment, body, derived.plain, derived.isDeclaration⟩
  exact ⟨loop, rfl, rfl, rfl, rfl, rfl⟩

end Loop

end Lox.Lexical
