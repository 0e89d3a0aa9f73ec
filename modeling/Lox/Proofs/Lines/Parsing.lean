import Lox.Syntax.Parser
import Lox.Proofs.Lines.Trees

/-!
# Parsing ignores lines

No parser looks at the line of a token, so tokens without lines are read as the same trees and with the
same errors, without lines (`parseProgram_unlined`, `parseExpression_unlined`).
-/

namespace Lox

instance : Lined Parser.State := ⟨fun s => ⟨unlined s.rest, s.nextId, unlined s.errors⟩⟩

namespace Parser

variable {α : Type} [Lined α]

/-! ## Single tokens -/

theorem next_unlined (s : State) : (unlined s).next = unlined s.next := by
  obtain ⟨rest, nextId, errors⟩ := s
  cases rest with
  | nil | cons => rfl

theorem peek_unlined : Unlined peek peek := by
  intro s
  rw [peek, next_unlined]
  rfl

theorem fail_unlined (cause : SyntaxError.Cause) : Unlined (fail cause : Parser α) (fail cause) := by
  intro s
  rw [fail, next_unlined]
  rfl

theorem report_unlined (cause : SyntaxError.Cause) (token : Token) :
    Unlined (report cause token) (report cause (unlined token)) := by
  intro s
  show EStateM.Result.ok () (State.mk (unlined s.rest) s.nextId
      ((unlined s.errors).push (unlined ⟨cause, token⟩))) =
    .ok () ⟨unlined s.rest, s.nextId, unlined (s.errors.push ⟨cause, token⟩)⟩
  rw [push_unlined]

theorem skip_unlined : Unlined skip skip := by
  intro s
  simp [skip, unlined]

theorem atEnd_unlined : Unlined atEnd atEnd := by
  intro s
  rw [atEnd, next_unlined]
  rfl

theorem at?_unlined (symbol : Symbol) : Unlined (at? symbol) (at? symbol) := by
  intro s
  rw [at?, next_unlined]
  rfl

theorem acceptAny_unlined (symbols : List Symbol) : Unlined (acceptAny symbols) (acceptAny symbols) := by
  intro s
  obtain ⟨rest, nextId, errors⟩ := s
  cases rest with
  | nil => rfl
  | cons t ts =>
      by_cases found : symbols.any t.kind.isSymbol
      · simp [acceptAny, unlined, found]
      · simp [acceptAny, unlined, found]

theorem refer_unlined (token : Token) : Unlined (refer token) (refer (unlined token)) := fun _ => rfl

theorem withRounds_unlined {parser parser' : Nat → Parser α} (each : ∀ k, Unlined (parser k) (parser' k)) :
    Unlined (withRounds parser) (withRounds parser') := by
  intro s
  have same : (unlined s).rest.length = s.rest.length := List.length_map _
  rw [withRounds, same]
  exact each s.rest.length s

theorem ite_unlined {condition : Prop} [Decidable condition] {yes no yes' no' : Parser α}
    (first : Unlined yes yes') (second : Unlined no no') :
    Unlined (if condition then yes else no) (if condition then yes' else no') := by
  split
  · exact first
  · exact second

theorem accept_unlined {symbols : List Symbol} {next next' : Option Token → Parser α}
    (taken : ∀ t, Unlined (next (some t)) (next' (some (unlined t)))) (other : Unlined (next none) (next' none)) :
    Unlined (acceptAny symbols >>= next) (acceptAny symbols >>= next') := by
  apply (acceptAny_unlined symbols).bind
  intro found
  cases found with
  | none => exact other
  | some t => exact taken t

theorem expect_unlined (symbol : Symbol) (cause : SyntaxError.Cause) :
    Unlined (expect symbol cause) (expect symbol cause) := by
  apply accept_unlined
  · exact fun t => .pure rfl
  · exact fail_unlined cause

theorem expectName_unlined (cause : SyntaxError.Cause) : Unlined (expectName cause) (expectName cause) := by
  apply peek_unlined.bind
  intro t
  obtain ⟨kind, lexeme, line⟩ := t
  cases kind with
  | identifier => exact skip_unlined.bind fun _ => .pure rfl
  | _ => exact fail_unlined cause

/-! ## Expressions -/

section Expressions

variable {inner inner' operand operand' : Parser Expr}

theorem primary_unlined (within : Unlined inner inner') : Unlined (primary inner) (primary inner') := by
  apply peek_unlined.bind
  intro t
  obtain ⟨kind, lexeme, line⟩ := t
  cases kind with
  | symbol word =>
      cases word
      case falseWord | trueWord | nilWord => exact skip_unlined.bind fun _ => .pure rfl
      case thisWord => exact skip_unlined.bind fun _ => (refer_unlined _).bind fun _ => .pure rfl
      case superWord =>
        apply skip_unlined.bind
        intro _
        apply (expect_unlined _ _).bind
        intro _
        apply (expectName_unlined _).bind
        intro method
        exact (refer_unlined _).bind fun _ => .pure rfl
      case leftParen =>
        apply skip_unlined.bind
        intro _
        apply within.bind
        intro value
        exact (expect_unlined _ _).bind fun _ => .pure rfl
      all_goals exact fail_unlined _
  | identifier => exact skip_unlined.bind fun _ => (refer_unlined _).bind fun _ => .pure rfl
  | number | string => exact skip_unlined.bind fun _ => .pure rfl
  | endOfInput => exact fail_unlined _

theorem argument_unlined (within : Unlined inner inner') (count : Nat) :
    Unlined (argument inner count) (argument inner' count) := by
  apply ite_unlined
  · apply peek_unlined.bind
    intro t
    exact (report_unlined _ t).bind fun _ => within
  · exact within

theorem arguments_unlined (within : Unlined inner inner') (count k : Nat) :
    Unlined (arguments inner count k) (arguments inner' count k) := by
  induction k generalizing count with
  | zero => exact (argument_unlined within count).bind fun _ => .pure rfl
  | succ k ih =>
      apply (argument_unlined within count).bind
      intro first
      apply accept_unlined
      · intro _
        exact (ih (count + 1)).bind fun _ => .pure rfl
      · exact .pure rfl

theorem suffixes_unlined (within : Unlined inner inner') (target : Expr) (k : Nat) :
    Unlined (suffixes inner target k) (suffixes inner' (unlined target) k) := by
  induction k generalizing target with
  | zero => exact .pure rfl
  | succ k ih =>
      have closing (values : List Expr) : Unlined
          (do
            let paren ← expect .rightParen .argumentsEnd
            suffixes inner (.call target paren values) k)
          (do
            let paren ← expect .rightParen .argumentsEnd
            suffixes inner' (.call (unlined target) paren (unlined values)) k) := by
        apply (expect_unlined _ _).bind
        intro paren
        exact unlined_call target paren values ▸ ih (.call target paren values)
      apply accept_unlined
      · intro _
        apply (at?_unlined _).bind
        intro empty
        apply ite_unlined
        · exact (Unlined.pure rfl).bind closing
        · exact (withRounds_unlined (arguments_unlined within 0)).bind closing
      · apply accept_unlined
        · intro _
          apply (expectName_unlined _).bind
          intro name
          exact ih (.get target name)
        · exact .pure rfl

theorem calls_unlined (within : Unlined inner inner') : Unlined (calls inner) (calls inner') := by
  apply (primary_unlined within).bind
  intro target
  exact withRounds_unlined (suffixes_unlined within target)

theorem signs_unlined (same : Unlined operand operand') (k : Nat) :
    Unlined (signs operand k) (signs operand' k) := by
  induction k with
  | zero => exact same
  | succ k ih =>
      apply accept_unlined
      · intro _
        exact ih.bind fun _ => .pure rfl
      · exact same

/-- The tree of a level has no lines but those of its parts. -/
def Level.Ignores (level : Level) : Prop :=
  ∀ left operator right,
    unlined (level.build left operator right) = level.build (unlined left) (unlined operator) (unlined right)

theorem levels_ignore : ∀ level ∈ levels, level.Ignores := by
  unfold levels
  simp only [List.forall_mem_cons]
  exact ⟨fun _ _ _ => rfl, fun _ _ _ => rfl, fun _ _ _ => rfl, fun _ _ _ => rfl, fun _ _ _ => rfl,
    fun _ _ _ => rfl, nofun⟩

theorem chain_unlined {level : Level} (ignores : level.Ignores) (same : Unlined operand operand')
    (left : Expr) (k : Nat) : Unlined (chain level operand left k) (chain level operand' (unlined left) k) := by
  induction k generalizing left with
  | zero => exact .pure rfl
  | succ k ih =>
      apply accept_unlined
      · intro operator
        apply same.bind
        intro right
        exact ignores left operator right ▸ ih (level.build left operator right)
      · exact .pure rfl

theorem operations_unlined (same : Unlined operand operand') (levels : List Level)
    (ignore : ∀ level ∈ levels, level.Ignores) :
    Unlined (operations operand levels) (operations operand' levels) := by
  induction levels with
  | nil => exact same
  | cons level tighter ih =>
      rw [List.forall_mem_cons] at ignore
      have inside := ih ignore.2
      apply inside.bind
      intro left
      exact withRounds_unlined (chain_unlined ignore.1 inside left)

theorem assignTo_unlined (target : Expr) (equals : Token) (value : Expr) :
    Unlined (assignTo target equals value) (assignTo (unlined target) (unlined equals) (unlined value)) := by
  cases target with
  | read | get => exact .pure rfl
  | _ => exact (report_unlined _ _).bind fun _ => .pure rfl

theorem expressionWithin_unlined (k : Nat) : Unlined (expressionWithin k) (expressionWithin k) := by
  induction k with
  | zero => exact fail_unlined _
  | succ k ih =>
      have operand := withRounds_unlined (signs_unlined (calls_unlined ih))
      apply (operations_unlined operand levels levels_ignore).bind
      intro target
      apply accept_unlined
      · intro equals
        apply ih.bind
        intro value
        exact assignTo_unlined target equals value
      · exact .pure rfl

theorem expression_unlined : Unlined expression expression :=
  withRounds_unlined expressionWithin_unlined

end Expressions

/-! ## Statements -/

section Statements

variable {declaration declaration' : Parser (Option Stmt)} {statement statement' : Parser Stmt}

theorem items_unlined (first : Option Stmt) (rest : List Stmt) :
    unlined (first.toList ++ rest) = (unlined first).toList ++ unlined rest := by
  cases first with
  | none | some => rfl

theorem blockItems_unlined (within : Unlined declaration declaration') (k : Nat) :
    Unlined (blockItems declaration k) (blockItems declaration' k) := by
  induction k with
  | zero => exact .pure rfl
  | succ k ih =>
      apply (at?_unlined _).bind
      intro closes
      apply atEnd_unlined.bind
      intro ends
      apply ite_unlined (.pure rfl)
      apply within.bind
      intro first
      apply ih.bind
      intro rest
      exact .pure (items_unlined first rest).symm

theorem block_unlined (within : Unlined declaration declaration') :
    Unlined (block declaration) (block declaration') := by
  apply (withRounds_unlined (blockItems_unlined within)).bind
  intro body
  exact (expect_unlined _ _).bind fun _ => .pure rfl

theorem parameter_unlined (count : Nat) : Unlined (parameter count) (parameter count) := by
  apply ite_unlined
  · apply peek_unlined.bind
    intro t
    exact (report_unlined _ t).bind fun _ => expectName_unlined _
  · exact expectName_unlined _

theorem parameters_unlined (count k : Nat) : Unlined (parameters count k) (parameters count k) := by
  induction k generalizing count with
  | zero => exact (parameter_unlined count).bind fun _ => .pure rfl
  | succ k ih =>
      apply (parameter_unlined count).bind
      intro first
      apply accept_unlined
      · intro _
        exact (ih (count + 1)).bind fun _ => .pure rfl
      · exact .pure rfl

theorem function_unlined (within : Unlined declaration declaration') (role : FunctionRole) :
    Unlined (function declaration role) (function declaration' role) := by
  apply (expectName_unlined _).bind
  intro name
  apply (expect_unlined _ _).bind
  intro _
  have body (params : List Token) : Unlined
      (do
        let _ ← expect .rightParen .parametersEnd
        let _ ← expect .leftBrace (.functionBody role)
        let body ← block declaration
        pure (FunctionDecl.mk name params body))
      (do
        let _ ← expect .rightParen .parametersEnd
        let _ ← expect .leftBrace (.functionBody role)
        let body ← block declaration'
        pure (FunctionDecl.mk (unlined name) (unlined params) body)) := by
    apply (expect_unlined _ _).bind
    intro _
    apply (expect_unlined _ _).bind
    intro _
    apply (block_unlined within).bind
    intro body
    exact .pure (unlined_function name params body).symm
  apply (at?_unlined _).bind
  intro empty
  apply ite_unlined
  · exact (Unlined.pure rfl).bind body
  · exact (withRounds_unlined (parameters_unlined 0)).bind body

theorem methods_unlined (within : Unlined declaration declaration') (k : Nat) :
    Unlined (methods declaration k) (methods declaration' k) := by
  induction k with
  | zero => exact .pure rfl
  | succ k ih =>
      apply (at?_unlined _).bind
      intro closes
      apply atEnd_unlined.bind
      intro ends
      apply ite_unlined (.pure rfl)
      apply (function_unlined within .method).bind
      intro first
      exact ih.bind fun rest => .pure rfl

theorem classDeclaration_unlined (within : Unlined declaration declaration') :
    Unlined (classDeclaration declaration) (classDeclaration declaration') := by
  apply (expectName_unlined _).bind
  intro name
  have body (superclass : Option Reference) : Unlined
      (do
        let _ ← expect .leftBrace .classBody
        let members ← withRounds (methods declaration)
        let _ ← expect .rightBrace .classEnd
        pure (Stmt.classDecl name superclass members))
      (do
        let _ ← expect .leftBrace .classBody
        let members ← withRounds (methods declaration')
        let _ ← expect .rightBrace .classEnd
        pure (Stmt.classDecl (unlined name) (unlined superclass) members)) := by
    apply (expect_unlined _ _).bind
    intro _
    apply (withRounds_unlined (methods_unlined within)).bind
    intro members
    apply (expect_unlined _ _).bind
    intro _
    exact .pure (unlined_classDecl name superclass members).symm
  apply accept_unlined
  · intro _
    apply (expectName_unlined _).bind
    intro parent
    apply (refer_unlined parent).bind
    intro r
    exact (Unlined.pure rfl).bind body
  · exact (Unlined.pure rfl).bind body

theorem varDeclaration_unlined : Unlined varDeclaration varDeclaration := by
  apply (expectName_unlined _).bind
  intro name
  have ending (initializer : Option Expr) : Unlined
      (do
        let _ ← expect .semicolon .variableEnd
        pure (Stmt.varDecl name initializer))
      (do
        let _ ← expect .semicolon .variableEnd
        pure (Stmt.varDecl (unlined name) (unlined initializer))) :=
    (expect_unlined _ _).bind fun _ => .pure rfl
  apply accept_unlined
  · intro _
    apply expression_unlined.bind
    intro value
    exact (Unlined.pure rfl).bind ending
  · exact (Unlined.pure rfl).bind ending

theorem expressionStatement_unlined : Unlined expressionStatement expressionStatement := by
  apply expression_unlined.bind
  intro value
  exact (expect_unlined _ _).bind fun _ => .pure rfl

theorem expressionBefore_unlined (symbol : Symbol) :
    Unlined (expressionBefore symbol) (expressionBefore symbol) := by
  apply (at?_unlined _).bind
  intro empty
  apply ite_unlined
  · exact .pure rfl
  · exact expression_unlined.bind fun _ => .pure rfl

theorem loopInitializer_unlined : Unlined loopInitializer loopInitializer := by
  apply accept_unlined
  · exact fun _ => .pure rfl
  apply accept_unlined
  · exact fun _ => varDeclaration_unlined.bind fun _ => .pure rfl
  · exact expressionStatement_unlined.bind fun _ => .pure rfl

theorem unlined_loopStatement (initializer : Option Stmt) (condition increment : Option Expr) (body : Stmt) :
    unlined (loopStatement initializer condition increment body) =
      loopStatement (unlined initializer) (unlined condition) (unlined increment) (unlined body) := by
  cases initializer <;> cases condition <;> cases increment <;> rfl

theorem forStatement_unlined (inside : Unlined statement statement') :
    Unlined (forStatement statement) (forStatement statement') := by
  apply (expect_unlined _ _).bind
  intro _
  apply loopInitializer_unlined.bind
  intro initializer
  apply (expressionBefore_unlined _).bind
  intro condition
  apply (expect_unlined _ _).bind
  intro _
  apply (expressionBefore_unlined _).bind
  intro increment
  apply (expect_unlined _ _).bind
  intro _
  apply inside.bind
  intro body
  exact .pure (unlined_loopStatement initializer condition increment body).symm

theorem ifStatement_unlined (inside : Unlined statement statement') :
    Unlined (ifStatement statement) (ifStatement statement') := by
  apply (expect_unlined _ _).bind
  intro _
  apply expression_unlined.bind
  intro condition
  apply (expect_unlined _ _).bind
  intro _
  apply inside.bind
  intro thenBranch
  apply accept_unlined
  · intro _
    apply inside.bind
    intro other
    exact (Unlined.pure rfl).bind fun _ => .pure (unlined_ifElse condition thenBranch _).symm
  · exact (Unlined.pure rfl).bind fun _ => .pure (unlined_ifElse condition thenBranch _).symm

theorem whileStatement_unlined (inside : Unlined statement statement') :
    Unlined (whileStatement statement) (whileStatement statement') := by
  apply (expect_unlined _ _).bind
  intro _
  apply expression_unlined.bind
  intro condition
  apply (expect_unlined _ _).bind
  intro _
  exact inside.bind fun _ => .pure rfl

theorem printStatement_unlined : Unlined printStatement printStatement := by
  apply expression_unlined.bind
  intro value
  exact (expect_unlined _ _).bind fun _ => .pure rfl

theorem returnStatement_unlined (keyword : Token) :
    Unlined (returnStatement keyword) (returnStatement (unlined keyword)) := by
  apply (expressionBefore_unlined _).bind
  intro value
  exact (expect_unlined _ _).bind fun _ => .pure rfl

theorem statementWith_unlined (within : Unlined declaration declaration') (inside : Unlined statement statement') :
    Unlined (statementWith declaration statement) (statementWith declaration' statement') := by
  apply accept_unlined
  · exact fun _ => forStatement_unlined inside
  apply accept_unlined
  · exact fun _ => ifStatement_unlined inside
  apply accept_unlined
  · exact fun _ => printStatement_unlined
  apply accept_unlined
  · exact returnStatement_unlined
  apply accept_unlined
  · exact fun _ => whileStatement_unlined inside
  apply accept_unlined
  · intro _
    apply (block_unlined within).bind
    intro body
    exact .pure (unlined_block body).symm
  · exact expressionStatement_unlined

theorem declarationWith_unlined (within : Unlined declaration declaration') (inside : Unlined statement statement') :
    Unlined (declarationWith declaration statement) (declarationWith declaration' statement') := by
  apply accept_unlined
  · exact fun _ => classDeclaration_unlined within
  apply accept_unlined
  · exact fun _ => (function_unlined within .function).bind fun _ => .pure rfl
  apply accept_unlined
  · exact fun _ => varDeclaration_unlined
  · exact statementWith_unlined within inside

end Statements

/-! ## Recovery -/

theorem resume_unlined (last : Token) (ts : List Token) :
    resume (unlined last) (unlined ts) = unlined (resume last ts) := by
  induction ts generalizing last with
  | nil => rfl
  | cons t ts ih =>
      show resume (unlined last) (unlined t :: unlined ts) = _
      rw [resume, resume, ih, apply_ite unlined]
      rfl

theorem synchronize_unlined (ts : List Token) : synchronize (unlined ts) = unlined (synchronize ts) := by
  cases ts with
  | nil => rfl
  | cons t ts =>
      show synchronize (unlined t :: unlined ts) = _
      rw [synchronize, synchronize, resume_unlined, apply_ite unlined]
      rfl

theorem recover_unlined {parser parser' : Parser Stmt} (same : Unlined parser parser') :
    Unlined (recover parser) (recover parser') := by
  intro s
  rw [recover, recover, same s]
  cases parser s with
  | ok statement s' => rfl
  | error e s' =>
      show EStateM.Result.ok none (State.mk (synchronize (unlined s'.rest)) s'.nextId
          ((unlined s'.errors).push (unlined e))) =
        .ok none ⟨unlined (synchronize s'.rest), s'.nextId, unlined (s'.errors.push e)⟩
      rw [synchronize_unlined, push_unlined]

theorem declaration_statement_unlined (k : Nat) :
    Unlined (declaration k) (declaration k) ∧ Unlined (statement k) (statement k) := by
  induction k with
  | zero => exact ⟨recover_unlined (fail_unlined _), fail_unlined _⟩
  | succ k ih =>
      exact ⟨recover_unlined (declarationWith_unlined ih.1 ih.2), statementWith_unlined ih.1 ih.2⟩

theorem programItems_unlined (tokens k : Nat) :
    Unlined (programItems (declaration tokens) k) (programItems (declaration tokens) k) := by
  induction k with
  | zero => exact .pure rfl
  | succ k ih =>
      apply atEnd_unlined.bind
      intro ends
      apply ite_unlined (.pure rfl)
      apply (declaration_statement_unlined tokens).1.bind
      intro first
      apply ih.bind
      intro rest
      exact .pure (items_unlined first rest).symm

theorem program_unlined : Unlined program program :=
  withRounds_unlined fun tokens => programItems_unlined tokens tokens

theorem wholeExpression_unlined : Unlined wholeExpression wholeExpression := by
  apply expression_unlined.bind
  intro value
  apply atEnd_unlined.bind
  intro ended
  cases ended with
  | true => exact .pure rfl
  | false =>
      apply peek_unlined.bind
      intro t
      exact (report_unlined _ t).bind fun _ => .pure rfl

theorem run_unlined {parser : Parser α} (same : Unlined parser parser) (tokens : List Token) :
    run parser (unlined tokens) = unlined (run parser tokens) := by
  have start : unlined (State.mk tokens 0 #[]) = ⟨unlined tokens, 0, #[]⟩ :=
    congrArg (State.mk (unlined tokens) 0) Array.map_empty
  have here := same ⟨tokens, 0, #[]⟩
  rw [start] at here
  rw [run, run, here]
  cases parser ⟨tokens, 0, #[]⟩ with
  | ok value s =>
      show (if (unlined s.errors).isEmpty then .ok (unlined value) else .error (unlined s.errors).toList) =
        unlined (if s.errors.isEmpty then Except.ok value else .error s.errors.toList)
      rw [isEmpty_unlined, toList_unlined, apply_ite unlined]
      rfl
  | error e s =>
      show Except.error ((unlined s.errors).toList ++ [unlined e]) = .error (unlined (s.errors.toList ++ [e]))
      rw [toList_unlined]
      exact congrArg Except.error (append_unlined s.errors.toList [e])

end Parser

theorem parseProgram_unlined (tokens : List Token) :
    parseProgram (unlined tokens) = unlined (parseProgram tokens) :=
  Parser.run_unlined Parser.program_unlined tokens

theorem parseExpression_unlined (tokens : List Token) :
    parseExpression (unlined tokens) = unlined (parseExpression tokens) :=
  Parser.run_unlined Parser.wholeExpression_unlined tokens

end Lox
