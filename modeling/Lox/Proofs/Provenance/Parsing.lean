import Mathlib
import Lox.Proofs.Parser.Cursor
import Lox.Proofs.Provenance.Trees

/-!
# Trees and errors are made of the tokens that are read

A parser that starts in front of the end of the input keeps only tokens that it was given, in the tree that it
gives and in the errors that it reports or fails with (`Draws`). It never passes the end of the input, so there
is a token wherever it looks, and the one that stands for a missing end is not used.
-/

namespace Lox.Parser
open Grammar

/-- What is left and what has been reported is from the source, and the end of the input is still to come. -/
structure Supplied (source : List Token) (s : State) : Prop where
  rest : s.rest ⊆ source
  ends : ¬ Endless s.rest
  errors : cited s.errors ⊆ source

variable {source : List Token} {s : State} {α β : Type} [Citing α] [Citing β]

theorem Supplied.exists_rest (supplied : Supplied source s) : ∃ rest, s.rest = s.next :: rest := by
  cases here : s.rest with
  | nil => exact (supplied.ends (here ▸ endless_nil)).elim
  | cons t rest => exact ⟨rest, by simp [State.next, here]⟩

theorem Supplied.next_mem (supplied : Supplied source s) : s.next ∈ source := by
  obtain ⟨rest, here⟩ := supplied.exists_rest
  exact supplied.rest (by simp [here])

theorem Supplied.tail (supplied : Supplied source s) (kind : s.next.kind ≠ .endOfInput) :
    Supplied source { s with rest := s.rest.tail } := by
  obtain ⟨rest, here⟩ := supplied.exists_rest
  have ends := supplied.ends
  rw [here, endless_cons] at ends
  refine ⟨fun t mem => supplied.rest (List.mem_of_mem_tail mem), fun endless => ?_, supplied.errors⟩
  exact ends ⟨kind, by simpa [here] using endless⟩

theorem Supplied.leads {ts : List Token} (supplied : Supplied source s) (leads : Leads s.rest ts) :
    Supplied source { s with rest := ts } := by
  obtain ⟨taken, endless, passed⟩ := leads
  refine ⟨fun t mem => supplied.rest (by simp [passed, mem]), fun others => ?_, supplied.errors⟩
  exact supplied.ends (passed ▸ endless_append.mpr ⟨endless, others⟩)

theorem Supplied.push (supplied : Supplied source s) {error : SyntaxError} (blames : error.token ∈ source) :
    Supplied source { s with errors := s.errors.push error } :=
  ⟨supplied.rest, supplied.ends, by simp [supplied.errors, blames]⟩

inductive Drawn (source : List Token) : EStateM.Result SyntaxError State α → Prop where
  | ok {a : α} {s : State} (supplied : Supplied source s) (given : cited a ⊆ source) : Drawn source (.ok a s)
  | error {e : SyntaxError} {s : State} (supplied : Supplied source s) (blames : e.token ∈ source) : Drawn source (.error e s)

def Draws (source : List Token) (parser : Parser α) : Prop := ∀ s, Supplied source s → Drawn source (parser s)

namespace Draws

/-! ## Steps -/

theorem pure {a : α} (given : cited a ⊆ source) : Draws source (Pure.pure a : Parser α) :=
  fun _ supplied => .ok supplied given

theorem bind {parser : Parser α} {next : α → Parser β} (first : Draws source parser)
    (rest : ∀ a, cited a ⊆ source → Draws source (next a)) : Draws source (parser >>= next) := by
  intro s supplied
  have drawn := first s supplied
  cases read : parser s with
  | ok a s' =>
      rw [read] at drawn
      rw [bind_of read]
      cases drawn with
      | ok supplied given => exact rest a given s' supplied
  | error e s' =>
      rw [read] at drawn
      rw [bind_of_error read]
      cases drawn with
      | error supplied blames => exact .error supplied blames

theorem ite {condition : Prop} [Decidable condition] {yes no : Parser α} (first : Draws source yes)
    (second : Draws source no) : Draws source (if condition then yes else no) := by
  split
  · exact first
  · exact second

theorem withRounds {parser : Nat → Parser α} (draws : ∀ rounds, Draws source (parser rounds)) :
    Draws source (Parser.withRounds parser) :=
  fun s => draws s.rest.length s

theorem skip_then {parser : Parser α} (draws : Draws source parser) (supplied : Supplied source s)
    (kind : s.next.kind ≠ .endOfInput) : Drawn source ((do skip; parser) s) :=
  draws _ (supplied.tail kind)

theorem peek : Draws source Parser.peek :=
  fun _ supplied => .ok supplied (by simpa using supplied.next_mem)

theorem look {next : Token → Parser α} (drawn : Drawn source (next s.next s)) :
    Drawn source ((Parser.peek >>= next) s) := drawn

theorem fail (cause : SyntaxError.Cause) : Draws source (Parser.fail cause : Parser α) :=
  fun _ supplied => .error supplied supplied.next_mem

theorem report (cause : SyntaxError.Cause) {token : Token} (known : token ∈ source) :
    Draws source (Parser.report cause token) :=
  fun _ supplied => .ok (supplied.push known) (by simp)

theorem atEnd : Draws source Parser.atEnd :=
  fun _ supplied => .ok supplied (by simp)

theorem at? (symbol : Symbol) : Draws source (Parser.at? symbol) :=
  fun _ supplied => .ok supplied (by simp)

theorem refer {token : Token} (known : token ∈ source) : Draws source (Parser.refer token) :=
  fun _ supplied => .ok ⟨supplied.rest, supplied.ends, supplied.errors⟩ (by simpa using known)

theorem acceptAny (symbols : List Symbol) : Draws source (Parser.acceptAny symbols) := by
  intro s supplied
  obtain ⟨rest, here⟩ := supplied.exists_rest
  unfold Parser.acceptAny
  rw [here]
  by_cases taken : symbols.any s.next.kind.isSymbol
  · obtain ⟨symbol, -, kind⟩ := any_isSymbol_iff.mp taken
    have after := supplied.tail (by simp [kind])
    simp only [here, List.tail_cons] at after
    simpa only [if_pos taken] using Drawn.ok (a := some s.next) after (by simpa using supplied.next_mem)
  · simpa only [if_neg taken] using Drawn.ok (a := (none : Option Token)) supplied (by simp)

theorem accept (symbol : Symbol) : Draws source (Parser.accept symbol) := acceptAny [symbol]

theorem accepted {symbol : Symbol} {yes no : Parser α} (taken : Draws source yes) (other : Draws source no) :
    Draws source (do if (← Parser.accept symbol).isSome then yes else no) :=
  (accept symbol).bind fun _ _ => ite taken other

theorem expect (symbol : Symbol) (cause : SyntaxError.Cause) : Draws source (Parser.expect symbol cause) := by
  refine (accept symbol).bind fun found known => ?_
  cases found with
  | some token => exact pure known
  | none => exact fail cause

theorem expectName (cause : SyntaxError.Cause) : Draws source (Parser.expectName cause) := by
  intro s supplied
  refine look ?_
  cases kind : s.next.kind with
  | identifier => exact skip_then (pure (by simpa using supplied.next_mem)) supplied (by simp [kind])
  | _ => exact fail cause s supplied

/-! ## Expressions -/

section Expressions

variable {inner operand : Parser Expr}

theorem primary (within : Draws source inner) : Draws source (Parser.primary inner) := by
  intro s supplied
  have known := supplied.next_mem
  have taken {parser : Parser Expr} (kind : s.next.kind ≠ .endOfInput) (draws : Draws source parser) :
      Drawn source ((do skip; parser) s) := skip_then draws supplied kind
  refine look ?_
  cases kind : s.next.kind with
  | symbol word =>
      have notEnd : s.next.kind ≠ .endOfInput := by simp [kind]
      cases word
      case falseWord | trueWord | nilWord => exact taken notEnd (pure (by simp))
      case thisWord => exact taken notEnd ((refer known).bind fun r kept => pure (by simpa using kept))
      case superWord =>
        refine taken notEnd ((expect _ _).bind fun _ _ => (expectName _).bind fun method named => ?_)
        exact (refer known).bind fun r kept => pure (by simp_all)
      case leftParen =>
        refine taken notEnd (within.bind fun value kept => (expect _ _).bind fun _ _ => ?_)
        exact pure (by simpa using kept)
      all_goals exact fail _ s supplied
  | identifier => exact taken (by simp [kind]) ((refer known).bind fun r kept => pure (by simpa using kept))
  | number | string => exact taken (by simp [kind]) (pure (by simp))
  | endOfInput => exact fail _ s supplied

theorem argument (within : Draws source inner) (count : Nat) : Draws source (Parser.argument inner count) := by
  refine ite ?_ within
  exact peek.bind fun t known => (report _ (by simpa using known)).bind fun _ _ => within

theorem arguments (within : Draws source inner) (count rounds : Nat) :
    Draws source (Parser.arguments inner count rounds) := by
  induction rounds generalizing count with
  | zero => exact (argument within count).bind fun first known => pure (by simpa using known)
  | succ rounds ih =>
      refine (argument within count).bind fun first known => (accept _).bind fun found _ => ?_
      cases found with
      | some _ => exact (ih (count + 1)).bind fun others more => pure (by simpa using ⟨known, more⟩)
      | none => exact pure (by simpa using known)

theorem suffixes (within : Draws source inner) {target : Expr} (known : cited target ⊆ source) (rounds : Nat) :
    Draws source (Parser.suffixes inner target rounds) := by
  induction rounds generalizing target with
  | zero => exact pure known
  | succ rounds ih =>
      have closing (values : List Expr) (given : cited values ⊆ source) : Draws source (do
          let paren ← Parser.expect .rightParen .argumentsEnd
          Parser.suffixes inner (.call target paren values) rounds) :=
        (expect _ _).bind fun paren closed => ih (by simp_all)
      refine accepted ((at? _).bind fun _ _ => ite ((pure (by simp)).bind closing) ?_) (accepted ?_ (pure known))
      · exact (withRounds (arguments within 0)).bind closing
      · exact (expectName _).bind fun name named => ih (by simp_all)

theorem calls (within : Draws source inner) : Draws source (Parser.calls inner) :=
  (primary within).bind fun _ known => withRounds (suffixes within known)

theorem signs (draws : Draws source operand) (rounds : Nat) : Draws source (Parser.signs operand rounds) := by
  induction rounds with
  | zero => exact draws
  | succ rounds ih =>
      refine (acceptAny _).bind fun found known => ?_
      cases found with
      | some operator => exact ih.bind fun right more => pure (by simp_all)
      | none => exact draws

/-- The tree of a level keeps its operator and what its operands keep. -/
def Plainly (level : Level) : Prop :=
  ∀ left operator right, cited (level.build left operator right) = cited left ++ operator :: cited right

theorem chain {level : Level} (plainly : Plainly level) (draws : Draws source operand) {left : Expr}
    (known : cited left ⊆ source) (rounds : Nat) : Draws source (Parser.chain level operand left rounds) := by
  induction rounds generalizing left with
  | zero => exact pure known
  | succ rounds ih =>
      refine (acceptAny _).bind fun found given => ?_
      cases found with
      | some operator => exact draws.bind fun right more => ih (by simp_all [plainly left operator right])
      | none => exact pure known

theorem operations (draws : Draws source operand) :
    ∀ levels : List Level, (∀ level ∈ levels, Plainly level) → Draws source (Parser.operations operand levels)
  | [], _ => draws
  | level :: tighter, plainly => by
      rw [List.forall_mem_cons] at plainly
      have inside := operations draws tighter plainly.2
      exact inside.bind fun left known => withRounds (chain plainly.1 inside known)

theorem levels_plainly : ∀ level ∈ levels, Plainly level := by
  simp [levels, Plainly]

theorem assignTo {target value : Expr} {equals : Token} (first : cited target ⊆ source)
    (given : equals ∈ source) (second : cited value ⊆ source) :
    Draws source (Parser.assignTo target equals value) := by
  cases target with
  | read | get => exact pure (by simp_all)
  | _ => exact (report _ given).bind fun _ _ => pure first

theorem expressionWithin (n : Nat) : Draws source (Parser.expressionWithin n) := by
  induction n with
  | zero => exact fail _
  | succ n ih =>
      have operand : Draws source (Parser.withRounds (Parser.signs (Parser.calls (Parser.expressionWithin n)))) :=
        withRounds (signs (calls ih))
      refine (operations operand levels levels_plainly).bind fun target known => (accept _).bind fun found given => ?_
      cases found with
      | some equals => exact ih.bind fun value more => assignTo known (by simpa using given) more
      | none => exact pure known

theorem expression : Draws source Parser.expression := withRounds expressionWithin

end Expressions

/-! ## Parts of statements -/

theorem varDeclaration : Draws source Parser.varDeclaration := by
  refine (expectName _).bind fun name named => ?_
  have closing (initializer : Option Expr) (known : cited initializer ⊆ source) : Draws source (do
      let _ ← Parser.expect .semicolon .variableEnd
      Pure.pure (Stmt.varDecl name initializer)) :=
    (expect _ _).bind fun _ _ => pure (by simp_all)
  refine accepted (expression.bind fun value known => ?_) ((pure (by simp)).bind closing)
  exact (pure (a := some value) known).bind closing

theorem expressionStatement : Draws source Parser.expressionStatement :=
  expression.bind fun _ known => (expect _ _).bind fun _ _ => pure known

theorem expressionBefore (symbol : Symbol) : Draws source (Parser.expressionBefore symbol) :=
  (at? symbol).bind fun _ _ => ite (pure (by simp)) (expression.bind fun _ known => pure known)

theorem loopInitializer : Draws source Parser.loopInitializer :=
  accepted (pure (by simp)) (accepted (varDeclaration.bind fun _ known => pure known)
    (expressionStatement.bind fun _ known => pure known))

theorem printStatement : Draws source Parser.printStatement :=
  expression.bind fun _ known => (expect _ _).bind fun _ _ => pure known

theorem returnStatement {keyword : Token} (given : keyword ∈ source) :
    Draws source (Parser.returnStatement keyword) :=
  (expressionBefore _).bind fun _ known => (expect _ _).bind fun _ _ => pure (by simp_all)

theorem parameter (count : Nat) : Draws source (Parser.parameter count) := by
  refine ite ?_ (expectName _)
  exact peek.bind fun t known => (report _ (by simpa using known)).bind fun _ _ => expectName _

theorem parameters (count rounds : Nat) : Draws source (Parser.parameters count rounds) := by
  induction rounds generalizing count with
  | zero => exact (parameter count).bind fun first known => pure (by simpa using known)
  | succ rounds ih =>
      refine (parameter count).bind fun first known => (accept _).bind fun found _ => ?_
      cases found with
      | some _ => exact (ih (count + 1)).bind fun others more => pure (by simp_all)
      | none => exact pure (by simpa using known)

section Statements

variable {statement : Parser Stmt}

theorem whileStatement (within : Draws source statement) : Draws source (Parser.whileStatement statement) :=
  (expect _ _).bind fun _ _ => expression.bind fun _ known => (expect _ _).bind fun _ _ =>
    within.bind fun _ more => pure (by simp_all)

theorem ifStatement (within : Draws source statement) : Draws source (Parser.ifStatement statement) := by
  refine (expect _ _).bind fun _ _ => expression.bind fun condition known => (expect _ _).bind fun _ _ =>
    within.bind fun thenBranch first => accepted (within.bind fun elseBranch second => ?_) ?_
  · exact (pure (a := some elseBranch) second).bind fun other third => pure (by simp_all)
  · exact (pure (by simp)).bind fun other third => pure (by simp_all)

theorem cited_loopStatement {initializer : Option Stmt} {condition increment : Option Expr} {body : Stmt}
    (first : cited initializer ⊆ source) (second : cited condition ⊆ source) (third : cited increment ⊆ source)
    (inside : cited body ⊆ source) : cited (loopStatement initializer condition increment body) ⊆ source := by
  cases initializer <;> cases condition <;> cases increment <;> simp_all [loopStatement]

theorem forStatement (within : Draws source statement) : Draws source (Parser.forStatement statement) := by
  refine (expect _ _).bind fun _ _ => loopInitializer.bind fun initializer first => ?_
  refine (expressionBefore _).bind fun condition second => (expect _ _).bind fun _ _ => ?_
  refine (expressionBefore _).bind fun increment third => (expect _ _).bind fun _ _ => ?_
  exact within.bind fun body inside => pure (cited_loopStatement first second third inside)

end Statements

/-! ## Declarations and statements -/

section Declarations

variable {declaration : Parser (Option Stmt)} {statement : Parser Stmt}

theorem items {rest : Parser (List Stmt)} (within : Draws source declaration) (more : Draws source rest) :
    Draws source (do return (← declaration).toList ++ (← rest)) :=
  within.bind fun _ first => more.bind fun _ others => pure (by simp_all)

theorem blockItems (within : Draws source declaration) (rounds : Nat) :
    Draws source (Parser.blockItems declaration rounds) := by
  induction rounds with
  | zero => exact pure (by simp)
  | succ rounds ih =>
      exact (at? _).bind fun _ _ => atEnd.bind fun _ _ => ite (pure (by simp)) (items within ih)

theorem block (within : Draws source declaration) : Draws source (Parser.block declaration) :=
  (withRounds (blockItems within)).bind fun _ known => (expect _ _).bind fun _ _ => pure known

theorem function (within : Draws source declaration) (role : FunctionRole) :
    Draws source (Parser.function declaration role) := by
  refine (expectName _).bind fun name named => (expect _ _).bind fun _ _ => ?_
  have closing (params : List Token) (known : cited params ⊆ source) : Draws source (do
      let _ ← Parser.expect .rightParen .parametersEnd
      let _ ← Parser.expect .leftBrace (.functionBody role)
      let body ← Parser.block declaration
      Pure.pure (FunctionDecl.mk name params body)) := by
    refine (expect _ _).bind fun _ _ => (expect _ _).bind fun _ _ => (block within).bind fun body inside => ?_
    exact pure (by simp_all [cited_function])
  exact (at? _).bind fun _ _ => ite ((pure (by simp)).bind closing) ((withRounds (parameters 0)).bind closing)

theorem methods (within : Draws source declaration) (rounds : Nat) :
    Draws source (Parser.methods declaration rounds) := by
  induction rounds with
  | zero => exact pure (by simp)
  | succ rounds ih =>
      refine (at? _).bind fun _ _ => atEnd.bind fun _ _ => ite (pure (by simp)) ?_
      exact (function within .method).bind fun _ first => ih.bind fun _ others => pure (by simp_all)

theorem classDeclaration (within : Draws source declaration) :
    Draws source (Parser.classDeclaration declaration) := by
  refine (expectName _).bind fun name named => ?_
  have closing (superclass : Option Reference) (known : cited superclass ⊆ source) : Draws source (do
      let _ ← Parser.expect .leftBrace .classBody
      let members ← Parser.withRounds (Parser.methods declaration)
      let _ ← Parser.expect .rightBrace .classEnd
      Pure.pure (Stmt.classDecl name superclass members)) := by
    refine (expect _ _).bind fun _ _ => (withRounds (methods within)).bind fun members inside => ?_
    exact (expect _ _).bind fun _ _ => pure (by simp_all)
  refine accepted ((expectName _).bind fun parent given => ?_) ((pure (by simp)).bind closing)
  exact (refer (by simpa using given)).bind fun r known => (pure (a := some r) known).bind closing

theorem statementWith (outer : Draws source declaration) (within : Draws source statement) :
    Draws source (Parser.statementWith declaration statement) := by
  refine accepted (forStatement within) (accepted (ifStatement within) (accepted printStatement ?_))
  refine (accept _).bind fun found given => ?_
  cases found with
  | some keyword => exact returnStatement (by simpa using given)
  | none =>
      refine accepted (whileStatement within) (accepted ?_ expressionStatement)
      exact (block outer).bind fun body known => pure (by simpa using known)

theorem declarationWith (outer : Draws source declaration) (within : Draws source statement) :
    Draws source (Parser.declarationWith declaration statement) := by
  refine accepted (classDeclaration outer) (accepted ?_ (accepted varDeclaration (statementWith outer within)))
  exact (function outer .function).bind fun f known => pure known

theorem recover (within : Draws source statement) : Draws source (Parser.recover statement) := by
  intro s supplied
  have drawn := within s supplied
  cases read : statement s with
  | ok a s' =>
      rw [read] at drawn
      rw [recover_of read]
      cases drawn with
      | ok supplied given => exact .ok supplied given
  | error e s' =>
      rw [read] at drawn
      rw [recover_of_error read]
      cases drawn with
      | error supplied blames =>
          exact .ok ((supplied.leads (synchronize_leads s'.rest)).push blames) (by simp)

theorem declaration_statement (n : Nat) :
    Draws source (Parser.declaration n) ∧ Draws source (Parser.statement n) := by
  induction n with
  | zero =>
      rw [Parser.declaration, Parser.statement]
      exact ⟨recover (fail _), fail _⟩
  | succ n ih =>
      rw [Parser.declaration, Parser.statement]
      exact ⟨recover (declarationWith ih.1 ih.2), statementWith ih.1 ih.2⟩

theorem programItems (within : Draws source declaration) (rounds : Nat) :
    Draws source (Parser.programItems declaration rounds) := by
  induction rounds with
  | zero => exact pure (by simp)
  | succ rounds ih => exact atEnd.bind fun _ _ => ite (pure (by simp)) (items within ih)

end Declarations

theorem program : Draws source Parser.program :=
  withRounds fun tokens => programItems (declaration_statement tokens).1 tokens

theorem wholeExpression : Draws source Parser.wholeExpression := by
  refine expression.bind fun value known => atEnd.bind fun ended _ => ?_
  cases ended with
  | true => exact pure known
  | false => exact peek.bind fun t given => (report _ (by simpa using given)).bind fun _ _ => pure known

end Draws

/-! ## Results -/

theorem Supplied.start (ends : ¬ Endless source) : Supplied source ⟨source, 0, #[]⟩ :=
  ⟨List.Subset.refl source, ends, by simp⟩

theorem Draws.run {parser : Parser α} (draws : Draws source parser) (ends : ¬ Endless source) :
    (∀ a, Parser.run parser source = .ok a → cited a ⊆ source) ∧
      ∀ errors, Parser.run parser source = .error errors → cited errors ⊆ source := by
  have drawn := draws _ (.start ends)
  unfold Parser.run
  cases read : parser ⟨source, 0, #[]⟩ with
  | ok a s =>
      rw [read] at drawn
      cases drawn with
      | ok supplied given =>
          dsimp only
          split
          · exact ⟨fun b same => by cases same; exact given, nofun⟩
          · exact ⟨nofun, fun errors same => by cases same; exact supplied.errors⟩
  | error e s =>
      rw [read] at drawn
      cases drawn with
      | error supplied blames =>
          refine ⟨nofun, fun errors same => ?_⟩
          have reported : cited s.errors.toList ⊆ source := supplied.errors
          cases same
          simp [reported, blames]

end Lox.Parser
