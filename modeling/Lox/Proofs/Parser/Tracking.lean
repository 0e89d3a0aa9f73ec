import Lox.Proofs.Parser.Parallel

/-!
# Every parser reads in parallel

Each parser of the grammar agrees with itself in front of a seam (`Tracks`), if the parsers it is
given do so behind one token more. For declarations and statements, which are read by the number of
tokens left, this goes by induction on that number (`declaration_statement`).
-/

namespace Lox.Parser
open Grammar

namespace Tracks

variable {α : Type} [Shiftable α] {seam : Seam} {n : Nat}

theorem ite {condition : Prop} [Decidable condition] {yes no yes' no' : Parser α}
    (first : Tracks seam n yes yes') (second : Tracks seam n no no') :
    Tracks seam n (if condition then yes else no) (if condition then yes' else no') := by
  split
  · exact first
  · exact second

theorem accepted {symbol : Symbol} {yes no yes' no' : Parser α} (taken : Tracks seam (n - 1) yes yes')
    (other : Tracks seam n no no') :
    Tracks seam n (do if (← Parser.accept symbol).isSome then yes else no)
      (do if (← Parser.accept symbol).isSome then yes' else no') :=
  accept (fun _ => taken) other

theorem weaken {parser parser' : Parser α} (tracks : Tracks seam n parser parser') :
    Tracks seam (n - 1) parser parser' :=
  tracks.mono (Nat.sub_le n 1)

/-! ## Expressions -/

section Expressions

variable {inner inner' : Parser Expr}

theorem primary (within : Tracks seam (n - 1) inner inner') :
    Tracks seam n (Parser.primary inner) (Parser.primary inner') := by
  refine fun t => .look (fun t => t) (fun _ => rfl) ?_
  have taken {parser parser' : Parser Expr} (kind : t.kind ≠ .endOfInput)
      (tracks : Tracks seam (n - 1) parser parser') :
      TracksFrom seam n t (do skip; parser) (do skip; parser') := .skip_then kind tracks
  cases kind : t.kind with
  | symbol word =>
      have notEnd : t.kind ≠ .endOfInput := by rw [kind]; nofun
      cases word
      case falseWord | trueWord | nilWord => exact taken notEnd (pure rfl)
      case thisWord => exact taken notEnd ((refer t).bind fun _ => pure rfl)
      case superWord =>
        refine taken notEnd ((expect _ _).bind fun _ => (expectName _).bind fun _ => ?_)
        exact (refer t).bind fun _ => pure rfl
      case leftParen => exact taken notEnd (within.bind fun _ => (expect _ _).bind fun _ => pure rfl)
      all_goals exact fail _ t
  | identifier => exact taken (by rw [kind]; nofun) ((refer t).bind fun _ => pure rfl)
  | number | string => exact taken (by rw [kind]; nofun) (pure rfl)
  | endOfInput => exact fail _ t

theorem argument (within : Tracks seam n inner inner') (count : Nat) :
    Tracks seam n (Parser.argument inner count) (Parser.argument inner' count) := by
  refine ite ?_ within
  exact look (fun t => t) (fun _ => rfl) fun t => (report _ t).bind fun _ => within

theorem arguments (within : Tracks seam n inner inner') :
    Tracks seam n (Parser.withRounds (Parser.arguments inner 0))
      (Parser.withRounds (Parser.arguments inner' 0)) := by
  refine rounds (Parser.arguments inner) (Parser.arguments inner') (fun count => ?_)
    (fun k k' m le ih count => ?_) 0
  · have last : Tracks seam n (Parser.arguments inner count 0) (Parser.arguments inner' count 0) :=
      (argument within count).bind fun _ => pure rfl
    exact last.moves
  · refine (argument (within.mono le) count).bind fun first => accept (fun _ => ?_) (pure rfl)
    exact (ih (count + 1)).bind fun _ => pure rfl

theorem suffixes (within : Tracks seam (n - 1) inner inner') (target : Expr) :
    Tracks seam n (Parser.withRounds (Parser.suffixes inner target))
      (Parser.withRounds (Parser.suffixes inner' (target.shift seam.shift))) := by
  refine rounds (Parser.suffixes inner) (fun target => Parser.suffixes inner' (target.shift seam.shift))
    (fun _ _ => .of_ok rfl (.refl _)) (fun k k' m le ih target => ?_) target
  have closing (values : List Expr) :
      Tracks seam (m - 1)
        (do
          let paren ← Parser.expect .rightParen .argumentsEnd
          Parser.suffixes inner (.call target paren values) k)
        (do
          let paren ← Parser.expect .rightParen .argumentsEnd
          Parser.suffixes inner' (.call (target.shift seam.shift) paren (shift seam.shift values)) k') := by
    refine (expect _ _).bind fun paren => ?_
    exact shift_call seam.shift target paren values ▸ ih (.call target paren values)
  refine accepted (at? fun empty => ite ((pure rfl).bind closing) ?_) (accepted ?_ (pure rfl))
  · exact (arguments (within.mono (by omega))).bind closing
  · exact (expectName _).bind fun name => ih (.get target name)

theorem calls (within : Tracks seam (n - 1) inner inner') :
    Tracks seam n (Parser.calls inner) (Parser.calls inner') :=
  (primary within).bind fun target => suffixes within target

theorem signs {operand operand' : Parser Expr} (tracks : Tracks seam n operand operand') :
    Tracks seam n (Parser.withRounds (Parser.signs operand)) (Parser.withRounds (Parser.signs operand')) := by
  refine rounds (fun _ : Unit => Parser.signs operand) (fun _ => Parser.signs operand')
    (fun _ => tracks.moves) (fun k k' m le ih _ => ?_) ()
  exact acceptAny (fun _ => (ih ()).bind fun _ => pure rfl) (tracks.mono le)

/-- The tree of a level has the references of its operands. -/
def Plainly (level : Level) : Prop :=
  ∀ k left operator right,
    (level.build left operator right).shift k = level.build (left.shift k) operator (right.shift k)

theorem chain {level : Level} (plainly : Plainly level) {operand operand' : Parser Expr}
    (tracks : Tracks seam n operand operand') (left : Expr) :
    Tracks seam n (Parser.withRounds (Parser.chain level operand left))
      (Parser.withRounds (Parser.chain level operand' (left.shift seam.shift))) := by
  refine rounds (Parser.chain level operand)
    (fun left => Parser.chain level operand' (left.shift seam.shift))
    (fun _ _ => .of_ok rfl (.refl _)) (fun k k' m le ih left => ?_) left
  refine acceptAny (fun operator => ?_) (pure rfl)
  refine (tracks.mono (by omega)).bind fun right => ?_
  have more := ih (level.build left operator right)
  rw [plainly] at more
  exact more

theorem operations {operand operand' : Parser Expr} (tracks : Tracks seam n operand operand') :
    ∀ levels : List Level, (∀ level ∈ levels, Plainly level) →
      Tracks seam n (Parser.operations operand levels) (Parser.operations operand' levels)
  | [], _ => tracks
  | level :: tighter, plainly => by
      have inside := operations tracks tighter fun level mem => plainly level (List.mem_cons_of_mem _ mem)
      exact inside.bind fun left => chain (plainly level List.mem_cons_self) inside left

theorem levels_plainly : ∀ level ∈ levels, Plainly level := by
  unfold levels
  simp only [List.forall_mem_cons]
  exact ⟨fun _ _ _ _ => rfl, fun _ _ _ _ => rfl, fun _ _ _ _ => rfl, fun _ _ _ _ => rfl,
    fun _ _ _ _ => rfl, fun _ _ _ _ => rfl, nofun⟩

theorem assignTo (target : Expr) (equals : Token) (value : Expr) :
    Tracks seam n (Parser.assignTo target equals value)
      (Parser.assignTo (target.shift seam.shift) equals (value.shift seam.shift)) := by
  cases target with
  | read | get => exact pure rfl
  | _ => exact (report _ _).bind fun _ => pure rfl

theorem expressionWithin :
    ∀ k k' m, m ≤ n → m ≤ k → m ≤ k' →
      Tracks seam m (Parser.expressionWithin k) (Parser.expressionWithin k') := by
  intro k k' m le short short'
  refine loop (fun _ : Unit => Parser.expressionWithin) (fun _ => Parser.expressionWithin) ?_ ?_
    k k' m le short short' ()
  · exact fun _ s => .fail _ s
  · intro k k' m le ih _
    have target := operations (signs (calls (ih ()))) levels levels_plainly
    refine target.bind fun target => accept (fun equals => ?_) (pure rfl)
    exact (ih ()).bind fun value => assignTo target equals value

theorem expression : Tracks seam n Parser.expression Parser.expression :=
  withRounds expressionWithin

end Expressions

/-! ## Parts of statements -/

theorem varDeclaration : Tracks seam n Parser.varDeclaration Parser.varDeclaration := by
  refine (expectName _).bind fun name => ?_
  have closing {m : Nat} (initializer : Option Expr) :
      Tracks seam m
        (do
          let _ ← Parser.expect .semicolon .variableEnd
          Pure.pure (Stmt.varDecl name initializer))
        (do
          let _ ← Parser.expect .semicolon .variableEnd
          Pure.pure (Stmt.varDecl name (shift seam.shift initializer))) :=
    (expect _ _).bind fun _ => pure rfl
  exact accepted (expression.bind fun _ => (pure rfl).bind closing) ((pure rfl).bind closing)

theorem expressionStatement : Tracks seam n Parser.expressionStatement Parser.expressionStatement :=
  expression.bind fun _ => (expect _ _).bind fun _ => pure rfl

theorem expressionBefore (symbol : Symbol) :
    Tracks seam n (Parser.expressionBefore symbol) (Parser.expressionBefore symbol) :=
  at? fun _ => ite (pure rfl) (expression.bind fun _ => pure rfl)

theorem loopInitializer : Tracks seam n Parser.loopInitializer Parser.loopInitializer :=
  accepted (pure rfl) (accepted (varDeclaration.bind fun _ => pure rfl)
    (expressionStatement.bind fun _ => pure rfl))

theorem printStatement : Tracks seam n Parser.printStatement Parser.printStatement :=
  expression.bind fun _ => (expect _ _).bind fun _ => pure rfl

theorem returnStatement (keyword : Token) :
    Tracks seam n (Parser.returnStatement keyword) (Parser.returnStatement keyword) :=
  (expressionBefore _).bind fun _ => (expect _ _).bind fun _ => pure rfl

theorem parameter (count : Nat) : Tracks seam n (Parser.parameter count) (Parser.parameter count) := by
  refine ite ?_ (expectName _)
  exact look (fun t => t) (fun _ => rfl) fun t => (report _ t).bind fun _ => expectName _

theorem parameters :
    Tracks seam n (Parser.withRounds (Parser.parameters 0)) (Parser.withRounds (Parser.parameters 0)) := by
  refine rounds Parser.parameters Parser.parameters (fun count => ?_) (fun k k' m le ih count => ?_) 0
  · have last : Tracks seam n (Parser.parameters count 0) (Parser.parameters count 0) :=
      (parameter count).bind fun _ => pure rfl
    exact last.moves
  · refine (parameter count).bind fun first => accept (fun _ => ?_) (pure rfl)
    exact (ih (count + 1)).bind fun _ => pure rfl

section Statements

variable {statement statement' : Parser Stmt}

theorem whileStatement (within : Tracks seam n statement statement') :
    Tracks seam n (Parser.whileStatement statement) (Parser.whileStatement statement') :=
  (expect _ _).bind fun _ => expression.bind fun _ => (expect _ _).bind fun _ =>
    within.bind fun _ => pure rfl

theorem ifStatement (within : Tracks seam n statement statement') :
    Tracks seam n (Parser.ifStatement statement) (Parser.ifStatement statement') := by
  refine (expect _ _).bind fun _ => expression.bind fun condition => (expect _ _).bind fun _ =>
    within.bind fun thenBranch => accepted (within.weaken.bind fun _ => ?_) ?_
  · exact (pure rfl).bind fun _ => pure (shift_ifElse _ _ _ _).symm
  · exact (pure rfl).bind fun _ => pure (shift_ifElse _ _ _ _).symm

theorem shift_loopStatement (k : Nat) (initializer : Option Stmt) (condition increment : Option Expr)
    (body : Stmt) :
    (loopStatement initializer condition increment body).shift k =
      loopStatement (shift k initializer) (shift k condition) (shift k increment) (body.shift k) := by
  cases initializer <;> cases condition <;> cases increment <;> rfl

theorem forStatement (within : Tracks seam n statement statement') :
    Tracks seam n (Parser.forStatement statement) (Parser.forStatement statement') := by
  refine (expect _ _).bind fun _ => loopInitializer.bind fun initializer => ?_
  refine (expressionBefore _).bind fun condition => (expect _ _).bind fun _ => ?_
  refine (expressionBefore _).bind fun increment => (expect _ _).bind fun _ => ?_
  exact within.bind fun body => pure (shift_loopStatement _ _ _ _ _).symm

end Statements

/-! ## Declarations and statements -/

section Declarations

variable {declaration declaration' : Parser (Option Stmt)}

theorem items {declaration declaration' : Parser (Option Stmt)} {rest rest' : Parser (List Stmt)} {t : Token}
    (within : Tracks seam n declaration declaration') (progresses : Progresses declaration)
    (notEnd : t.kind ≠ .endOfInput) (more : Tracks seam (n - 1) rest rest') :
    TracksFrom seam n t (do return (← declaration).toList ++ (← rest))
      (do return (← declaration').toList ++ (← rest')) := by
  refine (within t).bind_less (fun s a s' here read => ?_) fun first => more.bind fun others => pure ?_
  · have less := progresses s (by rwa [here])
    rwa [after_of_ok read] at less
  · cases first <;> rfl

theorem blockItems (within : Tracks seam n declaration declaration') (progresses : Progresses declaration) :
    Tracks seam n (Parser.withRounds (Parser.blockItems declaration))
      (Parser.withRounds (Parser.blockItems declaration')) := by
  refine rounds (fun _ : Unit => Parser.blockItems declaration) (fun _ => Parser.blockItems declaration')
    (fun _ _ => .of_ok rfl (.refl _)) (fun k k' m le ih _ => ?_) ()
  intro t
  refine .look (fun t => t.kind.isSymbol .rightBrace) (fun _ => rfl) ?_
  refine .look (fun t => t.kind.isEnd) (fun _ => rfl) ?_
  split
  · exact pure rfl t
  · rename_i goes
    exact items (within.mono le) progresses (by rintro kind; simp [kind, Kind.isEnd] at goes) (ih ())

theorem block (within : Tracks seam n declaration declaration') (progresses : Progresses declaration) :
    Tracks seam n (Parser.block declaration) (Parser.block declaration') :=
  (blockItems within progresses).bind fun _ => (expect _ _).bind fun _ => pure rfl

theorem function (within : Tracks seam n declaration declaration') (progresses : Progresses declaration)
    (role : FunctionRole) :
    Tracks seam n (Parser.function declaration role) (Parser.function declaration' role) := by
  refine (expectName _).bind fun name => (expect _ _).bind fun _ => ?_
  have closing (params : List Token) :
      Tracks seam n
        (do
          let _ ← Parser.expect .rightParen .parametersEnd
          let _ ← Parser.expect .leftBrace (.functionBody role)
          let body ← Parser.block declaration
          Pure.pure (FunctionDecl.mk name params body))
        (do
          let _ ← Parser.expect .rightParen .parametersEnd
          let _ ← Parser.expect .leftBrace (.functionBody role)
          let body ← Parser.block declaration'
          Pure.pure (FunctionDecl.mk name (shift seam.shift params) body)) := by
    refine (expect _ _).bind fun _ => (expect _ _).bind fun _ => ?_
    exact (block within progresses).bind fun body => pure (shift_function _ _ _ _).symm
  exact at? fun _ => ite ((pure rfl).bind closing) (parameters.bind closing)

theorem consumes_function (within : Tracks seam n declaration declaration')
    (progresses : Progresses declaration) (role : FunctionRole) :
    Consumes (Parser.function declaration role) := by
  have inBlock : Consumes (Parser.block declaration) :=
    .later (blockItems within progresses).moves fun _ =>
      .first (.expect _ _) fun _ _ => .of_ok rfl (.refl _)
  have behind {symbol : Symbol} {cause : SyntaxError.Cause} {next : Token → Parser FunctionDecl}
      (rest : ∀ token, Consumes (next token)) : Consumes (Parser.expect symbol cause >>= next) :=
    .later (expect _ _ : Tracks seam n _ _).moves rest
  have closing (name : Token) (params : List Token) :
      Consumes (do
        let _ ← Parser.expect .rightParen .parametersEnd
        let _ ← Parser.expect .leftBrace (.functionBody role)
        let body ← Parser.block declaration
        Pure.pure (FunctionDecl.mk name params body)) :=
    behind fun _ => behind fun _ => .first inBlock fun _ _ => .of_ok rfl (.refl _)
  refine .later (expectName _ : Tracks seam n _ _).moves fun name => behind fun _ => ?_
  refine .later (fun s => .of_ok rfl (.refl _)) fun empty => ?_
  split
  · exact .later (fun _ => .of_ok rfl (.refl _)) (closing name)
  · exact .later (parameters : Tracks seam n _ _).moves (closing name)

theorem methods (within : Tracks seam n declaration declaration') (progresses : Progresses declaration) :
    Tracks seam n (Parser.withRounds (Parser.methods declaration))
      (Parser.withRounds (Parser.methods declaration')) := by
  refine rounds (fun _ : Unit => Parser.methods declaration) (fun _ => Parser.methods declaration')
    (fun _ _ => .of_ok rfl (.refl _)) (fun k k' m le ih _ => ?_) ()
  refine at? fun _ => look (fun t => t.kind.isEnd) (fun _ => rfl) fun _ => ite (pure rfl) fun t => ?_
  refine (function (within.mono le) progresses .method t).bind_less ?_ fun first => ?_
  · exact fun s a s' _ => consumes_function within progresses .method s a s'
  · exact (ih ()).bind fun others => pure rfl

theorem classDeclaration (within : Tracks seam n declaration declaration')
    (progresses : Progresses declaration) :
    Tracks seam n (Parser.classDeclaration declaration) (Parser.classDeclaration declaration') := by
  refine (expectName _).bind fun name => ?_
  have closing {m : Nat} (le : m ≤ n) (superclass : Option Reference) :
      Tracks seam m
        (do
          let _ ← Parser.expect .leftBrace .classBody
          let members ← Parser.withRounds (Parser.methods declaration)
          let _ ← Parser.expect .rightBrace .classEnd
          Pure.pure (Stmt.classDecl name superclass members))
        (do
          let _ ← Parser.expect .leftBrace .classBody
          let members ← Parser.withRounds (Parser.methods declaration')
          let _ ← Parser.expect .rightBrace .classEnd
          Pure.pure (Stmt.classDecl name (shift seam.shift superclass) members)) := by
    refine (expect _ _).bind fun _ => (methods (within.mono le) progresses).bind fun members => ?_
    exact (expect _ _).bind fun _ => pure (shift_classDecl _ _ _ _).symm
  refine accepted ?_ ((pure rfl).bind (closing Nat.le.refl))
  refine (expectName _).bind fun parent => (refer parent).bind fun r => ?_
  exact (pure rfl).bind (closing (Nat.sub_le n 1))

variable {statement statement' : Parser Stmt}

theorem statementWith (within : Tracks seam (n - 1) declaration declaration')
    (progresses : Progresses declaration) (inside : Tracks seam (n - 1) statement statement') :
    Tracks seam n (Parser.statementWith declaration statement)
      (Parser.statementWith declaration' statement') := by
  refine accepted (forStatement inside) (accepted (ifStatement inside) (accepted printStatement ?_))
  refine accept returnStatement (accepted (whileStatement inside) (accepted ?_ expressionStatement))
  exact (block within progresses).bind fun body => pure (shift_block _ _).symm

theorem declarationWith (within : Tracks seam (n - 1) declaration declaration')
    (progresses : Progresses declaration) (inside : Tracks seam (n - 1) statement statement') :
    Tracks seam n (Parser.declarationWith declaration statement)
      (Parser.declarationWith declaration' statement') := by
  refine accepted (classDeclaration within progresses) (accepted ?_ (accepted varDeclaration ?_))
  · exact (function within progresses .function).bind fun f => pure rfl
  · exact statementWith within progresses inside

/-! ## Progress -/

theorem consumes_statementWith (within : Tracks seam n declaration declaration')
    (progresses : Progresses declaration) (inside : Tracks seam n statement statement') :
    Consumes (Parser.statementWith declaration statement) := by
  have last : Consumes Parser.expressionStatement :=
    .later (expression : Tracks seam n _ _).moves fun _ =>
      .first (.expect _ _) fun _ _ => .of_ok rfl (.refl _)
  refine .accept (fun _ => (forStatement inside).moves) (.accept (fun _ => (ifStatement inside).moves) ?_)
  refine .accept (fun _ => (printStatement : Tracks seam n _ _).moves) ?_
  refine .accept (fun keyword => (returnStatement keyword : Tracks seam n _ _).moves) ?_
  refine .accept (fun _ => (whileStatement inside).moves) (.accept (fun _ s => ?_) last)
  exact ((block within progresses).moves s).bind fun _ _ _ => .of_ok rfl (.refl _)

theorem consumes_declarationWith (within : Tracks seam n declaration declaration')
    (progresses : Progresses declaration) (inside : Tracks seam n statement statement') :
    Consumes (Parser.declarationWith declaration statement) := by
  refine .accept (fun _ => (classDeclaration within progresses).moves) (.accept (fun _ s => ?_) ?_)
  · exact ((function within progresses .function).moves s).bind fun _ _ _ => .of_ok rfl (.refl _)
  · exact .accept (fun _ => (varDeclaration : Tracks seam n _ _).moves)
      (consumes_statementWith within progresses inside)

end Declarations

/-- What is read in parallel with `k` tokens left at most, and `k'` in the second reading. -/
def Both (seam : Seam) (m k k' : Nat) : Prop :=
  Tracks seam m (Parser.declaration k) (Parser.declaration k') ∧
    Tracks seam m (Parser.statement k) (Parser.statement k')

theorem declaration_statement (seam : Seam) (k : Nat) :
    Progresses (Parser.declaration k) ∧ ∀ k' m, m ≤ k → m ≤ k' → Both seam m k k' := by
  induction k with
  | zero =>
      have fails (s : State) : Moves (Parser.fail .expression : Parser Stmt) s := .fail _ s
      refine ⟨.recover fails nofun, fun k' m short _ => ?_⟩
      obtain rfl : m = 0 := by omega
      exact ⟨of_moves fun s => (fails s).recover, of_moves fails⟩
  | succ k ih =>
      obtain ⟨progresses, both⟩ := ih
      obtain ⟨within, inside⟩ := both 0 0 (Nat.zero_le k) Nat.le.refl
      have moves := (declarationWith (n := 0) within progresses inside).moves
      have consumes := consumes_declarationWith within progresses inside
      refine ⟨.recover moves consumes, fun k' m short short' => ?_⟩
      cases m with
      | zero =>
          have moves' := (statementWith (n := 0) within progresses inside).moves
          exact ⟨of_moves fun s => (moves s).recover, of_moves moves'⟩
      | succ m =>
          cases k' with
          | zero => omega
          | succ k' =>
              obtain ⟨within, inside⟩ := both k' m (by omega) (by omega)
              exact ⟨recover (declarationWith within progresses inside),
                statementWith within progresses inside⟩

theorem declared (seam : Seam) {k k' : Nat} (enough : k ≤ k') :
    Tracks seam (k + 1) (Parser.declarationWith (Parser.declaration k) (Parser.statement k))
      (Parser.declarationWith (Parser.declaration k') (Parser.statement k')) := by
  obtain ⟨progresses, both⟩ := declaration_statement seam k
  obtain ⟨within, inside⟩ := both k' k Nat.le.refl enough
  exact declarationWith within progresses inside

theorem programItems {declaration declaration' : Parser (Option Stmt)}
    (within : Tracks seam n declaration declaration') (progresses : Progresses declaration) :
    ∀ k k', n ≤ k → n ≤ k' →
      Tracks seam n (Parser.programItems declaration k) (Parser.programItems declaration' k') := by
  intro k k' short short'
  refine loop (fun _ : Unit => Parser.programItems declaration)
    (fun _ => Parser.programItems declaration') (fun _ _ => .of_ok rfl (.refl _))
    (fun k k' m le ih _ t => ?_) k k' n Nat.le.refl short short' ()
  refine .look (fun t => t.kind.isEnd) (fun _ => rfl) ?_
  split
  · exact pure rfl t
  · rename_i goes
    exact items (within.mono le) progresses (mt isEnd_iff.mpr goes) (ih ())

end Tracks

end Lox.Parser
