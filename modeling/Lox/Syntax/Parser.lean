import Lox.Syntax
import Lox.Syntax.Error

/-!
# From tokens to syntax trees

A parser reads tokens from the front of a list and fails with the first error that it cannot pass
over. Errors that leave the tokens well formed are reported on the way and reading goes on. A
declaration that fails is reported and its tokens are skipped up to the next statement, so one pass
finds the errors of all declarations.

Recursion is on the number of tokens left. Every recursive reading follows at least one token, so no
reading is cut short: when the number is zero there is no token, and each procedure gives the answer
that it owes at the end of the input.

Contents: the expression grammar up to `expression`; the statement grammar up to `declaration` and
`statement`; `parseProgram` and `parseExpression`.
-/

namespace Lox

/--
What a parser works on: the tokens left, the number of the next reference, and the errors so far.
-/
structure Parser.State where
  rest : List Token
  nextId : Nat
  errors : Array SyntaxError

abbrev Parser := EStateM SyntaxError Parser.State

namespace Parser

def mostParameters : Nat := 255

/-! ## Single tokens -/

/-- The end of the input, where it is not in the list of tokens. -/
def missingEnd : Token := ⟨.endOfInput, "", 0⟩

def State.next (s : State) : Token := s.rest.headD missingEnd

def peek : Parser Token := fun s => .ok s.next s

def fail {α : Type} (cause : SyntaxError.Cause) : Parser α := fun s => .error ⟨cause, s.next⟩ s

def report (cause : SyntaxError.Cause) (token : Token) : Parser Unit :=
  fun s => .ok () { s with errors := s.errors.push ⟨cause, token⟩ }

def skip : Parser Unit := fun s => .ok () { s with rest := s.rest.tail }

def atEnd : Parser Bool := fun s => .ok s.next.kind.isEnd s

def at? (symbol : Symbol) : Parser Bool := fun s => .ok (s.next.kind.isSymbol symbol) s

def acceptAny (symbols : List Symbol) : Parser (Option Token) := fun s =>
  match s.rest with
  | [] => .ok none s
  | token :: rest =>
    if symbols.any token.kind.isSymbol then .ok (some token) { s with rest } else .ok none s

def accept (symbol : Symbol) : Parser (Option Token) := acceptAny [symbol]

def expect (symbol : Symbol) (cause : SyntaxError.Cause) : Parser Token := do
  match ← accept symbol with
  | some token => pure token
  | none => fail cause

def expectName (cause : SyntaxError.Cause) : Parser Token := do
  let token ← peek
  match token.kind with
  | .identifier => skip; pure token
  | _ => fail cause

def refer (token : Token) : Parser Reference :=
  fun s => .ok ⟨s.nextId, token⟩ { s with nextId := s.nextId + 1 }

/-- Gives a parser that loops as many rounds as there are tokens left. -/
def withRounds {α : Type} (parser : Nat → Parser α) : Parser α := fun s => parser s.rest.length s

/-! ## Expressions -/

def primary (inner : Parser Expr) : Parser Expr := do
  let token ← peek
  match token.kind with
  | .symbol .falseWord => skip; pure (.literal (.boolean false))
  | .symbol .trueWord => skip; pure (.literal (.boolean true))
  | .symbol .nilWord => skip; pure (.literal .nil)
  | .number value => skip; pure (.literal (.number value))
  | .string text => skip; pure (.literal (.string text))
  | .identifier => skip; return .read (← refer token)
  | .symbol .thisWord => skip; return .self (← refer token)
  | .symbol .superWord =>
    skip
    let _ ← expect .dot .superProperty
    let method ← expectName .superMethodName
    return .inherited (← refer token) method
  | .symbol .leftParen =>
    skip
    let value ← inner
    let _ ← expect .rightParen .groupingEnd
    pure (.grouping value)
  | _ => fail .expression

def argument (inner : Parser Expr) (count : Nat) : Parser Expr := do
  if mostParameters ≤ count then report .tooManyArguments (← peek)
  inner

def arguments (inner : Parser Expr) (count : Nat) : Nat → Parser (List Expr)
  | 0 => return [← argument inner count]
  | rounds + 1 => do
    let first ← argument inner count
    match ← accept .comma with
    | some _ => return first :: (← arguments inner (count + 1) rounds)
    | none => pure [first]

def suffixes (inner : Parser Expr) (target : Expr) : Nat → Parser Expr
  | 0 => pure target
  | rounds + 1 => do
    if (← accept .leftParen).isSome then
      let values ← if ← at? .rightParen then pure [] else withRounds (arguments inner 0)
      let paren ← expect .rightParen .argumentsEnd
      suffixes inner (.call target paren values) rounds
    else if (← accept .dot).isSome then
      let name ← expectName .propertyName
      suffixes inner (.get target name) rounds
    else pure target

def calls (inner : Parser Expr) : Parser Expr := do
  let target ← primary inner
  withRounds (suffixes inner target)

def signs (operand : Parser Expr) : Nat → Parser Expr
  | 0 => operand
  | rounds + 1 => do
    match ← acceptAny [.bang, .minus] with
    | some operator => return .unary operator (← signs operand rounds)
    | none => operand

structure Level where
  operators : List Symbol
  build : Expr → Token → Expr → Expr

/-- The precedences, loosest first. -/
def levels : List Level :=
  [⟨[.orWord], .logical⟩,
   ⟨[.andWord], .logical⟩,
   ⟨[.bangEqual, .equalEqual], .binary⟩,
   ⟨[.greater, .greaterEqual, .less, .lessEqual], .binary⟩,
   ⟨[.minus, .plus], .binary⟩,
   ⟨[.slash, .star], .binary⟩]

def chain (level : Level) (operand : Parser Expr) (left : Expr) : Nat → Parser Expr
  | 0 => pure left
  | rounds + 1 => do
    match ← acceptAny level.operators with
    | some operator => chain level operand (level.build left operator (← operand)) rounds
    | none => pure left

def operations (operand : Parser Expr) : List Level → Parser Expr
  | [] => operand
  | level :: tighter => do
    let left ← operations operand tighter
    withRounds (chain level (operations operand tighter) left)

def assignTo (target : Expr) (equals : Token) (value : Expr) : Parser Expr :=
  match target with
  | .read name => pure (.assign name value)
  | .get object name => pure (.set object name value)
  | _ => do
    report .assignmentTarget equals
    pure target

/-- An assignment or an operation, with at most the given number of tokens left. -/
def expressionWithin : Nat → Parser Expr
  | 0 => fail .expression
  | tokens + 1 => do
    let target ← operations (withRounds (signs (calls (expressionWithin tokens)))) levels
    match ← accept .equal with
    | some equals => assignTo target equals (← expressionWithin tokens)
    | none => pure target

def expression : Parser Expr := withRounds expressionWithin

/-! ## Statements -/

def blockItems (declaration : Parser (Option Stmt)) : Nat → Parser (List Stmt)
  | 0 => pure []
  | rounds + 1 => do
    if (← at? .rightBrace) || (← atEnd) then pure []
    else
      let first ← declaration
      return first.toList ++ (← blockItems declaration rounds)

def block (declaration : Parser (Option Stmt)) : Parser (List Stmt) := do
  let body ← withRounds (blockItems declaration)
  let _ ← expect .rightBrace .blockEnd
  pure body

def parameter (count : Nat) : Parser Token := do
  if mostParameters ≤ count then report .tooManyParameters (← peek)
  expectName .parameterName

def parameters (count : Nat) : Nat → Parser (List Token)
  | 0 => return [← parameter count]
  | rounds + 1 => do
    let first ← parameter count
    match ← accept .comma with
    | some _ => return first :: (← parameters (count + 1) rounds)
    | none => pure [first]

def function (declaration : Parser (Option Stmt)) (role : FunctionRole) : Parser FunctionDecl := do
  let name ← expectName (.functionName role)
  let _ ← expect .leftParen (.parameters role)
  let params ← if ← at? .rightParen then pure [] else withRounds (parameters 0)
  let _ ← expect .rightParen .parametersEnd
  let _ ← expect .leftBrace (.functionBody role)
  let body ← block declaration
  pure ⟨name, params, body⟩

def methods (declaration : Parser (Option Stmt)) : Nat → Parser (List FunctionDecl)
  | 0 => pure []
  | rounds + 1 => do
    if (← at? .rightBrace) || (← atEnd) then pure []
    else
      let first ← function declaration .method
      return first :: (← methods declaration rounds)

def classDeclaration (declaration : Parser (Option Stmt)) : Parser Stmt := do
  let name ← expectName .className
  let superclass ←
    if (← accept .less).isSome then pure (some (← refer (← expectName .superclassName))) else pure none
  let _ ← expect .leftBrace .classBody
  let members ← withRounds (methods declaration)
  let _ ← expect .rightBrace .classEnd
  pure (.classDecl name superclass members)

def varDeclaration : Parser Stmt := do
  let name ← expectName .variableName
  let initializer ← if (← accept .equal).isSome then pure (some (← expression)) else pure none
  let _ ← expect .semicolon .variableEnd
  pure (.varDecl name initializer)

def expressionStatement : Parser Stmt := do
  let value ← expression
  let _ ← expect .semicolon .expressionEnd
  pure (.expression value)

def expressionBefore (symbol : Symbol) : Parser (Option Expr) := do
  if ← at? symbol then pure none else pure (some (← expression))

def loopInitializer : Parser (Option Stmt) := do
  if (← accept .semicolon).isSome then pure none
  else if (← accept .varWord).isSome then pure (some (← varDeclaration))
  else pure (some (← expressionStatement))

/--
The meaning of a loop with three clauses: a scope for the initializer, and in it a loop whose body
ends with the increment. A missing condition holds.
-/
def loopStatement (initializer : Option Stmt) (condition increment : Option Expr) (body : Stmt) : Stmt :=
  let round := match increment with
    | some step => .block [body, .expression step]
    | none => body
  let loop := .whileLoop (condition.getD (.literal (.boolean true))) round
  match initializer with
  | some first => .block [first, loop]
  | none => loop

def forStatement (statement : Parser Stmt) : Parser Stmt := do
  let _ ← expect .leftParen .forClauses
  let initializer ← loopInitializer
  let condition ← expressionBefore .semicolon
  let _ ← expect .semicolon .loopConditionEnd
  let increment ← expressionBefore .rightParen
  let _ ← expect .rightParen .forClausesEnd
  let body ← statement
  pure (loopStatement initializer condition increment body)

/-- A conditional statement, after its keyword. An `else` belongs to the nearest `if`. -/
def ifStatement (statement : Parser Stmt) : Parser Stmt := do
  let _ ← expect .leftParen .ifCondition
  let condition ← expression
  let _ ← expect .rightParen .ifConditionEnd
  let thenBranch ← statement
  let elseBranch ← if (← accept .elseWord).isSome then pure (some (← statement)) else pure none
  pure (.ifElse condition thenBranch elseBranch)

def whileStatement (statement : Parser Stmt) : Parser Stmt := do
  let _ ← expect .leftParen .whileCondition
  let condition ← expression
  let _ ← expect .rightParen .whileConditionEnd
  let body ← statement
  pure (.whileLoop condition body)

def printStatement : Parser Stmt := do
  let value ← expression
  let _ ← expect .semicolon .printEnd
  pure (.print value)

def returnStatement (keyword : Token) : Parser Stmt := do
  let value ← expressionBefore .semicolon
  let _ ← expect .semicolon .returnEnd
  pure (.returnStmt keyword value)

def statementWith (declaration : Parser (Option Stmt)) (statement : Parser Stmt) : Parser Stmt := do
  if (← accept .forWord).isSome then forStatement statement
  else if (← accept .ifWord).isSome then ifStatement statement
  else if (← accept .printWord).isSome then printStatement
  else if let some keyword ← accept .returnWord then returnStatement keyword
  else if (← accept .whileWord).isSome then whileStatement statement
  else if (← accept .leftBrace).isSome then return .block (← block declaration)
  else expressionStatement

def declarationWith (declaration : Parser (Option Stmt)) (statement : Parser Stmt) : Parser Stmt := do
  if (← accept .classWord).isSome then classDeclaration declaration
  else if (← accept .funWord).isSome then return .funDecl (← function declaration .function)
  else if (← accept .varWord).isSome then varDeclaration
  else statementWith declaration statement

/-! ## Recovery -/

def statementWords : List Symbol :=
  [.classWord, .funWord, .varWord, .forWord, .ifWord, .whileWord, .printWord, .returnWord]

def resume (last : Token) : List Token → List Token
  | [] => []
  | token :: rest =>
    if token.kind.isEnd || last.kind.isSymbol .semicolon || statementWords.any token.kind.isSymbol then token :: rest
    else resume token rest

/-- Skips the token at which reading failed and all others up to the next statement. -/
def synchronize : List Token → List Token
  | [] => []
  | token :: rest => if token.kind.isEnd then token :: rest else resume token rest

def recover (parser : Parser Stmt) : Parser (Option Stmt) := fun s =>
  match parser s with
  | .ok statement s => .ok (some statement) s
  | .error error s => .ok none { s with rest := synchronize s.rest, errors := s.errors.push error }

mutual

def declaration : Nat → Parser (Option Stmt)
  | 0 => recover (fail .expression)
  | tokens + 1 => recover (declarationWith (declaration tokens) (statement tokens))

def statement : Nat → Parser Stmt
  | 0 => fail .expression
  | tokens + 1 => statementWith (declaration tokens) (statement tokens)

end

def programItems (declaration : Parser (Option Stmt)) : Nat → Parser (List Stmt)
  | 0 => pure []
  | rounds + 1 => do
    if ← atEnd then pure []
    else
      let first ← declaration
      return first.toList ++ (← programItems declaration rounds)

def program : Parser (List Stmt) := withRounds fun tokens => programItems (declaration tokens) tokens

def wholeExpression : Parser Expr := do
  let value ← expression
  unless ← atEnd do report .inputEnd (← peek)
  pure value

def run {α : Type} (parser : Parser α) (tokens : List Token) : Except (List SyntaxError) α :=
  match parser ⟨tokens, 0, #[]⟩ with
  | .ok value s => if s.errors.isEmpty then .ok value else .error s.errors.toList
  | .error error s => .error (s.errors.toList ++ [error])

end Parser

def parseProgram (tokens : List Token) : Except (List SyntaxError) (List Stmt) :=
  Parser.run Parser.program tokens

def parseExpression (tokens : List Token) : Except (List SyntaxError) Expr :=
  Parser.run Parser.wholeExpression tokens

end Lox
