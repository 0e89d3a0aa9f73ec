import Lox.Token

/-!
# Errors about a place in the program

Errors found before a program runs point to a token. `Token.place` says where that is in words.

Contents: `Token.place`; `FunctionRole`; `SyntaxError` with `SyntaxError.Cause.message`.
-/

namespace Lox

def Token.place (token : Token) : String :=
  if token.kind.isEnd then " at end" else " at '" ++ token.lexeme ++ "'"

inductive FunctionRole where
  | function
  | method
  deriving DecidableEq, Repr

def FunctionRole.name : FunctionRole → String
  | function => "function"
  | method => "method"

/-- What is wrong with the sequence of tokens: mostly, what should stand in place of a token. -/
inductive SyntaxError.Cause where
  | className
  | superclassName
  | classBody
  | classEnd
  | functionName (role : FunctionRole)
  | parameters (role : FunctionRole)
  | parameterName
  | parametersEnd
  | functionBody (role : FunctionRole)
  | tooManyParameters
  | variableName
  | variableEnd
  | forClauses
  | loopConditionEnd
  | forClausesEnd
  | ifCondition
  | ifConditionEnd
  | whileCondition
  | whileConditionEnd
  | printEnd
  | returnEnd
  | expressionEnd
  | blockEnd
  | expression
  | groupingEnd
  | propertyName
  | argumentsEnd
  | tooManyArguments
  | superProperty
  | superMethodName
  | assignmentTarget
  | inputEnd
  deriving DecidableEq, Repr

def SyntaxError.Cause.message : SyntaxError.Cause → String
  | className => "Expect class name."
  | superclassName => "Expect superclass name."
  | classBody => "Expect '\x7b' before class body."
  | classEnd => "Expect '\x7d' after class body."
  | functionName role => "Expect " ++ role.name ++ " name."
  | parameters role => "Expect '(' after " ++ role.name ++ " name."
  | parameterName => "Expect parameter name."
  | parametersEnd => "Expect ')' after parameters."
  | functionBody role => "Expect '\x7b' before " ++ role.name ++ " body."
  | tooManyParameters => "Can't have more than 255 parameters."
  | variableName => "Expect variable name."
  | variableEnd => "Expect ';' after variable declaration."
  | forClauses => "Expect '(' after 'for'."
  | loopConditionEnd => "Expect ';' after loop condition."
  | forClausesEnd => "Expect ')' after for clauses."
  | ifCondition => "Expect '(' after 'if'."
  | ifConditionEnd => "Expect ')' after if condition."
  | whileCondition => "Expect '(' after 'while'."
  | whileConditionEnd => "Expect ')' after condition."
  | printEnd => "Expect ';' after value."
  | returnEnd => "Expect ';' after return value."
  | expressionEnd => "Expect ';' after expression."
  | blockEnd => "Expect '\x7d' after block."
  | expression => "Expect expression."
  | groupingEnd => "Expect ')' after expression."
  | propertyName => "Expect property name after '.'."
  | argumentsEnd => "Expect ')' after arguments."
  | tooManyArguments => "Can't have more than 255 arguments."
  | superProperty => "Expect '.' after 'super'."
  | superMethodName => "Expect superclass method name."
  | assignmentTarget => "Invalid assignment target."
  | inputEnd => "Expect end of expression."

structure SyntaxError where
  cause : SyntaxError.Cause
  token : Token

namespace SyntaxError

def message (error : SyntaxError) : String := error.cause.message

end SyntaxError

end Lox
