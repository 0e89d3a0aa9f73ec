import Lox.Token.Lexer
import Lox.Syntax.Error
import Lox.Scope

/-!
# Errors found before a program runs

Contents: `StaticError` with its `line`, `place`, `message` and `text`.
-/

namespace Lox

inductive StaticError where
  | lexical (error : LexicalError)
  | grammar (error : SyntaxError)
  | scope (error : ScopeError)

namespace StaticError

def message : StaticError → String
  | lexical error => error.message
  | grammar error => error.message
  | scope error => error.message

def line : StaticError → Nat
  | lexical error => error.line
  | grammar error => error.token.line
  | scope error => error.token.line

def place : StaticError → String
  | lexical _ => ""
  | grammar error => error.token.place
  | scope error => error.token.place

def text (error : StaticError) : String :=
  "[line " ++ toString error.line ++ "] Error" ++ error.place ++ ": " ++ error.message

end StaticError

end Lox
