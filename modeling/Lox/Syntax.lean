import Lox.Token

/-!
# Syntax trees

Expressions, statements and function declarations, with the tokens that errors about them point to.
Every occurrence of a name that scopes decide about is a `Reference`: it carries a number that no
other occurrence in the tree has.

Contents: `Literal`, `Reference`, `Expr`, `Stmt`, `FunctionDecl`, `initializerName`.
-/

namespace Lox

inductive Literal where
  | nil
  | boolean (value : Bool)
  | number (value : Float)
  | string (text : String)

/-- An occurrence of a variable, of `this` or of `super`. -/
structure Reference where
  id : Nat
  token : Token

namespace Reference

def name (reference : Reference) : String := reference.token.lexeme

def line (reference : Reference) : Nat := reference.token.line

end Reference

inductive Expr where
  | literal (value : Literal)
  | grouping (inner : Expr)
  | unary (operator : Token) (right : Expr)
  | binary (left : Expr) (operator : Token) (right : Expr)
  | logical (left : Expr) (operator : Token) (right : Expr)
  | read (name : Reference)
  | assign (name : Reference) (value : Expr)
  | call (callee : Expr) (paren : Token) (arguments : List Expr)
  | get (object : Expr) (name : Token)
  | set (object : Expr) (name : Token) (value : Expr)
  | self (keyword : Reference)
  | inherited (keyword : Reference) (method : Token)

mutual

inductive Stmt where
  | expression (value : Expr)
  | print (value : Expr)
  | varDecl (name : Token) (initializer : Option Expr)
  | block (body : List Stmt)
  | ifElse (condition : Expr) (thenBranch : Stmt) (elseBranch : Option Stmt)
  | whileLoop (condition : Expr) (body : Stmt)
  | funDecl (declaration : FunctionDecl)
  | returnStmt (keyword : Token) (value : Option Expr)
  | classDecl (name : Token) (superclass : Option Reference) (methods : List FunctionDecl)

structure FunctionDecl where
  name : Token
  params : List Token
  body : List Stmt

end

def initializerName : String := "init"

def FunctionDecl.isInitializer (declaration : FunctionDecl) : Bool :=
  declaration.name.lexeme = initializerName

end Lox
