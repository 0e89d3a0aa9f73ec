import Lox.Bindings
import Lox.Syntax
import Lox.Syntax.Error

/-!
# Scopes and distances

Blocks, functions and classes open scopes. One walk over a program finds for each reference the
number of scopes between it and the scope that declares its name, its *distance*. A reference
without a distance means a global. On its way the walk reports uses of names, `this`, `super` and
`return` that can have no meaning, and goes on.

Contents: `ScopeError`; `Context`, what the walk knows of the surrounding functions and classes;
`Scoping`, what it produces; `Scoping.expr` and `Scoping.stmt`; `Distances.ofProgram`.
-/

namespace Lox

abbrev Distances := Bindings Nat Nat

inductive ScopeError.Cause where
  | ownInitializer
  | selfInheritance
  | thisOutsideClass
  | superOutsideClass
  | superWithoutSuperclass
  | topLevelReturn
  | initializerResult
  deriving DecidableEq, Repr

def ScopeError.Cause.message : ScopeError.Cause → String
  | ownInitializer => "Can't read local variable in its own initializer."
  | selfInheritance => "A class can't inherit from itself."
  | thisOutsideClass => "Can't use 'this' outside of a class."
  | superOutsideClass => "Can't use 'super' outside of a class."
  | superWithoutSuperclass => "Can't use 'super' in a class with no superclass."
  | topLevelReturn => "Can't return from top-level code."
  | initializerResult => "Can't return a value from an initializer."

structure ScopeError where
  cause : ScopeError.Cause
  token : Token

namespace ScopeError

def message (error : ScopeError) : String := error.cause.message

end ScopeError

inductive FunctionContext where
  | none
  | function
  | method
  | initializer
  deriving DecidableEq, Repr

inductive ClassContext where
  | none
  | base
  | derived
  deriving DecidableEq, Repr

structure Context where
  function : FunctionContext
  class? : ClassContext

namespace Context

def topLevel : Context := ⟨.none, .none⟩

end Context

/-- The names of a scope; a name is bound to `false` while its initializer is walked. -/
abbrev Scope := Bindings String Bool

structure Scoping where
  scopes : List Scope
  distances : Distances
  errors : Array ScopeError

namespace Scoping

def start : Scoping := ⟨[], .empty, #[]⟩

def enter (s : Scoping) : Scoping := { s with scopes := .empty :: s.scopes }

def leave (s : Scoping) : Scoping := { s with scopes := s.scopes.tail }

/-- Sets a name of the innermost scope. Globals are not kept. -/
def mark (name : String) (ready : Bool) (s : Scoping) : Scoping :=
  match s.scopes with
  | [] => s
  | innermost :: outer => { s with scopes := innermost.insert name ready :: outer }

def declare (name : String) : Scoping → Scoping := mark name false

def define (name : String) : Scoping → Scoping := mark name true

def introduce (name : String) (s : Scoping) : Scoping := (s.declare name).define name

def isPending (name : String) (s : Scoping) : Bool :=
  match s.scopes with
  | [] => false
  | innermost :: _ => innermost.find? name = some false

/-- The number of scopes inside the innermost one that holds the name. -/
def distance? (name : String) (scopes : List Scope) : Option Nat :=
  scopes.findIdx? fun scope => scope.contains name

/-- Records the distance of a reference, unless it means a global. -/
def bind (reference : Reference) (s : Scoping) : Scoping :=
  match distance? reference.name s.scopes with
  | some distance => { s with distances := s.distances.insert reference.id distance }
  | none => s

def report (cause : ScopeError.Cause) (token : Token) (s : Scoping) : Scoping :=
  { s with errors := s.errors.push ⟨cause, token⟩ }

def reportIf (misused : Bool) (cause : ScopeError.Cause) (token : Token) (s : Scoping) : Scoping :=
  if misused then s.report cause token else s

def read (name : Reference) (s : Scoping) : Scoping :=
  (s.reportIf (s.isPending name.name) .ownInitializer name.token).bind name

def inherited (context : Context) (keyword : Reference) (s : Scoping) : Scoping :=
  let checked := match context.class? with
    | .none => s.report .superOutsideClass keyword.token
    | .base => s.report .superWithoutSuperclass keyword.token
    | .derived => s
  checked.bind keyword

mutual

def expr (context : Context) : Expr → Scoping → Scoping
  | .literal _, s => s
  | .grouping inner, s => expr context inner s
  | .unary _ right, s => expr context right s
  | .binary left _ right, s => expr context right (expr context left s)
  | .logical left _ right, s => expr context right (expr context left s)
  | .read name, s => s.read name
  | .assign name value, s => (expr context value s).bind name
  | .call callee _ arguments, s => exprs context arguments (expr context callee s)
  | .get object _, s => expr context object s
  | .set object _ value, s => expr context value (expr context object s)
  | .self keyword, s =>
    if context.class? = .none then s.report .thisOutsideClass keyword.token else s.bind keyword
  | .inherited keyword _, s => s.inherited context keyword

def exprs (context : Context) : List Expr → Scoping → Scoping
  | [], s => s
  | first :: rest, s => exprs context rest (expr context first s)

end

def expr? (context : Context) (e : Option Expr) (s : Scoping) : Scoping :=
  match e with
  | some value => expr context value s
  | none => s

def enterClass (name : Token) (superclass : Option Reference) (s : Scoping) : Scoping :=
  let outer := match superclass with
    | some parent =>
      (((s.reportIf (parent.name = name.lexeme) .selfInheritance parent.token).read parent).enter).define "super"
    | none => s
  outer.enter.define "this"

def leaveClass (superclass : Option Reference) (s : Scoping) : Scoping :=
  match superclass with
  | some _ => s.leave.leave
  | none => s.leave

mutual

def stmt (context : Context) : Stmt → Scoping → Scoping
  | .expression value, s => expr context value s
  | .print value, s => expr context value s
  | .varDecl name initializer, s => (expr? context initializer (s.declare name.lexeme)).define name.lexeme
  | .block body, s => (stmts context body s.enter).leave
  | .ifElse condition thenBranch none, s => stmt context thenBranch (expr context condition s)
  | .ifElse condition thenBranch (some elseBranch), s =>
    stmt context elseBranch (stmt context thenBranch (expr context condition s))
  | .whileLoop condition body, s => stmt context body (expr context condition s)
  | .funDecl declaration, s => function context .function declaration (s.introduce declaration.name.lexeme)
  | .returnStmt keyword value, s =>
    let outside := s.reportIf (context.function = .none) .topLevelReturn keyword
    let result := value.isSome && context.function = .initializer
    expr? context value (outside.reportIf result .initializerResult keyword)
  | .classDecl name superclass methods, s =>
    let inside := { context with class? := if superclass.isSome then .derived else .base }
    let s := (s.introduce name.lexeme).enterClass name superclass
    (methodList inside methods s).leaveClass superclass

def stmts (context : Context) : List Stmt → Scoping → Scoping
  | [], s => s
  | first :: rest, s => stmts context rest (stmt context first s)

def function (context : Context) (kind : FunctionContext) : FunctionDecl → Scoping → Scoping
  | ⟨_, params, body⟩, s =>
    let inside := params.foldl (fun s param => s.introduce param.lexeme) s.enter
    (stmts { context with function := kind } body inside).leave

def methodList (context : Context) : List FunctionDecl → Scoping → Scoping
  | [], s => s
  | first :: rest, s =>
    let kind := if first.isInitializer then .initializer else .method
    methodList context rest (function context kind first s)

end

end Scoping

def Distances.ofProgram (program : List Stmt) : Except (List ScopeError) Distances :=
  let s := Scoping.stmts .topLevel program .start
  if s.errors.isEmpty then .ok s.distances else .error s.errors.toList

end Lox
