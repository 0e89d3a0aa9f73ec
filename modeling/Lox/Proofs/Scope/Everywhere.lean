import Lox.Proofs.Scope.Visit

/-!
# What holds at every place

A check that is made at every place of a program can be computed by recursion on its tree
(`Node.everywhere`); if it succeeds, it holds at all places (`Visit.of_everywhere`).
-/

namespace Lox
open Scoping

abbrev PlaceCheck := Context → Scoping → List Scope → Node → Bool

variable (check : PlaceCheck)

mutual

def Expr.everywhere (c : Context) (s : Scoping) (finals : List Scope) (e : Expr) : Bool :=
  check c s finals (.expr e) &&
    match e with
    | .literal _ | .read _ | .self _ | .inherited _ _ => true
    | .grouping inner => inner.everywhere c s finals
    | .unary _ right => right.everywhere c s finals
    | .binary left _ right | .logical left _ right =>
      left.everywhere c s finals && right.everywhere c (expr c left s) finals
    | .assign _ value => value.everywhere c s finals
    | .call callee _ arguments =>
      callee.everywhere c s finals && Expr.everywhereAll c (expr c callee s) finals arguments
    | .get object _ => object.everywhere c s finals
    | .set object _ value => object.everywhere c s finals && value.everywhere c (expr c object s) finals

def Expr.everywhereAll (c : Context) (s : Scoping) (finals : List Scope) (es : List Expr) : Bool :=
  check c s finals (.exprs es) &&
    match es with
    | [] => true
    | first :: rest => first.everywhere c s finals && Expr.everywhereAll c (expr c first s) finals rest

end

mutual

def Stmt.everywhere (c : Context) (s : Scoping) (finals : List Scope) (a : Stmt) : Bool :=
  check c s finals (.stmt a) &&
    match a with
    | .expression value | .print value => value.everywhere check c s finals
    | .varDecl _ none | .returnStmt _ none => true
    | .varDecl name (some value) => value.everywhere check c (s.declare name.lexeme) finals
    | .block body => Stmt.everywhereAll c s.enter (innermost (stmts c body s.enter) :: finals) body
    | .ifElse condition thenBranch none =>
      condition.everywhere check c s finals && thenBranch.everywhere c (expr c condition s) finals
    | .ifElse condition thenBranch (some elseBranch) =>
      condition.everywhere check c s finals && thenBranch.everywhere c (expr c condition s) finals &&
        elseBranch.everywhere c (stmt c thenBranch (expr c condition s)) finals
    | .whileLoop condition body =>
      condition.everywhere check c s finals && body.everywhere c (expr c condition s) finals
    | .funDecl declaration => declaration.everywhere c (s.introduce declaration.name.lexeme) finals .function
    | .returnStmt keyword (some value) =>
      value.everywhere check c ((s.reportIf (c.function = .none) .topLevelReturn keyword).reportIf
        (c.function = .initializer) .initializerResult keyword) finals
    | .classDecl name superclass methods =>
      FunctionDecl.everywhereAll (c.inClass superclass)
        ((s.introduce name.lexeme).enterClass name superclass) (classScopes superclass finals) methods

def Stmt.everywhereAll (c : Context) (s : Scoping) (finals : List Scope) (body : List Stmt) : Bool :=
  check c s finals (.stmts body) &&
    match body with
    | [] => true
    | first :: rest => first.everywhere c s finals && Stmt.everywhereAll c (stmt c first s) finals rest

def FunctionDecl.everywhere (c : Context) (s : Scoping) (finals : List Scope) (d : FunctionDecl)
    (kind : FunctionContext) : Bool :=
  check c s finals (.function kind d) &&
    match d with
    | ⟨_, params, body⟩ =>
      Stmt.everywhereAll (c.inFunction kind) (s.enterFunction params)
        (innermost (stmts (c.inFunction kind) body (s.enterFunction params)) :: finals) body

def FunctionDecl.everywhereAll (c : Context) (s : Scoping) (finals : List Scope)
    (ds : List FunctionDecl) : Bool :=
  check c s finals (.methods ds) &&
    match ds with
    | [] => true
    | first :: rest =>
      first.everywhere c s finals (methodKind first) &&
        FunctionDecl.everywhereAll c (function c (methodKind first) first s) finals rest

end

def Node.everywhere (c : Context) (s : Scoping) (finals : List Scope) : Node → Bool
  | .expr e => e.everywhere check c s finals
  | .exprs es => Expr.everywhereAll check c s finals es
  | .stmt a => a.everywhere check c s finals
  | .stmts body => Stmt.everywhereAll check c s finals body
  | .function kind d => d.everywhere check c s finals kind
  | .methods ds => FunctionDecl.everywhereAll check c s finals ds

variable {check} {program : List Stmt} {c : Context} {s : Scoping} {finals : List Scope} {node : Node}

theorem Node.here_of_everywhere (all : node.everywhere check c s finals = true) :
    check c s finals node = true := by
  cases node with
  | expr e =>
      rw [Node.everywhere, Expr.everywhere.eq_def, Bool.and_eq_true] at all
      exact all.1
  | exprs es =>
      rw [Node.everywhere, Expr.everywhereAll.eq_def, Bool.and_eq_true] at all
      exact all.1
  | stmt a =>
      rw [Node.everywhere, Stmt.everywhere.eq_def, Bool.and_eq_true] at all
      exact all.1
  | stmts body =>
      rw [Node.everywhere, Stmt.everywhereAll.eq_def, Bool.and_eq_true] at all
      exact all.1
  | function kind d =>
      rw [Node.everywhere, FunctionDecl.everywhere.eq_def, Bool.and_eq_true] at all
      exact all.1
  | methods ds =>
      rw [Node.everywhere, FunctionDecl.everywhereAll.eq_def, Bool.and_eq_true] at all
      exact all.1

theorem Visit.everywhere (all : Node.everywhere check .topLevel .start [] (.stmts program) = true)
    (visit : Visit program c s finals node) : node.everywhere check c s finals = true := by
  induction visit with
  | program => exact all
  | condition _ ih | thenBranch _ ih =>
      rename_i elseBranch _
      cases elseBranch <;> simp_all [Node.everywhere, Stmt.everywhere]
  | _ => simp_all [Node.everywhere, Expr.everywhere, Expr.everywhereAll, Stmt.everywhere,
      Stmt.everywhereAll, FunctionDecl.everywhere, FunctionDecl.everywhereAll]

theorem Visit.of_everywhere (all : Node.everywhere check .topLevel .start [] (.stmts program) = true)
    (visit : Visit program c s finals node) : check c s finals node = true :=
  Node.here_of_everywhere (visit.everywhere all)

end Lox
