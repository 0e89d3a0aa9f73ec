import Lox.Syntax

/-!
# Trees with other numbers

The same tree with every reference numbered further on (`shift`). Everything else that a parser
returns or keeps between two readings is shifted through its references, so tokens stay as they are.
-/

namespace Lox

class Shiftable (α : Type) where
  shift : Nat → α → α

export Shiftable (shift)

instance : Shiftable Token := ⟨fun _ token => token⟩

instance : Shiftable Unit := ⟨fun _ _ => ()⟩

instance {α : Type} [Shiftable α] : Shiftable (Option α) := ⟨fun k => Option.map (shift k)⟩

instance {α : Type} [Shiftable α] : Shiftable (List α) := ⟨fun k => List.map (shift k)⟩

def Reference.shift (k : Nat) (r : Reference) : Reference := ⟨r.id + k, r.token⟩

instance : Shiftable Reference := ⟨Reference.shift⟩

mutual

def Expr.shift (k : Nat) : Expr → Expr
  | .literal value => .literal value
  | .grouping inner => .grouping (inner.shift k)
  | .unary operator right => .unary operator (right.shift k)
  | .binary left operator right => .binary (left.shift k) operator (right.shift k)
  | .logical left operator right => .logical (left.shift k) operator (right.shift k)
  | .read name => .read (name.shift k)
  | .assign name value => .assign (name.shift k) (value.shift k)
  | .call callee paren arguments => .call (callee.shift k) paren (Expr.shiftAll k arguments)
  | .get object name => .get (object.shift k) name
  | .set object name value => .set (object.shift k) name (value.shift k)
  | .self keyword => .self (keyword.shift k)
  | .inherited keyword method => .inherited (keyword.shift k) method

def Expr.shiftAll (k : Nat) : List Expr → List Expr
  | [] => []
  | first :: rest => first.shift k :: Expr.shiftAll k rest

end

instance : Shiftable Expr := ⟨Expr.shift⟩

mutual

def Stmt.shift (k : Nat) : Stmt → Stmt
  | .expression value => .expression (value.shift k)
  | .print value => .print (value.shift k)
  | .varDecl name initializer => .varDecl name (initializer.map (Expr.shift k))
  | .block body => .block (Stmt.shiftAll k body)
  | .ifElse condition thenBranch none =>
    .ifElse (condition.shift k) (thenBranch.shift k) none
  | .ifElse condition thenBranch (some elseBranch) =>
    .ifElse (condition.shift k) (thenBranch.shift k) (some (elseBranch.shift k))
  | .whileLoop condition body => .whileLoop (condition.shift k) (body.shift k)
  | .funDecl declaration => .funDecl (declaration.shift k)
  | .returnStmt keyword value => .returnStmt keyword (value.map (Expr.shift k))
  | .classDecl name superclass methods =>
    .classDecl name (superclass.map (Reference.shift k)) (FunctionDecl.shiftAll k methods)

def Stmt.shiftAll (k : Nat) : List Stmt → List Stmt
  | [] => []
  | first :: rest => first.shift k :: Stmt.shiftAll k rest

def FunctionDecl.shift (k : Nat) : FunctionDecl → FunctionDecl
  | ⟨name, params, body⟩ => ⟨name, params, Stmt.shiftAll k body⟩

def FunctionDecl.shiftAll (k : Nat) : List FunctionDecl → List FunctionDecl
  | [] => []
  | first :: rest => first.shift k :: FunctionDecl.shiftAll k rest

end

instance : Shiftable Stmt := ⟨Stmt.shift⟩

instance : Shiftable FunctionDecl := ⟨FunctionDecl.shift⟩

theorem Expr.shiftAll_eq_map (k : Nat) : ∀ es : List Expr, Expr.shiftAll k es = es.map (Expr.shift k)
  | [] => rfl
  | _ :: es => by rw [Expr.shiftAll, Expr.shiftAll_eq_map k es, List.map_cons]

theorem Stmt.shiftAll_eq_map (k : Nat) : ∀ ss : List Stmt, Stmt.shiftAll k ss = ss.map (Stmt.shift k)
  | [] => rfl
  | _ :: ss => by rw [Stmt.shiftAll, Stmt.shiftAll_eq_map k ss, List.map_cons]

theorem FunctionDecl.shiftAll_eq_map (k : Nat) :
    ∀ fs : List FunctionDecl, FunctionDecl.shiftAll k fs = fs.map (FunctionDecl.shift k)
  | [] => rfl
  | _ :: fs => by rw [FunctionDecl.shiftAll, FunctionDecl.shiftAll_eq_map k fs, List.map_cons]

theorem shift_tokens (k : Nat) (ts : List Token) : shift k ts = ts := List.map_id ts

theorem shift_call (k : Nat) (callee : Expr) (paren : Token) (arguments : List Expr) :
    shift k (Expr.call callee paren arguments) = .call (shift k callee) paren (shift k arguments) :=
  congrArg _ (Expr.shiftAll_eq_map k arguments)

theorem shift_block (k : Nat) (body : List Stmt) : shift k (Stmt.block body) = .block (shift k body) :=
  congrArg _ (Stmt.shiftAll_eq_map k body)

theorem shift_ifElse (k : Nat) (condition : Expr) (thenBranch : Stmt) (elseBranch : Option Stmt) :
    shift k (Stmt.ifElse condition thenBranch elseBranch) =
      .ifElse (shift k condition) (shift k thenBranch) (shift k elseBranch) := by
  cases elseBranch <;> rfl

theorem shift_function (k : Nat) (name : Token) (params : List Token) (body : List Stmt) :
    shift k (FunctionDecl.mk name params body) = ⟨name, shift k params, shift k body⟩ := by
  rw [shift_tokens]
  exact congrArg _ (Stmt.shiftAll_eq_map k body)

theorem shift_classDecl (k : Nat) (name : Token) (superclass : Option Reference)
    (methods : List FunctionDecl) :
    shift k (Stmt.classDecl name superclass methods) =
      .classDecl name (shift k superclass) (shift k methods) :=
  congrArg _ (FunctionDecl.shiftAll_eq_map k methods)

end Lox
