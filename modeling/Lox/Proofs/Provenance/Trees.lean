import Lox.StaticError

/-!
# The tokens in a tree

What is read from tokens keeps some of them, to name things and to say where an error is. `cited` lists the
tokens that a tree or an error keeps.
-/

namespace Lox

class Citing (α : Type) where
  cited : α → List Token

export Citing (cited)

instance : Citing Unit := ⟨fun _ => []⟩

instance : Citing Bool := ⟨fun _ => []⟩

instance : Citing Token := ⟨fun token => [token]⟩

instance : Citing Reference := ⟨fun reference => [reference.token]⟩

instance : Citing SyntaxError := ⟨fun error => [error.token]⟩

instance : Citing ScopeError := ⟨fun error => [error.token]⟩

@[simp] theorem cited_unit (u : Unit) : cited u = [] := rfl

@[simp] theorem cited_bool (b : Bool) : cited b = [] := rfl

@[simp] theorem cited_token (t : Token) : cited t = [t] := rfl

@[simp] theorem cited_reference (r : Reference) : cited r = [r.token] := rfl

@[simp] theorem cited_syntaxError (e : SyntaxError) : cited e = [e.token] := rfl

@[simp] theorem cited_scopeError (e : ScopeError) : cited e = [e.token] := rfl

/-! ## Containers -/

section Containers

variable {α : Type} [Citing α]

instance : Citing (Option α) := ⟨fun a => a.elim [] cited⟩

instance : Citing (List α) := ⟨fun as => as.flatMap cited⟩

instance : Citing (Array α) := ⟨fun as => cited as.toList⟩

@[simp] theorem cited_none : cited (none : Option α) = [] := rfl

@[simp] theorem cited_some (a : α) : cited (some a) = cited a := rfl

@[simp] theorem cited_nil : cited ([] : List α) = [] := rfl

@[simp] theorem cited_cons (a : α) (as : List α) : cited (a :: as) = cited a ++ cited as := rfl

@[simp] theorem cited_append (as bs : List α) : cited (as ++ bs) = cited as ++ cited bs :=
  List.flatMap_append

@[simp] theorem cited_toList (a : Option α) : cited a.toList = cited a := by
  cases a with
  | none => rfl
  | some a => exact List.append_nil _

@[simp] theorem cited_empty : cited (#[] : Array α) = [] := rfl

@[simp] theorem cited_push (as : Array α) (a : α) : cited (as.push a) = cited as ++ cited a := by
  show cited (as.push a).toList = cited as.toList ++ cited a
  simp

theorem cited_subset_of_mem {a : α} {as : List α} (mem : a ∈ as) : cited a ⊆ cited as :=
  fun _ here => List.mem_flatMap.mpr ⟨a, mem, here⟩

end Containers

@[simp] theorem cited_tokens (ts : List Token) : cited ts = ts := by
  induction ts with
  | nil => rfl
  | cons t ts ih => simp [ih]

/-! ## Trees -/

mutual

def Expr.cited : Expr → List Token
  | .literal _ => []
  | .grouping inner => inner.cited
  | .unary operator right => operator :: right.cited
  | .binary left operator right => left.cited ++ operator :: right.cited
  | .logical left operator right => left.cited ++ operator :: right.cited
  | .read name => [name.token]
  | .assign name value => name.token :: value.cited
  | .call callee paren arguments => callee.cited ++ paren :: Expr.citedAll arguments
  | .get object name => name :: object.cited
  | .set object name value => object.cited ++ name :: value.cited
  | .self keyword => [keyword.token]
  | .inherited keyword method => [keyword.token, method]

def Expr.citedAll : List Expr → List Token
  | [] => []
  | first :: rest => first.cited ++ Expr.citedAll rest

end

instance : Citing Expr := ⟨Expr.cited⟩

mutual

def Stmt.cited : Stmt → List Token
  | .expression value => Citing.cited value
  | .print value => Citing.cited value
  | .varDecl name initializer => name :: Citing.cited initializer
  | .block body => Stmt.citedAll body
  | .ifElse condition thenBranch none => Citing.cited condition ++ thenBranch.cited
  | .ifElse condition thenBranch (some elseBranch) =>
    Citing.cited condition ++ thenBranch.cited ++ elseBranch.cited
  | .whileLoop condition body => Citing.cited condition ++ body.cited
  | .funDecl declaration => declaration.cited
  | .returnStmt keyword value => keyword :: Citing.cited value
  | .classDecl name superclass methods => name :: Citing.cited superclass ++ FunctionDecl.citedAll methods

def Stmt.citedAll : List Stmt → List Token
  | [] => []
  | first :: rest => first.cited ++ Stmt.citedAll rest

def FunctionDecl.cited : FunctionDecl → List Token
  | ⟨name, params, body⟩ => name :: params ++ Stmt.citedAll body

def FunctionDecl.citedAll : List FunctionDecl → List Token
  | [] => []
  | first :: rest => first.cited ++ FunctionDecl.citedAll rest

end

instance : Citing Stmt := ⟨Stmt.cited⟩

instance : Citing FunctionDecl := ⟨FunctionDecl.cited⟩

theorem Expr.citedAll_eq (es : List Expr) : Expr.citedAll es = Citing.cited es := by
  induction es with
  | nil => rfl
  | cons e es ih => rw [Expr.citedAll, ih, cited_cons]; rfl

theorem Stmt.citedAll_eq (ss : List Stmt) : Stmt.citedAll ss = Citing.cited ss := by
  induction ss with
  | nil => rfl
  | cons s ss ih => rw [Stmt.citedAll, ih, cited_cons]; rfl

theorem FunctionDecl.citedAll_eq (fs : List FunctionDecl) : FunctionDecl.citedAll fs = Citing.cited fs := by
  induction fs with
  | nil => rfl
  | cons f fs ih => rw [FunctionDecl.citedAll, ih, cited_cons]; rfl

section Expressions

variable (e left right : Expr) (es : List Expr) (t : Token) (r : Reference)

@[simp] theorem cited_literal (value : Literal) : cited (Expr.literal value) = [] := rfl

@[simp] theorem cited_grouping : cited (Expr.grouping e) = cited e := rfl

@[simp] theorem cited_unary : cited (Expr.unary t e) = t :: cited e := rfl

@[simp] theorem cited_binary : cited (Expr.binary left t right) = cited left ++ t :: cited right := rfl

@[simp] theorem cited_logical : cited (Expr.logical left t right) = cited left ++ t :: cited right := rfl

@[simp] theorem cited_read : cited (Expr.read r) = [r.token] := rfl

@[simp] theorem cited_assign : cited (Expr.assign r e) = r.token :: cited e := rfl

@[simp] theorem cited_call : cited (Expr.call e t es) = cited e ++ t :: cited es :=
  congrArg (fun arguments => cited e ++ t :: arguments) (Expr.citedAll_eq es)

@[simp] theorem cited_get : cited (Expr.get e t) = t :: cited e := rfl

@[simp] theorem cited_set : cited (Expr.set left t right) = cited left ++ t :: cited right := rfl

@[simp] theorem cited_self : cited (Expr.self r) = [r.token] := rfl

@[simp] theorem cited_inherited : cited (Expr.inherited r t) = [r.token, t] := rfl

end Expressions

section Statements

variable (e : Expr) (value : Option Expr) (s : Stmt) (ss : List Stmt) (f : FunctionDecl) (t : Token)

@[simp] theorem cited_expression : cited (Stmt.expression e) = cited e := rfl

@[simp] theorem cited_print : cited (Stmt.print e) = cited e := rfl

@[simp] theorem cited_varDecl : cited (Stmt.varDecl t value) = t :: cited value := rfl

@[simp] theorem cited_block : cited (Stmt.block ss) = cited ss := Stmt.citedAll_eq ss

@[simp] theorem cited_ifElse (other : Option Stmt) :
    cited (Stmt.ifElse e s other) = cited e ++ cited s ++ cited other := by
  cases other with
  | none => exact (List.append_nil _).symm
  | some other => rfl

@[simp] theorem cited_whileLoop : cited (Stmt.whileLoop e s) = cited e ++ cited s := rfl

@[simp] theorem cited_funDecl : cited (Stmt.funDecl f) = cited f := rfl

@[simp] theorem cited_returnStmt : cited (Stmt.returnStmt t value) = t :: cited value := rfl

@[simp] theorem cited_classDecl (superclass : Option Reference) (methods : List FunctionDecl) :
    cited (Stmt.classDecl t superclass methods) = t :: cited superclass ++ cited methods :=
  congrArg (t :: cited superclass ++ ·) (FunctionDecl.citedAll_eq methods)

theorem cited_function : cited f = f.name :: f.params ++ cited f.body := by
  cases f with
  | mk name params body => exact congrArg (name :: params ++ ·) (Stmt.citedAll_eq body)

end Statements

end Lox
