import Lox.StaticError
import Lox.Proofs.Sequence

/-!
# Without lines

The same data with every line set to zero (`unlined`): of tokens, and through them of trees, of errors
and of all that a parser or a walk over scopes keeps. Two things are the same but for lines if they are
equal without them (`SameButLines`). An action *ignores lines* if without lines it does the same
(`Unlined`); sequences of such actions ignore lines (`Unlined.bind`).
-/

namespace Lox

class Lined (α : Type) where
  unlined : α → α

export Lined (unlined)

def SameButLines {α : Type} [Lined α] (a b : α) : Prop := unlined a = unlined b

/-! ## What has no lines -/

instance : Lined Unit := ⟨id⟩

instance : Lined Bool := ⟨id⟩

instance : Lined Nat := ⟨id⟩

instance : Lined String := ⟨id⟩

instance : Lined Literal := ⟨id⟩

instance : Lined Distances := ⟨id⟩

/-! ## Containers -/

section Containers

variable {α β ε : Type} [Lined α] [Lined β] [Lined ε]

instance : Lined (Option α) := ⟨Option.map unlined⟩

instance : Lined (List α) := ⟨List.map unlined⟩

instance : Lined (Array α) := ⟨Array.map unlined⟩

instance : Lined (α × β) := ⟨Prod.map unlined unlined⟩

instance : Lined (Except ε α) where
  unlined
    | .ok a => .ok (unlined a)
    | .error e => .error (unlined e)

instance {σ : Type} [Lined σ] : Lined (EStateM.Result ε σ α) where
  unlined
    | .ok a s => .ok (unlined a) (unlined s)
    | .error e s => .error (unlined e) (unlined s)

end Containers

section Sequences

variable {α : Type} [Lined α]

theorem isSome_unlined (a : Option α) : (unlined a).isSome = a.isSome :=
  Option.isSome_map

theorem append_unlined (as bs : List α) : unlined as ++ unlined bs = unlined (as ++ bs) :=
  List.map_append.symm

theorem push_unlined (as : Array α) (a : α) : (unlined as).push (unlined a) = unlined (as.push a) :=
  Array.map_push.symm

theorem modify_unlined (as : Array α) (i : Nat) {f g : α → α} (same : ∀ a, g (unlined a) = unlined (f a)) :
    (unlined as).modify i g = unlined (as.modify i f) := by
  apply Array.ext_getElem?
  intro j
  show ((as.map unlined).modify i g)[j]? = ((as.modify i f).map unlined)[j]?
  rw [Array.getElem?_modify, Array.getElem?_map, Array.getElem?_map, Array.getElem?_modify]
  split
  · cases as[j]? with
    | none => rfl
    | some a => exact congrArg some (same a)
  · rfl

theorem isEmpty_unlined (as : Array α) : (unlined as).isEmpty = as.isEmpty := by
  show (as.map unlined).isEmpty = _
  simp [Array.isEmpty]

theorem toList_unlined (as : Array α) : (unlined as).toList = unlined as.toList :=
  Array.toList_map

end Sequences

/-! ## Tokens and errors -/

instance : Lined Token := ⟨fun token => { token with line := 0 }⟩

instance : Lined Reference := ⟨fun reference => { reference with token := unlined reference.token }⟩

@[simp] theorem unlined_lexeme (token : Token) : (unlined token).lexeme = token.lexeme := rfl

@[simp] theorem unlined_id (r : Reference) : (unlined r).id = r.id := rfl

@[simp] theorem unlined_name (r : Reference) : (unlined r).name = r.name := rfl

instance : Lined LexicalError := ⟨fun error => { error with line := 0 }⟩

instance : Lined SyntaxError := ⟨fun error => { error with token := unlined error.token }⟩

instance : Lined ScopeError := ⟨fun error => { error with token := unlined error.token }⟩

instance : Lined StaticError where
  unlined
    | .lexical error => .lexical (unlined error)
    | .grammar error => .grammar (unlined error)
    | .scope error => .scope (unlined error)

/-! ## Trees -/

mutual

def Expr.unlined : Expr → Expr
  | .literal value => .literal value
  | .grouping inner => .grouping inner.unlined
  | .unary operator right => .unary (Lined.unlined operator) right.unlined
  | .binary left operator right => .binary left.unlined (Lined.unlined operator) right.unlined
  | .logical left operator right => .logical left.unlined (Lined.unlined operator) right.unlined
  | .read name => .read (Lined.unlined name)
  | .assign name value => .assign (Lined.unlined name) value.unlined
  | .call callee paren arguments =>
    .call callee.unlined (Lined.unlined paren) (Expr.unlinedAll arguments)
  | .get object name => .get object.unlined (Lined.unlined name)
  | .set object name value => .set object.unlined (Lined.unlined name) value.unlined
  | .self keyword => .self (Lined.unlined keyword)
  | .inherited keyword method => .inherited (Lined.unlined keyword) (Lined.unlined method)

def Expr.unlinedAll : List Expr → List Expr
  | [] => []
  | first :: rest => first.unlined :: Expr.unlinedAll rest

end

instance : Lined Expr := ⟨Expr.unlined⟩

mutual

def Stmt.unlined : Stmt → Stmt
  | .expression value => .expression (Lined.unlined value)
  | .print value => .print (Lined.unlined value)
  | .varDecl name initializer => .varDecl (Lined.unlined name) (Lined.unlined initializer)
  | .block body => .block (Stmt.unlinedAll body)
  | .ifElse condition thenBranch none => .ifElse (Lined.unlined condition) thenBranch.unlined none
  | .ifElse condition thenBranch (some elseBranch) =>
    .ifElse (Lined.unlined condition) thenBranch.unlined (some elseBranch.unlined)
  | .whileLoop condition body => .whileLoop (Lined.unlined condition) body.unlined
  | .funDecl declaration => .funDecl declaration.unlined
  | .returnStmt keyword value => .returnStmt (Lined.unlined keyword) (Lined.unlined value)
  | .classDecl name superclass methods =>
    .classDecl (Lined.unlined name) (Lined.unlined superclass) (FunctionDecl.unlinedAll methods)

def Stmt.unlinedAll : List Stmt → List Stmt
  | [] => []
  | first :: rest => first.unlined :: Stmt.unlinedAll rest

def FunctionDecl.unlined : FunctionDecl → FunctionDecl
  | ⟨name, params, body⟩ => ⟨Lined.unlined name, Lined.unlined params, Stmt.unlinedAll body⟩

def FunctionDecl.unlinedAll : List FunctionDecl → List FunctionDecl
  | [] => []
  | first :: rest => first.unlined :: FunctionDecl.unlinedAll rest

end

instance : Lined Stmt := ⟨Stmt.unlined⟩

instance : Lined FunctionDecl := ⟨FunctionDecl.unlined⟩

theorem Expr.unlinedAll_eq_map (es : List Expr) : Expr.unlinedAll es = es.map Expr.unlined := by
  induction es with
  | nil => rfl
  | cons e es ih => rw [Expr.unlinedAll, ih, List.map_cons]

theorem Stmt.unlinedAll_eq_map (ss : List Stmt) : Stmt.unlinedAll ss = ss.map Stmt.unlined := by
  induction ss with
  | nil => rfl
  | cons s ss ih => rw [Stmt.unlinedAll, ih, List.map_cons]

theorem FunctionDecl.unlinedAll_eq_map (fs : List FunctionDecl) :
    FunctionDecl.unlinedAll fs = fs.map FunctionDecl.unlined := by
  induction fs with
  | nil => rfl
  | cons f fs ih => rw [FunctionDecl.unlinedAll, ih, List.map_cons]

theorem unlined_call (callee : Expr) (paren : Token) (arguments : List Expr) :
    unlined (Expr.call callee paren arguments) = .call (unlined callee) (unlined paren) (unlined arguments) :=
  congrArg _ (Expr.unlinedAll_eq_map arguments)

theorem unlined_block (body : List Stmt) : unlined (Stmt.block body) = .block (unlined body) :=
  congrArg _ (Stmt.unlinedAll_eq_map body)

theorem unlined_ifElse (condition : Expr) (thenBranch : Stmt) (elseBranch : Option Stmt) :
    unlined (Stmt.ifElse condition thenBranch elseBranch) =
      .ifElse (unlined condition) (unlined thenBranch) (unlined elseBranch) := by
  cases elseBranch with
  | none | some => rfl

theorem unlined_function (name : Token) (params : List Token) (body : List Stmt) :
    unlined (FunctionDecl.mk name params body) = ⟨unlined name, unlined params, unlined body⟩ :=
  congrArg _ (Stmt.unlinedAll_eq_map body)

theorem unlined_classDecl (name : Token) (superclass : Option Reference) (methods : List FunctionDecl) :
    unlined (Stmt.classDecl name superclass methods) =
      .classDecl (unlined name) (unlined superclass) (unlined methods) :=
  congrArg _ (FunctionDecl.unlinedAll_eq_map methods)

theorem name_unlined (f : FunctionDecl) : f.unlined.name = unlined f.name := by
  cases f with
  | mk => rfl

theorem isInitializer_unlined (f : FunctionDecl) : f.unlined.isInitializer = f.isInitializer := by
  cases f with
  | mk => rfl

/-! ## Actions -/

section Actions

variable {ε σ α β : Type} [Lined ε] [Lined σ] [Lined α] [Lined β]

/-- Without lines, the second action does what the first one does with them. -/
def Unlined (x y : EStateM ε σ α) : Prop := ∀ s, y (unlined s) = unlined (x s)

theorem Unlined.bind {x y : EStateM ε σ α} {f g : α → EStateM ε σ β} (first : Unlined x y)
    (rest : ∀ a, Unlined (f a) (g (unlined a))) : Unlined (x >>= f) (y >>= g) := by
  intro s
  have here := first s
  cases ran : x s with
  | ok a s' =>
      rw [ran] at here
      rw [bind_of ran, bind_of here]
      exact rest a s'
  | error e s' =>
      rw [ran] at here
      rw [bind_of_error ran, bind_of_error here]
      rfl

theorem Unlined.pure {a b : α} (same : b = unlined a) : Unlined (Pure.pure a : EStateM ε σ α) (Pure.pure b) := by
  subst same
  exact fun _ => rfl

end Actions

end Lox
