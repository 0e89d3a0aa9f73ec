import Lox.Proofs.Lines.Trees

/-!
# Scopes and distances ignore lines

The walk over a program records the same distances for the tree without lines and reports the same
errors, without lines (`ofProgram_unlined`).
-/

namespace Lox

instance : Lined Scoping := ⟨fun s => { s with errors := unlined s.errors }⟩

namespace Scoping

/-! ## Single steps -/

theorem enter_unlined (s : Scoping) : (unlined s).enter = unlined s.enter := rfl

theorem leave_unlined (s : Scoping) : (unlined s).leave = unlined s.leave := rfl

theorem mark_unlined (name : String) (ready : Bool) (s : Scoping) :
    (unlined s).mark name ready = unlined (s.mark name ready) := by
  obtain ⟨scopes, distances, errors⟩ := s
  cases scopes with
  | nil | cons => rfl

theorem declare_unlined (name : String) (s : Scoping) : (unlined s).declare name = unlined (s.declare name) :=
  mark_unlined name false s

theorem define_unlined (name : String) (s : Scoping) : (unlined s).define name = unlined (s.define name) :=
  mark_unlined name true s

theorem introduce_unlined (name : String) (s : Scoping) :
    (unlined s).introduce name = unlined (s.introduce name) := by
  rw [introduce, declare_unlined, define_unlined, introduce]

theorem bind_unlined (r : Reference) (s : Scoping) : (unlined s).bind (unlined r) = unlined (s.bind r) := by
  have scopes : (unlined s).scopes = s.scopes := rfl
  rw [bind, bind, unlined_name, unlined_id, scopes]
  cases distance? r.name s.scopes with
  | none | some => rfl

theorem report_unlined (cause : ScopeError.Cause) (token : Token) (s : Scoping) :
    (unlined s).report cause (unlined token) = unlined (s.report cause token) :=
  congrArg (Scoping.mk s.scopes s.distances) (push_unlined s.errors ⟨cause, token⟩)

theorem reportIf_unlined (misused : Bool) (cause : ScopeError.Cause) (token : Token) (s : Scoping) :
    (unlined s).reportIf misused cause (unlined token) = unlined (s.reportIf misused cause token) := by
  cases misused with
  | true => exact report_unlined cause token s
  | false => rfl

theorem read_unlined (r : Reference) (s : Scoping) : (unlined s).read (unlined r) = unlined (s.read r) := by
  rw [read, read, ← bind_unlined, ← reportIf_unlined]
  rfl

theorem inherited_unlined (context : Context) (keyword : Reference) (s : Scoping) :
    (unlined s).inherited context (unlined keyword) = unlined (s.inherited context keyword) := by
  rw [inherited, inherited, ← bind_unlined]
  cases context.class? with
  | none | base => exact congrArg (bind (unlined keyword)) (report_unlined _ keyword.token s)
  | derived => rfl

/-! ## Expressions -/

mutual

theorem expr_unlined (context : Context) :
    ∀ (e : Expr) (s : Scoping), expr context (unlined e) (unlined s) = unlined (expr context e s)
  | .literal _, _ => rfl
  | .grouping inner, s => expr_unlined context inner s
  | .unary _ right, s => expr_unlined context right s
  | .binary left _ right, s | .logical left _ right, s => by
      have first := expr_unlined context left s
      have second := expr_unlined context right (expr context left s)
      exact (congrArg (expr context (unlined right)) first).trans second
  | .read name, s => read_unlined name s
  | .assign name value, s => by
      have first := expr_unlined context value s
      exact (congrArg (bind (unlined name)) first).trans (bind_unlined name _)
  | .call callee _ arguments, s => by
      have first := expr_unlined context callee s
      have others := exprs_unlined context arguments (expr context callee s)
      exact (congrArg (exprs context (Expr.unlinedAll arguments)) first).trans others
  | .get object _, s => expr_unlined context object s
  | .set object _ value, s => by
      have first := expr_unlined context object s
      have second := expr_unlined context value (expr context object s)
      exact (congrArg (expr context (unlined value)) first).trans second
  | .self keyword, s => by
      show (if context.class? = .none then (unlined s).report .thisOutsideClass (unlined keyword.token)
        else (unlined s).bind (unlined keyword)) = _
      rw [report_unlined, bind_unlined, expr, apply_ite unlined]
  | .inherited keyword _, s => inherited_unlined context keyword s

theorem exprs_unlined (context : Context) :
    ∀ (es : List Expr) (s : Scoping),
      exprs context (Expr.unlinedAll es) (unlined s) = unlined (exprs context es s)
  | [], _ => rfl
  | e :: es, s => by
      have first := expr_unlined context e s
      have others := exprs_unlined context es (expr context e s)
      exact (congrArg (exprs context (Expr.unlinedAll es)) first).trans others

end

theorem expr?_unlined (context : Context) (e : Option Expr) (s : Scoping) :
    expr? context (unlined e) (unlined s) = unlined (expr? context e s) := by
  cases e with
  | none => rfl
  | some e => exact expr_unlined context e s

/-! ## Statements -/

theorem enterClass_unlined (name : Token) (superclass : Option Reference) (s : Scoping) :
    (unlined s).enterClass (unlined name) (unlined superclass) = unlined (s.enterClass name superclass) := by
  cases superclass with
  | none => exact define_unlined "this" s.enter
  | some parent =>
      show ((((unlined s).reportIf (parent.name = name.lexeme) .selfInheritance (unlined parent.token)).read
        (unlined parent)).enter.define "super").enter.define "this" = _
      rw [reportIf_unlined, read_unlined, enter_unlined, define_unlined, enter_unlined, define_unlined]
      rfl

theorem leaveClass_unlined (superclass : Option Reference) (s : Scoping) :
    (unlined s).leaveClass (unlined superclass) = unlined (s.leaveClass superclass) := by
  cases superclass with
  | none | some => rfl

theorem introduceAll_unlined (params : List Token) (s : Scoping) :
    (unlined params).foldl (fun s param => s.introduce param.lexeme) (unlined s) =
      unlined (params.foldl (fun s param => s.introduce param.lexeme) s) := by
  induction params generalizing s with
  | nil => rfl
  | cons param params ih =>
      rw [List.foldl_cons, ← ih, ← introduce_unlined]
      rfl

mutual

theorem stmt_unlined (context : Context) :
    ∀ (t : Stmt) (s : Scoping), stmt context (unlined t) (unlined s) = unlined (stmt context t s)
  | .expression value, s | .print value, s => expr_unlined context value s
  | .varDecl name initializer, s => by
      show (expr? context (unlined initializer) ((unlined s).declare name.lexeme)).define name.lexeme = _
      rw [declare_unlined, expr?_unlined, define_unlined, stmt]
  | .block body, s => by
      show (stmts context (Stmt.unlinedAll body) (unlined s.enter)).leave = _
      rw [stmts_unlined, leave_unlined, stmt]
  | .ifElse condition thenBranch none, s => by
      show stmt context (unlined thenBranch) (expr context (unlined condition) (unlined s)) = _
      rw [expr_unlined, stmt_unlined context thenBranch, stmt]
  | .ifElse condition thenBranch (some elseBranch), s => by
      show stmt context (unlined elseBranch)
        (stmt context (unlined thenBranch) (expr context (unlined condition) (unlined s))) = _
      rw [expr_unlined, stmt_unlined context thenBranch, stmt_unlined context elseBranch, stmt]
  | .whileLoop condition body, s => by
      show stmt context (unlined body) (expr context (unlined condition) (unlined s)) = _
      rw [expr_unlined, stmt_unlined context body, stmt]
  | .funDecl declaration, s => by
      show function context .function declaration.unlined
        ((unlined s).introduce declaration.unlined.name.lexeme) = _
      rw [name_unlined]
      show function context .function declaration.unlined ((unlined s).introduce declaration.name.lexeme) = _
      rw [introduce_unlined, function_unlined, stmt]
  | .returnStmt keyword value, s => by
      show expr? context (unlined value)
        (((unlined s).reportIf (context.function = .none) .topLevelReturn (unlined keyword)).reportIf
          ((unlined value).isSome && context.function = .initializer) .initializerResult (unlined keyword)) = _
      rw [isSome_unlined, reportIf_unlined, reportIf_unlined, expr?_unlined, stmt]
  | .classDecl name superclass methods, s => by
      show leaveClass (unlined superclass)
        (methodList { context with class? := if (unlined superclass).isSome then .derived else .base }
          (FunctionDecl.unlinedAll methods)
          (((unlined s).introduce name.lexeme).enterClass (unlined name) (unlined superclass))) = _
      rw [isSome_unlined, introduce_unlined, enterClass_unlined, methodList_unlined, leaveClass_unlined, stmt]

theorem stmts_unlined (context : Context) :
    ∀ (ts : List Stmt) (s : Scoping),
      stmts context (Stmt.unlinedAll ts) (unlined s) = unlined (stmts context ts s)
  | [], _ => rfl
  | t :: ts, s => by
      rw [Stmt.unlinedAll, stmts, stmts]
      exact (congrArg (stmts context (Stmt.unlinedAll ts)) (stmt_unlined context t s)).trans
        (stmts_unlined context ts _)

theorem function_unlined (context : Context) (kind : FunctionContext) :
    ∀ (f : FunctionDecl) (s : Scoping),
      function context kind f.unlined (unlined s) = unlined (function context kind f s)
  | ⟨name, params, body⟩, s => by
      show (stmts { context with function := kind } (Stmt.unlinedAll body)
        ((unlined params).foldl (fun s param => s.introduce param.lexeme) (unlined s.enter))).leave = _
      rw [introduceAll_unlined, stmts_unlined, leave_unlined, function]

theorem methodList_unlined (context : Context) :
    ∀ (fs : List FunctionDecl) (s : Scoping),
      methodList context (FunctionDecl.unlinedAll fs) (unlined s) = unlined (methodList context fs s)
  | [], _ => rfl
  | f :: fs, s => by
      rw [FunctionDecl.unlinedAll, methodList, methodList, isInitializer_unlined]
      exact (congrArg (methodList context (FunctionDecl.unlinedAll fs)) (function_unlined context _ f s)).trans
        (methodList_unlined context fs _)

end

end Scoping

theorem ofProgram_unlined (program : List Stmt) :
    Distances.ofProgram (unlined program) = unlined (Distances.ofProgram program) := by
  have start : unlined Scoping.start = .start := congrArg (Scoping.mk [] .empty) Array.map_empty
  have walked : Scoping.stmts .topLevel (unlined program) .start =
      unlined (Scoping.stmts .topLevel program .start) := by
    have walked := Scoping.stmts_unlined .topLevel program .start
    rwa [Stmt.unlinedAll_eq_map, start] at walked
  rw [Distances.ofProgram, Distances.ofProgram, walked]
  generalize Scoping.stmts .topLevel program .start = s
  show (if (unlined s.errors).isEmpty then Except.ok s.distances else .error (unlined s.errors).toList) =
    unlined (if s.errors.isEmpty then Except.ok s.distances else .error s.errors.toList)
  rw [isEmpty_unlined, toList_unlined, apply_ite unlined]
  rfl

end Lox
