import Lox.Proofs.Provenance.Trees
import Lox.Scope

/-!
# Errors about scopes point to tokens of the tree

The walk over a program reports only tokens that the program keeps (`cited_ofProgram`).
-/

namespace Lox

namespace Scoping

/-- The errors so far point to tokens of the source. -/
def Blames (source : List Token) (s : Scoping) : Prop := cited s.errors ⊆ source

variable {source : List Token} {s : Scoping} {context : Context}

/-! ## Single steps -/

namespace Blames

variable (before : Blames source s)
include before

theorem mark (name : String) (ready : Bool) : Blames source (s.mark name ready) := by
  unfold Scoping.mark
  split
  · exact before
  · exact before

theorem introduce (name : String) : Blames source (s.introduce name) :=
  (before.mark name false).mark name true

theorem bind (r : Reference) : Blames source (s.bind r) := by
  unfold Scoping.bind
  split
  · exact before
  · exact before

theorem report (cause : ScopeError.Cause) {t : Token} (known : t ∈ source) : Blames source (s.report cause t) := by
  have errors : cited s.errors ⊆ source := before
  simp [Blames, Scoping.report, errors, known]

theorem reportIf (misused : Bool) (cause : ScopeError.Cause) {t : Token} (known : t ∈ source) :
    Blames source (s.reportIf misused cause t) := by
  cases misused with
  | true => exact before.report cause known
  | false => exact before

theorem read {r : Reference} (known : r.token ∈ source) : Blames source (s.read r) :=
  (before.reportIf _ _ known).bind r

theorem inherited {keyword : Reference} (known : keyword.token ∈ source) :
    Blames source (s.inherited context keyword) := by
  unfold Scoping.inherited
  cases context.class? with
  | none | base => exact (before.report _ known).bind keyword
  | derived => exact before.bind keyword

theorem enterClass (name : Token) {superclass : Option Reference} (known : cited superclass ⊆ source) :
    Blames source (s.enterClass name superclass) := by
  cases superclass with
  | none => exact mark (s := s.enter) before "this" true
  | some parent =>
      have given : parent.token ∈ source := by simpa using known
      have checked := (before.reportIf (parent.name = name.lexeme) .selfInheritance given).read given
      exact mark (s := Scoping.enter _) (mark (s := Scoping.enter _) checked "super" true) "this" true

theorem leaveClass (superclass : Option Reference) : Blames source (s.leaveClass superclass) := by
  cases superclass with
  | none | some => exact before

theorem introduceAll (params : List Token) :
    Blames source (params.foldl (fun s param => s.introduce param.lexeme) s) := by
  induction params generalizing s with
  | nil => exact before
  | cons param params ih => exact ih (before.introduce param.lexeme)

end Blames

/-! ## Expressions -/

mutual

theorem expr_blames : ∀ (e : Expr) {s : Scoping}, cited e ⊆ source → Blames source s →
    Blames source (expr context e s)
  | .literal _, _, _, before => before
  | .grouping inner, _, known, before => expr_blames inner (by simpa using known) before
  | .unary _ right, _, known, before => by
      simp only [cited_unary, List.cons_subset] at known
      exact expr_blames right known.2 before
  | .binary left _ right, _, known, before => by
      simp only [cited_binary, List.append_subset, List.cons_subset] at known
      exact expr_blames right known.2.2 (expr_blames left known.1 before)
  | .logical left _ right, _, known, before => by
      simp only [cited_logical, List.append_subset, List.cons_subset] at known
      exact expr_blames right known.2.2 (expr_blames left known.1 before)
  | .read name, _, known, before => before.read (by simpa using known)
  | .assign name value, _, known, before => by
      simp only [cited_assign, List.cons_subset] at known
      exact (expr_blames value known.2 before).bind name
  | .call callee _ arguments, _, known, before => by
      simp only [cited_call, List.append_subset, List.cons_subset] at known
      exact exprs_blames arguments known.2.2 (expr_blames callee known.1 before)
  | .get object _, _, known, before => by
      simp only [cited_get, List.cons_subset] at known
      exact expr_blames object known.2 before
  | .set object _ value, _, known, before => by
      simp only [cited_set, List.append_subset, List.cons_subset] at known
      exact expr_blames value known.2.2 (expr_blames object known.1 before)
  | .self keyword, s, known, before => by
      rw [expr]
      split
      · exact before.report _ (by simpa using known)
      · exact before.bind keyword
  | .inherited keyword _, _, known, before => before.inherited (known (by simp))

theorem exprs_blames : ∀ (es : List Expr) {s : Scoping}, cited es ⊆ source → Blames source s →
    Blames source (exprs context es s)
  | [], _, _, before => before
  | e :: es, _, known, before => by
      simp only [cited_cons, List.append_subset] at known
      exact exprs_blames es known.2 (expr_blames e known.1 before)

end

theorem expr?_blames {e : Option Expr} (known : cited e ⊆ source) (before : Blames source s) :
    Blames source (expr? context e s) := by
  cases e with
  | none => exact before
  | some e => exact expr_blames e known before

/-! ## Statements -/

mutual

theorem stmt_blames (context : Context) : ∀ (a : Stmt) {s : Scoping}, cited a ⊆ source → Blames source s →
    Blames source (stmt context a s)
  | .expression value, _, known, before | .print value, _, known, before => expr_blames value known before
  | .varDecl name initializer, _, known, before => by
      simp only [cited_varDecl, List.cons_subset] at known
      exact (expr?_blames known.2 (before.mark name.lexeme false)).mark name.lexeme true
  | .block body, s, known, before =>
      stmts_blames context body (s := s.enter) (by simpa using known) before
  | .ifElse condition thenBranch none, _, known, before => by
      simp only [cited_ifElse, cited_none, List.append_nil, List.append_subset] at known
      exact stmt_blames context thenBranch known.2 (expr_blames condition known.1 before)
  | .ifElse condition thenBranch (some elseBranch), _, known, before => by
      simp only [cited_ifElse, cited_some, List.append_subset] at known
      exact stmt_blames context elseBranch known.2
        (stmt_blames context thenBranch known.1.2 (expr_blames condition known.1.1 before))
  | .whileLoop condition body, _, known, before => by
      simp only [cited_whileLoop, List.append_subset] at known
      exact stmt_blames context body known.2 (expr_blames condition known.1 before)
  | .funDecl declaration, _, known, before =>
      function_blames context .function declaration (by simpa using known) (before.introduce _)
  | .returnStmt keyword value, _, known, before => by
      simp only [cited_returnStmt, List.cons_subset] at known
      exact expr?_blames known.2 ((before.reportIf _ _ known.1).reportIf _ _ known.1)
  | .classDecl name superclass methods, _, known, before => by
      simp only [cited_classDecl, List.cons_append, List.cons_subset, List.append_subset] at known
      have entered := (before.introduce name.lexeme).enterClass name known.2.1
      exact (methodList_blames _ methods known.2.2 entered).leaveClass superclass

theorem stmts_blames (context : Context) : ∀ (as : List Stmt) {s : Scoping}, cited as ⊆ source → Blames source s →
    Blames source (stmts context as s)
  | [], _, _, before => before
  | a :: as, _, known, before => by
      simp only [cited_cons, List.append_subset] at known
      exact stmts_blames context as known.2 (stmt_blames context a known.1 before)

theorem function_blames (context : Context) (kind : FunctionContext) : ∀ (f : FunctionDecl) {s : Scoping},
    cited f ⊆ source → Blames source s → Blames source (function context kind f s)
  | ⟨name, params, body⟩, s, known, before => by
      simp only [cited_function, List.cons_append, List.cons_subset, List.append_subset] at known
      exact stmts_blames _ body known.2.2 (Blames.introduceAll (s := s.enter) before params)

theorem methodList_blames (context : Context) : ∀ (fs : List FunctionDecl) {s : Scoping}, cited fs ⊆ source →
    Blames source s → Blames source (methodList context fs s)
  | [], _, _, before => before
  | f :: fs, _, known, before => by
      simp only [cited_cons, List.append_subset] at known
      exact methodList_blames context fs known.2 (function_blames context _ f known.1 before)

end

end Scoping

end Lox
