import Lox.Proofs.Accepted

/-!
# The walk over a tree

What the walk over the scopes of a tree changes, from the state before it to the state after it. It
withdraws no error and records distances for the references of the tree only (`Segment`), and of the
scopes around the tree only the innermost one may gain the names that are declared there
(`stmt_scopes`, `stmts_scopes`).
-/

namespace Lox

/-! ## Bindings -/

theorem Bindings.contains_insert {κ α : Type} [DecidableEq κ] (b : Bindings κ α) (key other : κ)
    (value : α) :
    (b.insert key value).contains other = (decide (other = key) || b.contains other) := by
  unfold Bindings.contains
  by_cases same : other = key
  · subst same
    simp
  · simp [Bindings.find?_insert_of_ne _ _ same, same]

theorem Bindings.contains_iff {κ α : Type} [DecidableEq κ] {b : Bindings κ α} {key : κ} :
    b.contains key = true ↔ ∃ value, b.find? key = some value :=
  Option.isSome_iff_exists

namespace Scoping

/-! ## Errors and distances -/

/--
What the walk over a part with these references may change, from the state before it to the state
after it.
-/
structure Segment (s : Scoping) (references : List Reference) (s' : Scoping) : Prop where
  clean : s'.errors = #[] → s.errors = #[]
  others : ∀ id, id ∉ references.map Reference.id → s'.distances.find? id = s.distances.find? id

theorem Segment.refl {s : Scoping} : Segment s [] s := ⟨id, fun _ _ => rfl⟩

theorem Segment.append {s₁ s₂ s₃ : Scoping} {rs rs' : List Reference} (first : Segment s₁ rs s₂)
    (second : Segment s₂ rs' s₃) : Segment s₁ (rs ++ rs') s₃ := by
  refine ⟨fun clean => first.clean (second.clean clean), fun id other => ?_⟩
  rw [List.map_append, List.mem_append, not_or] at other
  rw [second.others id other.2, first.others id other.1]

theorem Segment.within {s₁ s₂ s₃ s₄ : Scoping} {rs : List Reference} (before : Segment s₁ [] s₂)
    (part : Segment s₂ rs s₃) (after : Segment s₃ [] s₄) : Segment s₁ rs s₄ := by
  simpa using (before.append part).append after

theorem mark_segment (name : String) (ready : Bool) (s : Scoping) :
    Segment s [] (s.mark name ready) := by
  unfold mark
  split <;> exact ⟨id, fun _ _ => rfl⟩

theorem introduce_segment (name : String) (s : Scoping) : Segment s [] (s.introduce name) :=
  (mark_segment name false s).append (mark_segment name true _)

theorem enter_segment (s : Scoping) : Segment s [] s.enter := ⟨id, fun _ _ => rfl⟩

theorem leave_segment (s : Scoping) : Segment s [] s.leave := ⟨id, fun _ _ => rfl⟩

theorem errors_report (cause : ScopeError.Cause) (token : Token) (s : Scoping) :
    (s.report cause token).errors ≠ #[] :=
  Array.push_ne_empty

theorem report_segment (cause : ScopeError.Cause) (token : Token) (s : Scoping) :
    Segment s [] (s.report cause token) :=
  ⟨fun clean => (errors_report cause token s clean).elim, fun _ _ => rfl⟩

theorem reportIf_segment (misused : Bool) (cause : ScopeError.Cause) (token : Token) (s : Scoping) :
    Segment s [] (s.reportIf misused cause token) := by
  unfold reportIf
  split
  · exact report_segment cause token s
  · exact .refl

theorem bind_segment (r : Reference) (s : Scoping) : Segment s [r] (s.bind r) := by
  unfold bind
  split
  · refine ⟨id, fun id other => Bindings.find?_insert_of_ne _ _ ?_⟩
    simpa using other
  · exact ⟨id, fun _ _ => rfl⟩

theorem read_segment (r : Reference) (s : Scoping) : Segment s [r] (s.read r) :=
  (reportIf_segment _ _ _ s).append (bind_segment r _)

theorem inherited_segment (context : Context) (r : Reference) (s : Scoping) :
    Segment s [r] (s.inherited context r) := by
  unfold inherited
  cases context.class? with
  | none => exact (report_segment _ _ s).append (bind_segment r _)
  | base => exact (report_segment _ _ s).append (bind_segment r _)
  | derived => exact bind_segment r s

mutual

theorem expr_segment (context : Context) :
    ∀ (e : Expr) (s : Scoping), Segment s e.references (expr context e s)
  | .literal _, s => by
      rw [expr, Expr.references]
      exact .refl
  | .grouping inner, s => by
      rw [expr, Expr.references]
      exact expr_segment context inner s
  | .unary _ right, s => by
      rw [expr, Expr.references]
      exact expr_segment context right s
  | .binary left _ right, s | .logical left _ right, s => by
      rw [expr, Expr.references]
      exact (expr_segment context left s).append (expr_segment context right _)
  | .read name, s => by
      rw [expr, Expr.references]
      exact read_segment name s
  | .assign name value, s => by
      rw [expr, Expr.references]
      exact (expr_segment context value s).append (bind_segment name _)
  | .call callee _ arguments, s => by
      rw [expr, Expr.references]
      exact (expr_segment context callee s).append (exprs_segment context arguments _)
  | .get object _, s => by
      rw [expr, Expr.references]
      exact expr_segment context object s
  | .set object _ value, s => by
      rw [expr, Expr.references]
      exact (expr_segment context object s).append (expr_segment context value _)
  | .self keyword, s => by
      rw [expr, Expr.references]
      split
      · exact (report_segment _ _ s).append ⟨id, fun _ _ => rfl⟩
      · exact bind_segment keyword s
  | .inherited keyword _, s => by
      rw [expr, Expr.references]
      exact inherited_segment context keyword s

theorem exprs_segment (context : Context) :
    ∀ (es : List Expr) (s : Scoping), Segment s (Expr.referencesAll es) (exprs context es s)
  | [], s => by
      rw [exprs, Expr.referencesAll]
      exact .refl
  | first :: rest, s => by
      rw [exprs, Expr.referencesAll]
      exact (expr_segment context first s).append (exprs_segment context rest _)

end

theorem expr?_segment (context : Context) (e : Option Expr) (s : Scoping) :
    Segment s (Expr.references? e) (expr? context e s) := by
  cases e with
  | none => exact .refl
  | some value => exact expr_segment context value s

theorem enterClass_segment (name : Token) (superclass : Option Reference) (s : Scoping) :
    Segment s superclass.toList (s.enterClass name superclass) := by
  have inside (s : Scoping) : Segment s [] (s.enter.define "this") :=
    (enter_segment s).append (mark_segment _ _ _)
  cases superclass with
  | none => exact inside s
  | some parent =>
      have above (s : Scoping) : Segment s [] (s.enter.define "super") :=
        (enter_segment s).append (mark_segment _ _ _)
      have looked :=
        (reportIf_segment (parent.name = name.lexeme) .selfInheritance parent.token s).append
        (read_segment parent _)
      exact .within .refl looked ((above _).append (inside _))

theorem leaveClass_segment (superclass : Option Reference) (s : Scoping) :
    Segment s [] (s.leaveClass superclass) := by
  cases superclass with
  | none => exact leave_segment s
  | some parent => exact (leave_segment s).append (leave_segment _)

def enterFunction (params : List Token) (s : Scoping) : Scoping :=
  params.foldl (fun s param => s.introduce param.lexeme) s.enter

theorem introduceAll_segment (params : List Token) (s : Scoping) :
    Segment s [] (params.foldl (fun s param => s.introduce param.lexeme) s) := by
  induction params generalizing s with
  | nil => exact .refl
  | cons param rest ih => exact (introduce_segment param.lexeme s).append (ih _)

theorem enterFunction_segment (params : List Token) (s : Scoping) :
    Segment s [] (s.enterFunction params) :=
  (enter_segment s).append (introduceAll_segment params _)

def methodKind (declaration : FunctionDecl) : FunctionContext :=
  if declaration.isInitializer then .initializer else .method

mutual

theorem stmt_segment :
    ∀ (context : Context) (a : Stmt) (s : Scoping), Segment s a.references (stmt context a s)
  | context, .expression value, s | context, .print value, s => by
      rw [stmt, Stmt.references]
      exact expr_segment context value s
  | context, .varDecl name initializer, s => by
      rw [stmt, Stmt.references]
      exact .within (mark_segment _ _ s) (expr?_segment context initializer _) (mark_segment _ _ _)
  | context, .block body, s => by
      rw [stmt, Stmt.references]
      exact .within (enter_segment s) (stmts_segment context body _) (leave_segment _)
  | context, .ifElse condition thenBranch none, s => by
      rw [stmt, Stmt.references]
      exact (expr_segment context condition s).append (stmt_segment context thenBranch _)
  | context, .ifElse condition thenBranch (some elseBranch), s => by
      rw [stmt, Stmt.references]
      exact (expr_segment context condition s).append
        ((stmt_segment context thenBranch _).append (stmt_segment context elseBranch _))
  | context, .whileLoop condition body, s => by
      rw [stmt, Stmt.references]
      exact (expr_segment context condition s).append (stmt_segment context body _)
  | context, .funDecl declaration, s => by
      rw [stmt, Stmt.references]
      exact .within (introduce_segment _ s) (function_segment context .function declaration _) .refl
  | context, .returnStmt keyword value, s => by
      rw [stmt, Stmt.references]
      exact .within ((reportIf_segment _ _ _ s).append (reportIf_segment _ _ _ _))
        (expr?_segment context value _) .refl
  | context, .classDecl name superclass methods, s => by
      rw [stmt, Stmt.references]
      exact .within (introduce_segment _ s)
        ((enterClass_segment name superclass _).append (methodList_segment _ methods _))
        (leaveClass_segment superclass _)

theorem stmts_segment : ∀ (context : Context) (body : List Stmt) (s : Scoping),
    Segment s (Stmt.referencesAll body) (stmts context body s)
  | _, [], s => by
      rw [stmts, Stmt.referencesAll]
      exact .refl
  | context, first :: rest, s => by
      rw [stmts, Stmt.referencesAll]
      exact (stmt_segment context first s).append (stmts_segment context rest _)

theorem function_segment :
    ∀ (context : Context) (kind : FunctionContext) (declaration : FunctionDecl) (s : Scoping),
    Segment s declaration.references (function context kind declaration s)
  | context, kind, ⟨_, params, body⟩, s => by
      rw [function, FunctionDecl.references]
      exact .within (enterFunction_segment params s) (stmts_segment _ body _) (leave_segment _)

theorem methodList_segment : ∀ (context : Context) (methods : List FunctionDecl) (s : Scoping),
    Segment s (FunctionDecl.referencesAll methods) (methodList context methods s)
  | _, [], s => by
      rw [methodList, FunctionDecl.referencesAll]
      exact .refl
  | context, first :: rest, s => by
      rw [methodList, FunctionDecl.referencesAll]
      exact (function_segment context _ first s).append (methodList_segment context rest _)

end

/-! ## Scopes -/

def markIn (name : String) (ready : Bool) : List Scope → List Scope
  | [] => []
  | innermost :: outer => innermost.insert name ready :: outer

def introduceIn (name : String) (scopes : List Scope) : List Scope :=
  markIn name true (markIn name false scopes)

def scopesAfter (a : Stmt) (scopes : List Scope) : List Scope :=
  match a.declared? with
  | some name => introduceIn name scopes
  | none => scopes

theorem scopesAfter_plain {a : Stmt} (plain : a.isDeclaration = false) (scopes : List Scope) :
    scopesAfter a scopes = scopes := by
  cases a <;> first | rfl | cases plain

theorem mark_scopes (name : String) (ready : Bool) (s : Scoping) :
    (s.mark name ready).scopes = markIn name ready s.scopes := by
  obtain ⟨scopes, distances, errors⟩ := s
  cases scopes <;> rfl

theorem introduce_scopes (name : String) (s : Scoping) :
    (s.introduce name).scopes = introduceIn name s.scopes := by
  rw [introduce, define, mark_scopes, declare, mark_scopes]
  rfl

theorem bind_scopes (r : Reference) (s : Scoping) : (s.bind r).scopes = s.scopes := by
  unfold bind
  split <;> rfl

theorem reportIf_scopes (misused : Bool) (cause : ScopeError.Cause) (token : Token) (s : Scoping) :
    (s.reportIf misused cause token).scopes = s.scopes := by
  unfold reportIf
  split <;> rfl

theorem read_scopes (r : Reference) (s : Scoping) : (s.read r).scopes = s.scopes :=
  (bind_scopes r _).trans (reportIf_scopes _ _ _ s)

mutual

theorem expr_scopes (context : Context) :
    ∀ (e : Expr) (s : Scoping), (expr context e s).scopes = s.scopes
  | .literal _, s => by rw [expr]
  | .grouping inner, s => by rw [expr, expr_scopes context inner s]
  | .unary _ right, s => by rw [expr, expr_scopes context right s]
  | .binary left _ right, s | .logical left _ right, s => by
      rw [expr, expr_scopes context right _, expr_scopes context left s]
  | .read name, s => by rw [expr, read_scopes]
  | .assign name value, s => by rw [expr, bind_scopes, expr_scopes context value s]
  | .call callee _ arguments, s => by
      rw [expr, exprs_scopes context arguments _, expr_scopes context callee s]
  | .get object _, s => by rw [expr, expr_scopes context object s]
  | .set object _ value, s => by rw [expr, expr_scopes context value _, expr_scopes context object s]
  | .self keyword, s => by
      rw [expr]
      split
      · rfl
      · exact bind_scopes keyword s
  | .inherited keyword _, s => by
      rw [expr, inherited, bind_scopes]
      cases context.class? <;> rfl

theorem exprs_scopes (context : Context) :
    ∀ (es : List Expr) (s : Scoping), (exprs context es s).scopes = s.scopes
  | [], s => by rw [exprs]
  | first :: rest, s => by rw [exprs, exprs_scopes context rest _, expr_scopes context first s]

end

theorem expr?_scopes (context : Context) (e : Option Expr) (s : Scoping) :
    (expr? context e s).scopes = s.scopes := by
  cases e with
  | none => rfl
  | some value => exact expr_scopes context value s

def scopesAfterAll : List Stmt → List Scope → List Scope
  | [], scopes => scopes
  | first :: rest, scopes => scopesAfterAll rest (scopesAfter first scopes)

theorem scopesAfter_cons (a : Stmt) (scope : Scope) (outer : List Scope) :
    ∃ scope', scopesAfter a (scope :: outer) = scope' :: outer := by
  unfold scopesAfter
  split
  · exact ⟨_, rfl⟩
  · exact ⟨_, rfl⟩

theorem scopesAfterAll_nil (body : List Stmt) : scopesAfterAll body [] = [] := by
  induction body with
  | nil => rfl
  | cons first rest ih =>
      have outside : scopesAfter first [] = [] := by
        unfold scopesAfter
        split <;> rfl
      rw [scopesAfterAll, outside]
      exact ih

theorem scopesAfterAll_cons (body : List Stmt) (scope : Scope) (outer : List Scope) :
    ∃ scope', scopesAfterAll body (scope :: outer) = scope' :: outer := by
  induction body generalizing scope with
  | nil => exact ⟨scope, rfl⟩
  | cons first rest ih =>
      obtain ⟨scope', after⟩ := scopesAfter_cons first scope outer
      rw [scopesAfterAll, after]
      exact ih scope'

def introduceAll (params : List Token) (scope : Scope) : Scope :=
  params.foldl (fun scope param => (scope.insert param.lexeme false).insert param.lexeme true) scope

def paramScope (params : List Token) : Scope := introduceAll params .empty

theorem contains_paramScope (params : List Token) (name : String) :
    (paramScope params).contains name = true ↔ name ∈ params.map Token.lexeme := by
  have from_scope (scope : Scope) : (introduceAll params scope).contains name = true ↔
      scope.contains name = true ∨ name ∈ params.map Token.lexeme := by
    induction params generalizing scope with
    | nil => simp [introduceAll]
    | cons param rest ih =>
        rw [introduceAll, List.foldl_cons]
        refine (ih _).trans ?_
        simp [Bindings.contains_insert, or_assoc, or_left_comm]
  rw [paramScope, from_scope]
  simp [Bindings.contains]

theorem not_contains_paramScope {params : List Token} {name : String}
    (other : ∀ param ∈ params, param.lexeme ≠ name) : (paramScope params).contains name = false := by
  rw [Bool.eq_false_iff]
  intro held
  obtain ⟨param, listed, same⟩ := List.mem_map.mp ((contains_paramScope params name).mp held)
  exact other param listed same

theorem enterFunction_scopes (params : List Token) (s : Scoping) :
    (s.enterFunction params).scopes = paramScope params :: s.scopes := by
  have from_scope (s : Scoping) (scope : Scope) (outer : List Scope)
    (here : s.scopes = scope :: outer) :
      (params.foldl (fun s param => s.introduce param.lexeme) s).scopes =
        introduceAll params scope :: outer := by
    induction params generalizing s scope with
    | nil => exact here
    | cons param rest ih => exact ih _ _ (by rw [introduce_scopes, here]; rfl)
  exact from_scope _ _ _ rfl

def scopeOf (name : String) : Scope := Bindings.empty.insert name true

theorem contains_scopeOf (name other : String) :
    (scopeOf name).contains other = decide (other = name) := by
  rw [scopeOf, Bindings.contains_insert]
  exact Bool.or_false _

def thisScope : Scope := scopeOf "this"

def superScope : Scope := scopeOf "super"

def classScopes (superclass : Option Reference) (scopes : List Scope) : List Scope :=
  match superclass with
  | some _ => thisScope :: superScope :: scopes
  | none => thisScope :: scopes

def homeScopes (superclass : Option Reference) (scopes : List Scope) : List Scope :=
  match superclass with
  | some _ => superScope :: scopes
  | none => scopes

theorem classScopes_eq (superclass : Option Reference) (scopes : List Scope) :
    classScopes superclass scopes = thisScope :: homeScopes superclass scopes := by
  cases superclass <;> rfl

theorem enterClass_scopes (name : Token) (superclass : Option Reference) (s : Scoping) :
    (s.enterClass name superclass).scopes = classScopes superclass s.scopes := by
  cases superclass with
  | none => rfl
  | some parent =>
      have read := (read_scopes parent _).trans
        (reportIf_scopes (parent.name = name.lexeme) .selfInheritance parent.token s)
      exact congrArg (fun scopes => thisScope :: superScope :: scopes) read

theorem leaveClass_scopes {superclass : Option Reference} {s : Scoping} {scopes : List Scope}
    (inside : s.scopes = classScopes superclass scopes) :
    (s.leaveClass superclass).scopes = scopes := by
  cases superclass with
  | none => exact congrArg List.tail inside
  | some parent => exact congrArg (fun scopes => scopes.tail.tail) inside

mutual

theorem stmt_scopes : ∀ (context : Context) (a : Stmt) (s : Scoping), a.Plain →
    (stmt context a s).scopes = scopesAfter a s.scopes
  | context, .expression value, s, _ | context, .print value, s, _ => by
      rw [stmt, expr_scopes]
      rfl
  | context, .varDecl name initializer, s, _ => by
      rw [stmt, define, mark_scopes, expr?_scopes, declare, mark_scopes]
      rfl
  | context, .block body, s, plain => by
      rw [Stmt.Plain] at plain
      have inside := stmts_scopes context body s.enter plain
      obtain ⟨scope, after⟩ := scopesAfterAll_cons body .empty s.scopes
      rw [stmt]
      exact congrArg List.tail (inside.trans after)
  | context, .ifElse condition thenBranch none, s, plain => by
      rw [Stmt.Plain] at plain
      obtain ⟨thenPlain, branch⟩ := plain
      rw [stmt, stmt_scopes context thenBranch _ thenPlain, expr_scopes]
      exact scopesAfter_plain branch _
  | context, .ifElse condition thenBranch (some elseBranch), s, plain => by
      rw [Stmt.Plain] at plain
      obtain ⟨thenPlain, thenBranch, elsePlain, elseBranch⟩ := plain
      rw [stmt, stmt_scopes context _ _ elsePlain, stmt_scopes context _ _ thenPlain, expr_scopes,
        scopesAfter_plain thenBranch, scopesAfter_plain elseBranch]
      rfl
  | context, .whileLoop condition body, s, plain => by
      rw [Stmt.Plain] at plain
      obtain ⟨bodyPlain, branch⟩ := plain
      rw [stmt, stmt_scopes context body _ bodyPlain, expr_scopes]
      exact scopesAfter_plain branch _
  | context, .funDecl declaration, s, plain => by
      rw [Stmt.Plain] at plain
      rw [stmt, function_scopes context .function declaration _ plain, introduce_scopes]
      rfl
  | context, .returnStmt keyword value, s, _ => by
      rw [stmt, expr?_scopes, reportIf_scopes, reportIf_scopes]
      rfl
  | context, .classDecl name superclass methods, s, plain => by
      rw [Stmt.Plain] at plain
      have inside :=
        methodList_scopes { context with class? := if superclass.isSome then .derived else .base }
        methods ((s.introduce name.lexeme).enterClass name superclass) plain
      rw [enterClass_scopes] at inside
      rw [stmt]
      exact (leaveClass_scopes inside).trans (introduce_scopes _ s)

theorem stmts_scopes :
    ∀ (context : Context) (body : List Stmt) (s : Scoping), Stmt.PlainAll body →
    (stmts context body s).scopes = scopesAfterAll body s.scopes
  | _, [], s, _ => by
      rw [stmts]
      rfl
  | context, first :: rest, s, plain => by
      rw [Stmt.PlainAll] at plain
      rw [stmts, stmts_scopes context rest _ plain.2, stmt_scopes context first s plain.1]
      rfl

theorem function_scopes :
    ∀ (context : Context) (kind : FunctionContext) (declaration : FunctionDecl) (s : Scoping),
    declaration.Plain → (function context kind declaration s).scopes = s.scopes
  | context, kind, ⟨name, params, body⟩, s, plain => by
      rw [FunctionDecl.Plain] at plain
      have inside :=
        stmts_scopes { context with function := kind } body (s.enterFunction params) plain
      obtain ⟨scope, after⟩ := scopesAfterAll_cons body (paramScope params) s.scopes
      rw [enterFunction_scopes, after] at inside
      rw [function]
      exact congrArg List.tail inside

theorem methodList_scopes : ∀ (context : Context) (methods : List FunctionDecl) (s : Scoping),
    FunctionDecl.PlainAll methods → (methodList context methods s).scopes = s.scopes
  | _, [], s, _ => by rw [methodList]
  | context, first :: rest, s, plain => by
      rw [FunctionDecl.PlainAll] at plain
      rw [methodList, methodList_scopes context rest _ plain.2]
      exact function_scopes context _ first s plain.1

end

end Scoping

end Lox
