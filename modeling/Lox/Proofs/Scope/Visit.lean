import Lox.Proofs.Scope.Walk

/-!
# The places of a program

A place is a part of a program with what the walk over its scopes knows when it gets there: the
functions and classes around it, the scopes, and for each scope the names that it holds in the end
(`Visit`). In an accepted program the references of a place keep the distances that are found there
(`Visit.settles`), and a scope holds no name whose initializer is being walked, apart from the
innermost one inside of an initializer (`Visit.tidy`).
-/

namespace Lox

inductive Node where
  | expr (e : Expr)
  | exprs (es : List Expr)
  | stmt (a : Stmt)
  | stmts (body : List Stmt)
  | function (kind : FunctionContext) (declaration : FunctionDecl)
  | methods (declarations : List FunctionDecl)

namespace Node
open Scoping

def references : Node → List Reference
  | expr e => e.references
  | exprs es => Expr.referencesAll es
  | stmt a => a.references
  | stmts body => Stmt.referencesAll body
  | function _ declaration => declaration.references
  | methods declarations => FunctionDecl.referencesAll declarations

def WellFormed : Node → Prop
  | expr e => e.WellFormed
  | exprs es => Expr.WellFormedAll es
  | stmt a => a.WellFormed
  | stmts body => Stmt.WellFormedAll body
  | function _ declaration => declaration.WellFormed
  | methods declarations => FunctionDecl.WellFormedAll declarations

def walk (context : Context) : Node → Scoping → Scoping
  | expr e => Scoping.expr context e
  | exprs es => Scoping.exprs context es
  | stmt a => Scoping.stmt context a
  | stmts body => Scoping.stmts context body
  | function kind declaration => Scoping.function context kind declaration
  | methods declarations => methodList context declarations

def isExpression : Node → Bool
  | expr _ | exprs _ => true
  | _ => false

end Node

open Scoping

def innermost (s : Scoping) : Scope := s.scopes.headD .empty

def Context.inClass (superclass : Option Reference) (context : Context) : Context :=
  { context with class? := if superclass.isSome then .derived else .base }

def Context.inFunction (kind : FunctionContext) (context : Context) : Context :=
    { context with function := kind }

/--
The walk over the program gets to a part, in a context and a state. The list has one scope for each
scope of that state, as it is when the walk leaves it.
-/
inductive Visit (program : List Stmt) : Context → Scoping → List Scope → Node → Prop where
  | program : Visit program .topLevel .start [] (.stmts program)
  | grouping {c : Context} {s : Scoping} {finals : List Scope} {inner : Expr} :
      Visit program c s finals (.expr (.grouping inner)) → Visit program c s finals (.expr inner)
  | unary {c : Context} {s : Scoping} {finals : List Scope} {operator : Token} {right : Expr} :
      Visit program c s finals (.expr (.unary operator right)) → Visit program c s finals (.expr right)
  | binaryLeft {c : Context} {s : Scoping} {finals : List Scope} {operator : Token}
      {left right : Expr} :
      Visit program c s finals (.expr (.binary left operator right)) →
        Visit program c s finals (.expr left)
  | binaryRight {c : Context} {s : Scoping} {finals : List Scope} {operator : Token}
      {left right : Expr} :
      Visit program c s finals (.expr (.binary left operator right)) →
      Visit program c (expr c left s) finals (.expr right)
  | logicalLeft {c : Context} {s : Scoping} {finals : List Scope} {operator : Token}
      {left right : Expr} :
      Visit program c s finals (.expr (.logical left operator right)) →
        Visit program c s finals (.expr left)
  | logicalRight {c : Context} {s : Scoping} {finals : List Scope} {operator : Token}
      {left right : Expr} :
      Visit program c s finals (.expr (.logical left operator right)) →
      Visit program c (expr c left s) finals (.expr right)
  | assigned {c : Context} {s : Scoping} {finals : List Scope} {name : Reference} {value : Expr} :
      Visit program c s finals (.expr (.assign name value)) → Visit program c s finals (.expr value)
  | callee {c : Context} {s : Scoping} {finals : List Scope} {callee : Expr} {paren : Token}
      {arguments : List Expr} :
      Visit program c s finals (.expr (.call callee paren arguments)) →
        Visit program c s finals (.expr callee)
  | arguments {c : Context} {s : Scoping} {finals : List Scope} {callee : Expr} {paren : Token}
      {arguments : List Expr} :
      Visit program c s finals (.expr (.call callee paren arguments)) →
      Visit program c (expr c callee s) finals (.exprs arguments)
  | getObject {c : Context} {s : Scoping} {finals : List Scope} {object : Expr} {name : Token} :
      Visit program c s finals (.expr (.get object name)) → Visit program c s finals (.expr object)
  | setObject {c : Context} {s : Scoping} {finals : List Scope} {object value : Expr} {name : Token} :
      Visit program c s finals (.expr (.set object name value)) →
        Visit program c s finals (.expr object)
  | setValue {c : Context} {s : Scoping} {finals : List Scope} {object value : Expr} {name : Token} :
      Visit program c s finals (.expr (.set object name value)) →
      Visit program c (expr c object s) finals (.expr value)
  | argument {c : Context} {s : Scoping} {finals : List Scope} {first : Expr} {rest : List Expr} :
      Visit program c s finals (.exprs (first :: rest)) → Visit program c s finals (.expr first)
  | moreArguments {c : Context} {s : Scoping} {finals : List Scope} {first : Expr} {rest : List Expr} :
      Visit program c s finals (.exprs (first :: rest)) →
        Visit program c (expr c first s) finals (.exprs rest)
  | expression {c : Context} {s : Scoping} {finals : List Scope} {value : Expr} :
      Visit program c s finals (.stmt (.expression value)) → Visit program c s finals (.expr value)
  | print {c : Context} {s : Scoping} {finals : List Scope} {value : Expr} :
      Visit program c s finals (.stmt (.print value)) → Visit program c s finals (.expr value)
  | initializer {c : Context} {s : Scoping} {finals : List Scope} {name : Token} {value : Expr} :
      Visit program c s finals (.stmt (.varDecl name (some value))) →
      Visit program c (s.declare name.lexeme) finals (.expr value)
  | block {c : Context} {s : Scoping} {finals : List Scope} {body : List Stmt} :
      Visit program c s finals (.stmt (.block body)) →
      Visit program c s.enter (innermost (stmts c body s.enter) :: finals) (.stmts body)
  | condition {c : Context} {s : Scoping} {finals : List Scope} {condition : Expr}
      {thenBranch : Stmt} {elseBranch : Option Stmt} :
      Visit program c s finals (.stmt (.ifElse condition thenBranch elseBranch)) →
      Visit program c s finals (.expr condition)
  | thenBranch {c : Context} {s : Scoping} {finals : List Scope} {condition : Expr}
      {thenBranch : Stmt} {elseBranch : Option Stmt} :
      Visit program c s finals (.stmt (.ifElse condition thenBranch elseBranch)) →
      Visit program c (expr c condition s) finals (.stmt thenBranch)
  | elseBranch {c : Context} {s : Scoping} {finals : List Scope} {condition : Expr}
      {thenBranch elseBranch : Stmt} :
      Visit program c s finals (.stmt (.ifElse condition thenBranch (some elseBranch))) →
      Visit program c (stmt c thenBranch (expr c condition s)) finals (.stmt elseBranch)
  | loopCondition {c : Context} {s : Scoping} {finals : List Scope} {condition : Expr} {body : Stmt} :
      Visit program c s finals (.stmt (.whileLoop condition body)) →
        Visit program c s finals (.expr condition)
  | loopBody {c : Context} {s : Scoping} {finals : List Scope} {condition : Expr} {body : Stmt} :
      Visit program c s finals (.stmt (.whileLoop condition body)) →
      Visit program c (expr c condition s) finals (.stmt body)
  | function {c : Context} {s : Scoping} {finals : List Scope} {declaration : FunctionDecl} :
      Visit program c s finals (.stmt (.funDecl declaration)) →
      Visit program c (s.introduce declaration.name.lexeme) finals (.function .function declaration)
  | result {c : Context} {s : Scoping} {finals : List Scope} {keyword : Token} {value : Expr} :
      Visit program c s finals (.stmt (.returnStmt keyword (some value))) →
      Visit program c
        ((s.reportIf (c.function = .none) .topLevelReturn keyword).reportIf (c.function = .initializer)
        .initializerResult keyword) finals (.expr value)
  | methods {c : Context} {s : Scoping} {finals : List Scope} {name : Token}
      {superclass : Option Reference} {methods : List FunctionDecl} :
      Visit program c s finals (.stmt (.classDecl name superclass methods)) →
      Visit program (c.inClass superclass) ((s.introduce name.lexeme).enterClass name superclass)
        (classScopes superclass finals) (.methods methods)
  | statement {c : Context} {s : Scoping} {finals : List Scope} {first : Stmt} {rest : List Stmt} :
      Visit program c s finals (.stmts (first :: rest)) → Visit program c s finals (.stmt first)
  | moreStatements {c : Context} {s : Scoping} {finals : List Scope} {first : Stmt} {rest : List Stmt} :
      Visit program c s finals (.stmts (first :: rest)) →
        Visit program c (stmt c first s) finals (.stmts rest)
  | body {c : Context} {s : Scoping} {finals : List Scope} {kind : FunctionContext} {name : Token}
      {params : List Token} {body : List Stmt} :
      Visit program c s finals (.function kind ⟨name, params, body⟩) →
      Visit program (c.inFunction kind) (s.enterFunction params)
        (innermost (stmts (c.inFunction kind) body (s.enterFunction params)) :: finals) (.stmts body)
  | method {c : Context} {s : Scoping} {finals : List Scope} {first : FunctionDecl}
      {rest : List FunctionDecl} :
      Visit program c s finals (.methods (first :: rest)) →
      Visit program c s finals (.function (methodKind first) first)
  | moreMethods {c : Context} {s : Scoping} {finals : List Scope} {first : FunctionDecl}
      {rest : List FunctionDecl} :
      Visit program c s finals (.methods (first :: rest)) →
      Visit program c (function c (methodKind first) first s) finals (.methods rest)

/-! ## Well-formedness -/

variable {program : List Stmt} {distances : Distances} {c : Context} {s : Scoping}
    {finals : List Scope} {node : Node}

theorem Stmt.WellFormed.ifElse_inv {condition : Expr} {thenBranch : Stmt} {elseBranch : Option Stmt}
    (formed : (Stmt.ifElse condition thenBranch elseBranch).WellFormed) :
    condition.WellFormed ∧ thenBranch.WellFormed ∧ thenBranch.isDeclaration = false := by
  cases elseBranch with
  | none =>
      rw [Stmt.WellFormed] at formed
      exact formed
  | some elseBranch =>
      rw [Stmt.WellFormed] at formed
      exact ⟨formed.1, formed.2.1, formed.2.2.1⟩

theorem Visit.wellFormed (accepted : Accepted program distances)
    (visit : Visit program c s finals node) :
    node.WellFormed := by
  induction visit with
  | program => exact accepted.wellFormed
  | condition _ ih => exact Stmt.WellFormed.ifElse_inv ih |>.1
  | thenBranch _ ih => exact Stmt.WellFormed.ifElse_inv ih |>.2.1
  | _ => simp_all [Node.WellFormed, Expr.WellFormed, Expr.WellFormedAll, Expr.WellFormed?, Stmt.WellFormed,
      Stmt.WellFormedAll, FunctionDecl.WellFormed, FunctionDecl.WellFormedAll]

theorem Visit.references (visit : Visit program c s finals node) :
    ∀ r ∈ node.references, r ∈ Stmt.referencesAll program := by
  induction visit with
  | program => exact fun _ => id
  | condition _ ih =>
      rename_i elseBranch _
      cases elseBranch with
      | none => exact fun r mem => ih r (List.mem_append_left _ mem)
      | some elseBranch => exact fun r mem => ih r (List.mem_append_left _ mem)
  | thenBranch _ ih =>
      rename_i elseBranch _
      cases elseBranch with
      | none => exact fun r mem => ih r (List.mem_append_right _ mem)
      | some elseBranch =>
        exact fun r mem => ih r (List.mem_append_right _ (List.mem_append_left _ mem))
  | elseBranch _ ih => exact fun r mem => ih r (List.mem_append_right _ (List.mem_append_right _ mem))
  | binaryLeft _ ih | logicalLeft _ ih | assigned _ ih | callee _ ih | setObject _ ih | argument _ ih
  | loopCondition _ ih | statement _ ih | method _ ih =>
    exact fun r mem => ih r (List.mem_append_left _ mem)
  | binaryRight _ ih | logicalRight _ ih | setValue _ ih | arguments _ ih | moreArguments _ ih
  | loopBody _ ih | methods _ ih | moreStatements _ ih | moreMethods _ ih =>
    exact fun r mem => ih r (List.mem_append_right _ mem)
  | grouping _ ih | unary _ ih | getObject _ ih | expression _ ih | print _ ih | «initializer» _ ih
  | block _ ih | function _ ih | result _ ih | body _ ih => exact ih

/-! ## Distances -/

/--
The walk over a part reports nothing and finds the distances that its references have in the end.
-/
structure Settles (distances : Distances) (s : Scoping) (references : List Reference)
    (s' : Scoping) : Prop where
  clean : s'.errors = #[]
  entries : ∀ r ∈ references, s'.distances.find? r.id = distances.find? r.id
  fresh : ∀ r ∈ references, s.distances.find? r.id = none
  distinct : (references.map Reference.id).Nodup

namespace Settles

variable {s₁ s₂ s₃ s₄ : Scoping} {rs rs' : List Reference}

theorem disjoint (settles : Settles distances s₁ (rs ++ rs') s₃) :
    ∀ r ∈ rs, ∀ r' ∈ rs', r.id ≠ r'.id := by
  intro r mem r' mem'
  have distinct := settles.distinct
  rw [List.map_append, List.nodup_append] at distinct
  exact distinct.2.2 _ (List.mem_map_of_mem mem) _ (List.mem_map_of_mem mem')

theorem first (settles : Settles distances s₁ (rs ++ rs') s₃) (second : Segment s₂ rs' s₃) :
    Settles distances s₁ rs s₂ := by
  refine ⟨second.clean settles.clean, fun r mem => ?_,
    fun r mem => settles.fresh r (List.mem_append_left _ mem), ?_⟩
  · rw [← settles.entries r (List.mem_append_left _ mem)]
    refine (second.others r.id fun mem' => ?_).symm
    obtain ⟨r', listed, same⟩ := List.mem_map.mp mem'
    exact settles.disjoint r mem r' listed same.symm
  · have distinct := settles.distinct
    rw [List.map_append, List.nodup_append] at distinct
    exact distinct.1

theorem second (settles : Settles distances s₁ (rs ++ rs') s₃) (first : Segment s₁ rs s₂) :
    Settles distances s₂ rs' s₃ := by
  refine ⟨settles.clean, fun r mem => settles.entries r (List.mem_append_right _ mem),
    fun r mem => ?_, ?_⟩
  · rw [← settles.fresh r (List.mem_append_right _ mem)]
    refine first.others r.id fun mem' => ?_
    obtain ⟨r', listed, same⟩ := List.mem_map.mp mem'
    exact settles.disjoint r' listed r mem same
  · have distinct := settles.distinct
    rw [List.map_append, List.nodup_append] at distinct
    exact distinct.2.1

theorem inside (settles : Settles distances s₁ rs s₄) (before : Segment s₁ [] s₂)
    (after : Segment s₃ [] s₄) :
    Settles distances s₂ rs s₃ := by
  have shorter : Settles distances s₁ (rs ++ []) s₄ := by rwa [List.append_nil]
  have rest : Settles distances s₁ ([] ++ rs) s₃ := shorter.first after
  exact rest.second before

end Settles

theorem Visit.settles (accepted : Accepted program distances)
    (visit : Visit program c s finals node) :
    Settles distances s node.references (node.walk c s) := by
  induction visit with
  | program =>
      exact ⟨accepted.clean, fun r _ => congrArg (·.find? r.id) accepted.found, fun _ _ => rfl,
        accepted.distinct⟩
  | grouping _ ih | unary _ ih | getObject _ ih | expression _ ih | print _ ih => exact ih
  | binaryLeft _ ih | logicalLeft _ ih | setObject _ ih => exact ih.first (expr_segment _ _ _)
  | binaryRight _ ih | logicalRight _ ih | setValue _ ih => exact ih.second (expr_segment _ _ _)
  | assigned _ ih => exact ih.first (bind_segment _ _)
  | callee _ ih => exact ih.first (exprs_segment _ _ _)
  | arguments _ ih => exact ih.second (expr_segment _ _ _)
  | argument _ ih => exact ih.first (exprs_segment _ _ _)
  | moreArguments _ ih => exact ih.second (expr_segment _ _ _)
  | «initializer» _ ih => exact ih.inside (mark_segment _ _ _) (mark_segment _ _ _)
  | block _ ih => exact ih.inside (enter_segment _) (leave_segment _)
  | condition _ ih =>
      rename_i elseBranch _
      cases elseBranch with
      | none => exact ih.first (stmt_segment _ _ _)
      | some elseBranch => exact ih.first ((stmt_segment _ _ _).append (stmt_segment _ _ _))
  | thenBranch _ ih =>
      rename_i elseBranch _
      cases elseBranch with
      | none => exact ih.second (expr_segment _ _ _)
      | some elseBranch => exact (ih.second (expr_segment _ _ _)).first (stmt_segment _ _ _)
  | elseBranch _ ih => exact (ih.second (expr_segment _ _ _)).second (stmt_segment _ _ _)
  | loopCondition _ ih => exact ih.first (stmt_segment _ _ _)
  | loopBody _ ih => exact ih.second (expr_segment _ _ _)
  | function _ ih => exact ih.inside (introduce_segment _ _) .refl
  | result _ ih => exact ih.inside ((reportIf_segment _ _ _ _).append (reportIf_segment _ _ _ _)) .refl
  | methods _ ih =>
      exact (ih.inside (introduce_segment _ _) (leaveClass_segment _ _)).second
        (enterClass_segment _ _ _)
  | statement _ ih => exact ih.first (stmts_segment _ _ _)
  | moreStatements _ ih => exact ih.second (stmt_segment _ _ _)
  | body _ ih => exact ih.inside (enterFunction_segment _ _) (leave_segment _)
  | method _ ih => exact ih.first (methodList_segment _ _ _)
  | moreMethods _ ih => exact ih.second (function_segment _ _ _ _)

/-! ## Scopes around a place -/

def Ready (name : String) (scopes : List Scope) : Prop :=
    ∀ scope ∈ scopes, scope.find? name ≠ some false

theorem ready_cons {name : String} {scope : Scope} {outer : List Scope} :
    Ready name (scope :: outer) ↔ scope.find? name ≠ some false ∧ Ready name outer :=
  List.forall_mem_cons

theorem ready_markIn {name other : String} {ready : Bool} {scopes : List Scope}
    (before : Ready name scopes) (fine : name = other → ready = true) :
    Ready name (markIn other ready scopes) := by
  cases scopes with
  | nil => exact before
  | cons scope outer =>
      rw [ready_cons] at before
      refine ready_cons.mpr ⟨?_, before.2⟩
      by_cases same : name = other
      · rw [same, Bindings.find?_insert_self, fine same]
        nofun
      · rw [Bindings.find?_insert_of_ne _ _ same]
        exact before.1

theorem ready_introduceIn {scopes : List Scope} (settled : ∀ name, Ready name scopes)
    (name other : String) : Ready other (introduceIn name scopes) := by
  by_cases same : other = name
  · subst same
    cases scopes with
    | nil => exact settled other
    | cons scope outer =>
        refine ready_cons.mpr ⟨?_, (ready_cons.mp (settled other)).2⟩
        rw [Bindings.find?_insert_self]
        nofun
  · exact ready_markIn (ready_markIn (settled other) fun equal => (same equal).elim) fun _ => rfl

theorem tail_markIn (name : String) (ready : Bool) (scopes : List Scope) :
    (markIn name ready scopes).tail = scopes.tail := by
  cases scopes <;> rfl

theorem distance?_cons (name : String) (scope : Scope) (outer : List Scope) :
    distance? name (scope :: outer) =
      if scope.contains name then some 0 else (distance? name outer).map (· + 1) :=
  List.findIdx?_cons

theorem distance?_markIn {name other : String} {ready : Bool} (different : name ≠ other)
    (scopes : List Scope) :
    distance? name (markIn other ready scopes) = distance? name scopes := by
  cases scopes with
  | nil => rfl
  | cons scope outer =>
      rw [markIn, distance?_cons, distance?_cons, Bindings.contains_insert,
        decide_eq_false different, Bool.false_or]

/-- The scope that binds `super` is the one around the innermost scope that binds `this`. -/
def Inherits (scopes : List Scope) : Prop :=
  ∃ inner, distance? "this" scopes = some inner ∧ distance? "super" scopes = some (inner + 1)

theorem Inherits.markIn {name : String} {ready : Bool} {scopes : List Scope}
    (inherits : Inherits scopes) (isName : IsName name) :
    Inherits (markIn name ready scopes) := by
  obtain ⟨inner, this, super⟩ := inherits
  exact ⟨inner, by rwa [distance?_markIn isName.1.symm], by rwa [distance?_markIn isName.2.symm]⟩

theorem Inherits.cons {scope : Scope} {outer : List Scope} (inherits : Inherits outer)
    (noThis : scope.contains "this" = false) (noSuper : scope.contains "super" = false) :
    Inherits (scope :: outer) := by
  obtain ⟨inner, this, super⟩ := inherits
  refine ⟨inner + 1, ?_, ?_⟩
  · rw [distance?_cons, noThis, if_neg Bool.false_ne_true, this]
    rfl
  · rw [distance?_cons, noSuper, if_neg Bool.false_ne_true, super]
    rfl

/-- What is known of the scopes around a place; `settled` where no initializer is being walked. -/
structure Tidy (context : Context) (settled : Bool) (scopes : List Scope) : Prop where
  this : Ready "this" scopes
  super : Ready "super" scopes
  outer : ∀ name, Ready name scopes.tail
  here : settled = true → ∀ name, Ready name scopes
  inherits : context.class? = .derived → Inherits scopes

namespace Tidy

variable {context : Context} {settled : Bool} {scopes : List Scope}

theorem unsettled (tidy : Tidy context settled scopes) : Tidy context false scopes :=
  { tidy with here := nofun }

theorem declare {name : String} (tidy : Tidy context true scopes) (isName : IsName name) :
    Tidy context false (markIn name false scopes) where
  this := ready_markIn tidy.this fun same => (isName.1 same.symm).elim
  super := ready_markIn tidy.super fun same => (isName.2 same.symm).elim
  outer := by rw [tail_markIn]; exact tidy.outer
  here := nofun
  inherits derived := (tidy.inherits derived).markIn isName

theorem introduce {name : String} (tidy : Tidy context true scopes) (isName : IsName name) :
    Tidy context true (introduceIn name scopes) where
  this := ready_markIn (tidy.declare isName).this fun _ => rfl
  super := ready_markIn (tidy.declare isName).super fun _ => rfl
  outer := by rw [introduceIn, tail_markIn, tail_markIn]; exact tidy.outer
  here _ := ready_introduceIn (tidy.here rfl) name
  inherits derived := ((tidy.inherits derived).markIn isName).markIn isName

theorem enter {scope : Scope} (tidy : Tidy context true scopes)
    (ready : ∀ name, scope.find? name ≠ some false) (noThis : scope.contains "this" = false)
    (noSuper : scope.contains "super" = false) :
    Tidy context true (scope :: scopes) where
  this := ready_cons.mpr ⟨ready _, tidy.this⟩
  super := ready_cons.mpr ⟨ready _, tidy.super⟩
  outer := tidy.here rfl
  here _ name := ready_cons.mpr ⟨ready name, tidy.here rfl name⟩
  inherits derived := (tidy.inherits derived).cons noThis noSuper

theorem inFunction {kind : FunctionContext} (tidy : Tidy context settled scopes) :
    Tidy (context.inFunction kind) settled scopes :=
  { tidy with }

end Tidy

theorem find?_scopeOf (name other : String) : (scopeOf name).find? other ≠ some false := by
  by_cases same : other = name
  · rw [scopeOf, same, Bindings.find?_insert_self]
    decide
  · rw [scopeOf, Bindings.find?_insert_of_ne _ _ same]
    exact (Option.some_ne_none false).symm

theorem Tidy.inClass {context : Context} {scopes : List Scope} (tidy : Tidy context true scopes)
    (superclass : Option Reference) :
    Tidy (context.inClass superclass) true (classScopes superclass scopes) := by
  have all : ∀ name, Ready name (classScopes superclass scopes) := by
    intro name
    cases superclass with
    | none => exact ready_cons.mpr ⟨find?_scopeOf "this" name, tidy.here rfl name⟩
    | some parent =>
        exact ready_cons.mpr ⟨find?_scopeOf "this" name,
          ready_cons.mpr ⟨find?_scopeOf "super" name, tidy.here rfl name⟩⟩
  refine ⟨all _, all _, fun name scope mem => all name scope (List.mem_of_mem_tail mem),
    fun _ => all, ?_⟩
  intro derived
  cases superclass with
  | none => cases derived
  | some parent => exact ⟨0, rfl, rfl⟩

theorem find?_paramScope (params : List Token) (name : String) :
    (paramScope params).find? name ≠ some false := by
  have from_scope (scope : Scope) (ready : scope.find? name ≠ some false) :
      (introduceAll params scope).find? name ≠ some false := by
    induction params generalizing scope with
    | nil => exact ready
    | cons param rest ih =>
        refine ih _ ?_
        by_cases same : name = param.lexeme
        · rw [same, Bindings.find?_insert_self]
          nofun
        · rw [Bindings.find?_insert_of_ne _ _ same, Bindings.find?_insert_of_ne _ _ same]
          exact ready
  exact from_scope .empty nofun

theorem Tidy.scopesAfter {context : Context} {scopes : List Scope} {a : Stmt}
    (tidy : Tidy context true scopes) (formed : a.WellFormed) :
    Tidy context true (scopesAfter a scopes) := by
  cases a with
  | varDecl name initializer =>
      rw [Stmt.WellFormed] at formed
      exact tidy.introduce formed.1
  | funDecl declaration =>
      obtain ⟨name, params, body⟩ := declaration
      rw [Stmt.WellFormed, FunctionDecl.WellFormed] at formed
      exact tidy.introduce formed.1
  | classDecl name superclass methods =>
      rw [Stmt.WellFormed] at formed
      exact tidy.introduce formed.1
  | _ => exact tidy

theorem Visit.tidy (accepted : Accepted program distances) (visit : Visit program c s finals node) :
    Tidy c (!node.isExpression) s.scopes := by
  induction visit with
  | program => exact ⟨nofun, nofun, nofun, nofun, nofun⟩
  | binaryRight _ ih | logicalRight _ ih | setValue _ ih | arguments _ ih | moreArguments _ ih =>
      rw [expr_scopes]
      exact ih
  | expression _ ih | print _ ih | condition _ ih | loopCondition _ ih => exact ih.unsettled
  | result _ ih =>
      rw [reportIf_scopes, reportIf_scopes]
      exact ih.unsettled
  -- the name is marked before its initializer is walked, and it is no keyword
  | «initializer» visit ih =>
      have formed := visit.wellFormed accepted
      simp only [Node.WellFormed, Stmt.WellFormed] at formed
      rw [Scoping.declare, mark_scopes]
      exact ih.declare formed.1
  | block _ ih => exact ih.enter (fun _ => nofun) rfl rfl
  | thenBranch _ ih | loopBody _ ih =>
      rw [expr_scopes]
      exact ih
  | elseBranch visit ih =>
      have formed := visit.wellFormed accepted
      simp only [Node.WellFormed, Stmt.WellFormed] at formed
      rw [stmt_scopes _ _ _ formed.2.1.plain, expr_scopes]
      exact ih.scopesAfter formed.2.1
  | function visit ih =>
      have formed := visit.wellFormed accepted
      rw [introduce_scopes]
      exact ih.scopesAfter formed
  | methods visit ih =>
      have formed := visit.wellFormed accepted
      rw [enterClass_scopes, introduce_scopes]
      exact (ih.scopesAfter formed).inClass _
  | moreStatements visit ih =>
      have formed := visit.wellFormed accepted
      simp only [Node.WellFormed, Stmt.WellFormedAll] at formed
      rw [stmt_scopes _ _ _ formed.1.plain]
      exact ih.scopesAfter formed.1
  | body visit ih =>
      have formed := visit.wellFormed accepted
      simp only [Node.WellFormed, FunctionDecl.WellFormed] at formed
      have noThis := not_contains_paramScope fun param mem => (formed.2.1 param mem).1
      have noSuper := not_contains_paramScope fun param mem => (formed.2.1 param mem).2
      rw [enterFunction_scopes]
      exact ih.inFunction.enter (find?_paramScope _) noThis noSuper
  | moreMethods visit ih =>
      have formed := visit.wellFormed accepted
      simp only [Node.WellFormed, FunctionDecl.WellFormedAll] at formed
      rw [function_scopes _ _ _ _ formed.1.plain]
      exact ih
  | _ => assumption

/-! ## What scopes hold in the end -/

def Within : List Scope → List Scope → Prop
  | [], [] => True
  | scope :: outer, final :: finals =>
    (∀ name, scope.contains name = true → final.contains name = true) ∧ Within outer finals
  | _, _ => False

namespace Within

variable {scopes scopes' finals : List Scope}

theorem refl : ∀ {scopes : List Scope}, Within scopes scopes
  | [] => trivial
  | _ :: _ => ⟨fun _ => id, refl⟩

theorem trans : ∀ {scopes scopes' finals : List Scope}, Within scopes scopes' →
    Within scopes' finals →
    Within scopes finals
  | [], [], [], _, _ => trivial
  | _ :: _, _ :: _, _ :: _, first, second =>
    ⟨fun name held => second.1 name (first.1 name held), first.2.trans second.2⟩

theorem markIn (name : String) (ready : Bool) (scopes : List Scope) :
    Within scopes (markIn name ready scopes) := by
  cases scopes with
  | nil => trivial
  | cons scope outer =>
      refine ⟨fun other held => ?_, refl⟩
      rw [Bindings.contains_insert, held, Bool.or_true]

theorem scopesAfter (a : Stmt) (scopes : List Scope) : Within scopes (scopesAfter a scopes) := by
  unfold Scoping.scopesAfter
  split
  · exact (markIn _ _ _).trans (markIn _ _ _)
  · exact refl

theorem scopesAfterAll (body : List Stmt) (scopes : List Scope) :
    Within scopes (scopesAfterAll body scopes) := by
  induction body generalizing scopes with
  | nil => exact refl
  | cons first rest ih => exact (scopesAfter first scopes).trans (ih _)

theorem introduceAll (params : List Token) (scope : Scope) (outer : List Scope) :
    Within (scope :: outer) (introduceAll params scope :: outer) := by
  induction params generalizing scope with
  | nil => exact refl
  | cons param rest ih =>
    exact ((markIn param.lexeme false _).trans (markIn param.lexeme true _)).trans (ih _)

theorem inClass (superclass : Option Reference) (within : Within scopes finals) :
    Within (classScopes superclass scopes) (classScopes superclass finals) := by
  cases superclass with
  | none => exact ⟨fun _ => id, within⟩
  | some parent => exact ⟨fun _ => id, fun _ => id, within⟩

end Within

def Node.scopesAfter : Node → List Scope → List Scope
  | .stmt a => Scoping.scopesAfter a
  | .stmts body => scopesAfterAll body
  | _ => id

theorem within_opened {inside after : Scoping} {scope : Scope} {outer : List Scope}
    {body : List Stmt} (walked : after.scopes = scopesAfterAll body inside.scopes)
    (opened : inside.scopes = scope :: outer) (within : Within outer finals) :
    Within (scopesAfterAll body inside.scopes) (innermost after :: finals) := by
  obtain ⟨scope', same⟩ := scopesAfterAll_cons body scope outer
  rw [innermost, walked, opened, same]
  exact ⟨fun _ => id, within⟩

theorem within_plain {a : Stmt} {scopes : List Scope} (plain : a.isDeclaration = false)
    (within : Within scopes finals) : Within ((Node.stmt a).scopesAfter scopes) finals := by
  rw [Node.scopesAfter, scopesAfter_plain plain]
  exact within

theorem Visit.within (accepted : Accepted program distances)
    (visit : Visit program c s finals node) :
    Within (node.scopesAfter s.scopes) finals := by
  induction visit with
  | program =>
      change Within (scopesAfterAll program []) []
      rw [scopesAfterAll_nil]
      trivial
  | binaryRight _ ih | logicalRight _ ih | setValue _ ih | arguments _ ih | moreArguments _ ih =>
      rw [expr_scopes]
      exact ih
  | result _ ih =>
      rw [reportIf_scopes, reportIf_scopes]
      exact ih
  | «initializer» visit ih =>
      rw [Scoping.declare, mark_scopes]
      exact (Within.markIn _ true _).trans ih
  | block visit ih =>
      have formed := visit.wellFormed accepted
      simp only [Node.WellFormed, Stmt.WellFormed] at formed
      exact within_opened (stmts_scopes _ _ _ formed.plain) rfl ih
  | thenBranch visit ih =>
      have formed := visit.wellFormed accepted
      rw [expr_scopes]
      exact within_plain (Stmt.WellFormed.ifElse_inv formed).2.2 ih
  | elseBranch visit ih =>
      have formed := visit.wellFormed accepted
      simp only [Node.WellFormed, Stmt.WellFormed] at formed
      obtain ⟨-, thenFormed, thenPlain, -, elsePlain⟩ := formed
      rw [stmt_scopes _ _ _ thenFormed.plain, expr_scopes, scopesAfter_plain thenPlain]
      exact within_plain elsePlain ih
  | loopBody visit ih =>
      have formed := visit.wellFormed accepted
      simp only [Node.WellFormed, Stmt.WellFormed] at formed
      rw [expr_scopes]
      exact within_plain formed.2.2 ih
  | function visit ih =>
      rw [introduce_scopes]
      exact ih
  | methods visit ih =>
      rw [enterClass_scopes, introduce_scopes]
      exact ih.inClass _
  | statement visit ih => exact (Within.scopesAfterAll _ _).trans ih
  | moreStatements visit ih =>
      have formed := visit.wellFormed accepted
      simp only [Node.WellFormed, Stmt.WellFormedAll] at formed
      rw [stmt_scopes _ _ _ formed.1.plain]
      exact ih
  | body visit ih =>
      have formed := visit.wellFormed accepted
      simp only [Node.WellFormed, FunctionDecl.WellFormed] at formed
      exact within_opened (stmts_scopes _ _ _ formed.2.2.plain) (enterFunction_scopes _ _) ih
  | moreMethods visit ih =>
      have formed := visit.wellFormed accepted
      simp only [Node.WellFormed, FunctionDecl.WellFormedAll] at formed
      rw [function_scopes _ _ _ _ formed.1.plain]
      exact ih
  | _ => assumption

/-! ## References of a place -/

theorem bind_entry {r : Reference} (fresh : s.distances.find? r.id = none) :
    (s.bind r).distances.find? r.id = distance? r.name s.scopes := by
  unfold Scoping.bind
  split
  · rename_i distance found
    rw [found]
    exact Bindings.find?_insert_self _ _ _
  · rename_i missing
    rw [missing]
    exact fresh

theorem reportIf_clean {misused : Bool} {cause : ScopeError.Cause} {token : Token}
    (clean : (s.reportIf misused cause token).errors = #[]) : misused = false := by
  unfold reportIf at clean
  split at clean
  · exact (errors_report cause token s clean).elim
  · rename_i fine
    exact Bool.eq_false_iff.mpr fine

theorem Settles.entry {r : Reference} {s' : Scoping} (settles : Settles distances s [r] s')
    (bound : s' = s.bind r) : distances.find? r.id = distance? r.name s.scopes := by
  rw [← settles.entries r (List.mem_singleton_self r), bound]
  exact bind_entry (settles.fresh r (List.mem_singleton_self r))

theorem ready_of_isPending {name : String} (outer : Ready name s.scopes.tail)
    (fine : s.isPending name = false) :
    Ready name s.scopes := by
  obtain ⟨scopes, distances, errors⟩ := s
  cases scopes with
  | nil => nofun
  | cons scope outer =>
      refine ready_cons.mpr ⟨?_, outer⟩
      simpa only [isPending, decide_eq_false_iff_not] using fine

theorem Settles.read {r : Reference} (settles : Settles distances s [r] (s.read r))
    (outer : Ready r.name s.scopes.tail) :
    distances.find? r.id = distance? r.name s.scopes ∧ Ready r.name s.scopes := by
  have fine : s.isPending r.name = false :=
    reportIf_clean ((bind_segment r _).clean settles.clean)
  refine ⟨settles.entry ?_, ready_of_isPending outer fine⟩
  rw [Scoping.read, fine]
  rfl

theorem Visit.read_inv {r : Reference} (accepted : Accepted program distances)
    (visit : Visit program c s finals (.expr (.read r))) :
    distances.find? r.id = distance? r.name s.scopes ∧ Ready r.name s.scopes :=
  Settles.read (visit.settles accepted) ((visit.tidy accepted).outer r.name)

theorem Visit.assign_inv {r : Reference} {value : Expr} (accepted : Accepted program distances)
    (visit : Visit program c s finals (.expr (.assign r value))) :
    distances.find? r.id = distance? r.name s.scopes ∧ IsName r.name := by
  have settles := visit.settles accepted
  have formed := visit.wellFormed accepted
  simp only [Node.WellFormed, Expr.WellFormed] at formed
  refine ⟨?_, formed.2⟩
  have entry := (settles.second (expr_segment c value s)).entry rfl
  rwa [expr_scopes] at entry

theorem Visit.self_inv {r : Reference} (accepted : Accepted program distances)
    (visit : Visit program c s finals (.expr (.self r))) :
    distances.find? r.id = distance? r.name s.scopes ∧ Ready r.name s.scopes := by
  have settles : Settles distances s [r] (expr c (.self r) s) := visit.settles accepted
  have formed := visit.wellFormed accepted
  simp only [Node.WellFormed, Expr.WellFormed] at formed
  refine ⟨settles.entry ?_, formed ▸ (visit.tidy accepted).this⟩
  have clean := settles.clean
  rw [expr] at clean ⊢
  split
  · rename_i outside
    rw [if_pos outside] at clean
    exact (errors_report _ _ _ clean).elim
  · rfl

theorem Visit.inherited_inv {r : Reference} {method : Token} (accepted : Accepted program distances)
    (visit : Visit program c s finals (.expr (.inherited r method))) :
    r.name = "super" ∧ ∃ inner, distances.find? r.id = some (inner + 1) ∧
    distance? "this" s.scopes = some inner ∧
      distance? "super" s.scopes = some (inner + 1) := by
  have settles : Settles distances s [r] (s.inherited c r) := visit.settles accepted
  have formed := visit.wellFormed accepted
  simp only [Node.WellFormed, Expr.WellFormed] at formed
  have clean := settles.clean
  have inherits := (visit.tidy accepted).inherits
  have bound : c.class? = .derived ∧ s.inherited c r = s.bind r := by
    unfold inherited at clean ⊢
    cases inside : c.class? with
    | none | base =>
        rw [inside] at clean
        exact (errors_report _ _ _ ((bind_segment r _).clean clean)).elim
    | derived => exact ⟨rfl, rfl⟩
  obtain ⟨inner, this, super⟩ := inherits bound.1
  refine ⟨formed, inner, ?_, this, super⟩
  rw [settles.entry bound.2, formed, super]

theorem Visit.superclass_inv {name : Token} {parent : Reference} {methods : List FunctionDecl}
    (accepted : Accepted program distances)
    (visit : Visit program c s finals (.stmt (.classDecl name (some parent) methods))) :
    distances.find? parent.id = distance? parent.name s.scopes ∧ Ready parent.name s.scopes ∧
      parent.name ≠ name.lexeme := by
  have settles : Settles distances s ([parent] ++ FunctionDecl.referencesAll methods)
      ((methodList (c.inClass (some parent)) methods
        ((s.introduce name.lexeme).enterClass name (some parent))).leaveClass (some parent)) :=
    Visit.settles accepted visit
  have looked := (settles.inside (introduce_segment name.lexeme s) (leaveClass_segment _ _)).first
    (methodList_segment _ _ _)
  have above (s : Scoping) : Segment s [] ((s.enter.define "super").enter.define "this") :=
    .within (enter_segment s) (mark_segment _ _ _) ((enter_segment _).append (mark_segment _ _ _))
  have clean := (read_segment parent _).clean ((above _).clean looked.clean)
  have fine := reportIf_clean clean
  have differs : parent.name ≠ name.lexeme := by simpa using fine
  have checked :=
    reportIf_segment (parent.name = name.lexeme) .selfInheritance parent.token (s.introduce name.lexeme)
  have read := Settles.inside looked checked (above _)
  rw [fine] at read
  have ready := (visit.tidy accepted).here rfl parent.name
  have after : ((s.introduce name.lexeme).reportIf false .selfInheritance parent.token).scopes =
      introduceIn name.lexeme s.scopes := introduce_scopes _ _
  have outer : Ready parent.name (introduceIn name.lexeme s.scopes).tail := by
    rw [introduceIn, tail_markIn, tail_markIn]
    exact (visit.tidy accepted).outer parent.name
  obtain ⟨entry, -⟩ := Settles.read read (after ▸ outer)
  refine ⟨?_, ready, differs⟩
  rw [entry, after, introduceIn, distance?_markIn differs, distance?_markIn differs]

theorem Visit.return_inv {keyword : Token} {value : Option Expr}
    (accepted : Accepted program distances)
    (visit : Visit program c s finals (.stmt (.returnStmt keyword value))) :
    c.function ≠ .none := by
  have clean := (visit.settles accepted).clean
  have outside := (reportIf_segment _ _ _ _).clean ((expr?_segment c value _).clean clean)
  simpa using reportIf_clean outside

end Lox
