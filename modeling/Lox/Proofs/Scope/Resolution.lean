import Mathlib.Data.List.Forall2
import Lox.Proofs.Scope.Occurrences
import Lox.Proofs.Scope.Visit

/-!
# The walk follows the rules

The walk over the scopes of a tree knows the path to the part that it is at: its context is that of
the path (`Path.context`), its scopes have the names that the path declares (`Hold`), and a name is
pending just in its own initializer (`Matches`, `Stands`). So from its start to its end the walk
over a tree meets the occurrences of the tree. It reports those that are misused, and if there are
none, it records the distances of all of them (`stmt_meets`, `stmts_meets`).
-/

namespace Lox
open Scoping

def Path.context (path : Path) : Context where
  function := path.function
  class? :=
    match path.class? with
    | none => .none
    | some ⟨_, none, _⟩ => .base
    | some ⟨_, some _, _⟩ => .derived

namespace Scoping

/-! ## Scopes and names -/

def Hold : List Scope → List (List String) → Prop :=
  List.Forall₂ fun scope names => ∀ name, scope.contains name = true ↔ name ∈ names

namespace Hold

variable {scopes : List Scope} {names : List (List String)}

theorem markIn (hold : Hold scopes names) (name : String) (ready : Bool) :
    Hold (markIn name ready scopes) (Path.declaring name names) := by
  cases hold with
  | nil => exact .nil
  | cons here outer =>
      refine .cons (fun other => ?_) outer
      simp [Bindings.contains_insert, here other, or_comm]

theorem introduceIn (hold : Hold scopes names) (name : String) :
    Hold (introduceIn name scopes) (Path.declaring name names) := by
  cases hold with
  | nil => exact .nil
  | cons here outer =>
      refine .cons (fun other => ?_) outer
      simp [Bindings.contains_insert, here other, or_comm]

theorem distance? (hold : Hold scopes names) (name : String) :
    distance? name scopes = nearest? name names := by
  induction hold with
  | nil => rfl
  | cons here outer ih =>
      rename_i scope innermost scopes names
      have same : scope.contains name = decide (name ∈ innermost) := by
        rw [Bool.eq_iff_iff, decide_eq_true_iff, here name]
      rw [distance?_cons, nearest?, List.findIdx?_cons, same, ih]
      rfl

theorem paramScope (hold : Hold scopes names) (params : List Token) :
    Hold (paramScope params :: scopes) (params.map Token.lexeme :: names) :=
  .cons (contains_paramScope params) hold

theorem classScopes {path : Path} (hold : Hold scopes path.scopes) (name : Token)
    (superclass : Option Reference) (methods : List FunctionDecl) :
    Hold (classScopes superclass scopes)
      (Path.scopes (.classBody ⟨name, superclass, methods⟩ :: path)) := by
  have only (keyword name : String) : (scopeOf keyword).contains name = true ↔ name ∈ [keyword] := by
    rw [contains_scopeOf, decide_eq_true_iff, List.mem_singleton]
  cases superclass with
  | none => exact .cons (only "this") hold
  | some parent => exact .cons (only "this") (.cons (only "super") hold)

end Hold

/-! ## Where the walk stands -/

/-- In this state the walk can get to an expression that has this path. -/
structure Matches (path : Path) (s : Scoping) : Prop where
  scopes : Hold s.scopes path.scopes
  pending : ∀ name, s.isPending name = path.initializes name

/-- In this state the walk can get to a statement that has this path. -/
structure Stands (path : Path) (s : Scoping) : Prop where
  scopes : Hold s.scopes path.scopes
  settled : ∀ name, Ready name s.scopes
  outside : ∀ name, path.initializes name = false

theorem isPending_congr {s s' : Scoping} (same : s'.scopes = s.scopes) (name : String) :
    s'.isPending name = s.isPending name := by
  rw [isPending, isPending, same]

theorem Matches.congr {path : Path} {s s' : Scoping} (here : Matches path s)
    (same : s'.scopes = s.scopes) : Matches path s' :=
  ⟨same ▸ here.scopes, fun name => (isPending_congr same name).trans (here.pending name)⟩

theorem Stands.congr {path : Path} {s s' : Scoping} (here : Stands path s)
    (same : s'.scopes = s.scopes) : Stands path s' :=
  ⟨same ▸ here.scopes, same ▸ here.settled, here.outside⟩

theorem isPending_of_ready {name : String} {s : Scoping} (ready : Ready name s.scopes) :
    s.isPending name = false := by
  unfold isPending
  split
  · rfl
  · rename_i scope outer here
    rw [here] at ready
    exact decide_eq_false (ready_cons.mp ready).1

theorem Stands.matches {path : Path} {s : Scoping} (here : Stands path s) : Matches path s :=
  ⟨here.scopes, fun name => (isPending_of_ready (here.settled name)).trans (here.outside name).symm⟩

theorem isPending_declare (name other : String) (s : Scoping)
    (settled : ∀ name, Ready name s.scopes) :
    (s.declare name).isPending other = (!s.scopes.isEmpty && decide (name = other)) := by
  obtain ⟨scopes, distances, errors⟩ := s
  cases scopes with
  | nil => rfl
  | cons scope outer =>
      simp only [declare, mark, isPending, List.isEmpty_cons, Bool.not_false, Bool.true_and]
      by_cases same : other = name
      · simp [same]
      · have ready := (ready_cons.mp (settled other)).1
        simp [Bindings.find?_insert_of_ne _ _ same, ready, Ne.symm same]

theorem Stands.introduce {path : Path} {s : Scoping} (here : Stands path s) (name : Token) :
    Stands (.heading name :: path) (s.introduce name.lexeme) where
  scopes := by
    rw [introduce_scopes]
    exact here.scopes.introduceIn name.lexeme
  settled := by
    rw [introduce_scopes]
    exact ready_introduceIn here.settled name.lexeme
  outside _ := rfl

theorem Stands.declare {path : Path} {s : Scoping} (here : Stands path s) (name : Token) :
    Matches (.initializer name :: path) (s.declare name.lexeme) where
  scopes := by
    rw [Scoping.declare, mark_scopes]
    exact here.scopes.markIn name.lexeme false
  pending other := by
    have empty : s.scopes.isEmpty = path.scopes.isEmpty := by
      rw [Bool.eq_iff_iff, List.isEmpty_iff_length_eq_zero, List.isEmpty_iff_length_eq_zero,
        here.scopes.length_eq]
    rw [isPending_declare _ _ _ here.settled, empty]
    rfl

/-! ## What the walk does -/

def record (distances : Distances) : Path × Occurrence → Distances
  | (path, occurrence) =>
    match occurrence.reference? with
    | some reference =>
      match nearest? reference.name path.scopes with
      | some distance => distances.insert reference.id distance
      | none => distances
    | none => distances

/-- From the one state to the other, the walk meets these occurrences. -/
structure Meets (s : Scoping) (met : List (Path × Occurrence)) (s' : Scoping) : Prop where
  errors : s'.errors.toList = s.errors.toList ++ misuses met
  distances : misuses met = [] → s'.distances = met.foldl record s.distances

namespace Meets

variable {s s₁ s₂ s₃ s' : Scoping} {met met' : List (Path × Occurrence)}

theorem nothing (errors : s'.errors = s.errors) (distances : s'.distances = s.distances) :
    Meets s [] s' :=
  ⟨by rw [errors]; exact (List.append_nil _).symm, fun _ => distances⟩

theorem append (first : Meets s₁ met s₂) (second : Meets s₂ met' s₃) :
    Meets s₁ (met ++ met') s₃ := by
  have both : misuses (met ++ met') = misuses met ++ misuses met' := List.filterMap_append
  refine ⟨?_, fun clean => ?_⟩
  · rw [second.errors, first.errors, both, List.append_assoc]
  · rw [both, List.append_eq_nil_iff] at clean
    rw [second.distances clean.2, first.distances clean.1, List.foldl_append]

theorem within (before : Meets s [] s₁) (part : Meets s₁ met s₂) (after : Meets s₂ [] s') :
    Meets s met s' := by
  simpa using (before.append part).append after

end Meets

theorem mark_meets (name : String) (ready : Bool) (s : Scoping) : Meets s [] (s.mark name ready) := by
  unfold mark
  split <;> exact .nothing rfl rfl

theorem introduce_meets (name : String) (s : Scoping) : Meets s [] (s.introduce name) :=
  (mark_meets name false s).append (mark_meets name true _)

theorem enter_meets (s : Scoping) : Meets s [] s.enter := .nothing rfl rfl

theorem leave_meets (s : Scoping) : Meets s [] s.leave := .nothing rfl rfl

theorem introduceAll_meets (params : List Token) (s : Scoping) :
    Meets s [] (params.foldl (fun s param => s.introduce param.lexeme) s) := by
  induction params generalizing s with
  | nil => exact .nothing rfl rfl
  | cons param rest ih => exact (introduce_meets param.lexeme s).append (ih _)

theorem enterFunction_meets (params : List Token) (s : Scoping) :
    Meets s [] (s.enterFunction params) :=
  (enter_meets s).append (introduceAll_meets params _)

theorem leaveClass_meets (superclass : Option Reference) (s : Scoping) :
    Meets s [] (s.leaveClass superclass) := by
  cases superclass <;> exact .nothing rfl rfl

def complain (misuse : Option ScopeError) (s : Scoping) : Scoping :=
  match misuse with
  | some ⟨cause, token⟩ => s.report cause token
  | none => s

theorem complain_scopes (misuse : Option ScopeError) (s : Scoping) :
    (s.complain misuse).scopes = s.scopes := by
  cases misuse <;> rfl

theorem complain_distances (misuse : Option ScopeError) (s : Scoping) :
    (s.complain misuse).distances = s.distances := by
  cases misuse <;> rfl

theorem complain_errors (path : Path) (occurrence : Occurrence) (s : Scoping) :
    (s.complain (occurrence.misuse? path)).errors.toList =
      s.errors.toList ++ misuses [(path, occurrence)] := by
  cases misuse : occurrence.misuse? path with
  | none => simp [complain, misuses, misuse]
  | some error => simp [complain, report, misuses, misuse]

theorem bind_errors (r : Reference) (s : Scoping) : (s.bind r).errors = s.errors := by
  unfold bind
  split <;> rfl

theorem complain_meets (path : Path) (occurrence : Occurrence) (s : Scoping)
    (unbound : misuses [(path, occurrence)] = [] → occurrence.reference? = none) :
    Meets s [(path, occurrence)] (s.complain (occurrence.misuse? path)) := by
  refine ⟨complain_errors path occurrence s, fun clean => ?_⟩
  simp [complain_distances, record, unbound clean]

theorem bind_meets {path : Path} {r : Reference} {s : Scoping} (occurrence : Occurrence)
    (here : Matches path s) (refers : occurrence.reference? = some r) :
    Meets s [(path, occurrence)] ((s.complain (occurrence.misuse? path)).bind r) := by
  refine ⟨by rw [bind_errors, complain_errors], fun _ => ?_⟩
  rw [bind, complain_scopes, here.scopes.distance?, List.foldl_cons, List.foldl_nil, record, refers]
  cases found : nearest? r.name path.scopes <;> simp only [found, complain_distances]

theorem read_meets {path : Path} {r : Reference} {s : Scoping} (here : Matches path s) :
    Meets s [(path, .read r)] (s.read r) := by
  have meets := bind_meets (.read r) here rfl
  rw [Occurrence.misuse?, ← here.pending] at meets
  rw [read, reportIf]
  split at meets <;> rename_i pending
  · rwa [if_pos pending]
  · rwa [if_neg pending]

theorem inherited_meets {path : Path} {r : Reference} {method : Token} {s : Scoping}
    (here : Matches path s) :
    Meets s [(path, .inherited r method)] (s.inherited path.context r) := by
  have meets := bind_meets (.inherited r method) here rfl
  have same : s.inherited path.context r =
      (s.complain ((Occurrence.inherited r method).misuse? path)).bind r := by
    rw [inherited, Path.context, Occurrence.misuse?]
    rcases path.class? with _ | ⟨_, _ | _, _⟩ <;> rfl
  rwa [same]

theorem self_meets {path : Path} {r : Reference} {s : Scoping} (here : Matches path s) :
    Meets s [(path, .self r)] (expr path.context (.self r) s) := by
  rw [expr]
  cases around : path.class? with
  | none =>
      have reports : (Occurrence.self r).misuse? path = some ⟨.thisOutsideClass, r.token⟩ := by
        rw [Occurrence.misuse?, around]
      have meets := complain_meets path (.self r) s (by simp [misuses, reports])
      rw [reports] at meets
      rwa [if_pos (by rw [Path.context, around])]
  | some c =>
      have fine : (Occurrence.self r).misuse? path = none := by rw [Occurrence.misuse?, around]
      have meets := bind_meets (.self r) here rfl
      rw [fine] at meets
      rwa [if_neg (by rw [Path.context, around]; rcases c with ⟨_, _ | _, _⟩ <;> nofun)]

theorem superclass_meets {path : Path} {className : Token} {parent : Reference} {s : Scoping}
    (here : Matches (.heading className :: path) s) :
    Meets s [(.heading className :: path, .superclass className parent)]
      ((s.reportIf (parent.name = className.lexeme) .selfInheritance parent.token).read parent) := by
  have meets := bind_meets (.superclass className parent) here rfl
  have same : s.reportIf (parent.name = className.lexeme) .selfInheritance parent.token =
      s.complain ((Occurrence.superclass className parent).misuse? (.heading className :: path)) := by
    rw [reportIf, Occurrence.misuse?]
    by_cases own : parent.name = className.lexeme <;> simp [own, complain]
  have settled : (s.complain ((Occurrence.superclass className parent).misuse?
      (.heading className :: path))).isPending parent.name = false :=
    (isPending_congr (complain_scopes _ s) parent.name).trans (here.pending parent.name)
  rwa [same, read, settled]

theorem result_meets {path : Path} {keyword : Token} {hasValue : Bool} {s : Scoping} :
    Meets s [(path, .result keyword hasValue)]
      ((s.reportIf (path.context.function = .none) .topLevelReturn keyword).reportIf
        (hasValue && path.context.function = .initializer) .initializerResult keyword) := by
  have meets := complain_meets path (.result keyword hasValue) s fun _ => rfl
  have same : (s.reportIf (path.context.function = .none) .topLevelReturn keyword).reportIf
        (hasValue && path.context.function = .initializer) .initializerResult keyword =
      s.complain ((Occurrence.result keyword hasValue).misuse? path) := by
    rw [Path.context, Occurrence.misuse?]
    cases path.function <;> cases hasValue <;> rfl
  rwa [same]

theorem enterClass_meets {path : Path} {s : Scoping} (name : Token) (superclass : Option Reference)
    (here : Matches (.heading name :: path) s) :
    Meets s
      (superclass.toList.map fun parent => (.heading name :: path, .superclass name parent))
      (s.enterClass name superclass) := by
  have within (keyword : String) (s : Scoping) : Meets s [] (s.enter.define keyword) :=
    (enter_meets s).append (mark_meets _ _ _)
  cases superclass with
  | none => exact within "this" s
  | some parent =>
      exact (superclass_meets here).append ((within "super" _).append (within "this" _))

/-! ## Expressions -/

mutual

theorem expr_meets {path : Path} : ∀ (e : Expr) (s : Scoping), Matches path s →
    Meets s (e.occurrences path) (expr path.context e s)
  | .literal _, s, _ => by
      rw [expr, Expr.occurrences]
      exact .nothing rfl rfl
  | .grouping inner, s, here => by
      rw [expr, Expr.occurrences]
      exact expr_meets inner s here
  | .unary _ right, s, here => by
      rw [expr, Expr.occurrences]
      exact expr_meets right s here
  | .binary left _ right, s, here | .logical left _ right, s, here => by
      rw [expr, Expr.occurrences]
      exact (expr_meets left s here).append (expr_meets right _ (here.congr (expr_scopes _ left s)))
  | .read name, s, here => by
      rw [expr, Expr.occurrences]
      exact read_meets here
  | .assign name value, s, here => by
      rw [expr, Expr.occurrences]
      have after := here.congr (expr_scopes path.context value s)
      exact (expr_meets value s here).append (bind_meets (.assign name) after rfl)
  | .call callee _ arguments, s, here => by
      rw [expr, Expr.occurrences]
      exact (expr_meets callee s here).append
        (exprs_meets arguments _ (here.congr (expr_scopes _ callee s)))
  | .get object _, s, here => by
      rw [expr, Expr.occurrences]
      exact expr_meets object s here
  | .set object _ value, s, here => by
      rw [expr, Expr.occurrences]
      exact (expr_meets object s here).append
        (expr_meets value _ (here.congr (expr_scopes _ object s)))
  | .self keyword, s, here => by
      rw [Expr.occurrences]
      exact self_meets here
  | .inherited keyword method, s, here => by
      rw [expr, Expr.occurrences]
      exact inherited_meets here

theorem exprs_meets {path : Path} : ∀ (es : List Expr) (s : Scoping), Matches path s →
    Meets s (Expr.occurrencesAll path es) (exprs path.context es s)
  | [], s, _ => by
      rw [exprs, Expr.occurrencesAll]
      exact .nothing rfl rfl
  | first :: rest, s, here => by
      rw [exprs, Expr.occurrencesAll]
      exact (expr_meets first s here).append (exprs_meets rest _ (here.congr (expr_scopes _ first s)))

end

theorem expr?_meets {path : Path} (e : Option Expr) (s : Scoping) (here : Matches path s) :
    Meets s (Expr.occurrences? path e) (expr? path.context e s) := by
  cases e with
  | none => exact .nothing rfl rfl
  | some value => exact expr_meets value s here

/-! ## Statements -/

def namesAfter (a : Stmt) (names : List (List String)) : List (List String) :=
  match a.declared? with
  | some name => Path.declaring name names
  | none => names

structure Opens (place : List Stmt → Path) : Prop where
  context : ∀ before, (place before).context = (place []).context
  outside : ∀ before name, (place before).initializes name = false
  scopes : ∀ before a, (place (before ++ [a])).scopes = namesAfter a (place before).scopes

theorem opens_program : Opens fun _ => [] := by
  refine ⟨fun _ => rfl, fun _ _ => rfl, fun _ a => ?_⟩
  rw [namesAfter]
  split <;> rfl

theorem opens_of_scope {layer : List Stmt → Layer} {path : Path} (names : List String)
    (context : ∀ before, Path.context (layer before :: path) = Path.context (layer [] :: path))
    (outside : ∀ before name, Path.initializes name (layer before :: path) = false)
    (scopes : ∀ before, Path.scopes (layer before :: path) =
      (names ++ before.filterMap Stmt.declared?) :: path.scopes) :
    Opens fun before => layer before :: path := by
  refine ⟨context, outside, fun before a => ?_⟩
  rw [scopes, scopes, namesAfter, List.filterMap_append]
  cases declared : a.declared? with
  | none => simp [declared]
  | some name => simp [declared, Path.declaring]

theorem opens_block (path : Path) : Opens fun before => .block before :: path :=
  opens_of_scope [] (fun _ => rfl) (fun _ _ => rfl) fun _ => rfl

theorem Stands.after {place : List Stmt → Path} {before : List Stmt} {a : Stmt} {s : Scoping}
    (opens : Opens place) (here : Stands (place before) s) (plain : a.Plain) (context : Context) :
    Stands (place (before ++ [a])) (stmt context a s) := by
  have walked := stmt_scopes context a s plain
  refine ⟨?_, ?_, opens.outside _⟩
  · rw [walked, opens.scopes, scopesAfter, namesAfter]
    cases a.declared? with
    | none => exact here.scopes
    | some name => exact here.scopes.introduceIn name
  · rw [walked, scopesAfter]
    split
    · exact ready_introduceIn here.settled _
    · exact here.settled

theorem Stands.inBlock {path : Path} {s : Scoping} (here : Stands path s) :
    Stands (.block [] :: path) s.enter where
  scopes := .cons (fun name => by simp [Bindings.contains]) here.scopes
  settled name := ready_cons.mpr ⟨nofun, here.settled name⟩
  outside _ := rfl

theorem Stands.inClass {path : Path} {s : Scoping} (here : Stands path s) (name : Token)
    (superclass : Option Reference) (methods : List FunctionDecl) :
    Stands (.classBody ⟨name, superclass, methods⟩ :: path) (s.enterClass name superclass) where
  scopes := by
    rw [enterClass_scopes]
    exact here.scopes.classScopes name superclass methods
  settled other := by
    rw [enterClass_scopes]
    cases superclass with
    | none => exact ready_cons.mpr ⟨find?_scopeOf "this" other, here.settled other⟩
    | some parent =>
        exact ready_cons.mpr ⟨find?_scopeOf "this" other,
          ready_cons.mpr ⟨find?_scopeOf "super" other, here.settled other⟩⟩
  outside _ := rfl

theorem context_classBody (name : Token) (superclass : Option Reference)
    (methods : List FunctionDecl) (path : Path) :
    Path.context (.classBody ⟨name, superclass, methods⟩ :: path) = path.context.inClass superclass := by
  cases superclass <;> rfl

structure Calls (layer : FunctionDecl → List Stmt → Layer) (kind : FunctionDecl → FunctionContext) :
    Prop where
  context : ∀ f before (path : Path),
    Path.context (layer f before :: path) = path.context.inFunction (kind f)
  outside : ∀ f before path name, Path.initializes name (layer f before :: path) = false
  scopes : ∀ f before (path : Path), Path.scopes (layer f before :: path) =
    (f.params.map Token.lexeme ++ before.filterMap Stmt.declared?) :: path.scopes

theorem calls_function : Calls .function fun _ => .function :=
  ⟨fun _ _ _ => rfl, fun _ _ _ _ => rfl, fun _ _ _ => rfl⟩

theorem calls_method : Calls .method methodKind :=
  ⟨fun _ _ _ => rfl, fun _ _ _ _ => rfl, fun _ _ _ => rfl⟩

theorem Calls.opens {layer : FunctionDecl → List Stmt → Layer}
    {kind : FunctionDecl → FunctionContext} (calls : Calls layer kind) (f : FunctionDecl)
    (path : Path) : Opens fun before => layer f before :: path :=
  opens_of_scope _ (fun _ => (calls.context f _ path).trans (calls.context f [] path).symm)
    (fun before name => calls.outside f before path name) fun before => calls.scopes f before path

theorem Stands.inFunction {layer : FunctionDecl → List Stmt → Layer}
    {kind : FunctionDecl → FunctionContext} {path : Path} {s : Scoping} (calls : Calls layer kind)
    (here : Stands path s) (f : FunctionDecl) :
    Stands (layer f [] :: path) (s.enterFunction f.params) where
  scopes := by
    rw [enterFunction_scopes, calls.scopes]
    simpa using here.scopes.paramScope f.params
  settled name := by
    rw [enterFunction_scopes]
    exact ready_cons.mpr ⟨find?_paramScope f.params name, here.settled name⟩
  outside := calls.outside f [] path

mutual

theorem stmt_meets : ∀ (a : Stmt) (path : Path) (s : Scoping), a.Plain → Stands path s →
    Meets s (a.occurrences path) (stmt path.context a s)
  | .expression value, path, s, _, here | .print value, path, s, _, here => by
      rw [stmt, Stmt.occurrences]
      exact expr_meets value s here.matches
  | .varDecl name initializer, path, s, _, here => by
      rw [stmt, Stmt.occurrences]
      exact .within (mark_meets _ _ s) (expr?_meets initializer _ (here.declare name))
        (mark_meets _ _ _)
  | .block body, path, s, plain, here => by
      rw [Stmt.Plain] at plain
      rw [stmt, Stmt.occurrences]
      have inside := stmts_meets body (fun before => .block before :: path) [] s.enter plain
        (opens_block path) here.inBlock
      exact .within (enter_meets s) inside (leave_meets _)
  | .ifElse condition thenBranch none, path, s, plain, here => by
      rw [Stmt.Plain] at plain
      rw [stmt, Stmt.occurrences]
      exact (expr_meets condition s here.matches).append
        (stmt_meets thenBranch path _ plain.1 (here.congr (expr_scopes _ condition s)))
  | .ifElse condition thenBranch (some elseBranch), path, s, plain, here => by
      rw [Stmt.Plain] at plain
      obtain ⟨thenPlain, thenBranch, elsePlain, elseBranch⟩ := plain
      have before := here.congr (expr_scopes path.context condition s)
      have between := stmt_scopes path.context _ (expr path.context condition s) thenPlain
      rw [scopesAfter_plain thenBranch] at between
      rw [stmt, Stmt.occurrences]
      exact (expr_meets condition s here.matches).append ((stmt_meets _ path _ thenPlain before).append
        (stmt_meets _ path _ elsePlain (before.congr between)))
  | .whileLoop condition body, path, s, plain, here => by
      rw [Stmt.Plain] at plain
      rw [stmt, Stmt.occurrences]
      exact (expr_meets condition s here.matches).append
        (stmt_meets body path _ plain.1 (here.congr (expr_scopes _ condition s)))
  | .funDecl declaration, path, s, plain, here => by
      rw [Stmt.Plain] at plain
      rw [stmt, Stmt.occurrences]
      have inside := function_meets declaration (.heading declaration.name :: path)
        (s.introduce declaration.name.lexeme) calls_function plain (here.introduce declaration.name)
      exact .within (introduce_meets _ s) inside (.nothing rfl rfl)
  | .returnStmt keyword value, path, s, _, here => by
      rw [stmt, Stmt.occurrences]
      have after := here.matches.congr ((reportIf_scopes
        (value.isSome && path.context.function = .initializer) .initializerResult keyword _).trans
        (reportIf_scopes (path.context.function = .none) .topLevelReturn keyword s))
      exact result_meets.append (expr?_meets value _ after)
  | .classDecl name superclass methods, path, s, plain, here => by
      rw [Stmt.Plain] at plain
      rw [stmt, Stmt.occurrences]
      have heading := here.introduce name
      have above := enterClass_meets name superclass heading.matches
      have inside := methodList_meets methods _ _ plain (heading.inClass name superclass methods)
      rw [context_classBody] at inside
      exact .within (introduce_meets name.lexeme s) (above.append inside)
        (leaveClass_meets superclass _)

theorem stmts_meets :
    ∀ (body : List Stmt) (place : List Stmt → Path) (before : List Stmt) (s : Scoping),
    Stmt.PlainAll body → Opens place → Stands (place before) s →
    Meets s (Stmt.occurrencesAll place before body) (stmts (place before).context body s)
  | [], place, before, s, _, _, _ => by
      rw [stmts, Stmt.occurrencesAll]
      exact .nothing rfl rfl
  | first :: rest, place, before, s, plain, opens, here => by
      rw [Stmt.PlainAll] at plain
      rw [stmts, Stmt.occurrencesAll]
      have later := stmts_meets rest place (before ++ [first]) _ plain.2 opens
        (here.after opens plain.1 (place before).context)
      rw [(opens.context (before ++ [first])).trans (opens.context before).symm] at later
      exact (stmt_meets first (place before) s plain.1 here).append later

theorem function_meets {layer : FunctionDecl → List Stmt → Layer}
    {kind : FunctionDecl → FunctionContext} :
    ∀ (f : FunctionDecl) (path : Path) (s : Scoping), Calls layer kind → f.Plain → Stands path s →
    Meets s (f.occurrences layer path) (function path.context (kind f) f s)
  | ⟨name, params, body⟩, path, s, calls, plain, here => by
      rw [FunctionDecl.Plain] at plain
      rw [function, FunctionDecl.occurrences]
      have inside := stmts_meets body (fun before => layer ⟨name, params, body⟩ before :: path) [] _
        plain (calls.opens _ path) (here.inFunction calls ⟨name, params, body⟩)
      rw [calls.context] at inside
      exact .within (enterFunction_meets params s) inside (leave_meets _)

theorem methodList_meets : ∀ (methods : List FunctionDecl) (path : Path) (s : Scoping),
    FunctionDecl.PlainAll methods → Stands path s →
    Meets s (FunctionDecl.occurrencesAll path methods) (methodList path.context methods s)
  | [], path, s, _, _ => by
      rw [methodList, FunctionDecl.occurrencesAll]
      exact .nothing rfl rfl
  | first :: rest, path, s, plain, here => by
      rw [FunctionDecl.PlainAll] at plain
      rw [methodList, FunctionDecl.occurrencesAll]
      have later := methodList_meets rest path _ plain.2
        (here.congr (function_scopes path.context (methodKind first) first s plain.1))
      exact (function_meets first path s calls_method plain.1 here).append later

end

end Scoping

end Lox
