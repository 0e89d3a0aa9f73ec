import Lox.Proofs.Grammar.Trees
import Lox.Scope

/-!
# Occurrences of names

What the rules of scoping speak of, read off the tree alone. A path tells what is around a part of a
program (`Path`), and with it the local scopes there and the names that were declared in them before
(`Path.scopes`). `Stmt.occurrences` lists, from left to right, what the rules are about: uses of
variables, of `this` and `super`, superclasses and returns, each with its path. `Nearest` says how
far away a name is declared, and `violations` are the occurrences that break a rule.
-/

namespace Lox

/-! ## Paths -/

structure ClassDecl where
  name : Token
  superclass : Option Reference
  methods : List FunctionDecl

/--
One step from the outside to a part of a program. A block or body comes with the statements in it
that are before the part; behind the name of a function or class is its heading, and all of it.
-/
inductive Layer where
  | initializer (name : Token)
  | heading (name : Token)
  | block (before : List Stmt)
  | function (declaration : FunctionDecl) (before : List Stmt)
  | method (declaration : FunctionDecl) (before : List Stmt)
  | classBody (declaration : ClassDecl)

/-- What is around a part of a program, the innermost first. -/
abbrev Path := List Layer

namespace Path

/-- Adds a name to the innermost scope. Globals are not kept. -/
def declaring (name : String) : List (List String) → List (List String)
  | [] => []
  | innermost :: outer => (innermost ++ [name]) :: outer

/-- The local scopes, the innermost first, each with the names that were declared in it before. -/
def scopes : Path → List (List String)
  | [] => []
  | .initializer name :: outer | .heading name :: outer => declaring name.lexeme (scopes outer)
  | .block before :: outer => before.filterMap Stmt.declared? :: scopes outer
  | .function declaration before :: outer | .method declaration before :: outer =>
    (declaration.params.map Token.lexeme ++ before.filterMap Stmt.declared?) :: scopes outer
  | .classBody ⟨_, some _, _⟩ :: outer => ["this"] :: ["super"] :: scopes outer
  | .classBody ⟨_, none, _⟩ :: outer => ["this"] :: scopes outer

/-- The innermost class around. -/
def class? : Path → Option ClassDecl
  | [] => none
  | .classBody declaration :: _ => some declaration
  | _ :: outer => class? outer

/-- The kind of the innermost function or method around. -/
def function : Path → FunctionContext
  | [] => .none
  | .function .. :: _ => .function
  | .method declaration _ :: _ => if declaration.isInitializer then .initializer else .method
  | _ :: outer => function outer

/-- The path leads into the initializer of a local variable with this name. -/
def initializes (name : String) : Path → Bool
  | .initializer own :: outer => !(scopes outer).isEmpty && own.lexeme = name
  | _ => false

end Path

/-- The innermost of the scopes that have the name has `distance` scopes inside of it. -/
def Nearest (name : String) (scopes : List (List String)) (distance : Nat) : Prop :=
  ∃ inside : distance < scopes.length,
    name ∈ scopes[distance] ∧ ∀ inner, (_ : inner < distance) → name ∉ scopes[inner]

def nearest? (name : String) (scopes : List (List String)) : Option Nat :=
  scopes.findIdx? fun names => name ∈ names

theorem nearest?_eq_some {name : String} {scopes : List (List String)} {distance : Nat} :
    nearest? name scopes = some distance ↔ Nearest name scopes distance := by
  rw [nearest?, List.findIdx?_eq_some_iff_getElem, Nearest]
  simp only [decide_eq_true_iff]

/-! ## Occurrences -/

inductive Occurrence where
  | read (name : Reference)
  | assign (name : Reference)
  | self (keyword : Reference)
  | inherited (keyword : Reference) (method : Token)
  | superclass (className : Token) (parent : Reference)
  | result (keyword : Token) (hasValue : Bool)

def Occurrence.reference? : Occurrence → Option Reference
  | read name | assign name => some name
  | self keyword | inherited keyword _ => some keyword
  | superclass _ parent => some parent
  | result .. => none

mutual

def Expr.occurrences (path : Path) : Expr → List (Path × Occurrence)
  | .literal _ => []
  | .grouping inner => inner.occurrences path
  | .unary _ right => right.occurrences path
  | .binary left _ right => left.occurrences path ++ right.occurrences path
  | .logical left _ right => left.occurrences path ++ right.occurrences path
  | .read name => [(path, .read name)]
  | .assign name value => value.occurrences path ++ [(path, .assign name)]
  | .call callee _ arguments => callee.occurrences path ++ Expr.occurrencesAll path arguments
  | .get object _ => object.occurrences path
  | .set object _ value => object.occurrences path ++ value.occurrences path
  | .self keyword => [(path, .self keyword)]
  | .inherited keyword method => [(path, .inherited keyword method)]

def Expr.occurrencesAll (path : Path) : List Expr → List (Path × Occurrence)
  | [] => []
  | first :: rest => first.occurrences path ++ Expr.occurrencesAll path rest

end

def Expr.occurrences? (path : Path) : Option Expr → List (Path × Occurrence)
  | some value => value.occurrences path
  | none => []

mutual

def Stmt.occurrences (path : Path) : Stmt → List (Path × Occurrence)
  | .expression value => value.occurrences path
  | .print value => value.occurrences path
  | .varDecl name initializer => Expr.occurrences? (.initializer name :: path) initializer
  | .block body => Stmt.occurrencesAll (fun before => .block before :: path) [] body
  | .ifElse condition thenBranch none => condition.occurrences path ++ thenBranch.occurrences path
  | .ifElse condition thenBranch (some elseBranch) =>
    condition.occurrences path ++ (thenBranch.occurrences path ++ elseBranch.occurrences path)
  | .whileLoop condition body => condition.occurrences path ++ body.occurrences path
  | .funDecl declaration =>
    declaration.occurrences .function (.heading declaration.name :: path)
  | .returnStmt keyword value =>
    (path, .result keyword value.isSome) :: Expr.occurrences? path value
  | .classDecl name superclass methods =>
    superclass.toList.map (fun parent => (.heading name :: path, .superclass name parent)) ++
      FunctionDecl.occurrencesAll (.classBody ⟨name, superclass, methods⟩ :: .heading name :: path)
        methods

/-- The statements of a block or body; `place before` is the path to the one after those before. -/
def Stmt.occurrencesAll (place : List Stmt → Path) (before : List Stmt) :
    List Stmt → List (Path × Occurrence)
  | [] => []
  | first :: rest =>
    first.occurrences (place before) ++ Stmt.occurrencesAll place (before ++ [first]) rest

def FunctionDecl.occurrences (layer : FunctionDecl → List Stmt → Layer) (path : Path) :
    FunctionDecl → List (Path × Occurrence)
  | ⟨name, params, body⟩ =>
    Stmt.occurrencesAll (fun before => layer ⟨name, params, body⟩ before :: path) [] body

def FunctionDecl.occurrencesAll (path : Path) : List FunctionDecl → List (Path × Occurrence)
  | [] => []
  | first :: rest => first.occurrences .method path ++ FunctionDecl.occurrencesAll path rest

end

theorem Expr.occurrences_subset (path : Path) {es : List Expr} {e : Expr} (mem : e ∈ es) :
    e.occurrences path ⊆ Expr.occurrencesAll path es :=
  subset_of_mem (fun _ _ => by rw [Expr.occurrencesAll]) mem

theorem FunctionDecl.occurrences_subset (path : Path) {methods : List FunctionDecl} {d : FunctionDecl}
    (mem : d ∈ methods) : d.occurrences .method path ⊆ FunctionDecl.occurrencesAll path methods :=
  subset_of_mem (fun _ _ => by rw [FunctionDecl.occurrencesAll]) mem

/-- The occurrences of a program. At its top level there are no local scopes. -/
def occurrences (program : List Stmt) : List (Path × Occurrence) :=
  Stmt.occurrencesAll (fun _ => []) [] program

def referencesIn (occurrences : List (Path × Occurrence)) : List Reference :=
  occurrences.filterMap fun (_, occurrence) => occurrence.reference?

theorem referencesIn_append (met met' : List (Path × Occurrence)) :
    referencesIn (met ++ met') = referencesIn met ++ referencesIn met' :=
  List.filterMap_append

mutual

theorem Expr.referencesIn_occurrences (path : Path) :
    ∀ e : Expr, referencesIn (e.occurrences path) = e.references
  | .literal _ | .read _ | .self _ | .inherited _ _ => by
      rw [Expr.occurrences, Expr.references]
      rfl
  | .grouping inner => by
      rw [Expr.occurrences, Expr.references, inner.referencesIn_occurrences]
  | .unary _ right => by
      rw [Expr.occurrences, Expr.references, right.referencesIn_occurrences]
  | .binary left _ right | .logical left _ right => by
      rw [Expr.occurrences, Expr.references, referencesIn_append, left.referencesIn_occurrences,
        right.referencesIn_occurrences]
  | .assign name value => by
      rw [Expr.occurrences, Expr.references, referencesIn_append, value.referencesIn_occurrences]
      rfl
  | .call callee _ arguments => by
      rw [Expr.occurrences, Expr.references, referencesIn_append, callee.referencesIn_occurrences,
        Expr.referencesIn_occurrencesAll]
  | .get object _ => by
      rw [Expr.occurrences, Expr.references, object.referencesIn_occurrences]
  | .set object _ value => by
      rw [Expr.occurrences, Expr.references, referencesIn_append, object.referencesIn_occurrences,
        value.referencesIn_occurrences]

theorem Expr.referencesIn_occurrencesAll (path : Path) :
    ∀ es : List Expr, referencesIn (Expr.occurrencesAll path es) = Expr.referencesAll es
  | [] => by
      rw [Expr.occurrencesAll, Expr.referencesAll]
      rfl
  | first :: rest => by
      rw [Expr.occurrencesAll, Expr.referencesAll, referencesIn_append, first.referencesIn_occurrences,
        Expr.referencesIn_occurrencesAll]

end

theorem Expr.referencesIn_occurrences? (path : Path) (e : Option Expr) :
    referencesIn (Expr.occurrences? path e) = Expr.references? e := by
  cases e with
  | none => rfl
  | some value => exact value.referencesIn_occurrences path

mutual

theorem Stmt.referencesIn_occurrences :
    ∀ (a : Stmt) (path : Path), referencesIn (a.occurrences path) = a.references
  | .expression value, path | .print value, path => by
      rw [Stmt.occurrences, Stmt.references, value.referencesIn_occurrences]
  | .varDecl _ initializer, path => by
      rw [Stmt.occurrences, Stmt.references, Expr.referencesIn_occurrences?]
  | .block body, path => by
      rw [Stmt.occurrences, Stmt.references, Stmt.referencesIn_occurrencesAll]
  | .ifElse condition thenBranch none, path | .whileLoop condition thenBranch, path => by
      rw [Stmt.occurrences, Stmt.references, referencesIn_append, condition.referencesIn_occurrences,
        thenBranch.referencesIn_occurrences]
  | .ifElse condition thenBranch (some elseBranch), path => by
      rw [Stmt.occurrences, Stmt.references, referencesIn_append, referencesIn_append,
        condition.referencesIn_occurrences, thenBranch.referencesIn_occurrences,
        elseBranch.referencesIn_occurrences]
  | .funDecl declaration, path => by
      rw [Stmt.occurrences, Stmt.references, declaration.referencesIn_occurrences]
  | .returnStmt _ value, path => by
      rw [Stmt.occurrences, Stmt.references, ← Expr.referencesIn_occurrences? path value]
      rfl
  | .classDecl _ superclass methods, path => by
      rw [Stmt.occurrences, Stmt.references, referencesIn_append, FunctionDecl.referencesIn_occurrencesAll]
      cases superclass <;> rfl

theorem Stmt.referencesIn_occurrencesAll :
    ∀ (body : List Stmt) (place : List Stmt → Path) (before : List Stmt),
    referencesIn (Stmt.occurrencesAll place before body) = Stmt.referencesAll body
  | [], _, _ => by
      rw [Stmt.occurrencesAll, Stmt.referencesAll]
      rfl
  | first :: rest, place, before => by
      rw [Stmt.occurrencesAll, Stmt.referencesAll, referencesIn_append, first.referencesIn_occurrences,
        Stmt.referencesIn_occurrencesAll]

theorem FunctionDecl.referencesIn_occurrences :
    ∀ (f : FunctionDecl) (layer : FunctionDecl → List Stmt → Layer) (path : Path),
    referencesIn (f.occurrences layer path) = f.references
  | ⟨_, _, body⟩, _, _ => by
      rw [FunctionDecl.occurrences, FunctionDecl.references, Stmt.referencesIn_occurrencesAll]

theorem FunctionDecl.referencesIn_occurrencesAll :
    ∀ (methods : List FunctionDecl) (path : Path),
    referencesIn (FunctionDecl.occurrencesAll path methods) = FunctionDecl.referencesAll methods
  | [], _ => by
      rw [FunctionDecl.occurrencesAll, FunctionDecl.referencesAll]
      rfl
  | first :: rest, path => by
      rw [FunctionDecl.occurrencesAll, FunctionDecl.referencesAll, referencesIn_append,
        first.referencesIn_occurrences, FunctionDecl.referencesIn_occurrencesAll]

end

/-! ## Rules -/

/-- What the occurrence does wrong at this path. -/
def Occurrence.misuse? (path : Path) : Occurrence → Option ScopeError
  | read name => if path.initializes name.name then some ⟨.ownInitializer, name.token⟩ else none
  | assign _ => none
  | self keyword =>
    match path.class? with
    | none => some ⟨.thisOutsideClass, keyword.token⟩
    | some _ => none
  | inherited keyword _ =>
    match path.class? with
    | none => some ⟨.superOutsideClass, keyword.token⟩
    | some ⟨_, none, _⟩ => some ⟨.superWithoutSuperclass, keyword.token⟩
    | some ⟨_, some _, _⟩ => none
  | superclass className parent =>
    if parent.name = className.lexeme then some ⟨.selfInheritance, parent.token⟩ else none
  | result keyword hasValue =>
    match path.function with
    | .none => some ⟨.topLevelReturn, keyword⟩
    | .initializer => if hasValue then some ⟨.initializerResult, keyword⟩ else none
    | .function | .method => none

def misuses (occurrences : List (Path × Occurrence)) : List ScopeError :=
  occurrences.filterMap fun (path, occurrence) => occurrence.misuse? path

def violations (program : List Stmt) : List ScopeError := misuses (occurrences program)

end Lox
