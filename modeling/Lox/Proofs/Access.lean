import Lox.Evaluation

/-!
# Ways to variables

A run with the ways to its variables as a parameter. By distance (`Access.byDistance`) it is the run
of the program (`Access.byDistance_eq`); by search (`Access.bySearch`) it walks from the running frame
to the nearest one that binds the name. What `super` means is always found by distance.

Contents: `Access`; `Access.evaluate` and `Access.execute`; `Access.interpret`.
-/

namespace Lox
open Run

/-- How a run gets at what a reference means. -/
structure Access where
  read : Reference → Run Value
  write : Reference → Value → Run Unit
  inherited : Reference → Token → Run Value

namespace Access

def byDistance : Access := ⟨lookUp, assign, getInherited⟩

def bySearch : Access where
  read reference m :=
    match m.store.get? m.current reference.name with
    | some value => .ok value m
    | none => raise (.undefinedVariable reference.name) reference.token m
  write reference value m :=
    match m.store.assign? m.current reference.name value with
    | some store => .ok () { m with store }
    | none => raise (.undefinedVariable reference.name) reference.token m
  inherited := getInherited

variable (access : Access)

/-! ## Meanings from the meanings of parts -/

def evaluateWith (evaluate : Expr → Run Value) (execute : Stmt → Run Flow) : Expr → Run Value
  | .read name => access.read name
  | .assign name value => do
    let result ← evaluate value
    access.write name result
    pure result
  | .self keyword => access.read keyword
  | .inherited keyword method => access.inherited keyword method
  | e => Lox.evaluateWith evaluate execute e

def lookUpSuperclass (reference : Reference) : Run Class := do
  match ← access.read reference with
  | .ofClass parent => pure parent
  | _ => raise .superclassNotClass reference.token

def declareSubclass (name : Token) (superclass : Reference) (methods : List FunctionDecl) : Run Unit := do
  let frame ← current
  let parent ← access.lookUpSuperclass superclass
  let home ← newFrame frame
  define home "super" (.ofClass parent)
  let identity ← newIdentity
  define frame name.lexeme (.ofClass ⟨identity, name.lexeme, some parent, methodTable home methods⟩)

def executeWith (rounds : Nat) (evaluate : Expr → Run Value) (execute : Stmt → Run Flow) : Stmt → Run Flow
  | .classDecl name (some superclass) methods => do
    access.declareSubclass name superclass methods
    pure .normal
  | a => Lox.executeWith rounds evaluate execute a

/-! ## The circle -/

mutual

def evaluate (access : Access) : Nat → Expr → Run Value
  | 0, _ => starve
  | fuel + 1, expression => access.evaluateWith (access.evaluate fuel) (access.execute fuel) expression

def execute (access : Access) : Nat → Stmt → Run Flow
  | 0, _ => starve
  | fuel + 1, statement => access.executeWith fuel (access.evaluate fuel) (access.execute fuel) statement

end

def interpret (fuel : Nat) (program : List Stmt) (distances : Distances) : Run Unit := fun m =>
  finish Machine.sink (executeAll (access.execute fuel) program { m with distances })

/-! ## The interpreter's own way -/

theorem declareSubclass_byDistance (name : Token) (superclass : Reference) (methods : List FunctionDecl) :
    byDistance.declareSubclass name superclass methods = declareClass name (some superclass) methods :=
  rfl

theorem evaluateWith_byDistance (evaluate : Expr → Run Value) (execute : Stmt → Run Flow) (e : Expr) :
    byDistance.evaluateWith evaluate execute e = Lox.evaluateWith evaluate execute e := by
  cases e <;> rfl

theorem executeWith_byDistance (rounds : Nat) (evaluate : Expr → Run Value) (execute : Stmt → Run Flow)
    (a : Stmt) :
    byDistance.executeWith rounds evaluate execute a = Lox.executeWith rounds evaluate execute a := by
  cases a with
  | classDecl name superclass methods =>
      cases superclass with
      | none => rfl
      | some reference => rw [executeWith, Lox.executeWith, declareSubclass_byDistance]
  | _ => rfl

theorem byDistance_eq (fuel : Nat) :
    byDistance.evaluate fuel = Lox.evaluate fuel ∧ byDistance.execute fuel = Lox.execute fuel := by
  induction fuel with
  | zero =>
      exact ⟨funext fun e => by rw [evaluate, Lox.evaluate], funext fun a => by rw [execute, Lox.execute]⟩
  | succ fuel ih =>
      refine ⟨funext fun e => ?_, funext fun a => ?_⟩
      · rw [evaluate, Lox.evaluate, onStack_eq, ih.1, ih.2, evaluateWith_byDistance]
      · rw [execute, Lox.execute, onStack_eq, ih.1, ih.2, executeWith_byDistance]

end Access

end Lox
