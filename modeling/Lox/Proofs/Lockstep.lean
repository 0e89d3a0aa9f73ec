import Lox.Proofs.Passage
import Lox.Proofs.Sequence
import Lox.Proofs.Supervision

/-!
# Runs in lockstep

Two evaluators that are put together in the same way agree in everything in which their parts agree. A
relation between actions that is kept by sequences and by other frames, and that holds between each
basic action and itself (`Lockstep`), goes over from the meanings of parts to the meanings of whole
expressions and statements (`Lockstep.evaluateWith`, `Lockstep.executeWith`). Loops are apart: their
numbers of rounds may differ on the two sides.
-/

namespace Lox
open Run

def look {α : Type} (see : Store → FrameId → Distances → Float → α) : Run α := fun m =>
  .ok (see m.store m.current m.distances m.clock) m

def Reference.value? (r : Reference) (store : Store) (current : FrameId) (distances : Distances) :
    Option Value :=
  match distances.find? r.id with
  | some distance => store.getAt? current distance r.name
  | none => store.get? Store.globals r.name

def Reference.target? (r : Reference) (store : Store) (current : FrameId) (distances : Distances) :
    Option FrameId :=
  match distances.find? r.id with
  | some distance => store.ancestor? current distance
  | none => store.binder? r.name Store.globals

theorem lookUp_eq (r : Reference) : lookUp r = (do
    match ← look fun store current distances _ => r.value? store current distances with
    | some value => pure value
    | none => raise (.undefinedVariable r.name) r.token) := by
  funext m
  show (match r.value? m.store m.current m.distances with
    | some value => EStateM.Result.ok value m
    | none => raise (.undefinedVariable r.name) r.token m) = _
  simp only [look, Bind.bind, EStateM.bind]
  cases r.value? m.store m.current m.distances <;> rfl

theorem assign_eq (r : Reference) (value : Value) : assign r value = (do
    match ← look fun store current distances _ => r.target? store current distances with
    | some frame => define frame r.name value
    | none => raise (.undefinedVariable r.name) r.token) := by
  funext m
  show (match r.target? m.store m.current m.distances with
    | some frame => define frame r.name value m
    | none => raise (.undefinedVariable r.name) r.token m) = _
  simp only [look, Bind.bind, EStateM.bind]
  cases r.target? m.store m.current m.distances <;> rfl

theorem getInherited_eq (keyword : Reference) (method : Token) : getInherited keyword method = (do
    match ← look fun store current distances _ =>
        findInherited ⟨store, current, distances, .unlimited, 0⟩ keyword with
    | none => abort (.unresolvedSuper keyword.line)
    | some pair =>
      match pair.1.findMethod? method.lexeme with
      | some found => methodValue found pair.2
      | none => raise (.undefinedProperty method.lexeme) method) := by
  funext m
  rw [getInherited, bind_get]
  simp only [look, Bind.bind, EStateM.bind]
  change _ = (match findInherited m keyword with
    | none => abort (.unresolvedSuper keyword.line)
    | some pair =>
      match pair.1.findMethod? method.lexeme with
      | some found => methodValue found pair.2
      | none => raise (.undefinedProperty method.lexeme) method) m
  cases findInherited m keyword <;> rfl

/-- A relation between two actions, one for each of two runs. -/
structure Lockstep (R : ∀ ⦃α : Type⦄, Run α → Run α → Prop) : Prop where
  stop {α : Type} (stop : Stop) : R (fun m => .error stop m : Run α) fun m => .error stop m
  look {α : Type} (see : Store → FrameId → Distances → Float → α) : R (look see) (look see)
  bind {α β : Type} {x y : Run α} {f g : α → Run β} : R x y → (∀ a, R (f a) (g a)) →
    R (x >>= f) (y >>= g)
  within {α : Type} (frame : FrameId) {x y : Run α} : R x y → R (within frame x) (within frame y)
  newFrame (enclosing : FrameId) : R (newFrame enclosing) (newFrame enclosing)
  define (frame : FrameId) (name : String) (value : Value) :
    R (define frame name value) (define frame name value)
  newIdentity : R newIdentity newIdentity
  newInstance (type : Class) : R (newInstance type) (newInstance type)
  setField (i : Instance) (name : String) (value : Value) : R (setField i name value) (setField i name value)
  emit (text : String) : R (emit text) (emit text)

namespace Lockstep

variable {R : ∀ ⦃α : Type⦄, Run α → Run α → Prop} (lockstep : Lockstep R) {α β : Type}

include lockstep

/-! ## Basic actions -/

theorem pure (a : α) : R (Pure.pure a : Run α) (Pure.pure a) := lockstep.look fun _ _ _ _ => a

theorem raise (cause : RuntimeError.Cause) (token : Token) :
    R (Run.raise cause token : Run α) (Run.raise cause token) :=
  lockstep.stop (.runtime ⟨cause, token.line⟩)

theorem lift (result : Except RuntimeError α) : R (Run.lift result) (Run.lift result) := by
  cases result with
  | ok value => exact lockstep.pure value
  | error error => exact lockstep.stop (.runtime error)

theorem current : R Run.current Run.current := lockstep.look fun _ current _ _ => current

theorem looking (see : Store → FrameId → Distances → Float → β) {f g : β → Run α}
    (rest : ∀ b, R (f b) (g b)) :
    R (MonadState.get >>= fun m => f (see m.store m.current m.distances m.clock))
      (MonadState.get >>= fun m => g (see m.store m.current m.distances m.clock)) := by
  show R (Lox.look see >>= f) (Lox.look see >>= g)
  exact lockstep.bind (lockstep.look see) rest

theorem lookUp (r : Reference) : R (Lox.lookUp r) (Lox.lookUp r) := by
  rw [lookUp_eq]
  apply lockstep.bind (lockstep.look _)
  intro found
  cases found with
  | some value => exact lockstep.pure value
  | none => exact lockstep.raise _ _

theorem assign (r : Reference) (value : Value) : R (Lox.assign r value) (Lox.assign r value) := by
  rw [assign_eq]
  apply lockstep.bind (lockstep.look _)
  intro found
  cases found with
  | some frame => exact lockstep.define frame r.name value
  | none => exact lockstep.raise _ _

theorem defineAll (frame : FrameId) (names : List Token) (values : List Value) :
    R (Run.defineAll frame names values) (Run.defineAll frame names values) := by
  induction names generalizing values with
  | nil => exact lockstep.pure ()
  | cons name names ih =>
      cases values with
      | nil => exact lockstep.pure ()
      | cons value values =>
          apply lockstep.bind (lockstep.define frame name.lexeme value)
          intro _
          exact ih values

/-! ## Sequences, blocks and loops -/

section Parts

variable {evaluate evaluate' : Expr → Run Value} {execute execute' : Stmt → Run Flow}

theorem executeAll (executes : ∀ a, R (execute a) (execute' a)) (body : List Stmt) :
    R (Lox.executeAll execute body) (Lox.executeAll execute' body) := by
  induction body with
  | nil => exact lockstep.pure _
  | cons first rest ih =>
      apply lockstep.bind (executes first)
      intro flow
      cases flow with
      | normal => exact ih
      | returned value => exact lockstep.pure _

theorem executeBlock (executes : ∀ a, R (execute a) (execute' a)) (enclosing : FrameId) (body : List Stmt) :
    R (Lox.executeBlock execute enclosing body) (Lox.executeBlock execute' enclosing body) := by
  apply lockstep.bind (lockstep.newFrame enclosing)
  intro frame
  exact lockstep.within frame (lockstep.executeAll executes body)

/-- The right loop may go round more often, if that is how running out of fuel is continued. -/
theorem repeatWhile {condition condition' : Run Value} {body body' : Run Flow}
    (tests : R condition condition') (runs : R body body') (rounds more : Nat)
    (starved : R starve (Lox.repeatWhile condition' body' more)) :
    R (Lox.repeatWhile condition body rounds) (Lox.repeatWhile condition' body' (rounds + more)) := by
  induction rounds with
  | zero =>
      rw [Nat.zero_add]
      exact starved
  | succ rounds ih =>
      rw [Nat.succ_add]
      apply lockstep.bind tests
      intro value
      split
      · apply lockstep.bind runs
        intro flow
        cases flow with
        | normal => exact ih
        | returned value => exact lockstep.pure _
      · exact lockstep.pure _

/-! ## Calls and properties -/

theorem evaluateAll (evaluates : ∀ e, R (evaluate e) (evaluate' e)) (es : List Expr) :
    R (Lox.evaluateAll evaluate es) (Lox.evaluateAll evaluate' es) := by
  induction es with
  | nil => exact lockstep.pure _
  | cons first rest ih =>
      apply lockstep.bind (evaluates first)
      intro value
      apply lockstep.bind ih
      intro values
      exact lockstep.pure _

theorem invoke (executes : ∀ a, R (execute a) (execute' a)) (closure : Closure) (arguments : List Value) :
    R (Lox.invoke execute closure arguments) (Lox.invoke execute' closure arguments) := by
  apply lockstep.bind (lockstep.newFrame _)
  intro frame
  apply lockstep.bind (lockstep.defineAll frame _ arguments)
  intro _
  apply lockstep.bind (lockstep.within frame (lockstep.executeAll executes _))
  intro flow
  split
  · have rest (found : Option Value) : R
        (match found with
          | some made => Pure.pure made
          | none => Run.raise .initializerWithoutInstance closure.declaration.name)
        (match found with
          | some made => Pure.pure made
          | none => Run.raise .initializerWithoutInstance closure.declaration.name) := by
      cases found with
      | some made => exact lockstep.pure made
      | none => exact lockstep.raise _ _
    exact lockstep.looking (fun store _ _ _ => store.read? closure.captured "this") rest
  · cases flow <;> exact lockstep.pure _

theorem bindMethod (method : Closure) (i : Instance) :
    R (Lox.bindMethod method i) (Lox.bindMethod method i) := by
  apply lockstep.bind (lockstep.newFrame _)
  intro frame
  apply lockstep.bind (lockstep.define frame "this" _)
  intro _
  exact lockstep.pure _

theorem methodValue (method : Closure) (i : Instance) :
    R (Lox.methodValue method i) (Lox.methodValue method i) := by
  apply lockstep.bind (lockstep.bindMethod method i)
  intro bound
  apply lockstep.bind lockstep.newIdentity
  intro identity
  exact lockstep.pure _

theorem construct (executes : ∀ a, R (execute a) (execute' a)) (type : Class) (arguments : List Value) :
    R (Lox.construct execute type arguments) (Lox.construct execute' type arguments) := by
  apply lockstep.bind (lockstep.newInstance type)
  intro made
  cases type.initializer? with
  | none => exact lockstep.pure _
  | some method =>
      apply lockstep.bind (lockstep.bindMethod method made)
      intro bound
      apply lockstep.bind (lockstep.invoke executes bound arguments)
      intro _
      exact lockstep.pure _

theorem callChecked (executes : ∀ a, R (execute a) (execute' a)) (callee : Value) (paren : Token)
    (arguments : List Value) :
    R (Lox.callChecked execute callee paren arguments) (Lox.callChecked execute' callee paren arguments) := by
  unfold Lox.callChecked
  split
  · exact lockstep.raise _ _
  split
  · cases callee with
    | native function =>
        cases function
        exact lockstep.look fun _ _ _ clock => ValueOver.number clock
    | function identity closure => exact lockstep.invoke executes closure arguments
    | ofClass type => exact lockstep.construct executes type arguments
    | _ => exact lockstep.raise _ _
  · exact lockstep.raise _ _

theorem findMethod (c : Class) (i : Instance) (name : Token) :
    R (match c.findMethod? name.lexeme with
        | some method => Lox.methodValue method i
        | none => Run.raise (.undefinedProperty name.lexeme) name)
      (match c.findMethod? name.lexeme with
        | some method => Lox.methodValue method i
        | none => Run.raise (.undefinedProperty name.lexeme) name) := by
  cases c.findMethod? name.lexeme with
  | some method => exact lockstep.methodValue method i
  | none => exact lockstep.raise _ _

theorem getProperty (i : Instance) (name : Token) : R (Lox.getProperty i name) (Lox.getProperty i name) := by
  have rest (found : Option Value) : R
      (match found with
        | some value => Pure.pure value
        | none =>
          match i.type.findMethod? name.lexeme with
          | some method => Lox.methodValue method i
          | none => Run.raise (.undefinedProperty name.lexeme) name)
      (match found with
        | some value => Pure.pure value
        | none =>
          match i.type.findMethod? name.lexeme with
          | some method => Lox.methodValue method i
          | none => Run.raise (.undefinedProperty name.lexeme) name) := by
    cases found with
    | some value => exact lockstep.pure value
    | none => exact lockstep.findMethod i.type i name
  exact lockstep.looking (fun store _ _ _ => store.field? i name.lexeme) rest

theorem getInherited (keyword : Reference) (method : Token) :
    R (Lox.getInherited keyword method) (Lox.getInherited keyword method) := by
  rw [getInherited_eq]
  apply lockstep.bind (lockstep.look _)
  intro found
  cases found with
  | none => exact lockstep.stop _
  | some pair => exact lockstep.findMethod pair.1 pair.2 method

/-! ## Declarations -/

theorem declareFunction (declaration : FunctionDecl) :
    R (Lox.declareFunction declaration) (Lox.declareFunction declaration) := by
  apply lockstep.bind lockstep.current
  intro frame
  apply lockstep.bind lockstep.newIdentity
  intro identity
  exact lockstep.define frame _ _

theorem lookUpSuperclass (r : Reference) : R (Lox.lookUpSuperclass r) (Lox.lookUpSuperclass r) := by
  apply lockstep.bind (lockstep.lookUp r)
  intro value
  cases value with
  | ofClass parent => exact lockstep.pure parent
  | _ => exact lockstep.raise _ _

theorem declareClass (name : Token) (superclass : Option Reference) (methods : List FunctionDecl) :
    R (Lox.declareClass name superclass methods) (Lox.declareClass name superclass methods) := by
  apply lockstep.bind lockstep.current
  intro frame
  have makes (pair : Option Class × FrameId) : R
      (do
        let identity ← Run.newIdentity
        Run.define frame name.lexeme (.ofClass ⟨identity, name.lexeme, pair.1, methodTable pair.2 methods⟩))
      (do
        let identity ← Run.newIdentity
        Run.define frame name.lexeme (.ofClass ⟨identity, name.lexeme, pair.1, methodTable pair.2 methods⟩)) := by
    apply lockstep.bind lockstep.newIdentity
    intro identity
    exact lockstep.define frame _ _
  cases superclass with
  | none => exact lockstep.bind (lockstep.pure (none, frame)) makes
  | some reference =>
      apply lockstep.bind (lockstep.lookUpSuperclass reference)
      intro parent
      apply lockstep.bind (lockstep.newFrame frame)
      intro home
      apply lockstep.bind (lockstep.define home "super" _)
      intro _
      exact lockstep.bind (lockstep.pure (some parent, home)) makes

/-! ## Meanings from the meanings of parts -/

theorem evaluateWith (evaluates : ∀ e, R (evaluate e) (evaluate' e)) (executes : ∀ a, R (execute a) (execute' a))
    (e : Expr) : R (Lox.evaluateWith evaluate execute e) (Lox.evaluateWith evaluate' execute' e) := by
  cases e with
  | literal constant => exact lockstep.pure _
  | grouping inner => exact evaluates inner
  | unary operator right =>
      apply lockstep.bind (evaluates right)
      intro value
      exact lockstep.lift _
  | binary left operator right =>
      apply lockstep.bind (evaluates left)
      intro a
      apply lockstep.bind (evaluates right)
      intro b
      exact lockstep.lift _
  | logical left operator right =>
      apply lockstep.bind (evaluates left)
      intro a
      split
      · exact lockstep.pure a
      · exact evaluates right
  | read name => exact lockstep.lookUp name
  | assign name value =>
      apply lockstep.bind (evaluates value)
      intro result
      apply lockstep.bind (lockstep.assign name result)
      intro _
      exact lockstep.pure result
  | call callee paren arguments =>
      apply lockstep.bind (evaluates callee)
      intro target
      apply lockstep.bind (lockstep.evaluateAll evaluates arguments)
      intro values
      exact lockstep.callChecked executes target paren values
  | get object name =>
      apply lockstep.bind (evaluates object)
      intro target
      cases target with
      | ofInstance i => exact lockstep.getProperty i name
      | _ => exact lockstep.raise _ _
  | set object name value =>
      apply lockstep.bind (evaluates object)
      intro target
      cases target with
      | ofInstance i =>
          apply lockstep.bind (evaluates value)
          intro result
          apply lockstep.bind (lockstep.setField i name.lexeme result)
          intro _
          exact lockstep.pure result
      | _ => exact lockstep.raise _ _
  | self keyword => exact lockstep.lookUp keyword
  | inherited keyword method => exact lockstep.getInherited keyword method

/-- Loops are related if running out of fuel on the left is related to going on on the right. -/
theorem executeWith (evaluates : ∀ e, R (evaluate e) (evaluate' e)) (executes : ∀ a, R (execute a) (execute' a))
    (rounds more : Nat)
    (starved : ∀ condition body, R starve (Lox.repeatWhile (evaluate' condition) (execute' body) more)) (a : Stmt) :
    R (Lox.executeWith rounds evaluate execute a) (Lox.executeWith (rounds + more) evaluate' execute' a) := by
  cases a with
  | expression value =>
      apply lockstep.bind (evaluates value)
      intro _
      exact lockstep.pure _
  | print value =>
      apply lockstep.bind (evaluates value)
      intro result
      apply lockstep.bind (lockstep.emit _)
      intro _
      exact lockstep.pure _
  | varDecl name initializer =>
      have defines (value : Value) : R
          (do
            Run.define (← Run.current) name.lexeme value
            Pure.pure (FlowOver.normal : Flow))
          (do
            Run.define (← Run.current) name.lexeme value
            Pure.pure (FlowOver.normal : Flow)) := by
        apply lockstep.bind lockstep.current
        intro frame
        apply lockstep.bind (lockstep.define frame name.lexeme value)
        intro _
        exact lockstep.pure _
      cases initializer with
      | none => exact lockstep.bind (lockstep.pure _) defines
      | some expression => exact lockstep.bind (evaluates expression) defines
  | block body =>
      apply lockstep.bind lockstep.current
      intro frame
      exact lockstep.executeBlock executes frame body
  | ifElse condition thenBranch elseBranch =>
      apply lockstep.bind (evaluates condition)
      intro value
      split
      · exact executes thenBranch
      · cases elseBranch with
        | none => exact lockstep.pure _
        | some other => exact executes other
  | whileLoop condition body =>
      exact lockstep.repeatWhile (evaluates condition) (executes body) rounds more (starved condition body)
  | funDecl declaration =>
      apply lockstep.bind (lockstep.declareFunction declaration)
      intro _
      exact lockstep.pure _
  | returnStmt keyword value =>
      cases value with
      | none => exact lockstep.pure _
      | some expression =>
          apply lockstep.bind (evaluates expression)
          intro _
          exact lockstep.pure _
  | classDecl name superclass methods =>
      apply lockstep.bind (lockstep.declareClass name superclass methods)
      intro _
      exact lockstep.pure _

end Parts

/-! ## Whole runs -/

/-- Watched runs are related if the watches make no difference to the relation. -/
theorem under {watch watch' : Watch} (notices : ∀ {α : Type} (site : Site) {x y : Run α}, R x y →
      R (supervised watch site x) (supervised watch' site y)) (fuel : Nat) :
    (∀ e, R (evaluateUnder watch fuel e) (evaluateUnder watch' fuel e)) ∧
      ∀ a, R (executeUnder watch fuel a) (executeUnder watch' fuel a) := by
  induction fuel with
  | zero => exact ⟨fun _ => lockstep.stop .outOfFuel, fun _ => lockstep.stop .outOfFuel⟩
  | succ fuel ih =>
      obtain ⟨evaluates, executes⟩ := ih
      constructor
      · intro e
        exact notices (.expr e) (lockstep.evaluateWith evaluates executes e)
      · intro a
        apply notices (.stmt a)
        exact lockstep.executeWith evaluates executes fuel 0 (fun _ _ => lockstep.stop .outOfFuel) a

end Lockstep

end Lox
