import Lox.Evaluation
import Lox.Proofs.Sequence

/-!
# From one machine to the next

What a run does to a machine is made of a few basic actions. A relation between the machine before
and the machine afterwards that each of them respects (`Passage`) is respected by every evaluation
and execution, whether it comes to a value, returns, or stops early (`Passage.evaluate`,
`Passage.execute`).
-/

namespace Lox
open Run

/-- The machine that an action leaves behind, however it ends. -/
def leaves {α : Type} (action : Run α) (m : Machine) : Machine :=
  match action m with
  | .ok _ after | .error _ after => after

theorem leaves_emit (text : String) (m : Machine) :
    leaves (Run.emit text) m = { m with sink := (m.sink.write text).2 } := by
  unfold leaves Run.emit
  obtain ⟨failed, sink⟩ := m.sink.write text
  cases failed <;> rfl

theorem leaves_bind {α β : Type} {x : Run α} {f : α → Run β} {a : α} {m after : Machine} (ended : x m = .ok a after) :
    leaves (x >>= f) m = leaves (f a) after := by
  rw [leaves, bind_of ended, leaves]

section Within

variable {α : Type} {frame : FrameId} {x y : Run α} {m after : Machine}

theorem within_of {a : α} (ended : x { m with current := frame } = .ok a after) :
    Run.within frame x m = .ok a { after with current := m.current } := by
  rw [Run.within, ended]

theorem within_of_error {stop : Stop} (ended : x { m with current := frame } = .error stop after) :
    Run.within frame x m = .error stop { after with current := m.current } := by
  rw [Run.within, ended]

theorem within_of_eq (same : x { m with current := frame } = y { m with current := frame }) :
    Run.within frame x m = Run.within frame y m := by
  rw [Run.within, Run.within, same]

theorem leaves_within (frame : FrameId) (x : Run α) (m : Machine) :
    leaves (Run.within frame x) m = { leaves x { m with current := frame } with current := m.current } := by
  unfold leaves Run.within
  cases x { m with current := frame } <;> rfl

end Within

/-- A relation between two machines, one before and one after something happened. -/
structure Passage (R : Machine → Machine → Prop) : Prop where
  refl (m : Machine) : R m m
  trans {m₁ m₂ m₃ : Machine} : R m₁ m₂ → R m₂ m₃ → R m₁ m₃
  newFrame (enclosing : FrameId) (m : Machine) : R m (leaves (newFrame enclosing) m)
  define (frame : FrameId) (name : String) (value : Value) (m : Machine) :
    R m (leaves (define frame name value) m)
  newIdentity (m : Machine) : R m (leaves newIdentity m)
  newInstance (type : Class) (m : Machine) : R m (leaves (newInstance type) m)
  setField (i : Instance) (name : String) (value : Value) (m : Machine) :
    R m (leaves (setField i name value) m)
  emit (text : String) (m : Machine) : R m (leaves (emit text) m)
  within {frame : FrameId} {m after : Machine} :
    R { m with current := frame } after → R m { after with current := m.current }

def Respects {α : Type} (R : Machine → Machine → Prop) (action : Run α) : Prop :=
  ∀ m, R m (leaves action m)

section Respects

variable {α : Type} {R : Machine → Machine → Prop} {action : Run α} {m after : Machine}
  (respects : Respects R action)

include respects

theorem Respects.of_ok {a : α} (ended : action m = .ok a after) : R m after := by
  have here := respects m
  rwa [leaves, ended] at here

theorem Respects.of_error {stop : Stop} (ended : action m = .error stop after) : R m after := by
  have here := respects m
  rwa [leaves, ended] at here

end Respects

theorem assign_cases (r : Reference) (value : Value) (m : Machine) :
    assign r value m = raise (.undefinedVariable r.name) r.token m ∨
      ∃ frame, assign r value m = define frame r.name value m := by
  unfold assign
  simp only
  split
  · exact .inr ⟨_, rfl⟩
  · exact .inl rfl

namespace Passage

variable {R : Machine → Machine → Prop} (passage : Passage R) {α β : Type}

include passage

/-! ## Basic actions and sequences -/

theorem unchanged {action : Run α} (same : ∀ m, leaves action m = m) : Respects R action :=
  fun m => (same m).symm ▸ passage.refl m

theorem pure (a : α) : Respects R (Pure.pure a : Run α) := passage.unchanged fun _ => rfl

theorem get : Respects R (MonadState.get : Run Machine) := passage.unchanged fun _ => rfl

theorem current : Respects R Run.current := passage.unchanged fun _ => rfl

theorem raise (cause : RuntimeError.Cause) (token : Token) : Respects R (Run.raise cause token : Run α) :=
  passage.unchanged fun _ => rfl

theorem abort (defect : Defect) : Respects R (Run.abort defect : Run α) := passage.unchanged fun _ => rfl

theorem starve : Respects R (Run.starve : Run α) := passage.unchanged fun _ => rfl

theorem lift (result : Except RuntimeError α) : Respects R (Run.lift result) :=
  passage.unchanged fun _ => by cases result <;> rfl

theorem after {action : Run α} {rest : α → Run β} (second : ∀ a, Respects R (rest a)) (m : Machine) :
    R (leaves action m) (leaves (action >>= rest) m) := by
  change R _ (leaves (EStateM.bind action rest) m)
  unfold leaves EStateM.bind
  cases action m with
  | ok a after => exact second a after
  | error stop after => exact passage.refl after

theorem bind {action : Run α} {rest : α → Run β} (first : Respects R action)
    (second : ∀ a, Respects R (rest a)) : Respects R (action >>= rest) := by
  intro m
  exact passage.trans (first m) (passage.after second m)

theorem inside {action : Run α} (frame : FrameId) (respects : Respects R action) :
    Respects R (Run.within frame action) := by
  intro m
  rw [leaves_within]
  exact passage.within (respects { m with current := frame })

/-! ## Variables -/

theorem lookUp (r : Reference) : Respects R (Lox.lookUp r) := by
  refine passage.unchanged fun m => ?_
  unfold leaves Lox.lookUp
  simp only
  split <;> rename_i same <;> split at same <;> cases same <;> rfl

theorem assign (r : Reference) (value : Value) : Respects R (Lox.assign r value) := by
  intro m
  unfold leaves
  rcases assign_cases r value m with ends | ⟨frame, ends⟩
  · rw [ends]
    exact passage.refl m
  · rw [ends]
    exact passage.define frame r.name value m

theorem defineAll (frame : FrameId) (names : List Token) :
    ∀ values, Respects R (Run.defineAll frame names values) := by
  induction names with
  | nil => exact fun _ => passage.pure ()
  | cons name names ih =>
      intro values
      cases values with
      | nil => exact passage.pure ()
      | cons value values =>
          exact passage.bind (passage.define frame name.lexeme value) fun _ => ih values

/-! ## Sequences, blocks and loops -/

section Parts

variable {evaluate : Expr → Run Value} {execute : Stmt → Run Flow}

theorem executeAll (executes : ∀ a, Respects R (execute a)) (body : List Stmt) :
    Respects R (Lox.executeAll execute body) := by
  induction body with
  | nil => exact passage.pure _
  | cons first rest ih =>
      refine passage.bind (executes first) fun flow => ?_
      cases flow with
      | normal => exact ih
      | returned value => exact passage.pure _

theorem executeBlock (executes : ∀ a, Respects R (execute a)) (enclosing : FrameId)
    (body : List Stmt) : Respects R (Lox.executeBlock execute enclosing body) :=
  passage.bind (passage.newFrame enclosing) fun frame =>
    passage.inside frame (passage.executeAll executes body)

theorem repeatWhile {condition : Run Value} {body : Run Flow} (tests : Respects R condition)
    (runs : Respects R body) (rounds : Nat) :
    Respects R (Lox.repeatWhile condition body rounds) := by
  induction rounds with
  | zero => exact passage.starve
  | succ rounds ih =>
      refine passage.bind tests fun value => ?_
      split
      · refine passage.bind runs fun flow => ?_
        cases flow with
        | normal => exact ih
        | returned value => exact passage.pure _
      · exact passage.pure _

/-! ## Calls and properties -/

theorem evaluateAll (evaluates : ∀ e, Respects R (evaluate e)) (es : List Expr) :
    Respects R (Lox.evaluateAll evaluate es) := by
  induction es with
  | nil => exact passage.pure _
  | cons first rest ih =>
      exact passage.bind (evaluates first) fun value => passage.bind ih fun values => passage.pure _

theorem invoke (executes : ∀ a, Respects R (execute a)) (closure : Closure) (arguments : List Value) :
    Respects R (Lox.invoke execute closure arguments) := by
  refine passage.bind (passage.newFrame _) fun frame => ?_
  refine passage.bind (passage.defineAll frame _ arguments) fun _ => ?_
  refine passage.bind (passage.inside frame (passage.executeAll executes _)) fun flow => ?_
  split
  · refine passage.bind passage.get fun m => ?_
    split
    · exact passage.pure _
    · exact passage.raise _ _
  · split <;> exact passage.pure _

theorem bindMethod (method : Closure) (i : Instance) : Respects R (Lox.bindMethod method i) :=
  passage.bind (passage.newFrame _) fun frame =>
    passage.bind (passage.define frame "this" _) fun _ => passage.pure _

theorem methodValue (method : Closure) (i : Instance) : Respects R (Lox.methodValue method i) :=
  passage.bind (passage.bindMethod method i) fun _ => passage.bind passage.newIdentity fun _ => passage.pure _

theorem construct (executes : ∀ a, Respects R (execute a)) (type : Class) (arguments : List Value) :
    Respects R (Lox.construct execute type arguments) := by
  refine passage.bind (passage.newInstance type) fun made => ?_
  cases type.initializer? with
  | none => exact passage.pure _
  | some method =>
      exact passage.bind (passage.bindMethod method made) fun bound =>
        passage.bind (passage.invoke executes bound arguments) fun _ => passage.pure _

theorem callChecked (executes : ∀ a, Respects R (execute a)) (callee : Value) (paren : Token)
    (arguments : List Value) : Respects R (Lox.callChecked execute callee paren arguments) := by
  unfold Lox.callChecked
  split
  · exact passage.raise _ _
  split
  · cases callee with
    | native function =>
        cases function
        exact passage.unchanged fun _ => rfl
    | function identity closure => exact passage.invoke executes closure arguments
    | ofClass type => exact passage.construct executes type arguments
    | _ => exact passage.raise _ _
  · exact passage.raise _ _

theorem findMethod (c : Class) (i : Instance) (name : Token) :
    Respects R (match c.findMethod? name.lexeme with
      | some method => Lox.methodValue method i
      | none => Run.raise (.undefinedProperty name.lexeme) name) := by
  split
  · exact passage.methodValue _ i
  · exact passage.raise _ _

theorem getProperty (i : Instance) (name : Token) : Respects R (Lox.getProperty i name) := by
  refine passage.bind passage.get fun m => ?_
  split
  · exact passage.pure _
  · exact passage.findMethod i.type i name

theorem getInherited (keyword : Reference) (method : Token) :
    Respects R (Lox.getInherited keyword method) := by
  refine passage.bind passage.get fun m => ?_
  split
  · exact passage.abort _
  · exact passage.findMethod _ _ method

/-! ## Declarations -/

theorem declareFunction (declaration : FunctionDecl) : Respects R (Lox.declareFunction declaration) :=
  passage.bind passage.current fun frame => passage.bind passage.newIdentity fun _ =>
    passage.define frame _ _

theorem lookUpSuperclass (r : Reference) : Respects R (Lox.lookUpSuperclass r) := by
  refine passage.bind (passage.lookUp r) fun value => ?_
  split
  · exact passage.pure _
  · exact passage.raise _ _

theorem declareClass (name : Token) (superclass : Option Reference) (methods : List FunctionDecl) :
    Respects R (Lox.declareClass name superclass methods) := by
  refine passage.bind passage.current fun frame => ?_
  cases superclass with
  | none =>
      exact passage.bind (passage.pure _) fun _ => passage.bind passage.newIdentity fun _ =>
        passage.define frame _ _
  | some reference =>
      exact passage.bind (passage.lookUpSuperclass reference) fun parent =>
        passage.bind (passage.newFrame frame) fun home =>
          passage.bind (passage.define home "super" _) fun _ => passage.bind (passage.pure _) fun _ =>
            passage.bind passage.newIdentity fun _ => passage.define frame _ _

/-! ## Meanings from the meanings of parts -/

theorem evaluateWith (evaluates : ∀ e, Respects R (evaluate e)) (executes : ∀ a, Respects R (execute a))
    (e : Expr) : Respects R (Lox.evaluateWith evaluate execute e) := by
  cases e with
  | literal constant => exact passage.pure _
  | grouping inner => exact evaluates inner
  | unary operator right => exact passage.bind (evaluates right) fun value => passage.lift _
  | binary left operator right =>
      exact passage.bind (evaluates left) fun a => passage.bind (evaluates right) fun b => passage.lift _
  | logical left operator right =>
      refine passage.bind (evaluates left) fun a => ?_
      split
      · exact passage.pure a
      · exact evaluates right
  | read name => exact passage.lookUp name
  | assign name value =>
      exact passage.bind (evaluates value) fun result =>
        passage.bind (passage.assign name result) fun _ => passage.pure _
  | call callee paren arguments =>
      exact passage.bind (evaluates callee) fun target =>
        passage.bind (passage.evaluateAll evaluates arguments) fun values =>
          passage.callChecked executes target paren values
  | get object name =>
      refine passage.bind (evaluates object) fun target => ?_
      split
      · exact passage.getProperty _ name
      · exact passage.raise _ _
  | set object name value =>
      refine passage.bind (evaluates object) fun target => ?_
      split
      · exact passage.bind (evaluates value) fun result =>
          passage.bind (passage.setField _ name.lexeme result) fun _ => passage.pure _
      · exact passage.raise _ _
  | self keyword => exact passage.lookUp keyword
  | inherited keyword method => exact passage.getInherited keyword method

theorem executeWith (evaluates : ∀ e, Respects R (evaluate e)) (executes : ∀ a, Respects R (execute a))
    (rounds : Nat) (a : Stmt) : Respects R (Lox.executeWith rounds evaluate execute a) := by
  cases a with
  | expression value => exact passage.bind (evaluates value) fun _ => passage.pure _
  | print value =>
      exact passage.bind (evaluates value) fun result =>
        passage.bind (passage.emit _) fun _ => passage.pure _
  | varDecl name initializer =>
      have defines (value : Value) : Respects R (do
          Run.define (← Run.current) name.lexeme value
          Pure.pure (FlowOver.normal : Flow)) :=
        passage.bind passage.current fun frame =>
          passage.bind (passage.define frame name.lexeme value) fun _ => passage.pure _
      cases initializer with
      | none => exact passage.bind (passage.pure _) defines
      | some expression => exact passage.bind (evaluates expression) defines
  | block body =>
      exact passage.bind passage.current fun frame => passage.executeBlock executes frame body
  | ifElse condition thenBranch elseBranch =>
      refine passage.bind (evaluates condition) fun value => ?_
      split
      · exact executes thenBranch
      · cases elseBranch with
        | none => exact passage.pure _
        | some other => exact executes other
  | whileLoop condition body => exact passage.repeatWhile (evaluates condition) (executes body) rounds
  | funDecl declaration => exact passage.bind (passage.declareFunction declaration) fun _ => passage.pure _
  | returnStmt keyword value =>
      cases value with
      | none => exact passage.pure _
      | some expression => exact passage.bind (evaluates expression) fun _ => passage.pure _
  | classDecl name superclass methods =>
      exact passage.bind (passage.declareClass name superclass methods) fun _ => passage.pure _

end Parts

/-! ## Whole runs -/

theorem evaluate_execute (fuel : Nat) :
    (∀ e, Respects R (Lox.evaluate fuel e)) ∧ ∀ a, Respects R (Lox.execute fuel a) := by
  induction fuel with
  | zero =>
      refine ⟨fun e => ?_, fun a => ?_⟩
      · rw [Lox.evaluate]
        exact passage.starve
      · rw [Lox.execute]
        exact passage.starve
  | succ fuel ih =>
      refine ⟨fun e => ?_, fun a => ?_⟩
      · rw [Lox.evaluate, onStack_eq]
        exact passage.evaluateWith ih.1 ih.2 e
      · rw [Lox.execute, onStack_eq]
        exact passage.executeWith ih.1 ih.2 fuel a

theorem evaluate (fuel : Nat) (e : Expr) : Respects R (Lox.evaluate fuel e) :=
  (passage.evaluate_execute fuel).1 e

theorem execute (fuel : Nat) (a : Stmt) : Respects R (Lox.execute fuel a) :=
  (passage.evaluate_execute fuel).2 a

theorem program (fuel : Nat) (body : List Stmt) : Respects R (Lox.executeAll (Lox.execute fuel) body) :=
  passage.executeAll (passage.execute fuel) body

end Passage

theorem keeps_distances : Passage fun m after => after.distances = m.distances where
  refl _ := rfl
  trans first second := second.trans first
  newFrame _ _ := rfl
  define _ _ _ _ := rfl
  newIdentity _ := rfl
  newInstance _ _ := rfl
  setField _ _ _ _ := rfl
  emit text m := by rw [leaves_emit]
  within := id

end Lox
