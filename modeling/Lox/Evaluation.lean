import Lox.Machine

/-!
# Evaluation

The meaning of an expression or a statement is an action. `evaluateWith` and `executeWith` give it
in terms of the meanings of the parts; they do not recur. `evaluate` and `execute` close the circle:
a run with `fuel` levels lets at most that many evaluations nest and each loop go round at most that
many times. A program that ends does so with all large amounts of fuel in the same way; one that
does not end runs out of any amount.

Contents: operators (`applyUnary`, `applyBinary`); variables (`lookUp`, `assign`); calls (`invoke`,
`construct`, `callValue`); properties (`getProperty`, `findInherited`); statements; `evaluate` and
`execute`; `interpret`.
-/

namespace Lox

variable {κ σ : Type}

inductive FlowOver (κ : Type) where
  | normal
  | returned (value : ValueOver κ)

abbrev Flow := FlowOver FrameId

open Run

/-! ## Operators -/

def applyUnary (operator : Token) (right : ValueOver κ) : Except RuntimeError (ValueOver κ) :=
  match operator.kind with
  | .symbol .minus =>
    match right with
    | .number n => .ok (.number (-n))
    | _ => .error ⟨.operandNotNumber, operator.line⟩
  | .symbol .bang => .ok (.boolean !right.isTruthy)
  | _ => .error ⟨.notUnary, operator.line⟩

def onNumbers (operator : Token) (left right : ValueOver κ) (operation : Float → Float → ValueOver κ) :
    Except RuntimeError (ValueOver κ) :=
  match left, right with
  | .number a, .number b => .ok (operation a b)
  | _, _ => .error ⟨.operandsNotNumbers, operator.line⟩

def applyBinary (operator : Token) (left right : ValueOver κ) : Except RuntimeError (ValueOver κ) :=
  match operator.kind with
  | .symbol .plus =>
    match left, right with
    | .number a, .number b => .ok (.number (a + b))
    | .string a, .string b => .ok (.string (a ++ b))
    | _, _ => .error ⟨.operandsNotAddable, operator.line⟩
  | .symbol .minus => onNumbers operator left right fun a b => .number (a - b)
  | .symbol .star => onNumbers operator left right fun a b => .number (a * b)
  | .symbol .slash => onNumbers operator left right fun a b => .number (a / b)
  | .symbol .greater => onNumbers operator left right fun a b => .boolean (a > b)
  | .symbol .greaterEqual => onNumbers operator left right fun a b => .boolean (a ≥ b)
  | .symbol .less => onNumbers operator left right fun a b => .boolean (a < b)
  | .symbol .lessEqual => onNumbers operator left right fun a b => .boolean (a ≤ b)
  | .symbol .equalEqual => .ok (.boolean (left.equals right))
  | .symbol .bangEqual => .ok (.boolean !(left.equals right))
  | _ => .error ⟨.notBinary, operator.line⟩

def decidesAlone (operator : Token) (left : ValueOver κ) : Bool :=
  if operator.kind.isSymbol .orWord then left.isTruthy else !left.isTruthy

/-! ## Variables -/

def lookUp (reference : Reference) : Run Value := fun m =>
  let found := match m.distances.find? reference.id with
    | some distance => m.store.getAt? m.current distance reference.name
    | none => m.store.get? Store.globals reference.name
  match found with
  | some value => .ok value m
  | none => raise (.undefinedVariable reference.name) reference.token m

def assign (reference : Reference) (value : Value) : Run Unit := fun m =>
  let target := match m.distances.find? reference.id with
    | some distance => m.store.ancestor? m.current distance
    | none => m.store.binder? reference.name Store.globals
  match target with
  | some frame => define frame reference.name value m
  | none => raise (.undefinedVariable reference.name) reference.token m

/-! ## Statements in sequence -/

def executeAll (execute : Stmt → Run Flow) : List Stmt → Run Flow
  | [] => pure .normal
  | first :: rest => do
    match ← execute first with
    | .normal => executeAll execute rest
    | .returned value => pure (.returned value)

def executeBlock (execute : Stmt → Run Flow) (enclosing : FrameId) (body : List Stmt) : Run Flow := do
  let frame ← newFrame enclosing
  within frame (executeAll execute body)

def repeatWhile (condition : RunOn σ (ValueOver κ)) (body : RunOn σ (FlowOver κ)) : Nat → RunOn σ (FlowOver κ)
  | 0 => starve
  | rounds + 1 => do
    if (← condition).isTruthy then
      match ← body with
      | .normal => repeatWhile condition body rounds
      | .returned value => pure (.returned value)
    else pure .normal

/-! ## Calls -/

def evaluateAll {α : Type} (evaluate : Expr → RunOn σ α) : List Expr → RunOn σ (List α)
  | [] => pure []
  | first :: rest => do
    let value ← evaluate first
    return value :: (← evaluateAll evaluate rest)

/--
Runs the body of a function in a new frame that binds its parameters. An initializer yields the
instance it is bound to, whatever its body returns.
-/
def invoke (execute : Stmt → Run Flow) (closure : Closure) (arguments : List Value) : Run Value := do
  let frame ← newFrame closure.captured
  defineAll frame closure.declaration.params arguments
  let flow ← within frame (executeAll execute closure.declaration.body)
  if closure.isInitializer then
    match (← get).store.read? closure.captured "this" with
    | some made => pure made
    | none => raise .initializerWithoutInstance closure.declaration.name
  else
    match flow with
    | .returned value => pure value
    | .normal => pure .nil

def bindMethod (method : Closure) (i : Instance) : Run Closure := do
  let frame ← newFrame method.captured
  define frame "this" (.ofInstance i)
  pure { method with captured := frame }

def methodValue (method : Closure) (i : Instance) : Run Value := do
  let bound ← bindMethod method i
  return .function (← newIdentity) bound

def construct (execute : Stmt → Run Flow) (type : Class) (arguments : List Value) : Run Value := do
  let made ← newInstance type
  match type.initializer? with
  | some method =>
    let bound ← bindMethod method made
    let _ ← invoke execute bound arguments
    pure (.ofInstance made)
  | none => pure (.ofInstance made)

def callValue (execute : Stmt → Run Flow) (callee : Value) (paren : Token) (arguments : List Value) :
    Run Value :=
  match callee with
  | .native .clock => fun m => .ok (.number m.clock) m
  | .function _ closure => invoke execute closure arguments
  | .ofClass type => construct execute type arguments
  | _ => raise .notCallable paren

def callChecked (execute : Stmt → Run Flow) (callee : Value) (paren : Token) (arguments : List Value) :
    Run Value :=
  match callee.arity? with
  | none => raise .notCallable paren
  | some arity =>
    if arguments.length = arity then callValue execute callee paren arguments
    else raise (.wrongArity arity arguments.length) paren

/-! ## Properties -/

def getProperty (i : Instance) (name : Token) : Run Value := do
  match (← get).store.field? i name.lexeme with
  | some value => pure value
  | none =>
    match i.type.findMethod? name.lexeme with
    | some method => methodValue method i
    | none => raise (.undefinedProperty name.lexeme) name

/--
What `super` means in a frame: the class at its distance, and the instance in the frame just inside
of that one.
-/
def findInherited (m : Machine) (keyword : Reference) : Option (Class × Instance) :=
  match m.distances.find? keyword.id with
  | some (inner + 1) =>
    match m.store.getAt? m.current (inner + 1) "super", m.store.getAt? m.current inner "this" with
    | some (.ofClass parent), some (.ofInstance i) => some (parent, i)
    | _, _ => none
  | _ => none

theorem findInherited_inv {m : Machine} {keyword : Reference} {parent : Class} {i : Instance}
    (found : findInherited m keyword = some (parent, i)) : ∃ inner,
      m.distances.find? keyword.id = some (inner + 1) ∧
      m.store.getAt? m.current (inner + 1) "super" = some (.ofClass parent) ∧
      m.store.getAt? m.current inner "this" = some (.ofInstance i) := by
  unfold findInherited at found
  split at found
  · rename_i inner entry
    split at found
    · rename_i parentBound instanceBound
      cases found
      exact ⟨inner, entry, parentBound, instanceBound⟩
    · cases found
  · cases found

def getInherited (keyword : Reference) (method : Token) : Run Value := do
  match findInherited (← get) keyword with
  | none => abort (.unresolvedSuper keyword.line)
  | some (parent, i) =>
    match parent.findMethod? method.lexeme with
    | some found => methodValue found i
    | none => raise (.undefinedProperty method.lexeme) method

/-! ## Declarations -/

def declareFunction (declaration : FunctionDecl) : Run Unit := do
  let frame ← current
  let identity ← newIdentity
  define frame declaration.name.lexeme (.function identity ⟨declaration, frame, false⟩)

def lookUpSuperclass (reference : Reference) : Run Class := do
  match ← lookUp reference with
  | .ofClass parent => pure parent
  | _ => raise .superclassNotClass reference.token

/-- The methods of a class by name; of two with one name the later one counts. -/
def methodTable (captured : κ) (methods : List FunctionDecl) : Bindings String (ClosureOver κ) :=
  methods.foldl (fun table method => table.insert method.name.lexeme ⟨method, captured, method.isInitializer⟩) .empty

theorem find?_methodTable (captured : κ) (methods : List FunctionDecl) (name : String) :
    (methodTable captured methods).find? name =
      (methods.reverse.find? fun method => method.name.lexeme = name).map fun method =>
        ⟨method, captured, method.isInitializer⟩ := by
  have from_table (table : Bindings String (ClosureOver κ)) :
      (methods.foldl (fun table method =>
        table.insert method.name.lexeme ⟨method, captured, method.isInitializer⟩) table).find? name =
      ((methods.reverse.find? fun method => method.name.lexeme = name).map fun method =>
        ⟨method, captured, method.isInitializer⟩).or (table.find? name) := by
    induction methods generalizing table with
    | nil => rfl
    | cons first rest ih =>
        rw [List.foldl_cons, ih, List.reverse_cons, List.find?_append]
        by_cases same : first.name.lexeme = name
        · subst same
          cases rest.reverse.find? _ <;> simp
        · rw [Bindings.find?_insert_of_ne _ _ (Ne.symm same)]
          simp [same]
  exact (from_table .empty).trans (Option.or_none)

/-- The methods of a new class are those declared in it and those of its superclass. -/
theorem findMethod?_made {captured : κ} {identity : Nat} {name key : String} {parent : Option (ClassOver κ)}
    {methods : List FunctionDecl} {method : ClosureOver κ}
    (found : ClassOver.findMethod? key ⟨identity, name, parent, methodTable captured methods⟩ = some method) :
    (∃ d ∈ methods, ⟨d, captured, d.isInitializer⟩ = method) ∨ ∃ c ∈ parent, c.findMethod? key = some method := by
  unfold ClassOver.findMethod? at found
  split at found
  · rename_i own here
    cases found
    rw [find?_methodTable, Option.map_eq_some_iff] at here
    obtain ⟨d, declared, same⟩ := here
    exact .inl ⟨d, List.mem_reverse.mp (List.mem_of_find?_eq_some declared), same⟩
  · split at found
    · exact .inr ⟨_, rfl, found⟩
    · cases found

/--
Makes a class and binds its name. Methods of a class with a superclass close over a frame that binds
`super`.
-/
def declareClass (name : Token) (superclass : Option Reference) (methods : List FunctionDecl) : Run Unit := do
  let frame ← current
  let (parent, home) ← match superclass with
    | none => pure (none, frame)
    | some reference => do
      let parent ← lookUpSuperclass reference
      let home ← newFrame frame
      define home "super" (.ofClass parent)
      pure (some parent, home)
  let identity ← newIdentity
  define frame name.lexeme (.ofClass ⟨identity, name.lexeme, parent, methodTable home methods⟩)

/-! ## Meanings from the meanings of parts -/

def evaluateWith (evaluate : Expr → Run Value) (execute : Stmt → Run Flow) : Expr → Run Value
  | .literal constant => pure constant.value
  | .grouping inner => evaluate inner
  | .unary operator right => do
    lift (applyUnary operator (← evaluate right))
  | .binary left operator right => do
    let a ← evaluate left
    let b ← evaluate right
    lift (applyBinary operator a b)
  | .logical left operator right => do
    let a ← evaluate left
    if decidesAlone operator a then pure a else evaluate right
  | .read name => lookUp name
  | .assign name value => do
    let result ← evaluate value
    assign name result
    pure result
  | .call callee paren arguments => do
    let target ← evaluate callee
    let values ← evaluateAll evaluate arguments
    callChecked execute target paren values
  | .get object name => do
    match ← evaluate object with
    | .ofInstance i => getProperty i name
    | _ => raise .noProperties name
  | .set object name value => do
    match ← evaluate object with
    | .ofInstance i =>
      let result ← evaluate value
      setField i name.lexeme result
      pure result
    | _ => raise .noFields name
  | .self keyword => lookUp keyword
  | .inherited keyword method => getInherited keyword method

def executeWith (rounds : Nat) (evaluate : Expr → Run Value) (execute : Stmt → Run Flow) : Stmt → Run Flow
  | .expression value => do
    let _ ← evaluate value
    pure .normal
  | .print value => do
    emit ((← evaluate value).text ++ "\n")
    pure .normal
  | .varDecl name initializer => do
    let value ← match initializer with
      | some expression => evaluate expression
      | none => pure .nil
    define (← current) name.lexeme value
    pure .normal
  | .block body => do executeBlock execute (← current) body
  | .ifElse condition thenBranch elseBranch => do
    if (← evaluate condition).isTruthy then execute thenBranch
    else
      match elseBranch with
      | some statement => execute statement
      | none => pure .normal
  | .whileLoop condition body => repeatWhile (evaluate condition) (execute body) rounds
  | .funDecl declaration => do
    declareFunction declaration
    pure .normal
  | .returnStmt _ value => do
    match value with
    | some expression => return .returned (← evaluate expression)
    | none => pure (.returned .nil)
  | .classDecl name superclass methods => do
    declareClass name superclass methods
    pure .normal

/-! ## The circle -/

def levelsPerStack : Nat := 1024

/--
Runs an action, from time to time on a stack of its own, so that nested calls are bounded by memory
alone. Waiting for a task gives the value of the task, so this does not show in the result.
-/
def onStack {α : Type} (level : Nat) (action : Run α) : Run α := fun m =>
  if level % levelsPerStack = 0 then (Task.spawn fun _ => action m).get else action m

@[simp] theorem onStack_eq {α : Type} (level : Nat) (action : Run α) : onStack level action = action := by
  funext m
  simp only [onStack, Task.spawn, ite_self]

mutual

def evaluate : Nat → Expr → Run Value
  | 0, _ => starve
  | fuel + 1, expression => onStack fuel (evaluateWith (evaluate fuel) (execute fuel) expression)

def execute : Nat → Stmt → Run Flow
  | 0, _ => starve
  | fuel + 1, statement => onStack fuel (executeWith fuel (evaluate fuel) (execute fuel) statement)

end

def finish (sink : σ → Sink) (result : EStateM.Result Stop σ (FlowOver κ)) : EStateM.Result Stop σ Unit :=
  let flushed (m : σ) (result : EStateM.Result Stop σ Unit) :=
    match (sink m).flush with
    | some error => .error (.output error) m
    | none => result
  match result with
  | .ok .normal m => flushed m (.ok () m)
  | .ok (.returned _) m => flushed m (.error (.defect .escapedReturn) m)
  | .error (.runtime error) m => flushed m (.error (.runtime error) m)
  | .error (.output error) m => flushed m (.error (.output error) m)
  | .error (.defect defect) m => .error (.defect defect) m
  | .error .outOfFuel m => .error .outOfFuel m

/--
Runs the statements of a program with its distances and flushes the sink, also after an error. If
flushing fails, that is how the run ends.
-/
def interpret (fuel : Nat) (program : List Stmt) (distances : Distances) : Run Unit := fun m =>
  finish Machine.sink (executeAll (execute fuel) program { m with distances })

end Lox
