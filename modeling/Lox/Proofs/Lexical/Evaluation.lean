import Lox.Evaluation

/-!
# Evaluation by locations

A second meaning of programs, which looks names up where they are written. A place in a program
knows the local names in force there and the location of the variable that each one means; this map
never changes, and declarations extend it for the statements behind them. A function captures the
map in force at its declaration. A name that is not in the map is global. There are no frames and no
distances.

Contents: `Names`, `Capture`, `Machine`, `Place`; variables (`lookUp`, `assign`, `declare`,
`define`); calls and properties; `evaluate`, `execute` and `interpret`, which spend fuel as the
meaning over frames does.
-/

namespace Lox.Lexical
open Run

abbrev Location := Nat

abbrev Names := Bindings String Location

/--
What a function keeps of its declaration: the names in force, and for a method where its class keeps
`super`.
-/
structure Capture where
  names : Names
  superclass : Option Location

abbrev Closure := ClosureOver Capture

abbrev Class := ClassOver Capture

abbrev Instance := InstanceOver Capture

abbrev Value := ValueOver Capture

abbrev Flow := FlowOver Capture

structure Machine where
  cells : Array (Option Value)
  globals : Bindings String Value
  fields : Array (Bindings String Value)
  identities : Nat
  sink : Sink
  clock : Float

def Machine.initial (sink : Sink) (clock : Float) : Machine :=
  ⟨#[], Bindings.empty.insert Native.clock.name (.native .clock), #[], 0, sink, clock⟩

abbrev Run := RunOn Machine

/--
Where statements stand: the names in force, and those of them that the running scope has declared.
At the top level there is no such scope, and what is declared there is global.
-/
structure Place where
  names : Names
  own : Option (List String)

namespace Place

def topLevel : Place := ⟨.empty, none⟩

def inside (names : Names) : Place := ⟨names, some []⟩

end Place

/-! ## Variables -/

def allocate (value : Option Value) : Run Location := fun m =>
  .ok m.cells.size { m with cells := m.cells.push value }

def store (location : Location) (value : Value) : Run Unit := fun m =>
  .ok () { m with cells := m.cells.setIfInBounds location (some value) }

def Machine.local? (m : Machine) (names : Names) (name : String) : Option Value :=
  match names.find? name with
  | some location => m.cells[location]?.join
  | none => none

def lookUp (names : Names) (reference : Reference) : Run Value := fun m =>
  let found := match names.find? reference.name with
    | some location => m.cells[location]?.join
    | none => m.globals.find? reference.name
  match found with
  | some value => .ok value m
  | none => raise (.undefinedVariable reference.name) reference.token m

def assign (names : Names) (reference : Reference) (value : Value) : Run Unit := fun m =>
  match names.find? reference.name with
  | some location => store location value m
  | none =>
    if m.globals.contains reference.name then
      .ok () { m with globals := m.globals.insert reference.name value }
    else raise (.undefinedVariable reference.name) reference.token m

/-- Makes a location for a name, unless the running scope has declared the name before. -/
def declare (place : Place) (name : String) : Run Place := do
  match place.own with
  | none => pure place
  | some own =>
    if name ∈ own then pure place
    else
      let location ← allocate none
      pure ⟨place.names.insert name location, some (name :: own)⟩

def define (place : Place) (name : String) (value : Value) : Run Unit := fun m =>
  match place.own, place.names.find? name with
  | some _, some location => store location value m
  | _, _ => .ok () { m with globals := m.globals.insert name value }

def declareAll (place : Place) : List Token → List Value → Run Place
  | name :: names, value :: values => do
    let place ← declare place name.lexeme
    define place name.lexeme value
    declareAll place names values
  | _, _ => pure place

/-! ## The rest of the state -/

def newIdentity : Run Nat := fun m => .ok m.identities { m with identities := m.identities + 1 }

def newInstance (type : Class) : Run Instance := fun m =>
  .ok ⟨m.fields.size, type⟩ { m with fields := m.fields.push .empty }

def Machine.field? (m : Machine) (i : Instance) (name : String) : Option Value :=
  match m.fields[i.id]? with
  | some fields => fields.find? name
  | none => none

def setField (i : Instance) (name : String) (value : Value) : Run Unit := fun m =>
  .ok () { m with fields := m.fields.modify i.id fun fields => fields.insert name value }

def emit (text : String) : Run Unit := fun m =>
  match m.sink.write text with
  | (none, sink) => .ok () { m with sink }
  | (some error, sink) => .error (.output error) { m with sink }

/-! ## Calls -/

def executeAll (execute : Place → Stmt → Run (Place × Flow)) (place : Place) : List Stmt → Run Flow
  | [] => pure .normal
  | first :: rest => do
    let (place, flow) ← execute place first
    match flow with
    | .normal => executeAll execute place rest
    | .returned value => pure (.returned value)

def invoke (execute : Place → Stmt → Run (Place × Flow)) (closure : Closure)
    (arguments : List Value) :
    Run Value := do
  let place ← declareAll (.inside closure.captured.names) closure.declaration.params arguments
  let flow ← executeAll execute place closure.declaration.body
  if closure.isInitializer then
    match (← get).local? closure.captured.names "this" with
    | some made => pure made
    | none => raise .initializerWithoutInstance closure.declaration.name
  else
    match flow with
    | .returned value => pure value
    | .normal => pure .nil

def Capture.outer (capture : Capture) : Names :=
  match capture.superclass with
  | some location => capture.names.insert "super" location
  | none => capture.names

def bindMethod (method : Closure) (i : Instance) : Run Closure := do
  let this ← allocate none
  store this (.ofInstance i)
  pure { method with captured := ⟨method.captured.outer.insert "this" this, none⟩ }

def methodValue (method : Closure) (i : Instance) : Run Value := do
  let bound ← bindMethod method i
  return .function (← newIdentity) bound

def construct (execute : Place → Stmt → Run (Place × Flow)) (type : Class)
    (arguments : List Value) :
    Run Value := do
  let made ← newInstance type
  match type.initializer? with
  | some method =>
    let bound ← bindMethod method made
    let _ ← invoke execute bound arguments
    pure (.ofInstance made)
  | none => pure (.ofInstance made)

def callValue (execute : Place → Stmt → Run (Place × Flow)) (callee : Value) (paren : Token)
    (arguments : List Value) : Run Value :=
  match callee with
  | .native .clock => fun m => .ok (.number m.clock) m
  | .function _ closure => invoke execute closure arguments
  | .ofClass type => construct execute type arguments
  | _ => raise .notCallable paren

def callChecked (execute : Place → Stmt → Run (Place × Flow)) (callee : Value) (paren : Token)
    (arguments : List Value) : Run Value :=
  match callee.arity? with
  | none => raise .notCallable paren
  | some arity =>
    if arguments.length = arity then callValue execute callee paren arguments
    else raise (.wrongArity arity arguments.length) paren

/-! ## Properties -/

def getProperty (i : Instance) (name : Token) : Run Value := do
  match (← get).field? i name.lexeme with
  | some value => pure value
  | none =>
    match i.type.findMethod? name.lexeme with
    | some method => methodValue method i
    | none => raise (.undefinedProperty name.lexeme) name

def getInherited (names : Names) (keyword : Reference) (method : Token) : Run Value := do
  let m ← get
  match m.local? names "super", m.local? names "this" with
  | some (.ofClass parent), some (.ofInstance i) =>
    match parent.findMethod? method.lexeme with
    | some found => methodValue found i
    | none => raise (.undefinedProperty method.lexeme) method
  | _, _ => abort (.unresolvedSuper keyword.line)

/-! ## Declarations -/

def declareFunction (place : Place) (declaration : FunctionDecl) : Run Place := do
  let place ← declare place declaration.name.lexeme
  let identity ← newIdentity
  define place declaration.name.lexeme (.function identity ⟨declaration, ⟨place.names, none⟩, false⟩)
  pure place

def lookUpSuperclass (names : Names) (reference : Reference) : Run Class := do
  match ← lookUp names reference with
  | .ofClass parent => pure parent
  | _ => raise .superclassNotClass reference.token

def declareClass (place : Place) (name : Token) (superclass : Option Reference)
    (methods : List FunctionDecl) :
    Run Place := do
  let place ← declare place name.lexeme
  let (parent, location) ← match superclass with
    | none => pure (none, none)
    | some reference => do
      let parent ← lookUpSuperclass place.names reference
      let location ← allocate none
      store location (.ofClass parent)
      pure (some parent, some location)
  let identity ← newIdentity
  define place name.lexeme
    (.ofClass ⟨identity, name.lexeme, parent, methodTable ⟨place.names, location⟩ methods⟩)
  pure place

/-! ## Meanings from the meanings of parts -/

def evaluateWith (evaluate : Names → Expr → Run Value) (execute : Place → Stmt → Run (Place × Flow))
    (names : Names) :
    Expr → Run Value
  | .literal constant => pure constant.value
  | .grouping inner => evaluate names inner
  | .unary operator right => do
    lift (applyUnary operator (← evaluate names right))
  | .binary left operator right => do
    let a ← evaluate names left
    let b ← evaluate names right
    lift (applyBinary operator a b)
  | .logical left operator right => do
    let a ← evaluate names left
    if decidesAlone operator a then pure a else evaluate names right
  | .read name => lookUp names name
  | .assign name value => do
    let result ← evaluate names value
    assign names name result
    pure result
  | .call callee paren arguments => do
    let target ← evaluate names callee
    let values ← evaluateAll (evaluate names) arguments
    callChecked execute target paren values
  | .get object name => do
    match ← evaluate names object with
    | .ofInstance i => getProperty i name
    | _ => raise .noProperties name
  | .set object name value => do
    match ← evaluate names object with
    | .ofInstance i =>
      let result ← evaluate names value
      setField i name.lexeme result
      pure result
    | _ => raise .noFields name
  | .self keyword => lookUp names keyword
  | .inherited keyword method => getInherited names keyword method

def executeWith (rounds : Nat) (evaluate : Names → Expr → Run Value)
    (execute : Place → Stmt → Run (Place × Flow)) (place : Place) : Stmt → Run (Place × Flow)
  | .expression value => do
    let _ ← evaluate place.names value
    pure (place, .normal)
  | .print value => do
    emit ((← evaluate place.names value).text ++ "\n")
    pure (place, .normal)
  | .varDecl name initializer => do
    let place ← declare place name.lexeme
    let value ← match initializer with
      | some expression => evaluate place.names expression
      | none => pure .nil
    define place name.lexeme value
    pure (place, .normal)
  | .block body => do return (place, ← executeAll execute (.inside place.names) body)
  | .ifElse condition thenBranch elseBranch => do
    if (← evaluate place.names condition).isTruthy then
      let (_, flow) ← execute place thenBranch
      pure (place, flow)
    else
      match elseBranch with
      | some statement =>
        let (_, flow) ← execute place statement
        pure (place, flow)
      | none => pure (place, .normal)
  | .whileLoop condition body => do
    let round := do
      let (_, flow) ← execute place body
      pure flow
    return (place, ← repeatWhile (evaluate place.names condition) round rounds)
  | .funDecl declaration => do return (← declareFunction place declaration, .normal)
  | .returnStmt _ value => do
    match value with
    | some expression => return (place, .returned (← evaluate place.names expression))
    | none => pure (place, .returned .nil)
  | .classDecl name superclass methods => do
    return (← declareClass place name superclass methods, .normal)

/-! ## The circle -/

mutual

def evaluate : Nat → Names → Expr → Run Value
  | 0, _, _ => starve
  | fuel + 1, names, expression => evaluateWith (evaluate fuel) (execute fuel) names expression

def execute : Nat → Place → Stmt → Run (Place × Flow)
  | 0, _, _ => starve
  | fuel + 1, place, statement => executeWith fuel (evaluate fuel) (execute fuel) place statement

end

def interpret (fuel : Nat) (program : List Stmt) : Run Unit := fun m =>
  finish Machine.sink (executeAll (execute fuel) .topLevel program m)

end Lox.Lexical
