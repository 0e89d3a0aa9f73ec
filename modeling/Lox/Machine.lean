import Lox.RuntimeError
import Lox.Scope
import Lox.Sink
import Lox.Store

/-!
# The state of a running program

A machine holds the store, the frame of the scope that is running, the distances of the program, and
the sink that takes its output. `Run`s read and change it, and may stop.

Contents: `Machine`; `Stop`, the ways in which a run ends early; `RunOn`, `Run` and the basic
actions.
-/

namespace Lox

structure Machine where
  store : Store
  current : FrameId
  distances : Distances
  sink : Sink
  clock : Float

namespace Machine

def initial (sink : Sink) (clock : Float) : Machine :=
  ⟨.initial, Store.globals, .empty, sink, clock⟩

end Machine

/-- What a program can only run into if its scopes were not checked. -/
inductive Defect where
  | unresolvedSuper (line : Nat)
  | escapedReturn
  deriving DecidableEq, Repr

def Defect.message : Defect → String
  | unresolvedSuper line =>
    "internal error: entered unreachable code: 'super' at line " ++ toString line ++ " was not resolved to a method"
  | escapedReturn => "internal error: entered unreachable code: 'return' escaped past the outermost call"

/-- Why a run ends early. Running out of fuel is not an answer: with more fuel the run goes on. -/
inductive Stop where
  | runtime (error : RuntimeError)
  | output (error : OutputError)
  | defect (defect : Defect)
  | outOfFuel
  deriving DecidableEq, Repr

abbrev RunOn (σ : Type) := EStateM Stop σ

abbrev Run := RunOn Machine

namespace Run

def raise {σ α : Type} (cause : RuntimeError.Cause) (token : Token) : RunOn σ α :=
  fun m => .error (.runtime ⟨cause, token.line⟩) m

def abort {σ α : Type} (defect : Defect) : RunOn σ α := fun m => .error (.defect defect) m

def starve {σ α : Type} : RunOn σ α := fun m => .error .outOfFuel m

def lift {σ α : Type} (result : Except RuntimeError α) : RunOn σ α := fun m =>
  match result with
  | .ok value => .ok value m
  | .error error => .error (.runtime error) m

def current : Run FrameId := fun m => .ok m.current m

def newFrame (enclosing : FrameId) : Run FrameId := fun m =>
  let (frame, store) := m.store.newFrame (some enclosing)
  .ok frame { m with store }

def define (frame : FrameId) (name : String) (value : Value) : Run Unit := fun m =>
  .ok () { m with store := m.store.define frame name value }

def defineAll (frame : FrameId) : List Token → List Value → Run Unit
  | name :: names, value :: values => do
    define frame name.lexeme value
    defineAll frame names values
  | _, _ => pure ()

/--
Runs an action in another frame. The running scope is the same afterwards, however the action ends.
-/
def within {α : Type} (frame : FrameId) (action : Run α) : Run α := fun m =>
  match action { m with current := frame } with
  | .ok value after => .ok value { after with current := m.current }
  | .error stop after => .error stop { after with current := m.current }

def newIdentity : Run Nat := fun m =>
  let (identity, store) := m.store.newIdentity
  .ok identity { m with store }

def newInstance (type : Class) : Run Instance := fun m =>
  let (made, store) := m.store.newInstance type
  .ok made { m with store }

def setField (i : Instance) (name : String) (value : Value) : Run Unit := fun m =>
  .ok () { m with store := m.store.setField i name value }

def emit (text : String) : Run Unit := fun m =>
  match m.sink.write text with
  | (none, sink) => .ok () { m with sink }
  | (some error, sink) => .error (.output error) { m with sink }

end Run

end Lox
