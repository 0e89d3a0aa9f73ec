import Lox.Proofs.Passage
import Lox.Proofs.Sequence
import Lox.Proofs.Store

/-!
# How bodies are started

A run with the way to run the body of a function as a parameter. With the way of the interpreter it is the
run of the program (`Invoker.plain_eq`). With `Invoker.checking` the run looks, each time a body is about to
start, whether the frame that is running binds just the parameters (`StartsBody`), and stops where it does
not. A frame that gets its arguments one by one ends up so if there is one for each parameter
(`startsBody_of_fills`).
-/

namespace Lox
open Run

/-- A way to run the body of a function: how its statements are executed, the function, and the arguments. -/
abbrev Invoker := (Stmt → Run Flow) → Closure → List Value → Run Value

namespace Invoker

variable (invoker : Invoker)

/-! ## Meanings from the meanings of parts -/

def construct (execute : Stmt → Run Flow) (type : Class) (arguments : List Value) : Run Value := do
  let made ← newInstance type
  match type.initializer? with
  | some method =>
    let bound ← bindMethod method made
    let _ ← invoker execute bound arguments
    pure (.ofInstance made)
  | none => pure (.ofInstance made)

def callValue (execute : Stmt → Run Flow) (callee : Value) (paren : Token) (arguments : List Value) :
    Run Value :=
  match callee with
  | .function _ closure => invoker execute closure arguments
  | .ofClass type => invoker.construct execute type arguments
  | other => Lox.callValue execute other paren arguments

def callChecked (execute : Stmt → Run Flow) (callee : Value) (paren : Token) (arguments : List Value) :
    Run Value :=
  match callee.arity? with
  | none => raise .notCallable paren
  | some arity =>
    if arguments.length = arity then invoker.callValue execute callee paren arguments
    else raise (.wrongArity arity arguments.length) paren

def evaluateWith (evaluate : Expr → Run Value) (execute : Stmt → Run Flow) : Expr → Run Value
  | .call callee paren arguments => do
    let target ← evaluate callee
    let values ← evaluateAll evaluate arguments
    invoker.callChecked execute target paren values
  | e => Lox.evaluateWith evaluate execute e

/-! ## The circle -/

mutual

def evaluate (invoker : Invoker) : Nat → Expr → Run Value
  | 0, _ => starve
  | fuel + 1, expression => invoker.evaluateWith (invoker.evaluate fuel) (invoker.execute fuel) expression

def execute (invoker : Invoker) : Nat → Stmt → Run Flow
  | 0, _ => starve
  | fuel + 1, statement => executeWith fuel (invoker.evaluate fuel) (invoker.execute fuel) statement

end

def interpret (fuel : Nat) (program : List Stmt) (distances : Distances) : Run Unit := fun m =>
  finish Machine.sink (executeAll (invoker.execute fuel) program { m with distances })

/-! ## The interpreter's own way -/

def plain : Invoker := invoke

theorem callValue_plain (execute : Stmt → Run Flow) (callee : Value) (paren : Token) (arguments : List Value) :
    plain.callValue execute callee paren arguments = Lox.callValue execute callee paren arguments := by
  cases callee <;> rfl

theorem evaluateWith_plain (evaluate : Expr → Run Value) (execute : Stmt → Run Flow) (e : Expr) :
    plain.evaluateWith evaluate execute e = Lox.evaluateWith evaluate execute e := by
  cases e with
  | call callee paren arguments =>
      simp only [evaluateWith, callChecked, callValue_plain]
      rfl
  | _ => rfl

theorem plain_eq (fuel : Nat) :
    plain.evaluate fuel = Lox.evaluate fuel ∧ plain.execute fuel = Lox.execute fuel := by
  induction fuel with
  | zero =>
      exact ⟨funext fun e => by rw [evaluate, Lox.evaluate], funext fun a => by rw [execute, Lox.execute]⟩
  | succ fuel ih =>
      refine ⟨funext fun e => ?_, funext fun a => ?_⟩
      · rw [evaluate, Lox.evaluate, onStack_eq, ih.1, ih.2, evaluateWith_plain]
      · rw [execute, Lox.execute, onStack_eq, ih.1, ih.2]

end Invoker

/-! ## Frames of parameters -/

/-- The parameter is at this place, and no later one has its name. -/
def LastOfName (params : List Token) (i : Nat) (p : Token) : Prop :=
  params[i]? = some p ∧ ∀ (j : Nat) (q : Token), i < j → params[j]? = some q → q.lexeme ≠ p.lexeme

/-- Each name of a parameter is bound to the argument of the last parameter of that name, and no other name is. -/
structure BindsParameters (s : Store) (frame : FrameId) (params : List Token) (arguments : List Value) : Prop where
  bound : ∀ i p, LastOfName params i p → s.read? frame p.lexeme = arguments[i]?
  only : ∀ name, (∀ p ∈ params, p.lexeme ≠ name) → s.read? frame name = none

/--
The machine at the start of the body of a function: what there was before is as it was, and a new frame in
that of the function is running, in which each parameter has an argument and nothing else is bound.
-/
structure StartsBody (before : Store) (closure : Closure) (arguments : List Value) (m : Machine) : Prop where
  count : arguments.length = closure.declaration.params.length
  fresh : m.current = before.frames.size
  size : m.store.frames.size = before.frames.size + 1
  parent : m.store.enclosing? m.current = some closure.captured
  binds : BindsParameters m.store m.current closure.declaration.params arguments
  frames : ∀ frame < before.frames.size, m.store.frames[frame]? = before.frames[frame]?
  fields : m.store.fields = before.fields
  identities : m.store.identities = before.identities

open Classical in
/-- Stops in the given way unless the machine is as it should be. -/
noncomputable def insist (holds : Machine → Prop) (broken : Stop) : Run Unit := fun m =>
  if holds m then .ok () m else .error broken m

/-- Runs a body as the interpreter does, but stops in the given way if the body does not start as it should. -/
noncomputable def Invoker.checking (broken : Stop) : Invoker := fun execute closure arguments => do
  let before ← get
  let frame ← newFrame closure.captured
  defineAll frame closure.declaration.params arguments
  let flow ← within frame (do
    insist (StartsBody before.store closure arguments) broken
    executeAll execute closure.declaration.body)
  if closure.isInitializer then
    match (← get).store.read? closure.captured "this" with
    | some made => pure made
    | none => raise .initializerWithoutInstance closure.declaration.name
  else
    match flow with
    | .returned value => pure value
    | .normal => pure .nil

/-! ## Binding parameters -/

section Parameters

variable {s s' : Store} {frame : FrameId} {params : List Token} {arguments : List Value} {m : Machine}

/-- What binding parameters in a frame does to a store. -/
structure Fills (frame : FrameId) (params : List Token) (arguments : List Value) (s s' : Store) : Prop where
  size : s'.frames.size = s.frames.size
  enclosing : ∀ other, s'.enclosing? other = s.enclosing? other
  frames : ∀ other, other ≠ frame → s'.frames[other]? = s.frames[other]?
  fields : s'.fields = s.fields
  identities : s'.identities = s.identities
  bound : ∀ i p, LastOfName params i p → s'.read? frame p.lexeme = arguments[i]?
  only : ∀ name, (∀ p ∈ params, p.lexeme ≠ name) → s'.read? frame name = s.read? frame name

theorem Fills.nil : Fills frame [] arguments s s :=
  ⟨rfl, fun _ => rfl, fun _ _ => rfl, rfl, rfl, fun _ _ last => by simp [LastOfName] at last,
    fun _ _ => rfl⟩

theorem Fills.cons {param : Token} {value : Value} (inside : frame < s.frames.size)
    (fills : Fills frame params arguments (s.define frame param.lexeme value) s') :
    Fills frame (param :: params) (value :: arguments) s s' where
  size := fills.size.trans Store.size_define
  enclosing other := (fills.enclosing other).trans Store.enclosing?_define
  frames other away := (fills.frames other away).trans (Store.getElem?_define.trans (if_neg (Ne.symm away)))
  fields := fills.fields
  identities := fills.identities
  bound i p := by
    rintro ⟨here, last⟩
    cases i with
    | zero =>
        cases here
        have unnamed : ∀ q ∈ params, q.lexeme ≠ param.lexeme := by
          intro q mem
          obtain ⟨j, here⟩ := List.getElem?_of_mem mem
          exact last (j + 1) q (Nat.zero_lt_succ j) here
        exact (fills.only _ unnamed).trans (Store.read?_define_self inside)
    | succ i => exact fills.bound i p ⟨here, fun j q later => last (j + 1) q (Nat.succ_lt_succ later)⟩
  only name unnamed := by
    rw [List.forall_mem_cons] at unnamed
    rw [fills.only name unnamed.2, Store.read?_define_of_ne fun same => unnamed.1 same.2.symm]

theorem defineAll_fills (inside : frame < m.store.frames.size) (count : arguments.length = params.length) :
    ∃ s, defineAll frame params arguments m = .ok () { m with store := s } ∧
      Fills frame params arguments m.store s := by
  induction params generalizing arguments m with
  | nil => exact ⟨m.store, rfl, .nil⟩
  | cons param params ih =>
      obtain ⟨value, arguments, rfl⟩ := List.exists_cons_of_length_eq_add_one count
      have inside' : frame < (m.store.define frame param.lexeme value).frames.size := by
        rwa [Store.size_define]
      obtain ⟨s, defined, fills⟩ :=
        ih (m := { m with store := m.store.define frame param.lexeme value }) inside' (Nat.succ.inj count)
      exact ⟨s, defined, .cons inside fills⟩

theorem startsBody_of_fills {closure : Closure} (count : arguments.length = closure.declaration.params.length)
    (captured : closure.captured < s.frames.size) (distances : Distances) (sink : Sink) (clock : Float)
    (fills : Fills s.frames.size closure.declaration.params arguments (s.newFrame (some closure.captured)).2 s') :
    StartsBody s closure arguments ⟨s', s.frames.size, distances, sink, clock⟩ where
  count := count
  fresh := rfl
  size := fills.size.trans (Array.size_push _)
  parent := (fills.enclosing _).trans (Store.enclosing?_newFrame_self captured)
  binds := by
    refine ⟨fills.bound, fun name unnamed => ?_⟩
    exact (fills.only name unnamed).trans ((Store.read?_newFrame _).trans (Store.read?_of_le Nat.le.refl))
  frames other older := (fills.frames other (Nat.ne_of_lt older)).trans
    (Array.getElem?_push.trans (if_neg (Nat.ne_of_lt older)))
  fields := fills.fields
  identities := fills.identities

theorem insist_passed {holds : Machine → Prop} {broken : Stop} (passed : holds m) :
    insist holds broken m = .ok () m :=
  if_pos passed

/-- With an argument for each parameter, and with the frame of the function there, no check is in the way. -/
theorem checking_eq (broken : Stop) (execute : Stmt → Run Flow) {closure : Closure}
    (count : arguments.length = closure.declaration.params.length)
    (captured : closure.captured < m.store.frames.size) :
    Invoker.checking broken execute closure arguments m = invoke execute closure arguments m := by
  let made : Machine := { m with store := (m.store.newFrame (some closure.captured)).2 }
  have inside : m.store.frames.size < made.store.frames.size := by simp [made, Store.newFrame]
  obtain ⟨s, defined, fills⟩ := defineAll_fills inside count
  have starts := startsBody_of_fills count captured m.distances m.sink m.clock fills
  have body : within m.store.frames.size (do
        insist (StartsBody m.store closure arguments) broken
        executeAll execute closure.declaration.body) { made with store := s } =
      within m.store.frames.size (executeAll execute closure.declaration.body) { made with store := s } :=
    within_of_eq (bind_of (insist_passed starts))
  have entered : newFrame closure.captured m = .ok m.store.frames.size made := rfl
  rw [Invoker.checking, bind_get, invoke]
  refine (bind_of entered).trans ((bind_of defined).trans ((bind_of_eq body).trans ?_))
  exact ((bind_of entered).trans (bind_of defined)).symm

end Parameters

end Lox
