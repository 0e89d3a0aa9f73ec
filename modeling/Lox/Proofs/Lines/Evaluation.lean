import Lox.Program
import Lox.Proofs.Lockstep
import Lox.Proofs.Lines.Values

/-!
# Running ignores lines

A tree without lines, run on a machine without lines, does what the tree does: it leaves the same machine
and ends in the same way, without lines (`evaluate_execute_unlined`). Output and the errors of sinks have
no lines at all.
-/

namespace Lox
open Run

instance : Lined Machine := ⟨fun m => { m with store := unlined m.store }⟩

@[simp] theorem unlined_store (m : Machine) : (unlined m).store = unlined m.store := rfl

instance : Lined RuntimeError := ⟨fun error => { error with line := 0 }⟩

instance : Lined Defect where
  unlined
    | .unresolvedSuper _ => .unresolvedSuper 0
    | .escapedReturn => .escapedReturn

instance : Lined Stop where
  unlined
    | .runtime error => .runtime (unlined error)
    | .defect defect => .defect (unlined defect)
    | stop => stop

instance {κ : Type} : Lined (FlowOver κ) where
  unlined
    | .normal => .normal
    | .returned value => .returned (unlined value)

variable {α β : Type} [Lined α] [Lined β]

/-! ## Basic actions -/

theorem get_unlined : Unlined (get : Run Machine) get := fun _ => rfl

theorem raise_unlined (cause : RuntimeError.Cause) (token : Token) :
    Unlined (raise cause token : Run α) (raise cause (unlined token)) := fun _ => rfl

theorem starve_unlined : Unlined (starve : Run α) starve := fun _ => rfl

theorem lift_unlined {result result' : Except RuntimeError α} (same : result' = unlined result) :
    Unlined (lift result : Run α) (lift result') := by
  subst same
  cases result with
  | ok | error => exact fun _ => rfl

theorem current_unlined : Unlined current current := fun _ => rfl

theorem look_unlined {see see' : Store → FrameId → Distances → Float → α}
    (same : ∀ store current distances clock,
      see' (unlined store) current distances clock = unlined (see store current distances clock)) :
    Unlined (look see) (look see') := by
  intro m
  exact congrArg (EStateM.Result.ok · (unlined m)) (same m.store m.current m.distances m.clock)

theorem newFrame_unlined (enclosing : FrameId) : Unlined (newFrame enclosing) (newFrame enclosing) := by
  intro m
  have here := m.store.newFrame_unlined (some enclosing)
  exact congrArg (fun made => EStateM.Result.ok made.1 { unlined m with store := made.2 }) here

theorem define_unlined (frame : FrameId) (name : String) (value : Value) :
    Unlined (define frame name value) (define frame name (unlined value)) := by
  intro m
  exact congrArg (fun store => EStateM.Result.ok () { unlined m with store }) (m.store.define_unlined frame name value)

theorem newIdentity_unlined : Unlined newIdentity newIdentity := fun _ => rfl

theorem newInstance_unlined (type : Class) : Unlined (newInstance type) (newInstance (unlined type)) := by
  intro m
  have here := m.store.newInstance_unlined type
  exact congrArg (fun made => EStateM.Result.ok made.1 { unlined m with store := made.2 }) here

theorem setField_unlined (i : Instance) (name : String) (value : Value) :
    Unlined (setField i name value) (setField (unlined i) name (unlined value)) := by
  intro m
  exact congrArg (fun store => EStateM.Result.ok () { unlined m with store }) (m.store.setField_unlined i name value)

theorem emit_unlined (text : String) : Unlined (emit text) (emit text) := by
  intro m
  have sink : (unlined m).sink = m.sink := rfl
  rw [emit, sink, emit]
  cases m.sink.write text with
  | mk error sink =>
      cases error with
      | none | some => rfl

theorem within_unlined (frame : FrameId) {x y : Run α} (same : Unlined x y) :
    Unlined (within frame x) (within frame y) := by
  intro m
  have here : y { unlined m with current := frame } = unlined (x { m with current := frame }) :=
    same { m with current := frame }
  rw [within, here, within]
  cases x { m with current := frame } with
  | ok | error => rfl

theorem defineAll_unlined (frame : FrameId) (params : List Token) (values : List Value) :
    Unlined (defineAll frame params values) (defineAll frame (unlined params) (unlined values)) := by
  induction params generalizing values with
  | nil => exact .pure rfl
  | cons param params ih =>
      cases values with
      | nil => exact .pure rfl
      | cons value values => exact (define_unlined frame param.lexeme value).bind fun _ => ih values

/-! ## Operators -/

theorem applyUnary_unlined (operator : Token) (right : Value) :
    applyUnary (unlined operator) (unlined right) = unlined (applyUnary operator right) := by
  obtain ⟨kind, lexeme, line⟩ := operator
  cases kind with
  | symbol word =>
      cases word
      case minus => cases right <;> rfl
      case bang => exact congrArg (fun b => Except.ok (ValueOver.boolean !b)) (isTruthy_unlined right)
      all_goals rfl
  | _ => rfl

theorem onNumbers_unlined (operator : Token) (left right : Value) {operation : Float → Float → Value}
    (plain : ∀ a b, unlined (operation a b) = operation a b) :
    onNumbers (unlined operator) (unlined left) (unlined right) operation =
      unlined (onNumbers operator left right operation) := by
  cases left <;> cases right <;> first | rfl | exact congrArg Except.ok (plain _ _).symm

theorem applyBinary_unlined (operator : Token) (left right : Value) :
    applyBinary (unlined operator) (unlined left) (unlined right) = unlined (applyBinary operator left right) := by
  have equal := equals_unlined left right
  obtain ⟨kind, lexeme, line⟩ := operator
  cases kind with
  | symbol word =>
      cases word
      case plus => cases left <;> cases right <;> rfl
      case equalEqual => exact congrArg (fun b => Except.ok (ValueOver.boolean b)) equal
      case bangEqual => exact congrArg (fun b => Except.ok (ValueOver.boolean !b)) equal
      case minus | star | slash | greater | greaterEqual | less | lessEqual =>
        exact onNumbers_unlined _ left right fun _ _ => rfl
      all_goals rfl
  | _ => rfl

theorem decidesAlone_unlined (operator : Token) (left : Value) :
    decidesAlone (unlined operator) (unlined left) = decidesAlone operator left := by
  rw [decidesAlone, isTruthy_unlined]
  rfl

/-! ## Variables -/

theorem lookUp_unlined (r : Reference) : Unlined (lookUp r) (lookUp (unlined r)) := by
  rw [lookUp_eq, lookUp_eq]
  apply Unlined.bind
  · apply look_unlined
    intro store current distances _
    rw [Reference.value?, Reference.value?, unlined_id, unlined_name]
    cases distances.find? r.id with
    | none => exact store.get?_unlined _ _
    | some distance => exact store.getAt?_unlined _ _ _
  · intro found
    cases found with
    | none => exact raise_unlined _ r.token
    | some value => exact .pure rfl

theorem unlined_number? (n : Option Nat) : unlined n = n := by
  cases n with
  | none | some => rfl

theorem assign_unlined (r : Reference) (value : Value) :
    Unlined (assign r value) (assign (unlined r) (unlined value)) := by
  rw [assign_eq, assign_eq]
  apply Unlined.bind
  · apply look_unlined
    intro store current distances _
    rw [Reference.target?, Reference.target?, unlined_id, unlined_name, Store.binder?_unlined]
    cases distances.find? r.id with
    | none => exact (unlined_number? _).symm
    | some distance => exact (store.ancestor?_unlined current distance).trans (unlined_number? _).symm
  · intro found
    cases found with
    | none => exact raise_unlined _ r.token
    | some frame => exact define_unlined frame r.name value

theorem findInherited_unlined (m : Machine) (keyword : Reference) :
    findInherited (unlined m) (unlined keyword) = unlined (findInherited m keyword) := by
  have distances : (unlined m).distances = m.distances := rfl
  have current : (unlined m).current = m.current := rfl
  rw [findInherited, findInherited, distances, current, unlined_id, unlined_store]
  cases m.distances.find? keyword.id with
  | none => rfl
  | some distance =>
      cases distance with
      | zero => rfl
      | succ inner =>
          simp only [Store.getAt?_unlined]
          cases m.store.getAt? m.current (inner + 1) "super" with
          | none => rfl
          | some parent =>
              cases m.store.getAt? m.current inner "this" with
              | none => cases parent <;> rfl
              | some this => cases parent <;> cases this <;> rfl

/-! ## Sequences and loops -/

section Parts

variable {execute execute' : Stmt → Run Flow} {evaluate evaluate' : Expr → Run Value}

theorem executeAll_unlined (each : ∀ s, Unlined (execute s) (execute' (unlined s))) (body : List Stmt) :
    Unlined (executeAll execute body) (executeAll execute' (unlined body)) := by
  induction body with
  | nil => exact .pure rfl
  | cons s body ih =>
      apply (each s).bind
      intro flow
      cases flow with
      | normal => exact ih
      | returned value => exact .pure rfl

theorem executeBlock_unlined (each : ∀ s, Unlined (execute s) (execute' (unlined s))) (enclosing : FrameId)
    (body : List Stmt) :
    Unlined (executeBlock execute enclosing body) (executeBlock execute' enclosing (unlined body)) := by
  apply (newFrame_unlined enclosing).bind
  intro frame
  exact within_unlined frame (executeAll_unlined each body)

theorem repeatWhile_unlined {condition condition' : Run Value} {body body' : Run Flow}
    (test : Unlined condition condition') (each : Unlined body body') (rounds : Nat) :
    Unlined (repeatWhile condition body rounds) (repeatWhile condition' body' rounds) := by
  induction rounds with
  | zero => exact starve_unlined
  | succ rounds ih =>
      apply test.bind
      intro value
      rw [isTruthy_unlined]
      split
      · apply each.bind
        intro flow
        cases flow with
        | normal => exact ih
        | returned value => exact .pure rfl
      · exact .pure rfl

theorem evaluateAll_unlined (each : ∀ e, Unlined (evaluate e) (evaluate' (unlined e))) (es : List Expr) :
    Unlined (evaluateAll evaluate es) (evaluateAll evaluate' (unlined es)) := by
  induction es with
  | nil => exact .pure rfl
  | cons e es ih =>
      apply (each e).bind
      intro value
      exact ih.bind fun values => .pure rfl

/-! ## Calls and properties -/

theorem invoke_unlined (each : ∀ s, Unlined (execute s) (execute' (unlined s))) (closure : Closure)
    (arguments : List Value) :
    Unlined (invoke execute closure arguments) (invoke execute' (unlined closure) (unlined arguments)) := by
  obtain ⟨⟨name, params, body⟩, captured, isInitializer⟩ := closure
  have same : unlined (ClosureOver.mk ⟨name, params, body⟩ captured isInitializer) =
      ⟨⟨unlined name, unlined params, unlined body⟩, captured, isInitializer⟩ :=
    congrArg (ClosureOver.mk · captured isInitializer) (unlined_function name params body)
  rw [same]
  apply (newFrame_unlined captured).bind
  intro frame
  apply (defineAll_unlined frame params arguments).bind
  intro _
  apply (within_unlined frame (executeAll_unlined each body)).bind
  intro flow
  cases isInitializer with
  | true =>
      apply get_unlined.bind
      intro m
      rw [unlined_store, Store.read?_unlined]
      cases m.store.read? captured "this" with
      | none => exact raise_unlined _ name
      | some made => exact .pure rfl
  | false =>
      cases flow with
      | normal | returned => exact .pure rfl

theorem bindMethod_unlined (method : Closure) (i : Instance) :
    Unlined (bindMethod method i) (bindMethod (unlined method) (unlined i)) := by
  apply (newFrame_unlined method.captured).bind
  intro frame
  apply (define_unlined frame "this" (.ofInstance i)).bind
  intro _
  exact .pure rfl

theorem methodValue_unlined (method : Closure) (i : Instance) :
    Unlined (methodValue method i) (methodValue (unlined method) (unlined i)) := by
  apply (bindMethod_unlined method i).bind
  intro bound
  apply newIdentity_unlined.bind
  intro identity
  exact .pure rfl

theorem construct_unlined (each : ∀ s, Unlined (execute s) (execute' (unlined s))) (type : Class)
    (arguments : List Value) :
    Unlined (construct execute type arguments) (construct execute' (unlined type) (unlined arguments)) := by
  apply (newInstance_unlined type).bind
  intro made
  rw [ClassOver.initializer?, ClassOver.initializer?, findMethod?_unlined]
  cases type.findMethod? initializerName with
  | none => exact .pure rfl
  | some method =>
      apply (bindMethod_unlined method made).bind
      intro bound
      apply (invoke_unlined each bound arguments).bind
      intro _
      exact .pure rfl

theorem callValue_unlined (each : ∀ s, Unlined (execute s) (execute' (unlined s))) (callee : Value)
    (paren : Token) (arguments : List Value) :
    Unlined (callValue execute callee paren arguments)
      (callValue execute' (unlined callee) (unlined paren) (unlined arguments)) := by
  cases callee with
  | native function =>
      cases function with
      | clock => exact fun _ => rfl
  | function identity closure => exact invoke_unlined each closure arguments
  | ofClass type => exact construct_unlined each type arguments
  | _ => exact raise_unlined _ paren

theorem callChecked_unlined (each : ∀ s, Unlined (execute s) (execute' (unlined s))) (callee : Value)
    (paren : Token) (arguments : List Value) :
    Unlined (callChecked execute callee paren arguments)
      (callChecked execute' (unlined callee) (unlined paren) (unlined arguments)) := by
  have count : (unlined arguments).length = arguments.length := List.length_map _
  rw [callChecked, callChecked, arity?_unlined, count]
  cases callee.arity? with
  | none => exact raise_unlined _ paren
  | some arity =>
      show Unlined (if arguments.length = arity then callValue execute callee paren arguments
          else raise (.wrongArity arity arguments.length) paren)
        (if arguments.length = arity then callValue execute' (unlined callee) (unlined paren) (unlined arguments)
          else raise (.wrongArity arity arguments.length) (unlined paren))
      split
      · exact callValue_unlined each callee paren arguments
      · exact raise_unlined _ paren

theorem getProperty_unlined (i : Instance) (name : Token) :
    Unlined (getProperty i name) (getProperty (unlined i) (unlined name)) := by
  apply get_unlined.bind
  intro m
  have type : (unlined i).type = unlined i.type := rfl
  rw [unlined_store, unlined_lexeme, type, Store.field?_unlined, findMethod?_unlined]
  cases m.store.field? i name.lexeme with
  | some value => exact .pure rfl
  | none =>
      cases i.type.findMethod? name.lexeme with
      | some method => exact methodValue_unlined method i
      | none => exact raise_unlined _ name

theorem getInherited_unlined (keyword : Reference) (method : Token) :
    Unlined (getInherited keyword method) (getInherited (unlined keyword) (unlined method)) := by
  apply get_unlined.bind
  intro m
  rw [findInherited_unlined]
  cases findInherited m keyword with
  | none => exact fun _ => rfl
  | some pair =>
      obtain ⟨parent, i⟩ := pair
      have both : unlined (some (parent, i)) = some (unlined parent, unlined i) := rfl
      rw [both]
      simp only [unlined_lexeme, findMethod?_unlined]
      cases parent.findMethod? method.lexeme with
      | some found => exact methodValue_unlined found i
      | none => exact raise_unlined _ method

/-! ## Declarations -/

theorem declareFunction_unlined (declaration : FunctionDecl) :
    Unlined (declareFunction declaration) (declareFunction (unlined declaration)) := by
  apply current_unlined.bind
  intro frame
  apply newIdentity_unlined.bind
  intro identity
  obtain ⟨name, params, body⟩ := declaration
  exact define_unlined frame name.lexeme _

theorem lookUpSuperclass_unlined (r : Reference) :
    Unlined (lookUpSuperclass r) (lookUpSuperclass (unlined r)) := by
  apply (lookUp_unlined r).bind
  intro value
  cases value with
  | ofClass parent => exact .pure rfl
  | _ => exact raise_unlined _ r.token

theorem methodTable_unlined (captured : FrameId) (methods : List FunctionDecl) :
    methodTable captured (unlined methods) = (methodTable captured methods).unlined := by
  have from_table (table : Bindings String Closure) :
      (unlined methods).foldl (fun table method =>
          table.insert method.name.lexeme ⟨method, captured, method.isInitializer⟩) table.unlined =
        (methods.foldl (fun table method =>
          table.insert method.name.lexeme ⟨method, captured, method.isInitializer⟩) table).unlined := by
    induction methods generalizing table with
    | nil => rfl
    | cons method methods ih =>
        rw [List.foldl_cons, ← ih, ← Bindings.insert_unlined]
        show (unlined methods).foldl _ (table.unlined.insert method.unlined.name.lexeme
          ⟨method.unlined, captured, method.unlined.isInitializer⟩) = _
        rw [name_unlined, isInitializer_unlined]
        rfl
  exact from_table .empty

theorem unlined_class (identity : Nat) (name : String) (parent : Option Class)
    (methods : Bindings String Closure) :
    unlined (ClassOver.mk identity name parent methods) = ⟨identity, name, unlined parent, methods.unlined⟩ := by
  cases parent with
  | none | some => rfl

theorem declareClass_unlined (name : Token) (superclass : Option Reference) (methods : List FunctionDecl) :
    Unlined (declareClass name superclass methods)
      (declareClass (unlined name) (unlined superclass) (unlined methods)) := by
  apply current_unlined.bind
  intro frame
  have making (parent : Option Class) (home : FrameId) : Unlined
      (do
        let identity ← newIdentity
        define frame name.lexeme (.ofClass ⟨identity, name.lexeme, parent, methodTable home methods⟩))
      (do
        let identity ← newIdentity
        define frame name.lexeme
          (.ofClass ⟨identity, name.lexeme, unlined parent, methodTable home (unlined methods)⟩)) := by
    apply newIdentity_unlined.bind
    intro identity
    have made := unlined_class identity name.lexeme parent (methodTable home methods)
    rw [methodTable_unlined]
    exact made ▸ define_unlined frame name.lexeme
      (.ofClass ⟨identity, name.lexeme, parent, methodTable home methods⟩)
  have with_home (made : Option Class × FrameId) := making made.1 made.2
  cases superclass with
  | none => exact (Unlined.pure rfl).bind with_home
  | some r =>
      apply (lookUpSuperclass_unlined r).bind
      intro parent
      apply (newFrame_unlined frame).bind
      intro home
      apply (define_unlined home "super" (.ofClass parent)).bind
      intro _
      exact (Unlined.pure rfl).bind with_home

/-! ## Meanings -/

theorem evaluateWith_unlined (evaluates : ∀ e, Unlined (evaluate e) (evaluate' (unlined e)))
    (executes : ∀ s, Unlined (execute s) (execute' (unlined s))) (e : Expr) :
    Unlined (evaluateWith evaluate execute e) (evaluateWith evaluate' execute' (unlined e)) := by
  cases e with
  | literal constant =>
      cases constant with
      | nil | boolean | number | string => exact .pure rfl
  | grouping inner => exact evaluates inner
  | unary operator right =>
      apply (evaluates right).bind
      intro value
      exact lift_unlined (applyUnary_unlined operator value)
  | binary left operator right =>
      apply (evaluates left).bind
      intro a
      apply (evaluates right).bind
      intro b
      exact lift_unlined (applyBinary_unlined operator a b)
  | logical left operator right =>
      apply (evaluates left).bind
      intro a
      rw [decidesAlone_unlined]
      split
      · exact .pure rfl
      · exact evaluates right
  | read name => exact lookUp_unlined name
  | assign name value =>
      apply (evaluates value).bind
      intro result
      exact (assign_unlined name result).bind fun _ => .pure rfl
  | call callee paren arguments =>
      rw [unlined_call]
      apply (evaluates callee).bind
      intro target
      apply (evaluateAll_unlined evaluates arguments).bind
      intro values
      exact callChecked_unlined executes target paren values
  | get object name =>
      apply (evaluates object).bind
      intro target
      cases target with
      | ofInstance i => exact getProperty_unlined i name
      | _ => exact raise_unlined _ name
  | set object name value =>
      apply (evaluates object).bind
      intro target
      cases target with
      | ofInstance i =>
          apply (evaluates value).bind
          intro result
          exact (setField_unlined i name.lexeme result).bind fun _ => .pure rfl
      | _ => exact raise_unlined _ name
  | self keyword => exact lookUp_unlined keyword
  | inherited keyword method => exact getInherited_unlined keyword method

theorem executeWith_unlined (rounds : Nat) (evaluates : ∀ e, Unlined (evaluate e) (evaluate' (unlined e)))
    (executes : ∀ s, Unlined (execute s) (execute' (unlined s))) (s : Stmt) :
    Unlined (executeWith rounds evaluate execute s) (executeWith rounds evaluate' execute' (unlined s)) := by
  cases s with
  | expression value => exact (evaluates value).bind fun _ => .pure rfl
  | print value =>
      apply (evaluates value).bind
      intro result
      rw [text_unlined]
      exact (emit_unlined _).bind fun _ => .pure rfl
  | varDecl name initializer =>
      have defining (value : Value) : Unlined
          (do
            define (← current) name.lexeme value
            pure (.normal : Flow))
          (do
            define (← current) name.lexeme (unlined value)
            pure (.normal : Flow)) := by
        apply current_unlined.bind
        intro frame
        exact (define_unlined frame name.lexeme value).bind fun _ => .pure rfl
      cases initializer with
      | none => exact defining .nil
      | some value => exact (evaluates value).bind defining
  | block body =>
      rw [unlined_block]
      apply current_unlined.bind
      intro frame
      exact executeBlock_unlined executes frame body
  | ifElse condition thenBranch elseBranch =>
      rw [unlined_ifElse]
      apply (evaluates condition).bind
      intro value
      rw [isTruthy_unlined]
      split
      · exact executes thenBranch
      · cases elseBranch with
        | none => exact .pure rfl
        | some other => exact executes other
  | whileLoop condition body => exact repeatWhile_unlined (evaluates condition) (executes body) rounds
  | funDecl declaration => exact (declareFunction_unlined declaration).bind fun _ => .pure rfl
  | returnStmt keyword value =>
      cases value with
      | none => exact .pure rfl
      | some value => exact (evaluates value).bind fun _ => .pure rfl
  | classDecl name superclass methods =>
      rw [unlined_classDecl]
      exact (declareClass_unlined name superclass methods).bind fun _ => .pure rfl

end Parts

theorem evaluate_execute_unlined (fuel : Nat) :
    (∀ e, Unlined (evaluate fuel e) (evaluate fuel (unlined e))) ∧
      ∀ s, Unlined (execute fuel s) (execute fuel (unlined s)) := by
  induction fuel with
  | zero => exact ⟨fun _ => starve_unlined, fun _ => starve_unlined⟩
  | succ fuel ih =>
      simp only [evaluate, execute, onStack_eq]
      exact ⟨evaluateWith_unlined ih.1 ih.2, executeWith_unlined fuel ih.1 ih.2⟩

theorem finish_unlined (result : EStateM.Result Stop Machine Flow) :
    finish Machine.sink (unlined result) = unlined (finish Machine.sink result) := by
  cases result with
  | ok flow m =>
      cases flow with
      | normal | returned =>
          simp only [finish, unlined]
          cases m.sink.flush with
          | none | some => rfl
  | error stop m =>
      cases stop with
      | defect | outOfFuel => rfl
      | runtime | output =>
          simp only [finish, unlined]
          cases m.sink.flush with
          | none | some => rfl

theorem interpret_unlined (fuel : Nat) (program : List Stmt) (distances : Distances) :
    Unlined (interpret fuel program distances) (interpret fuel (unlined program) distances) := by
  intro m
  have ran := executeAll_unlined (evaluate_execute_unlined fuel).2 program { m with distances }
  show finish Machine.sink (executeAll (execute fuel) (unlined program) (unlined { m with distances })) = _
  rw [ran, finish_unlined, interpret]

end Lox
