import Mathlib
import Lox.Proofs.Calls.Invoker
import Lox.Proofs.CurrentFrame
import Lox.Proofs.Upkeep

/-!
# Bodies run with their parameters

A call looks at the number of its arguments once, before it is known which body takes them. Where the body
starts, there is an argument for each parameter, also for the initializer of a class, which is looked up again
then. The frame of the body is in that of its function, since functions close over frames that exist
(`AnchoredStore`). So a run that checks how bodies start (`Invoker.checking`) is the run of the program, in
whatever way the check would have stopped it (`bodies_start_with_parameters`).

One lemma for each step compares the two runs and says that functions still close over frames that exist.
-/

namespace Lox
open Run

/-! ## Frames of functions exist -/

def AnchoredClass (s : Store) (c : Class) : Prop :=
  ∀ name method, c.findMethod? name = some method → method.captured < s.frames.size

/-- What the functions of the value close over are frames of the store. -/
def Anchored (s : Store) : Value → Prop
  | .function _ closure => closure.captured < s.frames.size
  | .ofClass c => AnchoredClass s c
  | .ofInstance i => AnchoredClass s i.type
  | _ => True

def AnchoredStore (s : Store) : Prop := ∀ v, s.Holds v → Anchored s v

section Stores

variable {s s' : Store} {frame : FrameId} {name : String} {v : Value}

theorem AnchoredClass.later {c : Class} (grows : s.frames.size ≤ s'.frames.size) (anchored : AnchoredClass s c) :
    AnchoredClass s' c :=
  fun name method found => Nat.lt_of_lt_of_le (anchored name method found) grows

theorem Anchored.later (grows : s.frames.size ≤ s'.frames.size) (anchored : Anchored s v) : Anchored s' v := by
  cases v with
  | function identity closure => exact Nat.lt_of_lt_of_le anchored grows
  | ofClass c => exact AnchoredClass.later grows anchored
  | ofInstance i => exact AnchoredClass.later grows anchored
  | _ => trivial

theorem anchored_of_plain (plain : Plain v) : Anchored s v := by
  cases v with
  | function _ _ | ofClass _ | ofInstance _ => exact plain.elim
  | _ => trivial

namespace AnchoredStore

variable (anchored : AnchoredStore s)
include anchored

theorem later (grows : s.frames.size ≤ s'.frames.size) (held : ∀ w, s'.Holds w → s.Holds w ∨ Anchored s' w) :
    AnchoredStore s' := by
  intro w here
  rcases held w here with old | new
  · exact (anchored w old).later grows
  · exact new

theorem define (value : Anchored s v) : AnchoredStore (s.define frame name v) := by
  have grows : s.frames.size ≤ (s.define frame name v).frames.size := Store.size_define.ge
  refine anchored.later grows fun w held => ?_
  rcases held.of_define with old | rfl
  · exact .inl old
  · exact .inr (value.later grows)

theorem newFrame (outer : FrameId) : AnchoredStore (s.newFrame (some outer)).2 :=
  anchored.later (by simp [Store.newFrame]) fun _ held => .inl held.of_newFrame

theorem newIdentity : AnchoredStore s.newIdentity.2 :=
  anchored.later Nat.le.refl fun _ => .inl

theorem newInstance (type : Class) : AnchoredStore (s.newInstance type).2 :=
  anchored.later Nat.le.refl fun _ held => .inl held.of_newInstance

theorem setField (i : Instance) (value : Anchored s v) : AnchoredStore (s.setField i name v) := by
  refine anchored.later Nat.le.refl fun w held => ?_
  rcases held.of_setField with old | rfl
  · exact .inl old
  · exact .inr value

end AnchoredStore

theorem anchoredStore_initial : AnchoredStore .initial := by
  rintro v (⟨frame, name, bound⟩ | ⟨i, name, field⟩)
  · rw [Store.read?_initial] at bound
    split at bound <;> cases bound
    trivial
  · cases field

end Stores

/-! ## Two runs -/

/-- The frame that is running exists, and so do those that functions close over. -/
structure Sound (m : Machine) : Prop where
  current : m.current < m.store.frames.size
  values : AnchoredStore m.store

structure Sound.After (m m' : Machine) : Prop where
  grows : m.store.frames.size ≤ m'.store.frames.size
  current : m'.current = m.current
  values : AnchoredStore m'.store

inductive Sound.Ends {α : Type} (m : Machine) (post : Store → α → Prop) :
    EStateM.Result Stop Machine α → Prop where
  | done {a : α} {m' : Machine} : Sound.After m m' → post m'.store a → Ends m post (.ok a m')
  | stopped {stop : Stop} {m' : Machine} : Sound.After m m' → Ends m post (.error stop m')

/-- The actions do the same, and functions close over frames that exist afterwards. -/
structure Agrees {α : Type} (m : Machine) (post : Store → α → Prop) (x y : Run α) : Prop where
  same : x m = y m
  ends : Sound.Ends m post (y m)

open Sound

variable {m m' m'' : Machine} {α β : Type} {post : Store → α → Prop} {next : Store → β → Prop}

theorem Sound.After.refl (values : AnchoredStore m.store) : After m m := ⟨Nat.le.refl, rfl, values⟩

theorem Sound.After.trans (first : After m m') (second : After m' m'') : After m m'' :=
  ⟨Nat.le_trans first.grows second.grows, second.current.trans first.current, second.values⟩

theorem Sound.after (here : Sound m) (after : After m m') : Sound m' :=
  ⟨after.current ▸ Nat.lt_of_lt_of_le here.current after.grows, after.values⟩

theorem Sound.Ends.before {result : EStateM.Result Stop Machine α} (first : After m m')
    (rest : Ends m' post result) : Ends m post result := by
  cases rest with
  | done after holds => exact .done (first.trans after) holds
  | stopped after => exact .stopped (first.trans after)

namespace Agrees

variable {x y : Run α} {f g : α → Run β}

theorem of_ends (ends : Ends m post (x m)) : Agrees m post x x := ⟨rfl, ends⟩

theorem pure {a : α} (values : AnchoredStore m.store) (holds : post m.store a) :
    Agrees m post (Pure.pure a : Run α) (Pure.pure a) :=
  of_ends (.done (.refl values) holds)

theorem raise {cause : RuntimeError.Cause} {token : Token} (values : AnchoredStore m.store) :
    Agrees m post (Run.raise cause token : Run α) (Run.raise cause token) :=
  of_ends (.stopped (.refl values))

theorem bind (first : Agrees m post x y)
    (rest : ∀ a m', After m m' → post m'.store a → Agrees m' next (f a) (g a)) :
    Agrees m next (x >>= f) (y >>= g) := by
  obtain ⟨same, ends⟩ := first
  cases ended : y m with
  | ok a m' =>
      rw [ended] at same ends
      obtain ⟨after, holds⟩ | _ := ends
      obtain ⟨same', ends'⟩ := rest a m' after holds
      refine ⟨?_, ?_⟩
      · rw [bind_of same, bind_of ended, same']
      · rw [bind_of ended]
        exact .before after ends'
  | error stop m' =>
      rw [ended] at same ends
      obtain _ | after := ends
      refine ⟨?_, ?_⟩
      · rw [bind_of_error same, bind_of_error ended]
      · rw [bind_of_error ended]
        exact .stopped after

theorem imp {weaker : Store → α → Prop} (agrees : Agrees m post x y) (imp : ∀ s a, post s a → weaker s a) :
    Agrees m weaker x y := by
  obtain ⟨same, ends⟩ := agrees
  refine ⟨same, ?_⟩
  generalize y m = result at ends
  cases ends with
  | done after holds => exact .done after (imp _ _ holds)
  | stopped after => exact .stopped after

theorem get {f g : Machine → Run α} (rest : Agrees m post (f m) (g m)) :
    Agrees m post (MonadState.get >>= f) (MonadState.get >>= g) :=
  ⟨rest.same, rest.ends⟩

theorem current {f g : FrameId → Run α} (rest : Agrees m post (f m.current) (g m.current)) :
    Agrees m post (Run.current >>= f) (Run.current >>= g) :=
  ⟨rest.same, rest.ends⟩

theorem within {frame : FrameId}
    (inside : Agrees { m with current := frame } post x y) :
    Agrees m post (Run.within frame x) (Run.within frame y) := by
  refine ⟨within_of_eq inside.same, ?_⟩
  have ends := inside.ends
  unfold Run.within
  cases ended : y { m with current := frame } with
  | ok a m' =>
      rw [ended] at ends
      obtain ⟨after, holds⟩ | _ := ends
      exact .done ⟨after.grows, rfl, after.values⟩ holds
  | error stop m' =>
      rw [ended] at ends
      obtain _ | after := ends
      exact .stopped ⟨after.grows, rfl, after.values⟩

end Agrees

/-! ## Basic actions -/

section Actions

variable {frame outer : FrameId} {name : String} {v : Value}

theorem define_agrees (values : AnchoredStore m.store) (value : Anchored m.store v) :
    Agrees m (fun _ _ => True) (define frame name v) (define frame name v) :=
  .of_ends (.done ⟨Store.size_define.ge, rfl, values.define value⟩ trivial)

theorem newFrame_agrees (values : AnchoredStore m.store) :
    Agrees m (fun s made => made < s.frames.size) (newFrame outer) (newFrame outer) := by
  have size : (m.store.newFrame (some outer)).2.frames.size = m.store.frames.size + 1 := Array.size_push _
  refine .of_ends (.done ⟨?_, rfl, values.newFrame outer⟩ ?_)
  · exact Nat.le_of_succ_le size.ge
  · exact size.ge

theorem newIdentity_agrees (values : AnchoredStore m.store) :
    Agrees m (fun _ _ => True) newIdentity newIdentity :=
  .of_ends (.done ⟨Nat.le.refl, rfl, values.newIdentity⟩ trivial)

theorem newInstance_agrees {type : Class} (values : AnchoredStore m.store) (methods : AnchoredClass m.store type) :
    Agrees m (fun s made => Anchored s (.ofInstance made)) (newInstance type) (newInstance type) :=
  .of_ends (.done ⟨Nat.le.refl, rfl, values.newInstance type⟩ methods)

theorem setField_agrees {i : Instance} (values : AnchoredStore m.store) (value : Anchored m.store v) :
    Agrees m (fun _ _ => True) (setField i name v) (setField i name v) :=
  .of_ends (.done ⟨Nat.le.refl, rfl, values.setField i value⟩ trivial)

theorem emit_agrees (text : String) (values : AnchoredStore m.store) :
    Agrees m (fun _ _ => True) (emit text) (emit text) := by
  refine .of_ends ?_
  unfold emit
  obtain ⟨failed, sink⟩ := m.sink.write text
  cases failed with
  | none => exact .done ⟨Nat.le.refl, rfl, values⟩ trivial
  | some error => exact .stopped ⟨Nat.le.refl, rfl, values⟩

theorem lookUp_agrees (r : Reference) (values : AnchoredStore m.store) :
    Agrees m Anchored (lookUp r) (lookUp r) := by
  refine .of_ends ?_
  unfold lookUp
  simp only
  split
  · rename_i v found
    refine .done (.refl values) (values v ?_)
    split at found
    · exact .of_getAt? found
    · exact .of_get? found
  · exact .stopped (.refl values)

theorem assign_agrees {r : Reference} (values : AnchoredStore m.store) (value : Anchored m.store v) :
    Agrees m (fun _ _ => True) (assign r v) (assign r v) := by
  refine .of_ends ?_
  rcases assign_cases r v m with ends | ⟨frame, ends⟩
  · rw [ends]
    exact .stopped (.refl values)
  · rw [ends]
    exact (define_agrees values value).ends

theorem bindMethod_agrees {method : Closure} {i : Instance} (values : AnchoredStore m.store)
    (this : Anchored m.store (.ofInstance i)) :
    Agrees m (fun s bound => bound.captured < s.frames.size ∧ bound.declaration = method.declaration)
      (bindMethod method i) (bindMethod method i) := by
  refine .bind (newFrame_agrees values) fun frame m₁ after₁ made => ?_
  refine .bind (define_agrees after₁.values (this.later after₁.grows)) fun _ m₂ after₂ _ => ?_
  exact .pure after₂.values ⟨Nat.lt_of_lt_of_le made after₂.grows, rfl⟩

end Actions

/-! ## All actions -/

/-- Runs that are put together in the same way agree, and functions close over frames that exist. -/
def agreement : Upkeep where
  Sound m := AnchoredStore m.store
  Good := Anchored
  Binds _ _ _ := True
  Shown _ s frame := frame < s.frames.size
  Passed _ m := m.current < m.store.frames.size
  Allowed _ := True
  After := Sound.After
  Relates := Agrees
  refl := .refl
  sound_after := Sound.After.values
  sound_within _ := id
  good_after after := Anchored.later after.grows
  binds_after _ := id
  shown_after after older := Nat.lt_of_lt_of_le older after.grows
  shown_current after older := after.current ▸ older
  plain := anchored_of_plain
  type := id
  field values _ bound := values _ (.inr ⟨_, _, bound⟩)
  this values _ bound := values _ (.inl ⟨_, _, bound⟩)
  starving := trivial
  failing _ _ _ _ := trivial
  unmade _ _ _ := trivial
  pure := .pure
  stop values _ := .of_ends (.stopped (.refl values))
  get _ := .get
  bind := .bind
  within := .within
  define values _ value := define_agrees values value
  newIdentity := newIdentity_agrees
  newInstance values methods := newInstance_agrees values methods
  setField values _ value := setField_agrees values value
  emit text values := emit_agrees text values
  bindMethod values _ _ this := (bindMethod_agrees values this).imp fun _ _ bound _ => bound.1
  block values _ := (newFrame_agrees values).imp fun _ _ made _ _ => made
  body values _ := (newFrame_agrees values).imp fun _ _ made => ⟨fun _ _ => trivial, fun _ _ => made⟩
  part _ older := older
  varDecl _ _ := trivial

/-! ## Statements in sequence -/

def AnchoredFlow (s : Store) : Flow → Prop
  | .normal => True
  | .returned v => Anchored s v

def Evaluates (evaluate evaluate' : Expr → Run Value) : Prop :=
  ∀ e m, Sound m → Agrees m Anchored (evaluate e) (evaluate' e)

def Executes (execute execute' : Stmt → Run Flow) : Prop :=
  ∀ a m, Sound m → Agrees m AnchoredFlow (execute a) (execute' a)

section Parts

variable {evaluate evaluate' : Expr → Run Value} {execute execute' : Stmt → Run Flow}

theorem Evaluates.kept (evaluates : Evaluates evaluate evaluate') : agreement.Evaluates evaluate evaluate' :=
  fun e m values current => evaluates e m ⟨current, values⟩

theorem Executes.kept (executes : Executes execute execute') : agreement.Executes execute execute' :=
  fun a m values current => executes a m ⟨current, values⟩

theorem executeAll_agrees (executes : Executes execute execute') (body : List Stmt) (here : Sound m) :
    Agrees m AnchoredFlow (executeAll execute body) (executeAll execute' body) :=
  Upkeep.executeAll executes.kept here.values fun _ _ => here.current

/-! ## Calls -/

section Calls

variable {broken : Stop} {closure method : Closure} {arguments : List Value} {i : Instance}

theorem checking_agrees (executes : Executes execute execute') (values : AnchoredStore m.store)
    (captured : closure.captured < m.store.frames.size) (anchored : ∀ v ∈ arguments, Anchored m.store v)
    (count : arguments.length = closure.declaration.params.length) :
    Agrees m Anchored (Invoker.checking broken execute closure arguments) (invoke execute' closure arguments) := by
  obtain ⟨same, ends⟩ := Upkeep.invoke executes.kept 0 values captured anchored
  exact ⟨(checking_eq broken execute count captured).trans same, ends⟩

/-- The initializer that a class runs is the one that its number of arguments comes from. -/
theorem construct_agrees (executes : Executes execute execute') {type : Class} (values : AnchoredStore m.store)
    (methods : AnchoredClass m.store type) (anchored : ∀ v ∈ arguments, Anchored m.store v)
    (count : arguments.length = type.arity) :
    Agrees m Anchored ((Invoker.checking broken).construct execute type arguments)
      (construct execute' type arguments) := by
  unfold Invoker.construct construct
  refine .bind (newInstance_agrees values methods) fun made m₁ after₁ this => ?_
  unfold ClassOver.arity at count
  cases found : type.initializer? with
  | none => exact .pure after₁.values this
  | some method =>
      rw [found] at count
      refine .bind (bindMethod_agrees after₁.values this) fun bound m₂ after₂ captured => ?_
      have anchored' : ∀ v ∈ arguments, Anchored m₂.store v := fun v mem =>
        (anchored v mem).later (Nat.le_trans after₁.grows after₂.grows)
      refine .bind (checking_agrees executes after₂.values captured.1 anchored' ?_) fun _ m₃ after₃ _ => ?_
      · rw [captured.2]
        exact count
      · exact .pure after₃.values (this.later (Nat.le_trans after₂.grows after₃.grows))

theorem callChecked_agrees (executes : Executes execute execute') {callee : Value} {paren : Token}
    (values : AnchoredStore m.store) (target : Anchored m.store callee)
    (anchored : ∀ v ∈ arguments, Anchored m.store v) :
    Agrees m Anchored ((Invoker.checking broken).callChecked execute callee paren arguments)
      (callChecked execute' callee paren arguments) := by
  unfold Invoker.callChecked callChecked
  cases takes : callee.arity? with
  | none => exact .raise values
  | some arity =>
      by_cases count : arguments.length = arity
      · simp only [if_pos count]
        subst count
        cases callee with
        | native function =>
            cases function
            exact .of_ends (.done (.refl values) trivial)
        | function identity closure =>
            exact checking_agrees executes values target anchored (Option.some.inj takes).symm
        | ofClass type => exact construct_agrees executes values target anchored (Option.some.inj takes).symm
        | _ => exact .raise values
      · simp only [if_neg count]
        exact .raise values

end Calls

/-! ## Properties and declarations -/

theorem getInherited_agrees {keyword : Reference} {method : Token} (values : AnchoredStore m.store) :
    Agrees m Anchored (getInherited keyword method) (getInherited keyword method) := by
  refine .get ?_
  cases found : findInherited m keyword with
  | none => exact .of_ends (.stopped (.refl values))
  | some means =>
      obtain ⟨parent, i⟩ := means
      obtain ⟨inner, -, above, this⟩ := findInherited_inv found
      exact Upkeep.findMethod (U := agreement) values (fun _ _ _ => trivial) (values _ (.of_getAt? above))
        (values _ (.of_getAt? this))

theorem declareFunction_agrees (declaration : FunctionDecl) (here : Sound m) :
    Agrees m (fun _ _ => True) (declareFunction declaration) (declareFunction declaration) :=
  .current (.bind (newIdentity_agrees here.values) fun _ _ after _ =>
    define_agrees after.values (Nat.lt_of_lt_of_le here.current after.grows))

theorem lookUpSuperclass_agrees (r : Reference) (values : AnchoredStore m.store) :
    Agrees m AnchoredClass (lookUpSuperclass r) (lookUpSuperclass r) := by
  refine .bind (lookUp_agrees r values) fun v m₁ after anchored => ?_
  cases v with
  | ofClass parent => exact .pure after.values anchored
  | _ => exact .raise after.values

theorem anchoredClass_made {s : Store} {home : FrameId} {identity : Nat} {name : String} {parent : Option Class}
    {methods : List FunctionDecl} (own : home < s.frames.size) (inherits : ∀ c ∈ parent, AnchoredClass s c) :
    AnchoredClass s ⟨identity, name, parent, methodTable home methods⟩ := by
  intro name method found
  rcases findMethod?_made found with ⟨d, mem, rfl⟩ | ⟨c, above, found⟩
  · exact own
  · exact inherits c above name method found

theorem declareClass_agrees (name : Token) (superclass : Option Reference) (methods : List FunctionDecl)
    (here : Sound m) :
    Agrees m (fun _ _ => True) (declareClass name superclass methods) (declareClass name superclass methods) := by
  have makes {m₁ : Machine} {home frame : FrameId} {parent : Option Class} (values : AnchoredStore m₁.store)
      (own : home < m₁.store.frames.size) (inherits : ∀ c ∈ parent, AnchoredClass m₁.store c) :
      let made : Run Unit := do
        let identity ← newIdentity
        define frame name.lexeme (.ofClass ⟨identity, name.lexeme, parent, methodTable home methods⟩)
      Agrees m₁ (fun _ _ => True) made made :=
    .bind (newIdentity_agrees values) fun _ _ after _ => define_agrees after.values
      (anchoredClass_made (Nat.lt_of_lt_of_le own after.grows) fun c mem => (inherits c mem).later after.grows)
  cases superclass with
  | none => exact .current (makes here.values here.current nofun)
  | some reference =>
      refine .current (.bind (lookUpSuperclass_agrees reference here.values) fun parent m₁ after₁ anchored => ?_)
      refine .bind (newFrame_agrees after₁.values) fun home m₂ after₂ own => ?_
      have anchored₂ := anchored.later after₂.grows
      refine .bind (define_agrees after₂.values anchored₂) fun _ m₃ after₃ _ => ?_
      refine makes after₃.values (Nat.lt_of_lt_of_le own after₃.grows) fun c mem => ?_
      cases mem
      exact anchored₂.later after₃.grows

/-! ## Meanings from the meanings of parts -/

theorem evaluateWith_agrees (broken : Stop) (evaluates : Evaluates evaluate evaluate')
    (executes : Executes execute execute') :
    Evaluates ((Invoker.checking broken).evaluateWith evaluate execute) (evaluateWith evaluate' execute') := by
  intro e m here
  have general := agreement.evaluateWith (e := e) evaluates.kept executes.kept here.values here.current
  cases e with
  | read name => exact lookUp_agrees name here.values
  | assign name value =>
      refine .bind (evaluates value m here) fun v m₁ after₁ anchored => ?_
      refine .bind (assign_agrees after₁.values anchored) fun _ m₂ after₂ _ => ?_
      exact .pure after₂.values (anchored.later after₂.grows)
  | call callee paren arguments =>
      refine .bind (evaluates callee m here) fun v m₁ after₁ target => ?_
      have here₁ := here.after after₁
      have given : Agrees m₁ (fun s vs => ∀ v ∈ vs, Anchored s v) (evaluateAll evaluate arguments)
          (evaluateAll evaluate' arguments) :=
        Upkeep.evaluateAll evaluates.kept here₁.values fun _ _ => here₁.current
      refine .bind given fun vs m₂ after₂ anchored => ?_
      exact callChecked_agrees executes after₂.values (target.later after₂.grows) anchored
  | self keyword => exact lookUp_agrees keyword here.values
  | inherited keyword method => exact getInherited_agrees here.values
  | _ => exact general rfl

theorem executeWith_agrees (evaluates : Evaluates evaluate evaluate') (executes : Executes execute execute')
    (rounds : Nat) : Executes (executeWith rounds evaluate execute) (executeWith rounds evaluate' execute') := by
  intro a m here
  cases a with
  | funDecl declaration =>
      exact .bind (declareFunction_agrees declaration here) fun _ _ after _ => .pure after.values trivial
  | classDecl name superclass methods =>
      exact .bind (declareClass_agrees name superclass methods here) fun _ _ after _ => .pure after.values trivial
  | _ => exact agreement.executeWith evaluates.kept executes.kept rounds here.values here.current rfl

theorem checking_agrees_plain (broken : Stop) (fuel : Nat) :
    Evaluates ((Invoker.checking broken).evaluate fuel) (Lox.evaluate fuel) ∧
      Executes ((Invoker.checking broken).execute fuel) (Lox.execute fuel) := by
  induction fuel with
  | zero =>
      exact ⟨fun _ _ here => .of_ends (.stopped (.refl here.values)), fun _ _ here => .of_ends (.stopped (.refl here.values))⟩
  | succ fuel ih =>
      obtain ⟨evaluates, executes⟩ := ih
      refine ⟨fun e m here => ?_, fun a m here => ?_⟩
      · rw [Invoker.evaluate, Lox.evaluate, onStack_eq]
        exact evaluateWith_agrees broken evaluates executes e m here
      · rw [Invoker.execute, Lox.execute, onStack_eq]
        exact executeWith_agrees evaluates executes fuel a m here

end Parts

/-! ## Runs one after the other -/

theorem sound_initial (sink : Sink) (clock : Float) : Sound (.initial sink clock) :=
  ⟨Nat.zero_lt_one, anchoredStore_initial⟩

theorem Sound.interpret (here : Sound m) (fuel : Nat) (program : List Stmt) (distances : Distances) :
    Sound (leaves (interpret fuel program distances) m) := by
  have started : Sound { m with distances } := ⟨here.current, here.values⟩
  have ends := (executeAll_agrees (checking_agrees_plain .outOfFuel fuel).2 program started).ends
  rw [leaves_interpret, leaves]
  cases ended : executeAll (execute fuel) program { m with distances } with
  | ok flow m' =>
      rw [ended] at ends
      obtain ⟨after, -⟩ | _ := ends
      exact started.after after
  | error stop m' =>
      rw [ended] at ends
      obtain _ | after := ends
      exact started.after after

theorem sound_interpretEach (runs : List (Nat × List Stmt × Distances)) (here : Sound m) :
    Sound (interpretEach runs m) := by
  induction runs generalizing m with
  | nil => exact here
  | cons first rest ih =>
      obtain ⟨fuel, program, distances⟩ := first
      exact ih (here.interpret fuel program distances)

theorem checking_interpret (broken : Stop) (fuel : Nat) (program : List Stmt) (distances : Distances)
    (here : Sound m) :
    (Invoker.checking broken).interpret fuel program distances m = interpret fuel program distances m := by
  have started : Sound { m with distances } := ⟨here.current, here.values⟩
  exact congrArg _ (executeAll_agrees (checking_agrees_plain broken fuel).2 program started).same

/-! ## Calls with another number of arguments -/

/-- The values of expressions that are evaluated from left to right, each after the one before. -/
inductive InTurn (evaluate : Expr → Run Value) : List Expr → Machine → List Value → Machine → Prop where
  | nil {m : Machine} : InTurn evaluate [] m [] m
  | cons {e : Expr} {es : List Expr} {v : Value} {vs : List Value} {m m₁ m₂ : Machine}
      (first : evaluate e m = .ok v m₁) (rest : InTurn evaluate es m₁ vs m₂) :
      InTurn evaluate (e :: es) m (v :: vs) m₂

theorem InTurn.evaluateAll {evaluate : Expr → Run Value} {es : List Expr} {vs : List Value}
    (turn : InTurn evaluate es m vs m') : evaluateAll evaluate es m = .ok vs m' := by
  induction turn with
  | nil => rfl
  | cons first _ ih => exact bind_of first |>.trans (bind_of ih)

theorem InTurn.length_eq {evaluate : Expr → Run Value} {es : List Expr} {vs : List Value}
    (turn : InTurn evaluate es m vs m') : vs.length = es.length := by
  induction turn with
  | nil => rfl
  | cons _ _ ih => exact congrArg Nat.succ ih

theorem miscounted {fuel : Nat} {callee : Expr} {paren : Token} {arguments : List Expr} {target : Value}
    {values : List Value} {arity : Nat} (evaluated : evaluate fuel callee m = .ok target m')
    (turn : InTurn (evaluate fuel) arguments m' values m'') (takes : target.arity? = some arity)
    (other : arguments.length ≠ arity) :
    evaluate (fuel + 1) (.call callee paren arguments) m =
      .error (.runtime ⟨.wrongArity arity arguments.length, paren.line⟩) m'' := by
  have count := turn.length_eq
  rw [← count] at other ⊢
  rw [evaluate, onStack_eq]
  refine (bind_of evaluated).trans ((bind_of turn.evaluateAll).trans ?_)
  rw [callChecked, takes]
  exact congrFun (if_neg other) m''

/--
Whatever programs run one after the other, and with whatever distances: each body of a function or of a method
starts with a new frame in that of its function, which binds just the parameters, each of them to its argument.
A call with another number of arguments ends after what is called and the arguments have been evaluated, at its
parenthesis and with nothing changed since.
-/
theorem bodies_start_with_parameters (earlier : List (Nat × List Stmt × Distances)) (sink : Sink) (clock : Float)
    (fuel : Nat) (program : List Stmt) (distances : Distances) :
    (∀ broken, (Invoker.checking broken).interpret fuel program distances (interpretEach earlier (.initial sink clock)) =
      interpret fuel program distances (interpretEach earlier (.initial sink clock))) ∧
    ∀ callee paren arguments m target m₁ values m₂ arity,
      evaluate fuel callee m = .ok target m₁ → InTurn (evaluate fuel) arguments m₁ values m₂ →
      target.arity? = some arity → arguments.length ≠ arity →
        evaluate (fuel + 1) (.call callee paren arguments) m =
          .error (.runtime ⟨.wrongArity arity arguments.length, paren.line⟩) m₂ := by
  constructor
  · intro broken
    have sound := sound_interpretEach earlier (sound_initial sink clock)
    exact checking_interpret broken fuel program distances sound
  · intro callee paren arguments m target m₁ values m₂ arity evaluated turn takes other
    exact miscounted evaluated turn takes other

/-- A class without methods, whose initializer is that of the class above it. -/
def heir : Class :=
  let initializer : FunctionDecl := ⟨⟨.identifier, initializerName, 1⟩, [⟨.identifier, "x", 1⟩], []⟩
  ⟨1, "B", some ⟨0, "A", none, methodTable Store.globals [initializer]⟩, .empty⟩

/-- A machine whose globals have the class. -/
def withHeir : Machine :=
  { Machine.initial .unlimited 0 with store := Store.initial.define Store.globals "B" (.ofClass heir) }

theorem heir_takes_argument :
    let callee : Expr := .read ⟨0, ⟨.identifier, "B", 1⟩⟩
    let paren : Token := ⟨.symbol .rightParen, ")", 7⟩
    evaluate 1 callee withHeir = .ok (.ofClass heir) withHeir ∧ (ValueOver.ofClass heir).arity? = some 1 ∧
      evaluate 2 (.call callee paren []) withHeir = .error (.runtime ⟨.wrongArity 1 0, 7⟩) withHeir := by
  intro callee paren
  have found : evaluate 1 callee withHeir = .ok (.ofClass heir) withHeir := by
    have unlisted : withHeir.distances.find? 0 = none := rfl
    have bound : withHeir.store.get? Store.globals "B" = some (.ofClass heir) := by
      rw [Store.get?_globals]
      rfl
    rw [evaluate, onStack_eq]
    simp only [callee, evaluateWith, lookUp, unlisted, Reference.name, bound]
  have takes : (ValueOver.ofClass heir).arity? = some 1 := by rfl
  refine ⟨found, takes, ?_⟩
  exact (bodies_start_with_parameters [] .unlimited 0 1 [] .empty).2 callee paren [] withHeir _ _ [] _ 1
    found .nil takes (by decide)

end Lox
