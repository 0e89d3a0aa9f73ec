import Lox.Proofs.Sequence
import Lox.Proofs.Store
import Lox.Proofs.Upkeep

/-!
# What a call can change

From a value a run gets only to what the value refers to, directly or through other values, frames and
fields (`Reachable`). A set of frames and instances that no reference leaves, and that has room for what is
new, is a territory. Evaluations and executions that start in a territory read values from it and change
nothing outside (`evaluate_execute_confined`). What is reachable from a callee and its arguments is one, so
that a call changes nothing else, wherever it is made (`call_footprint`).
-/

namespace Lox

/-! ## References -/

inductive Part where
  | frame (f : FrameId)
  | value (v : Value)

/-- One part of a store refers to another one. -/
inductive Refers (s : Store) : Part → Part → Prop where
  | captured (identity : Nat) (closure : Closure) :
      Refers s (.value (.function identity closure)) (.frame closure.captured)
  | enclosing {f outer : FrameId} (link : s.enclosing? f = some outer) : Refers s (.frame f) (.frame outer)
  | content {f : FrameId} {name : String} {v : Value} (bound : s.read? f name = some v) :
      Refers s (.frame f) (.value v)
  | method {c : Class} {name : String} {method : Closure} (own : c.methods.find? name = some method) :
      Refers s (.value (.ofClass c)) (.frame method.captured)
  | superclass {c parent : Class} (derived : c.superclass = some parent) :
      Refers s (.value (.ofClass c)) (.value (.ofClass parent))
  | type (i : Instance) : Refers s (.value (.ofInstance i)) (.value (.ofClass i.type))
  | field {i : Instance} {name : String} {v : Value} (bound : s.field? i name = some v) :
      Refers s (.value (.ofInstance i)) (.value v)

/-- What references lead to from a callee, from its arguments and from the globals. -/
inductive Reachable (s : Store) (callee : Value) (arguments : List Value) : Part → Prop where
  | callee : Reachable s callee arguments (.value callee)
  | argument {v : Value} (mem : v ∈ arguments) : Reachable s callee arguments (.value v)
  | globals : Reachable s callee arguments (.frame Store.globals)
  | step {a b : Part} (reached : Reachable s callee arguments a) (refers : Refers s a b) :
      Reachable s callee arguments b

structure Territory where
  frames : FrameId → Prop
  instances : Nat → Prop

namespace Territory

/-! ## Territories -/

def HoldsClass (T : Territory) (c : Class) : Prop :=
  ∀ name method, c.findMethod? name = some method → T.frames method.captured

/-- A run gets from this value to frames and instances of the territory only. -/
def Holds (T : Territory) : Value → Prop
  | .function _ closure => T.frames closure.captured
  | .ofClass c => T.HoldsClass c
  | .ofInstance i => T.instances i.id ∧ T.HoldsClass i.type
  | _ => True

/-- No reference leaves the territory, and what is not made yet belongs to it. -/
structure Closed (T : Territory) (s : Store) : Prop where
  globals : T.frames Store.globals
  newFrames : ∀ f, s.frames.size ≤ f → T.frames f
  newInstances : ∀ i, s.fields.size ≤ i → T.instances i
  links : ∀ f outer, T.frames f → s.enclosing? f = some outer → T.frames outer
  contents : ∀ f name v, T.frames f → s.read? f name = some v → T.Holds v
  fields : ∀ i name v, T.instances i.id → s.field? i name = some v → T.Holds v

structure Stays (T : Territory) (m m' : Machine) : Prop where
  frames : ∀ f, ¬ T.frames f → m'.store.frames[f]? = m.store.frames[f]?
  fields : ∀ i, ¬ T.instances i → m'.store.fields[i]? = m.store.fields[i]?
  current : m'.current = m.current
  closed : T.Closed m'.store

/-- However an action ends, it stays in the territory, and so does its value. -/
inductive Confined (T : Territory) {α : Type} (m : Machine) (post : α → Prop) :
    EStateM.Result Stop Machine α → Prop where
  | done {a : α} {m' : Machine} : T.Stays m m' → post a → Confined T m post (.ok a m')
  | stopped {stop : Stop} {m' : Machine} : T.Stays m m' → Confined T m post (.error stop m')

/-- The machine is in a frame of a territory. -/
structure Inside (T : Territory) (m : Machine) : Prop where
  closed : T.Closed m.store
  current : T.frames m.current

variable {T : Territory} {s : Store} {m m' m'' : Machine} {frame : FrameId} {name : String} {v : Value}
  {α β : Type} {post : α → Prop} {later : β → Prop}

theorem Stays.refl (closed : T.Closed m.store) : T.Stays m m := ⟨fun _ _ => rfl, fun _ _ => rfl, rfl, closed⟩

theorem Stays.trans (first : T.Stays m m') (second : T.Stays m' m'') : T.Stays m m'' where
  frames f outside := (second.frames f outside).trans (first.frames f outside)
  fields i outside := (second.fields i outside).trans (first.fields i outside)
  current := second.current.trans first.current
  closed := second.closed

theorem Inside.after (here : T.Inside m) (stays : T.Stays m m') : T.Inside m' :=
  ⟨stays.closed, stays.current ▸ here.current⟩

namespace Confined

theorem pure {a : α} (closed : T.Closed m.store) (holds : post a) :
    T.Confined m post ((Pure.pure a : Run α) m) :=
  .done (.refl closed) holds

theorem raise {cause : RuntimeError.Cause} {token : Token} (closed : T.Closed m.store) :
    T.Confined m post ((Run.raise cause token : Run α) m) :=
  .stopped (.refl closed)

theorem before {result : EStateM.Result Stop Machine α} (first : T.Stays m m')
    (rest : T.Confined m' post result) : T.Confined m post result := by
  cases rest with
  | done stays holds => exact .done (first.trans stays) holds
  | stopped stays => exact .stopped (first.trans stays)

theorem bind_ok {x : Run α} {f : α → Run β} (first : T.Confined m post (x m))
    (rest : ∀ a m', x m = .ok a m' → T.Stays m m' → post a → T.Confined m' later (f a m')) :
    T.Confined m later ((x >>= f) m) := by
  cases ended : x m with
  | ok a m' =>
      rw [ended] at first
      obtain ⟨stays, holds⟩ | _ := first
      rw [bind_of ended]
      exact .before stays (rest a m' ended stays holds)
  | error stop m' =>
      rw [ended] at first
      obtain _ | stays := first
      rw [bind_of_error ended]
      exact .stopped stays

theorem bind {x : Run α} {f : α → Run β} (first : T.Confined m post (x m))
    (rest : ∀ a m', T.Stays m m' → post a → T.Confined m' later (f a m')) :
    T.Confined m later ((x >>= f) m) :=
  first.bind_ok fun a m' _ => rest a m'

theorem imp {result : EStateM.Result Stop Machine α} {weaker : α → Prop} (confined : T.Confined m post result)
    (imp : ∀ a, post a → weaker a) : T.Confined m weaker result := by
  cases confined with
  | done stays holds => exact .done stays (imp _ holds)
  | stopped stays => exact .stopped stays

theorem get {f : Machine → Run α} (rest : T.Confined m post (f m m)) :
    T.Confined m post ((MonadState.get >>= f) m) :=
  rest

theorem current {f : FrameId → Run α} (rest : T.Confined m post (f m.current m)) :
    T.Confined m post ((Run.current >>= f) m) :=
  rest

theorem within {frame : FrameId} {x : Run α}
    (inside : T.Confined { m with current := frame } post (x { m with current := frame })) :
    T.Confined m post (Run.within frame x m) := by
  unfold Run.within
  cases ended : x { m with current := frame } with
  | ok a m' =>
      rw [ended] at inside
      obtain ⟨stays, holds⟩ | _ := inside
      exact .done ⟨stays.frames, stays.fields, rfl, stays.closed⟩ holds
  | error stop m' =>
      rw [ended] at inside
      obtain _ | stays := inside
      exact .stopped ⟨stays.frames, stays.fields, rfl, stays.closed⟩

end Confined

/-! ## Basic actions -/

namespace Closed

theorem define (closed : T.Closed s) (holds : T.Holds v) : T.Closed (s.define frame name v) := by
  refine ⟨closed.globals, fun f fresh => ?_, closed.newInstances, fun f outer here link => ?_,
    fun f name' v' here bound => ?_, closed.fields⟩
  · rw [Store.size_define] at fresh
    exact closed.newFrames f fresh
  · rw [Store.enclosing?_define] at link
    exact closed.links f outer here link
  · rcases Store.read?_define_inv bound with old | rfl
    · exact closed.contents f name' v' here old
    · exact holds

theorem newFrame (closed : T.Closed s) (own : T.frames frame) : T.Closed (s.newFrame (some frame)).2 := by
  refine ⟨closed.globals, fun f fresh => closed.newFrames f ?_, closed.newInstances, fun f outer here link => ?_,
    fun f name v here bound => ?_, closed.fields⟩
  · rw [Store.newFrame, Array.size_push] at fresh
    exact Nat.le_of_succ_le fresh
  · rcases Store.enclosing?_newFrame_inv link with old | rfl
    · exact closed.links f outer here old
    · exact own
  · rw [Store.read?_newFrame] at bound
    exact closed.contents f name v here bound

theorem newIdentity (closed : T.Closed s) : T.Closed s.newIdentity.2 :=
  ⟨closed.globals, closed.newFrames, closed.newInstances, closed.links, closed.contents, closed.fields⟩

theorem newInstance (closed : T.Closed s) (type : Class) : T.Closed (s.newInstance type).2 := by
  refine ⟨closed.globals, closed.newFrames, fun i fresh => closed.newInstances i ?_, closed.links, closed.contents,
    fun i name v here bound => ?_⟩
  · rw [Store.newInstance, Array.size_push] at fresh
    exact Nat.le_of_succ_le fresh
  · rw [Store.field?_newInstance] at bound
    exact closed.fields i name v here bound

theorem setField (closed : T.Closed s) (i : Instance) (holds : T.Holds v) : T.Closed (s.setField i name v) := by
  refine ⟨closed.globals, closed.newFrames, fun j fresh => closed.newInstances j ?_, closed.links, closed.contents,
    fun j name' v' here bound => ?_⟩
  · rw [Store.setField, Array.size_modify] at fresh
    exact fresh
  · rcases Store.field?_setField_inv bound with old | rfl
    · exact closed.fields j name' v' here old
    · exact holds

theorem ancestor? {f g : FrameId} {links : Nat} (closed : T.Closed s) (own : T.frames f)
    (reached : s.ancestor? f links = some g) : T.frames g := by
  induction links generalizing f with
  | zero =>
      cases reached
      exact own
  | succ links ih =>
      rw [Store.ancestor?] at reached
      split at reached
      · rename_i outer link
        exact ih (closed.links f outer own link) reached
      · cases reached

theorem getAt? {links : Nat} (closed : T.Closed s) (own : T.frames frame)
    (found : s.getAt? frame links name = some v) : T.Holds v := by
  obtain ⟨holder, reached, found⟩ := Store.read?_of_getAt? found
  exact closed.contents holder name v (closed.ancestor? own reached) found

end Closed

theorem define_confined (closed : T.Closed m.store) (own : T.frames frame) (holds : T.Holds v) :
    T.Confined m (fun _ => True) (Run.define frame name v m) := by
  refine .done ⟨fun f outside => ?_, fun _ _ => rfl, rfl, closed.define holds⟩ trivial
  refine Store.getElem?_define.trans (if_neg ?_)
  rintro rfl
  exact outside own

theorem newFrame_confined (closed : T.Closed m.store) (own : T.frames frame) :
    T.Confined m (fun made => T.frames made) (Run.newFrame frame m) := by
  have fresh : T.frames m.store.frames.size := closed.newFrames _ Nat.le.refl
  refine .done ⟨fun f outside => ?_, fun _ _ => rfl, rfl, closed.newFrame own⟩ fresh
  refine Array.getElem?_push.trans (if_neg ?_)
  rintro rfl
  exact outside fresh

theorem newIdentity_confined (closed : T.Closed m.store) : T.Confined m (fun _ => True) (Run.newIdentity m) :=
  .done ⟨fun _ _ => rfl, fun _ _ => rfl, rfl, closed.newIdentity⟩ trivial

theorem newInstance_confined {type : Class} (closed : T.Closed m.store) (methods : T.HoldsClass type) :
    T.Confined m (fun made => T.Holds (.ofInstance made)) (Run.newInstance type m) := by
  have fresh : T.instances m.store.fields.size := closed.newInstances _ Nat.le.refl
  refine .done ⟨fun _ _ => rfl, fun i outside => ?_, rfl, closed.newInstance type⟩ ⟨fresh, methods⟩
  refine Array.getElem?_push.trans (if_neg ?_)
  rintro rfl
  exact outside fresh

theorem setField_confined {i : Instance} (closed : T.Closed m.store) (own : T.instances i.id) (holds : T.Holds v) :
    T.Confined m (fun _ => True) (Run.setField i name v m) := by
  refine .done ⟨fun _ _ => rfl, fun j outside => ?_, rfl, closed.setField i holds⟩ trivial
  refine Array.getElem?_modify.trans (if_neg ?_)
  rintro rfl
  exact outside own

theorem emit_confined (text : String) (closed : T.Closed m.store) :
    T.Confined m (fun _ => True) (Run.emit text m) := by
  unfold Run.emit
  obtain ⟨failed, sink⟩ := m.sink.write text
  cases failed with
  | none => exact .done ⟨fun _ _ => rfl, fun _ _ => rfl, rfl, closed⟩ trivial
  | some error => exact .stopped ⟨fun _ _ => rfl, fun _ _ => rfl, rfl, closed⟩

theorem holds_of_plain (plain : Plain v) : T.Holds v := by
  cases v with
  | function _ _ | ofClass _ | ofInstance _ => exact plain.elim
  | _ => trivial

theorem bindMethod_confined {method : Closure} {i : Instance} (closed : T.Closed m.store)
    (own : T.frames method.captured) (holds : T.Holds (.ofInstance i)) :
    T.Confined m (fun bound => T.frames bound.captured) (bindMethod method i m) :=
  .bind (newFrame_confined closed own) fun _ _ stays₁ fresh =>
    .bind (define_confined stays₁.closed fresh holds) fun _ _ stays₂ _ => .pure stays₂.closed fresh

/-! ## Variables -/

theorem lookUp_confined (r : Reference) (here : T.Inside m) : T.Confined m T.Holds (lookUp r m) := by
  unfold lookUp
  simp only
  split
  · rename_i v found
    refine .done (.refl here.closed) ?_
    split at found
    · exact here.closed.getAt? here.current found
    · rw [Store.get?_globals] at found
      exact here.closed.contents _ _ _ here.closed.globals found
  · exact .raise here.closed

theorem assign_confined {r : Reference} (here : T.Inside m) (holds : T.Holds v) :
    T.Confined m (fun _ => True) (assign r v m) := by
  unfold assign
  simp only
  split
  · rename_i frame target
    refine define_confined here.closed ?_ holds
    split at target
    · exact here.closed.ancestor? here.current target
    · rw [Store.binder?_globals] at target
      split at target <;> cases target
      exact here.closed.globals
  · exact .raise here.closed

/-! ## All actions -/

/-- Runs stay in a territory. -/
def upkeep (T : Territory) : Upkeep where
  Sound m := T.Closed m.store
  Good _ := T.Holds
  Binds _ frame _ := T.frames frame
  Shown _ _ frame := T.frames frame
  Passed _ m := T.frames m.current
  Allowed _ := True
  After := T.Stays
  Relates m post _ y := T.Confined m (post (leaves y m).store) (y m)
  refl := .refl
  sound_after := Stays.closed
  sound_within _ := id
  good_after _ := id
  binds_after _ := id
  shown_after _ := id
  shown_current stays own := stays.current ▸ own
  plain := holds_of_plain
  type holds := holds.2
  field closed holds := closed.fields _ _ _ holds.1
  this closed own := closed.contents _ _ _ own
  starving := trivial
  failing _ _ _ _ := trivial
  unmade _ _ _ := trivial
  pure closed holds := .pure closed holds
  stop closed _ := .stopped (.refl closed)
  get _ rest := rest
  bind first rest := by
    refine first.bind_ok fun a m' ended stays holds => ?_
    rw [leaves, ended] at holds
    rw [leaves_bind ended]
    exact rest a m' stays holds
  within inside := .within (by rwa [leaves_within])
  define closed own holds := define_confined closed own holds
  newIdentity := newIdentity_confined
  newInstance closed methods := newInstance_confined closed methods
  setField closed target holds := setField_confined closed target.1 holds
  emit text closed := emit_confined text closed
  bindMethod closed methods found this :=
    (bindMethod_confined closed (methods _ _ found) this).imp fun _ own _ => own
  block closed own := (newFrame_confined closed own).imp fun _ fresh _ _ => fresh
  body closed own := (newFrame_confined closed own).imp fun _ fresh => ⟨fun _ _ => fresh, fun _ _ => fresh⟩
  part _ own := own
  varDecl own stays := stays.current ▸ own

/-! ## Statements in sequence -/

def HoldsFlow (T : Territory) : Flow → Prop
  | .normal => True
  | .returned v => T.Holds v

def Evaluates (T : Territory) (evaluate : Expr → Run Value) : Prop :=
  ∀ e m, T.Inside m → T.Confined m T.Holds (evaluate e m)

def Executes (T : Territory) (execute : Stmt → Run Flow) : Prop :=
  ∀ a m, T.Inside m → T.Confined m T.HoldsFlow (execute a m)

variable {evaluate : Expr → Run Value} {execute : Stmt → Run Flow}

theorem Evaluates.upkeep (evaluates : T.Evaluates evaluate) : T.upkeep.Evaluates evaluate evaluate :=
  fun e m closed own => evaluates e m ⟨closed, own⟩

theorem Executes.upkeep (executes : T.Executes execute) : T.upkeep.Executes execute execute :=
  fun a m closed own => executes a m ⟨closed, own⟩

theorem getInherited_confined {keyword : Reference} {method : Token} (here : T.Inside m) :
    T.Confined m T.Holds (getInherited keyword method m) := by
  refine .get ?_
  cases found : findInherited m keyword with
  | none => exact .stopped (.refl here.closed)
  | some means =>
      obtain ⟨parent, i⟩ := means
      obtain ⟨inner, -, parentBound, instanceBound⟩ := findInherited_inv found
      have methods : T.Holds (.ofClass parent) := here.closed.getAt? here.current parentBound
      have this : T.Holds (.ofInstance i) := here.closed.getAt? here.current instanceBound
      exact Upkeep.findMethod (U := T.upkeep) here.closed (fun _ _ _ => trivial) methods this

/-! ## Declarations -/

theorem declareFunction_confined (declaration : FunctionDecl) (here : T.Inside m) :
    T.Confined m (fun _ => True) (declareFunction declaration m) :=
  .current (.bind (newIdentity_confined here.closed) fun _ _ stays _ =>
    define_confined stays.closed here.current here.current)

theorem lookUpSuperclass_confined (r : Reference) (here : T.Inside m) :
    T.Confined m T.HoldsClass (lookUpSuperclass r m) := by
  refine .bind (lookUp_confined r here) fun v m₁ stays holds => ?_
  cases v with
  | ofClass parent => exact .pure stays.closed holds
  | _ => exact .raise stays.closed

theorem holdsClass_made {home : FrameId} {identity : Nat} {name : String} {parent : Option Class}
    {methods : List FunctionDecl} (own : T.frames home) (inherits : ∀ c ∈ parent, T.HoldsClass c) :
    T.HoldsClass ⟨identity, name, parent, methodTable home methods⟩ := by
  intro name method found
  rcases findMethod?_made found with ⟨d, mem, rfl⟩ | ⟨c, above, found⟩
  · exact own
  · exact inherits c above name method found

theorem declareClass_confined (name : Token) (superclass : Option Reference) (methods : List FunctionDecl)
    (here : T.Inside m) : T.Confined m (fun _ => True) (declareClass name superclass methods m) := by
  have makes {m₁ : Machine} {home : FrameId} {parent : Option Class} (closed : T.Closed m₁.store)
      (own : T.frames home) (inherits : ∀ c ∈ parent, T.HoldsClass c) :
      T.Confined m₁ (fun _ => True) ((do
        let identity ← Run.newIdentity
        Run.define m.current name.lexeme
          (.ofClass ⟨identity, name.lexeme, parent, methodTable home methods⟩) : Run Unit) m₁) :=
    .bind (newIdentity_confined closed) fun _ _ stays _ =>
      define_confined stays.closed here.current (holdsClass_made own inherits)
  cases superclass with
  | none => exact makes here.closed here.current nofun
  | some reference =>
      refine .current (.bind (lookUpSuperclass_confined reference here) fun parent m₁ stays₁ holds => ?_)
      refine .bind (newFrame_confined stays₁.closed here.current) fun home m₂ stays₂ own => ?_
      refine .bind (define_confined stays₂.closed own holds) fun _ m₃ stays₃ _ => ?_
      refine makes stays₃.closed own fun c mem => ?_
      cases mem
      exact holds

/-! ## Meanings from the meanings of parts -/

theorem evaluateWith_confined (evaluates : T.Evaluates evaluate) (executes : T.Executes execute) :
    T.Evaluates (evaluateWith evaluate execute) := by
  intro e m here
  cases e with
  | read name => exact lookUp_confined name here
  | assign name value =>
      refine .bind (evaluates value m here) fun v m₁ stays₁ holds => ?_
      refine .bind (assign_confined (here.after stays₁) holds) fun _ m₂ stays₂ _ => ?_
      exact .pure stays₂.closed holds
  | self keyword => exact lookUp_confined keyword here
  | inherited keyword method => exact getInherited_confined here
  | _ => exact T.upkeep.evaluateWith evaluates.upkeep executes.upkeep here.closed here.current rfl

theorem executeWith_confined (evaluates : T.Evaluates evaluate) (executes : T.Executes execute) (rounds : Nat) :
    T.Executes (executeWith rounds evaluate execute) := by
  intro a m here
  cases a with
  | funDecl declaration =>
      exact .bind (declareFunction_confined declaration here) fun _ _ stays _ => .pure stays.closed trivial
  | classDecl name superclass methods =>
      exact .bind (declareClass_confined name superclass methods here) fun _ _ stays _ =>
        .pure stays.closed trivial
  | _ => exact T.upkeep.executeWith evaluates.upkeep executes.upkeep rounds here.closed here.current rfl

theorem evaluate_execute_confined (T : Territory) (fuel : Nat) :
    T.Evaluates (Lox.evaluate fuel) ∧ T.Executes (Lox.execute fuel) := by
  induction fuel with
  | zero => exact ⟨fun _ _ here => .stopped (.refl here.closed), fun _ _ here => .stopped (.refl here.closed)⟩
  | succ fuel ih =>
      obtain ⟨evaluates, executes⟩ := ih
      refine ⟨fun e m here => ?_, fun a m here => ?_⟩
      · rw [Lox.evaluate, onStack_eq]
        exact evaluateWith_confined evaluates executes e m here
      · rw [Lox.execute, onStack_eq]
        exact executeWith_confined evaluates executes fuel a m here

end Territory

/-! ## What is reachable from a call -/

variable {s : Store} {callee : Value} {arguments : List Value}

theorem Reachable.method {c : Class} {name : String} {method : Closure}
    (reached : Reachable s callee arguments (.value (.ofClass c))) (found : c.findMethod? name = some method) :
    Reachable s callee arguments (.frame method.captured) := by
  fun_induction ClassOver.findMethod? name c with
  | case1 identity className superclass methods own here =>
      cases found
      exact reached.step (.method here)
  | case2 identity className methods missing parent ih => exact ih (reached.step (.superclass rfl)) found
  | case3 => cases found

namespace Territory

/-- What is reachable from a call, and all that is made later. -/
def ofCall (s : Store) (callee : Value) (arguments : List Value) : Territory where
  frames f := s.frames.size ≤ f ∨ Reachable s callee arguments (.frame f)
  instances i := s.fields.size ≤ i ∨ ∃ type, Reachable s callee arguments (.value (.ofInstance ⟨i, type⟩))

theorem holds_of_reachable {v : Value} (reached : Reachable s callee arguments (.value v)) :
    (ofCall s callee arguments).Holds v := by
  cases v with
  | function identity closure => exact .inr (reached.step (.captured identity closure))
  | ofClass c => exact fun name method found => .inr (reached.method found)
  | ofInstance i =>
      refine ⟨.inr ⟨i.type, reached⟩, fun name method found => .inr ?_⟩
      exact (reached.step (.type i)).method found
  | _ => trivial

theorem closed_ofCall (s : Store) (callee : Value) (arguments : List Value) :
    (ofCall s callee arguments).Closed s where
  globals := .inr .globals
  newFrames f fresh := .inl fresh
  newInstances i fresh := .inl fresh
  links f outer here link := by
    rcases here with fresh | reached
    · exact (Nat.not_lt_of_le fresh (Store.older_of_enclosing link)).elim
    · exact .inr (reached.step (.enclosing link))
  contents f name v here bound := by
    rcases here with fresh | reached
    · exact (Nat.not_lt_of_le fresh (Store.older_of_read bound)).elim
    · exact holds_of_reachable (reached.step (.content bound))
  fields i name v here bound := by
    rcases here with fresh | ⟨type, reached⟩
    · rw [Store.field?, Array.getElem?_eq_none fresh] at bound
      cases bound
    · exact holds_of_reachable (reached.step (.field bound))

theorem call_stays (fuel : Nat) (m : Machine) (callee : Value) (paren : Token) (arguments : List Value) :
    (ofCall m.store callee arguments).Stays m (leaves (callChecked (execute fuel) callee paren arguments) m) := by
  have executes := (evaluate_execute_confined (ofCall m.store callee arguments) fuel).2
  have confined : (ofCall m.store callee arguments).Confined m _ (callChecked (execute fuel) callee paren arguments m) :=
    Upkeep.callChecked executes.upkeep (closed_ofCall m.store callee arguments) (fun _ _ _ => trivial)
      (holds_of_reachable .callee) fun v mem => holds_of_reachable (.argument mem)
  unfold leaves
  cases ended : callChecked (execute fuel) callee paren arguments m with
  | ok v after =>
      rw [ended] at confined
      cases confined
      assumption
  | error stop after =>
      rw [ended] at confined
      cases confined
      assumption

end Territory

/--
Of the frames and instances that were there before a call, it changes only those that are reachable from what
is called, from the arguments and from the globals, even if it fails. So the variables around the call change
only if something reachable has captured them.
-/
theorem call_footprint (fuel : Nat) (m : Machine) (callee : Value) (paren : Token) (arguments : List Value) :
    let after := leaves (callChecked (execute fuel) callee paren arguments) m
    (∀ f < m.store.frames.size, after.store.frames[f]? ≠ m.store.frames[f]? →
      Reachable m.store callee arguments (.frame f)) ∧
    (∀ i < m.store.fields.size, after.store.fields[i]? ≠ m.store.fields[i]? →
      ∃ type, Reachable m.store callee arguments (.value (.ofInstance ⟨i, type⟩))) ∧
    ∀ links f, m.store.ancestor? m.current links = some f → f < m.store.frames.size →
      ¬ Reachable m.store callee arguments (.frame f) →
        ∀ name, after.store.read? f name = m.store.read? f name := by
  have stays := Territory.call_stays fuel m callee paren arguments
  have frames {f : FrameId} (older : f < m.store.frames.size)
      (unreached : ¬ Reachable m.store callee arguments (.frame f)) :
      (leaves (callChecked (execute fuel) callee paren arguments) m).store.frames[f]? = m.store.frames[f]? :=
    stays.frames f (not_or.mpr ⟨Nat.not_le_of_lt older, unreached⟩)
  refine ⟨fun f older changed => ?_, fun i older changed => ?_, fun links f around older unreached name => ?_⟩
  · refine Classical.byContradiction fun unreached => ?_
    exact changed (frames older unreached)
  · refine Classical.byContradiction fun unreached => ?_
    exact changed (stays.fields i (not_or.mpr ⟨Nat.not_le_of_lt older, unreached⟩))
  · rw [Store.read?, frames older unreached, Store.read?]

end Lox
