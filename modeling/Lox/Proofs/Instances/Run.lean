import Lox.Proofs.Dispatch.Run
import Lox.Proofs.Instances.Values
import Lox.Proofs.Subruns
import Lox.Proofs.Upkeep

/-!
# Runs bind what they take out of classes

Two runs of the same parts are compared: one goes on where the other one, led by a guide, is stopped at a
target. However the first one ends, all values around come from where they should, and no initializer was
without its instance. If the second one gets to the target, then the values are right there as well, and
behind it frames still have the same `this` (`Follows`). Each step of the run keeps this up (`Pursuit.upkeep`),
and so does the whole run (`under_follows`), by induction on the fuel.
-/

namespace Lox

open Classical in
/-- Lets pass what is visited, and nothing else. -/
noncomputable def patrol (visited : Site → Machine → Prop) : Watch := fun site m =>
  if visited site m then none else some .outOfFuel

/-- The machine that a site leaves, however it ends. -/
noncomputable def Site.leaves (watch : Watch) (level : Nat) (m : Machine) : Site → Machine
  | .expr e => Lox.leaves (evaluateUnder watch level e) m
  | .stmt a => Lox.leaves (executeUnder watch level a) m

/-- A way to stop in which neither guides nor initializers without an instance stop a run. -/
def Stop.Expected : Stop → Prop
  | .defect .escapedReturn | .runtime ⟨.initializerWithoutInstance, _⟩ => False
  | _ => True

namespace Binding
open Dispatch

/-- A target, and what runs may come by on the way to it and behind it. -/
structure Pursuit where
  visited : Site → Machine → Prop
  formed : ∀ site m, visited site m → site.WellFormed
  target : Site
  there : Machine

namespace Pursuit

noncomputable def led (P : Pursuit) : Watch := guide P.visited P.target P.there

noncomputable def free (P : Pursuit) : Watch := patrol P.visited

structure After (P : Pursuit) (m m' : Machine) : Prop where
  later : Later m.store m'.store
  rooted : RootedStore P.visited m'.store

inductive Ends (P : Pursuit) {α : Type} (m : Machine) (post : Store → α → Prop) :
    EStateM.Result Stop Machine α → Prop where
  | done {a : α} {m' : Machine} : P.After m m' → post m'.store a → Ends P m post (.ok a m')
  | stopped {stop : Stop} {m' : Machine} : P.After m m' → stop.Expected → Ends P m post (.error stop m')

/--
The guide stops the first action at the target. The second one goes on from there, first with what the target
does.
-/
structure Arrives (P : Pursuit) {α : Type} (m : Machine) (x y : Run α) : Prop where
  stopped : ∃ m', x m = .error (.defect .escapedReturn) m'
  rooted : RootedStore P.visited P.there.store
  later : Later P.there.store (leaves y m).store
  passed : ∃ level, Later (P.target.leaves P.free level P.there).store (leaves y m).store ∧
    (P.target.Stops P.free level P.there .outOfFuel → ∃ m', y m = .error .outOfFuel m')

/-- The second action ends as it should, and so does the first one if the guide does not stop it. -/
structure Follows (P : Pursuit) {α : Type} (m : Machine) (post : Store → α → Prop) (x y : Run α) : Prop where
  ends : P.Ends m post (y m)
  led : x m = y m ∨ P.Arrives m x y

variable {P : Pursuit} {m m' m'' : Machine} {α β : Type} {post : Store → α → Prop}
  {next : Store → β → Prop}

theorem After.refl (rooted : RootedStore P.visited m.store) : P.After m m := ⟨.refl, rooted⟩

theorem After.trans (first : P.After m m') (second : P.After m' m'') : P.After m m'' :=
  ⟨first.later.trans second.later, second.rooted⟩

theorem Arrives.bind {x y : Run α} {f g : α → Run β} (arrives : P.Arrives m x y)
    (more : Later (leaves y m).store (leaves (y >>= g) m).store) : P.Arrives m (x >>= f) (y >>= g) := by
  obtain ⟨⟨m₁, stopped⟩, rooted, later, level, own, starves⟩ := arrives
  refine ⟨⟨m₁, bind_of_error stopped⟩, rooted, later.trans more, level, own.trans more, fun starved => ?_⟩
  obtain ⟨m₂, starved⟩ := starves starved
  exact ⟨m₂, bind_of_error starved⟩

theorem Arrives.within {frame : FrameId} {x y : Run α} (arrives : P.Arrives { m with current := frame } x y) :
    P.Arrives m (Run.within frame x) (Run.within frame y) := by
  obtain ⟨⟨m₁, stopped⟩, rooted, later, level, own, starves⟩ := arrives
  have same := congrArg Machine.store (leaves_within frame y m)
  refine ⟨⟨_, within_of_error stopped⟩, rooted, same ▸ later, level, same ▸ own, fun starved => ?_⟩
  obtain ⟨m₂, starved⟩ := starves starved
  exact ⟨_, within_of_error starved⟩

/-! ## Steps in which nothing is shown to a watch -/

namespace Ends

theorem pure {a : α} (rooted : RootedStore P.visited m.store) (holds : post m.store a) :
    P.Ends m post ((Pure.pure a : Run α) m) :=
  .done (.refl rooted) holds

theorem raise {cause : RuntimeError.Cause} {token : Token} (rooted : RootedStore P.visited m.store)
    (expected : (Stop.runtime ⟨cause, token.line⟩).Expected) :
    P.Ends m post ((Run.raise cause token : Run α) m) :=
  .stopped (.refl rooted) expected

theorem before {result : EStateM.Result Stop Machine α} (first : P.After m m')
    (rest : P.Ends m' post result) : P.Ends m post result := by
  cases rest with
  | done after holds => exact .done (first.trans after) holds
  | stopped after expected => exact .stopped (first.trans after) expected

theorem bind {x : Run α} {f : α → Run β} (first : P.Ends m post (x m))
    (rest : ∀ a m', P.After m m' → post m'.store a → P.Ends m' next (f a m')) :
    P.Ends m next ((x >>= f) m) := by
  cases ended : x m with
  | ok a m' =>
      rw [ended] at first
      obtain ⟨after, holds⟩ | _ := first
      rw [bind_of ended]
      exact .before after (rest a m' after holds)
  | error stop m' =>
      rw [ended] at first
      obtain _ | ⟨after, expected⟩ := first
      rw [bind_of_error ended]
      exact .stopped after expected

theorem current {f : FrameId → Run α} (rest : P.Ends m post (f m.current m)) :
    P.Ends m post ((Run.current >>= f) m) :=
  rest

theorem within {frame : FrameId} {x : Run α}
    (inside : P.Ends { m with current := frame } post (x { m with current := frame })) :
    P.Ends m post (Run.within frame x m) := by
  unfold Run.within
  cases ended : x { m with current := frame } with
  | ok a m' =>
      rw [ended] at inside
      obtain ⟨after, holds⟩ | _ := inside
      exact .done ⟨after.later, after.rooted⟩ holds
  | error stop m' =>
      rw [ended] at inside
      obtain _ | ⟨after, expected⟩ := inside
      exact .stopped ⟨after.later, after.rooted⟩ expected

theorem after_leaves {x : Run α} (ends : P.Ends m post (x m)) : P.After m (leaves x m) := by
  unfold leaves
  cases ended : x m with
  | ok a m' =>
      rw [ended] at ends
      obtain ⟨after, -⟩ | _ := ends
      exact after
  | error stop m' =>
      rw [ended] at ends
      obtain _ | ⟨after, -⟩ := ends
      exact after

end Ends

/-! ## Steps of both runs -/

namespace Follows

theorem of_ends {x : Run α} (ends : P.Ends m post (x m)) : P.Follows m post x x := ⟨ends, .inl rfl⟩

theorem bind {x y : Run α} {f g : α → Run β} (first : P.Follows m post x y)
    (rest : ∀ a m', P.After m m' → post m'.store a → P.Follows m' next (f a) (g a)) :
    P.Follows m next (x >>= f) (y >>= g) := by
  obtain ⟨ends, led⟩ := first
  refine ⟨ends.bind fun a m' after holds => (rest a m' after holds).ends, ?_⟩
  cases ended : y m with
  | ok a m' =>
      rw [ended] at ends
      obtain ⟨after, holds⟩ | _ := ends
      obtain ⟨ends', led'⟩ := rest a m' after holds
      have onward : leaves (y >>= g) m = leaves (g a) m' := by
        rw [leaves, bind_of ended, leaves]
      rcases led with same | arrives
      · rw [ended] at same
        rcases led' with same' | ⟨stopped, rooted, later, own⟩
        · rw [bind_of same, bind_of ended]
          exact .inl same'
        · rw [← onward] at later own
          rw [← bind_of (f := f) same] at stopped
          rw [← bind_of (f := g) ended] at own
          exact .inr ⟨stopped, rooted, later, own⟩
      · apply Or.inr (arrives.bind _)
        rw [onward, leaves, ended]
        exact ends'.after_leaves.later
  | error stop m' =>
      rcases led with same | arrives
      · rw [ended] at same
        exact .inl ((bind_of_error same).trans (bind_of_error ended).symm)
      · apply Or.inr (arrives.bind _)
        rw [leaves, leaves, bind_of_error ended, ended]
        exact .refl

theorem get {f g : Machine → Run α} (rest : P.Follows m post (f m) (g m)) :
    P.Follows m post (MonadState.get >>= f) (MonadState.get >>= g) := by
  refine ⟨rest.ends, ?_⟩
  rcases rest.led with same | ⟨stopped, rooted, later, own⟩
  · exact .inl same
  · exact .inr ⟨stopped, rooted, later, own⟩

theorem within {frame : FrameId} {x y : Run α}
    (inside : P.Follows { m with current := frame } post x y) :
    P.Follows m post (Run.within frame x) (Run.within frame y) := by
  refine ⟨inside.ends.within, ?_⟩
  rcases inside.led with same | arrives
  · exact .inl (within_of_eq same)
  · exact .inr arrives.within

/-- At the target the guide stops one run, elsewhere both go on in the same way. -/
theorem supervised {site : Site} {x y : Run α} (level : Nat) (rooted : RootedStore P.visited m.store)
    (own : site.leaves P.free level m = leaves (supervised P.free site y) m)
    (starves : site.Stops P.free level m .outOfFuel →
      ∃ m', Lox.supervised P.free site y m = .error .outOfFuel m')
    (passed : P.visited site m → P.Follows m post x y) :
    P.Follows m post (Lox.supervised P.led site x) (Lox.supervised P.free site y) := by
  have ends : P.Ends m post (Lox.supervised P.free site y m) := by
    by_cases visited : P.visited site m
    · rw [supervised_of_none (if_pos visited)]
      exact (passed visited).ends
    · rw [supervised_of_some (if_neg visited)]
      exact .stopped (.refl rooted) trivial
  refine ⟨ends, ?_⟩
  by_cases arrived : site = P.target ∧ m = P.there
  · have stopped : P.led site m = some (.defect .escapedReturn) := if_pos arrived
    obtain ⟨rfl, rfl⟩ := arrived
    refine .inr ⟨⟨_, supervised_of_some stopped⟩, rooted, ends.after_leaves.later, level, ?_, starves⟩
    rw [own]
    exact .refl
  · by_cases visited : P.visited site m
    · have unled : P.led site m = none := (if_neg arrived).trans (if_pos visited)
      have free : P.free site m = none := if_pos visited
      have ledOn : Lox.supervised P.led site x m = x m := supervised_of_none unled
      have goesOn : Lox.supervised P.free site y m = y m := supervised_of_none free
      rcases (passed visited).led with same | ⟨stopped, rooted, later, own⟩
      · rw [ledOn, goesOn]
        exact .inl same
      · rw [← ledOn] at stopped
        rw [leaves, ← goesOn] at later own
        exact .inr ⟨stopped, rooted, later, own⟩
    · have unled : P.led site m = some .outOfFuel := (if_neg arrived).trans (if_neg visited)
      have free : P.free site m = some .outOfFuel := if_neg visited
      rw [supervised_of_some unled, supervised_of_some free]
      exact .inl rfl

end Follows

/-! ## Variables -/

theorem lookUp_ends (r : Reference) (rooted : RootedStore P.visited m.store) :
    P.Ends m (Rooted P.visited) (lookUp r m) := by
  unfold lookUp
  simp only
  split
  · rename_i v found
    refine .pure rooted (rooted v ?_)
    split at found
    · exact .of_getAt? found
    · exact .of_get? found
  · exact .raise rooted trivial

theorem define_ends {frame : FrameId} {name : String} {v : Value} (isName : IsName name)
    (rooted : RootedStore P.visited m.store) (value : Rooted P.visited m.store v) :
    P.Ends m (fun _ _ => True) (Run.define frame name v m) :=
  .done ⟨later_define isName, rooted.define isName value⟩ trivial

theorem assign_ends {r : Reference} {v : Value} (isName : IsName r.name)
    (rooted : RootedStore P.visited m.store) (value : Rooted P.visited m.store v) :
    P.Ends m (fun _ _ => True) (assign r v m) := by
  rcases assign_cases r v m with undefined | ⟨frame, defines⟩
  · rw [undefined]
    exact .raise rooted trivial
  · rw [defines]
    exact define_ends isName rooted value

/-! ## Methods and their instances -/

theorem newFrame_ends {inside : Store → FrameId → Prop} {outer : FrameId} (holds : ∀ s frame, inside s frame)
    (rooted : RootedStore P.visited m.store) : P.Ends m inside (Run.newFrame outer m) :=
  .done ⟨later_newFrame outer, rooted.newFrame outer⟩ (holds _ _)

theorem newIdentity_ends (rooted : RootedStore P.visited m.store) :
    P.Ends m (fun _ _ => True) (Run.newIdentity m) :=
  .done ⟨later_newIdentity, rooted.newIdentity⟩ trivial

theorem bindMethod_ends {c : Class} {name : String} {method : Closure} {i : Instance}
    (rooted : RootedStore P.visited m.store) (formed : FormedClass c)
    (found : c.findMethod? name = some method) (instance' : Rooted P.visited m.store (.ofInstance i)) :
    P.Ends m (fun s bound => ∀ identity, Rooted P.visited s (.function identity bound)) (bindMethod method i m) := by
  apply Ends.done
  · exact ⟨later_frameWith method.captured "this" (.ofInstance i),
      rooted.frameWith method.captured "this" instance'⟩
  · intro identity
    exact ⟨formed name method found, .bound c name method i found rfl frameWith_bound⟩

theorem newInstance_ends {type : Class} (formed : FormedClass type) (rooted : RootedStore P.visited m.store) :
    P.Ends m (fun s made => Rooted P.visited s (.ofInstance made)) (Run.newInstance type m) := by
  refine .done ⟨later_newInstance type, rooted.newInstance type⟩ ⟨?_, formed⟩
  simp

theorem setField_ends {i : Instance} {name : String} {v : Value} (rooted : RootedStore P.visited m.store)
    (value : Rooted P.visited m.store v) : P.Ends m (fun _ _ => True) (Run.setField i name v m) :=
  .done ⟨later_setField i name v, rooted.setField i name value⟩ trivial

theorem emit_ends (text : String) (rooted : RootedStore P.visited m.store) :
    P.Ends m (fun _ _ => True) (Run.emit text m) := by
  unfold Run.emit
  obtain ⟨failed, sink⟩ := m.sink.write text
  cases failed with
  | none => exact .done ⟨.refl, rooted⟩ trivial
  | some error => exact .stopped ⟨.refl, rooted⟩ trivial

/-! ## Declarations -/

theorem declareFunction_ends {declaration : FunctionDecl}
    (visited : P.visited (.stmt (.funDecl declaration)) m) (rooted : RootedStore P.visited m.store) :
    P.Ends m (fun _ _ => True) (declareFunction declaration m) := by
  have formed : declaration.WellFormed := by
    have formed := P.formed _ _ visited
    rwa [Site.WellFormed, Stmt.WellFormed] at formed
  have isName : IsName declaration.name.lexeme := by
    obtain ⟨name, params, body⟩ := declaration
    rw [FunctionDecl.WellFormed] at formed
    exact formed.1
  refine .current (.bind (newIdentity_ends rooted) fun identity m₁ after₁ _ => ?_)
  exact define_ends isName after₁.rooted ⟨formed, .declared m visited rfl rfl⟩

theorem lookUpSuperclass_ends (r : Reference) (rooted : RootedStore P.visited m.store) :
    P.Ends m (fun _ parent => FormedClass parent) (lookUpSuperclass r m) := by
  refine .bind (lookUp_ends r rooted) fun v m₁ after₁ value => ?_
  cases v with
  | ofClass parent => exact .pure after₁.rooted value
  | _ => exact .raise after₁.rooted trivial

theorem formedClass_made {home : FrameId} {identity : Nat} {name : String} {parent : Option Class}
    {methods : List FunctionDecl} (formed : FunctionDecl.WellFormedAll methods)
    (inherits : ∀ c ∈ parent, FormedClass c) :
    FormedClass ⟨identity, name, parent, methodTable home methods⟩ := by
  intro name method found
  rcases findMethod?_made found with ⟨d, mem, rfl⟩ | ⟨c, above, found⟩
  · exact formed.of_mem mem
  · exact inherits c above name method found

theorem declareClass_ends {name : Token} {superclass : Option Reference} {methods : List FunctionDecl}
    (formed : (Stmt.classDecl name superclass methods).WellFormed) (rooted : RootedStore P.visited m.store) :
    P.Ends m (fun _ _ => True) (declareClass name superclass methods m) := by
  rw [Stmt.WellFormed] at formed
  obtain ⟨isName, -, formed⟩ := formed
  have makes {m₁ : Machine} {home : FrameId} {parent : Option Class} (rooted₁ : RootedStore P.visited m₁.store)
      (inherits : ∀ c ∈ parent, FormedClass c) :
      P.Ends m₁ (fun _ _ => True) ((do
        let identity ← Run.newIdentity
        Run.define m.current name.lexeme
          (.ofClass ⟨identity, name.lexeme, parent, methodTable home methods⟩) : Run Unit) m₁) := by
    refine .bind (newIdentity_ends rooted₁) fun identity m₂ after₂ _ => ?_
    exact define_ends isName after₂.rooted (formedClass_made formed inherits)
  cases superclass with
  | none => exact makes rooted nofun
  | some reference =>
      refine .current (.bind (lookUpSuperclass_ends reference rooted) fun parent m₁ after₁ inherits => ?_)
      -- No variable is called `super`, so the frame for it is made and filled in one step here.
      have made : P.After m₁ { m₁ with store := frameWith m.current "super" (.ofClass parent) m₁.store } :=
        ⟨later_frameWith _ _ _, after₁.rooted.frameWith m.current "super" inherits⟩
      refine .before made (makes made.rooted fun c mem => ?_)
      cases mem
      exact inherits

/-! ## Expressions and statements -/

def RootedFlow (visited : Site → Machine → Prop) (s : Store) : Flow → Prop
  | .normal => True
  | .returned v => Rooted visited s v

def Evaluates (P : Pursuit) (evaluate evaluate' : Expr → Run Value) : Prop :=
  ∀ e m, RootedStore P.visited m.store → P.Follows m (Rooted P.visited) (evaluate e) (evaluate' e)

def Executes (P : Pursuit) (execute execute' : Stmt → Run Flow) : Prop :=
  ∀ a m, RootedStore P.visited m.store → P.Follows m (RootedFlow P.visited) (execute a) (execute' a)

theorem rooted_of_plain {s : Store} {v : Value} (plain : Plain v) : Rooted P.visited s v := by
  cases v with
  | function _ _ | ofClass _ | ofInstance _ => exact plain.elim
  | _ => trivial

theorem expected_of_other {error : RuntimeError} (other : error.cause ≠ .initializerWithoutInstance) :
    (Stop.runtime error).Expected := by
  obtain ⟨cause, line⟩ := error
  cases cause with
  | initializerWithoutInstance => exact other rfl
  | _ => trivial

/-- The guided run follows the other one, and values come from where they should. -/
def upkeep (P : Pursuit) : Upkeep where
  Sound m := RootedStore P.visited m.store
  Good := Rooted P.visited
  Binds _ _ := IsName
  Shown _ _ _ := True
  Passed := P.visited
  Allowed := Stop.Expected
  After := P.After
  Relates := P.Follows
  refl := .refl
  sound_after after := after.rooted
  sound_within _ := id
  good_after after value := value.later after.later
  binds_after _ := id
  shown_after _ := id
  shown_current _ := id
  plain := rooted_of_plain
  type instance' := instance'.2
  field rooted _ bound := rooted _ (.inr ⟨_, _, bound⟩)
  this rooted _ bound := rooted _ (.inl ⟨_, _, bound⟩)
  starving := trivial
  failing _ _ _ := expected_of_other
  unmade function flagged unbound := by
    -- An initializer still finds the instance that it was bound to when its body has run.
    obtain ⟨i, this⟩ := function.2.this flagged
    rw [unbound] at this
    cases this
  pure rooted holds := .of_ends (.pure rooted holds)
  stop rooted expected := .of_ends (.stopped (.refl rooted) expected)
  get _ := .get
  bind := .bind
  within := .within
  define rooted isName value := .of_ends (define_ends isName rooted value)
  newIdentity rooted := .of_ends (newIdentity_ends rooted)
  newInstance rooted formed := .of_ends (newInstance_ends formed rooted)
  setField rooted _ value := .of_ends (setField_ends rooted value)
  emit text rooted := .of_ends (emit_ends text rooted)
  bindMethod rooted formed found instance' := .of_ends (bindMethod_ends rooted formed found instance')
  block rooted _ := .of_ends (newFrame_ends (fun _ _ _ _ => trivial) rooted)
  body rooted function :=
    .of_ends (newFrame_ends (fun _ _ => ⟨function.1.params, fun _ _ => trivial⟩) rooted)
  part _ _ := trivial
  varDecl visited _ := by
    have formed := P.formed _ _ visited
    rw [Site.WellFormed, Stmt.WellFormed] at formed
    exact formed.1

variable {evaluate evaluate' : Expr → Run Value} {execute execute' : Stmt → Run Flow}

theorem Evaluates.upkeep (evaluates : P.Evaluates evaluate evaluate') : P.upkeep.Evaluates evaluate evaluate' :=
  fun e m rooted _ => evaluates e m rooted

theorem Executes.upkeep (executes : P.Executes execute execute') : P.upkeep.Executes execute execute' :=
  fun a m rooted _ => executes a m rooted

theorem getInherited_follows {keyword : Reference} {method : Token} (rooted : RootedStore P.visited m.store) :
    P.Follows m (Rooted P.visited) (getInherited keyword method) (getInherited keyword method) := by
  refine .get ?_
  cases found : findInherited m keyword with
  | none => exact .of_ends (.stopped (.refl rooted) trivial)
  | some means =>
      obtain ⟨parent, i⟩ := means
      obtain ⟨inner, -, parentBound, instanceBound⟩ := findInherited_inv found
      have formed : Rooted P.visited m.store (.ofClass parent) := rooted _ (.of_getAt? parentBound)
      have instance' := rooted _ (.of_getAt? instanceBound)
      exact Upkeep.findMethod (U := P.upkeep) rooted (fun _ _ => expected_of_other) formed instance'

theorem executeAll_follows (executes : P.Executes execute execute') (body : List Stmt)
    (rooted : RootedStore P.visited m.store) :
    P.Follows m (RootedFlow P.visited) (executeAll execute body) (executeAll execute' body) :=
  Upkeep.executeAll executes.upkeep rooted fun _ _ => trivial

theorem evaluateAll_follows (evaluates : P.Evaluates evaluate evaluate') (es : List Expr)
    (rooted : RootedStore P.visited m.store) :
    P.Follows m (fun s vs => ∀ v ∈ vs, Rooted P.visited s v) (evaluateAll evaluate es)
      (evaluateAll evaluate' es) :=
  Upkeep.evaluateAll evaluates.upkeep rooted fun _ _ => trivial

theorem callChecked_follows (executes : P.Executes execute execute') {callee : Value} {paren : Token}
    {arguments : List Value} (rooted : RootedStore P.visited m.store) (target : Rooted P.visited m.store callee)
    (values : ∀ v ∈ arguments, Rooted P.visited m.store v) :
    P.Follows m (Rooted P.visited) (callChecked execute callee paren arguments)
      (callChecked execute' callee paren arguments) :=
  Upkeep.callChecked executes.upkeep rooted (fun _ _ => expected_of_other) target values

/-! ## Meanings from the meanings of parts -/

theorem evaluateWith_follows (evaluates : P.Evaluates evaluate evaluate')
    (executes : P.Executes execute execute') {e : Expr} (visited : P.visited (.expr e) m)
    (rooted : RootedStore P.visited m.store) :
    P.Follows m (Rooted P.visited) (evaluateWith evaluate execute e) (evaluateWith evaluate' execute' e) := by
  cases e with
  | read name => exact .of_ends (lookUp_ends name rooted)
  | assign name value =>
      have formed := P.formed _ _ visited
      rw [Site.WellFormed, Expr.WellFormed] at formed
      refine .bind (evaluates value m rooted) fun v m₁ after₁ value => ?_
      refine .bind (.of_ends (assign_ends formed.2 after₁.rooted value)) fun _ m₂ after₂ _ => ?_
      exact .of_ends (.pure after₂.rooted (value.later after₂.later))
  | self keyword => exact .of_ends (lookUp_ends keyword rooted)
  | inherited keyword method => exact getInherited_follows rooted
  | _ => exact Upkeep.evaluateWith evaluates.upkeep executes.upkeep rooted visited rfl

theorem executeWith_follows (evaluates : P.Evaluates evaluate evaluate')
    (executes : P.Executes execute execute') (rounds : Nat) {a : Stmt} (visited : P.visited (.stmt a) m)
    (rooted : RootedStore P.visited m.store) :
    P.Follows m (RootedFlow P.visited) (executeWith rounds evaluate execute a)
      (executeWith rounds evaluate' execute' a) := by
  cases a with
  | funDecl declaration =>
      refine .bind (.of_ends (declareFunction_ends visited rooted)) fun _ m₁ after₁ _ => ?_
      exact .of_ends (.pure after₁.rooted trivial)
  | classDecl name superclass methods =>
      have formed : (Stmt.classDecl name superclass methods).WellFormed := P.formed _ _ visited
      refine .bind (.of_ends (declareClass_ends formed rooted)) fun _ m₁ after₁ _ => ?_
      exact .of_ends (.pure after₁.rooted trivial)
  | _ => exact Upkeep.executeWith evaluates.upkeep executes.upkeep rounds rooted visited rfl

theorem under_follows (P : Pursuit) (fuel : Nat) :
    P.Evaluates (evaluateUnder P.led fuel) (evaluateUnder P.free fuel) ∧
      P.Executes (executeUnder P.led fuel) (executeUnder P.free fuel) := by
  induction fuel with
  | zero =>
      constructor
      · intro e m rooted
        exact .of_ends (.stopped (.refl rooted) trivial)
      · intro a m rooted
        exact .of_ends (.stopped (.refl rooted) trivial)
  | succ fuel ih =>
      obtain ⟨evaluates, executes⟩ := ih
      constructor
      · intro e m rooted
        refine .supervised (fuel + 1) rooted rfl id fun visited => ?_
        exact evaluateWith_follows evaluates executes visited rooted
      · intro a m rooted
        refine .supervised (fuel + 1) rooted rfl id fun visited => ?_
        exact executeWith_follows evaluates executes fuel visited rooted

end Pursuit

end Binding

end Lox
