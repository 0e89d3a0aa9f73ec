import Mathlib
import Lox.Proofs.Access
import Lox.Proofs.Grammar.Trees
import Lox.Proofs.Store
import Lox.Proofs.Upkeep

/-!
# Running the same code again

A run may be repeated with other distances, or with other ways to its variables. If the ways lead to
the same places for all references of the program, the second run follows the first one step by step
(`Rerun.evaluates`, `Rerun.executes`). This needs that only code of the program gets into the store
(`MadeOf`), since functions are run at places where they are not written.

What the ways have in common may depend on the machine, so the first run is watched, and nothing is
said of a run that its watch stops.
-/

namespace Lox
open Run

/-! ## Code in the store -/

section Code

variable (listed : Reference → Prop)

def FunctionMadeOf (f : Closure) : Prop := ∀ r ∈ f.declaration.references, listed r

def ClassMadeOf (c : Class) : Prop := ∀ name f, c.findMethod? name = some f → FunctionMadeOf listed f

def ValueMadeOf : Value → Prop
  | .function _ f => FunctionMadeOf listed f
  | .ofClass c => ClassMadeOf listed c
  | .ofInstance i => ClassMadeOf listed i.type
  | _ => True

def FlowMadeOf : Flow → Prop
  | .normal => True
  | .returned v => ValueMadeOf listed v

/-- All functions that can be got out of the store refer to listed references only. -/
structure MadeOf (s : Store) : Prop where
  frames : ∀ frame name v, s.read? frame name = some v → ValueMadeOf listed v
  fields : ∀ i name v, s.field? i name = some v → ValueMadeOf listed v

end Code

namespace MadeOf

variable {listed : Reference → Prop} {s : Store}

theorem newFrame (made : MadeOf listed s) (enclosing : Option FrameId) :
    MadeOf listed (s.newFrame enclosing).2 where
  frames frame name v bound := made.frames frame name v (by rwa [Store.read?_newFrame] at bound)
  fields := made.fields

theorem define (made : MadeOf listed s) {v : Value} (value : ValueMadeOf listed v) (frame : FrameId)
    (name : String) : MadeOf listed (s.define frame name v) where
  frames frame name v bound := by
    rcases Store.read?_define_inv bound with old | rfl
    · exact made.frames frame name v old
    · exact value
  fields := made.fields

theorem newIdentity (made : MadeOf listed s) : MadeOf listed s.newIdentity.2 :=
  ⟨made.frames, made.fields⟩

theorem newInstance (made : MadeOf listed s) (type : Class) : MadeOf listed (s.newInstance type).2 where
  frames := made.frames
  fields i name v bound := made.fields i name v (by rwa [Store.field?_newInstance] at bound)

theorem setField (made : MadeOf listed s) {v : Value} (value : ValueMadeOf listed v) (i : Instance)
    (name : String) : MadeOf listed (s.setField i name v) where
  frames := made.frames
  fields i name v bound := by
    rcases Store.field?_setField_inv bound with old | rfl
    · exact made.fields i name v old
    · exact value

theorem getAt? (made : MadeOf listed s) {frame : FrameId} {links : Nat} {name : String} {v : Value}
    (found : s.getAt? frame links name = some v) : ValueMadeOf listed v := by
  obtain ⟨holder, -, found⟩ := Store.read?_of_getAt? found
  exact made.frames holder name v found

theorem get? (made : MadeOf listed s) {frame : FrameId} {name : String} {v : Value}
    (found : s.get? frame name = some v) : ValueMadeOf listed v := by
  obtain ⟨holder, found⟩ := Store.read?_of_get? found
  exact made.frames holder name v found

theorem initial : MadeOf listed .initial where
  frames frame name v bound := by
    rw [Store.read?_initial] at bound
    split at bound <;> cases bound
    trivial
  fields i name v bound := by cases bound

end MadeOf

theorem classMadeOf_made {listed : Reference → Prop} {identity : Nat} {name : String}
    {parent : Option Class} {home : FrameId} {methods : List FunctionDecl}
    (own : ∀ r ∈ FunctionDecl.referencesAll methods, listed r)
    (inherited : ∀ c ∈ parent, ClassMadeOf listed c) :
    ClassMadeOf listed ⟨identity, name, parent, methodTable home methods⟩ := by
  intro x f found
  rcases findMethod?_made found with ⟨d, mem, rfl⟩ | ⟨c, above, found⟩
  · exact fun r inside => own r (FunctionDecl.references_subset mem inside)
  · exact inherited c above x f found

/-! ## Two runs -/

def Site.references : Site → List Reference
  | .expr e => e.references
  | .stmt a => a.references

/--
A watched run with one table of distances, and how it is repeated: with which table, and by which
ways.
-/
structure Rerun where
  listed : Reference → Prop
  watch : Watch
  distances : Distances
  distances' : Distances
  access : Access

namespace Rerun

variable (R : Rerun)

def there (m : Machine) : Machine := { m with distances := R.distances' }

theorem there_sink (m : Machine) : (R.there m).sink = m.sink := rfl

def moved {α : Type} : EStateM.Result Stop Machine α → EStateM.Result Stop Machine α
  | .ok a m => .ok a (R.there m)
  | .error stop m => .error stop (R.there m)

structure Sound (m : Machine) : Prop where
  table : m.distances = R.distances
  code : MadeOf R.listed m.store

inductive Follows {α : Type} (post : α → Prop) :
    EStateM.Result Stop Machine α → EStateM.Result Stop Machine α → Prop where
  | done {a : α} {m : Machine} : R.Sound m → post a → Follows post (.ok a m) (.ok a (R.there m))
  | stopped {stop : Stop} {m : Machine} : Follows post (.error stop m) (.error stop (R.there m))
  | halted {site : Site} {m m₁ : Machine} {stop : Stop} {result : EStateM.Result Stop Machine α} :
      R.watch site m₁ = some stop → Follows post (.error stop m) result

/-- At what the watch lets pass, the ways of the second run lead where those of the first one do. -/
structure Faithful : Prop where
  reads : ∀ r m, R.listed r → R.Sound m →
    (R.watch (.expr (.read r)) m = none ∨ R.watch (.expr (.self r)) m = none ∨
      ∃ name methods, R.watch (.stmt (.classDecl name (some r) methods)) m = none) →
    R.access.read r (R.there m) = R.moved (lookUp r m)
  writes : ∀ r value fuel v m m', R.listed r → R.watch (.expr (.assign r value)) m = none →
    evaluateUnder R.watch fuel value m = .ok v m' → R.Sound m' →
    R.access.write r v (R.there m') = R.moved (assign r v m')
  inherits : ∀ r method m, R.listed r → R.Sound m →
    R.access.inherited r method (R.there m) = R.moved (getInherited r method m)

variable {R} {α β : Type} {post : α → Prop} {post' : β → Prop} {m : Machine}

theorem moved_ok {result : EStateM.Result Stop Machine α} {a : α} (ended : R.moved result = .ok a m) :
    ∃ m', result = .ok a m' := by
  cases result <;> cases ended
  exact ⟨_, rfl⟩

namespace Sound

theorem newFrame (sound : R.Sound m) (enclosing : FrameId) :
    R.Sound { m with store := (m.store.newFrame (some enclosing)).2 } :=
  ⟨sound.table, sound.code.newFrame _⟩

theorem define (sound : R.Sound m) {v : Value} (value : ValueMadeOf R.listed v) (frame : FrameId)
    (name : String) : R.Sound { m with store := m.store.define frame name v } :=
  ⟨sound.table, sound.code.define value frame name⟩

theorem newIdentity (sound : R.Sound m) : R.Sound { m with store := m.store.newIdentity.2 } :=
  ⟨sound.table, sound.code.newIdentity⟩

theorem within (sound : R.Sound m) (frame : FrameId) : R.Sound { m with current := frame } :=
  ⟨sound.table, sound.code⟩

end Sound

/-! ## Basic actions and sequences -/

namespace Follows

theorem pure {a : α} (sound : R.Sound m) (holds : post a) :
    R.Follows post ((Pure.pure a : Run α) m) ((Pure.pure a : Run α) (R.there m)) :=
  .done sound holds

theorem raise {cause : RuntimeError.Cause} {token : Token} :
    R.Follows post ((Run.raise cause token : Run α) m) ((Run.raise cause token : Run α) (R.there m)) :=
  .stopped

theorem of_moved {result result' : EStateM.Result Stop Machine α} (same : result' = R.moved result)
    (sound : ∀ a m', result = .ok a m' → R.Sound m' ∧ post a) : R.Follows post result result' := by
  subst same
  cases result with
  | ok a m' => exact .done (sound a m' rfl).1 (sound a m' rfl).2
  | error stop m' => exact .stopped

theorem bind_ok {x y : Run α} {f g : α → Run β} (first : R.Follows post (x m) (y (R.there m)))
    (rest : ∀ a m', x m = .ok a m' → R.Sound m' → post a →
      R.Follows post' (f a m') (g a (R.there m'))) :
    R.Follows post' ((x >>= f) m) ((y >>= g) (R.there m)) := by
  change R.Follows post' (EStateM.bind x f m) (EStateM.bind y g (R.there m))
  unfold EStateM.bind
  generalize y (R.there m) = result at first ⊢
  cases ended : x m with
  | ok a m' =>
      rw [ended] at first
      cases first with
      | done sound holds => exact rest a m' ended sound holds
  | error stop m' =>
      rw [ended] at first
      cases first with
      | stopped => exact .stopped
      | halted spoken => exact .halted spoken

theorem bind {x y : Run α} {f g : α → Run β} (first : R.Follows post (x m) (y (R.there m)))
    (rest : ∀ a m', R.Sound m' → post a → R.Follows post' (f a m') (g a (R.there m'))) :
    R.Follows post' ((x >>= f) m) ((y >>= g) (R.there m)) :=
  first.bind_ok fun a m' _ => rest a m'

theorem get {f g : Machine → Run α} (rest : R.Follows post (f m m) (g (R.there m) (R.there m))) :
    R.Follows post ((MonadState.get >>= f) m) ((MonadState.get >>= g) (R.there m)) :=
  rest

theorem current {f g : FrameId → Run α} (rest : R.Follows post (f m.current m) (g m.current (R.there m))) :
    R.Follows post ((Run.current >>= f) m) ((Run.current >>= g) (R.there m)) :=
  rest

theorem within {frame : FrameId} {x y : Run α}
    (inside : R.Follows post (x { m with current := frame }) (y (R.there { m with current := frame }))) :
    R.Follows post (Run.within frame x m) (Run.within frame y (R.there m)) := by
  unfold Run.within
  change R.Follows post _ (match y (R.there { m with current := frame }) with
    | .ok value after => .ok value { after with current := m.current }
    | .error stop after => .error stop { after with current := m.current })
  generalize y (R.there { m with current := frame }) = result at inside ⊢
  cases ended : x { m with current := frame } with
  | ok a m' =>
      rw [ended] at inside
      cases inside with
      | done sound holds => exact .done (sound.within _) holds
  | error stop m' =>
      rw [ended] at inside
      cases inside with
      | stopped => exact .stopped
      | halted spoken => exact .halted spoken

theorem supervised {site : Site} {x : Run α} {result : EStateM.Result Stop Machine α}
    (passed : R.watch site m = none → R.Follows post (x m) result) :
    R.Follows post (Lox.supervised R.watch site x m) result := by
  unfold Lox.supervised
  split
  · rename_i stop spoken
    exact .halted spoken
  · rename_i silent
    exact passed silent

theorem sound {a : α} {m' : Machine} {result result' : EStateM.Result Stop Machine α}
    (follows : R.Follows post result result') (ended : result = .ok a m') : R.Sound m' ∧ post a := by
  subst ended
  cases follows with
  | done sound holds => exact ⟨sound, holds⟩

theorem moved_or_halted {result result' : EStateM.Result Stop Machine α}
    (follows : R.Follows post result result') :
    result' = R.moved result ∨
      ∃ site m₁ stop m, R.watch site m₁ = some stop ∧ result = .error stop m := by
  cases follows with
  | done sound holds => exact .inl rfl
  | stopped => exact .inl rfl
  | halted spoken => exact .inr ⟨_, _, _, _, spoken, rfl⟩

theorem define {frame : FrameId} {name : String} {v : Value} (sound : R.Sound m)
    (value : ValueMadeOf R.listed v) :
    R.Follows (fun _ => True) (Run.define frame name v m) (Run.define frame name v (R.there m)) :=
  .done (sound.define value frame name) trivial

theorem newFrame {enclosing : FrameId} {inside : FrameId → Prop} (holds : ∀ frame, inside frame) (sound : R.Sound m) :
    R.Follows inside (Run.newFrame enclosing m) (Run.newFrame enclosing (R.there m)) :=
  .done (sound.newFrame enclosing) (holds _)

theorem newIdentity (sound : R.Sound m) :
    R.Follows (fun _ => True) (Run.newIdentity m) (Run.newIdentity (R.there m)) :=
  .done sound.newIdentity trivial

theorem newInstance {type : Class} (methods : ClassMadeOf R.listed type) (sound : R.Sound m) :
    R.Follows (fun made => ValueMadeOf R.listed (.ofInstance made)) (Run.newInstance type m)
      (Run.newInstance type (R.there m)) :=
  .done ⟨sound.table, sound.code.newInstance type⟩ methods

theorem setField {i : Instance} {name : String} {v : Value} (sound : R.Sound m)
    (value : ValueMadeOf R.listed v) :
    R.Follows (fun _ => True) (Run.setField i name v m) (Run.setField i name v (R.there m)) :=
  .done ⟨sound.table, sound.code.setField value i name⟩ trivial

theorem emit (text : String) (sound : R.Sound m) :
    R.Follows (fun _ => True) (Run.emit text m) (Run.emit text (R.there m)) := by
  unfold Run.emit
  rw [there_sink]
  obtain ⟨failed, sink⟩ := m.sink.write text
  cases failed with
  | none => exact .done ⟨sound.table, sound.code⟩ trivial
  | some error => exact .stopped

theorem bindMethod {method : Closure} {i : Instance} (sound : R.Sound m)
    (function : FunctionMadeOf R.listed method) (type : ClassMadeOf R.listed i.type) :
    R.Follows (fun bound => ∀ identity, ValueMadeOf R.listed (.function identity bound)) (Lox.bindMethod method i m)
      (Lox.bindMethod method i (R.there m)) :=
  .bind (.newFrame (fun _ => trivial) sound) fun _ _ sound₁ _ =>
    .bind (.define (v := .ofInstance i) sound₁ type) fun _ _ sound₂ _ => .pure sound₂ fun _ => function

end Follows

/-! ## Variables -/

theorem sound_lookUp (sound : R.Sound m) {r : Reference} {v : Value} {m' : Machine}
    (found : lookUp r m = .ok v m') : R.Sound m' ∧ ValueMadeOf R.listed v := by
  unfold lookUp at found
  simp only at found
  split at found
  · rename_i same
    cases found
    refine ⟨sound, ?_⟩
    split at same
    · exact sound.code.getAt? same
    · exact sound.code.get? same
  · cases found

theorem sound_assign (sound : R.Sound m) {r : Reference} {v : Value} (value : ValueMadeOf R.listed v)
    {m' : Machine} (assigned : assign r v m = .ok () m') : R.Sound m' := by
  unfold assign at assigned
  simp only at assigned
  split at assigned <;> cases assigned
  exact sound.define value _ _

/-! ## All actions -/

theorem madeOf_of_plain {listed : Reference → Prop} {v : Value} (plain : Plain v) : ValueMadeOf listed v := by
  cases v with
  | function _ _ | ofClass _ | ofInstance _ => exact plain.elim
  | _ => trivial

theorem references_part {part site : Site} (of : part.Part site) : part.references ⊆ site.references := by
  cases of with
  | argument mem =>
      have inside := Expr.references_subset mem
      simp [Site.references, Expr.references, inside]
  | @condition _ _ elseBranch | @thenBranch _ _ elseBranch =>
      cases elseBranch <;> simp [Site.references, Stmt.references]
  | _ => simp [Site.references, Expr.references, Stmt.references, Expr.references?]

theorem listed_statements {body : List Stmt} (inside : ∀ r ∈ Stmt.referencesAll body, R.listed r) :
    ∀ a ∈ body, ∀ r ∈ (Site.stmt a).references, R.listed r :=
  fun _ mem r here => inside r (Stmt.references_subset mem here)

theorem listed_body {closure : Closure} (function : FunctionMadeOf R.listed closure) :
    ∀ r ∈ Stmt.referencesAll closure.declaration.body, R.listed r := by
  obtain ⟨⟨name, params, body⟩, captured, isInitializer⟩ := closure
  exact function

/-- The second run follows the first one, and all code in the store is that of the program. -/
def upkeep (R : Rerun) : Upkeep where
  Sound := R.Sound
  Good _ := ValueMadeOf R.listed
  Binds _ _ _ := True
  Shown site _ _ := ∀ r ∈ site.references, R.listed r
  Passed site _ := ∀ r ∈ site.references, R.listed r
  Allowed _ := True
  After _ m' := R.Sound m'
  Relates m post x y := R.Follows (post (leaves x m).store) (x m) (y (R.there m))
  refl := id
  sound_after := id
  sound_within frame sound := sound.within frame
  good_after _ := id
  binds_after _ := id
  shown_after _ := id
  shown_current _ := id
  plain := madeOf_of_plain
  type := id
  field sound _ bound := sound.code.fields _ _ _ bound
  this sound _ bound := sound.code.frames _ _ _ bound
  starving := trivial
  failing _ _ _ _ := trivial
  unmade _ _ _ := trivial
  pure := .pure
  stop _ _ := .stopped
  get same rest := by
    rw [← same (R.there _) ⟨rfl, rfl, rfl⟩] at rest
    exact .get rest
  bind first rest := by
    refine first.bind_ok fun a m' ended sound holds => ?_
    rw [leaves, ended] at holds
    rw [leaves_bind ended]
    exact rest a m' sound holds
  within inside := by
    rw [leaves_within]
    exact .within inside
  define sound _ value := .define sound value
  newIdentity := .newIdentity
  newInstance sound methods := .newInstance methods sound
  setField sound _ value := .setField sound value
  emit := .emit
  bindMethod sound methods found type := .bindMethod sound (methods _ _ found) type
  block sound inside := .newFrame (fun _ => listed_statements inside) sound
  body sound function := .newFrame (fun _ => ⟨fun _ _ => trivial, listed_statements (listed_body function)⟩) sound
  part of inside r here := inside r (references_part of here)
  varDecl _ _ := trivial

def Evaluates (R : Rerun) (evaluate evaluate' : Expr → Run Value) : Prop :=
  ∀ e m, (∀ r ∈ e.references, R.listed r) → R.Sound m →
    R.Follows (ValueMadeOf R.listed) (evaluate e m) (evaluate' e (R.there m))

def Executes (R : Rerun) (execute execute' : Stmt → Run Flow) : Prop :=
  ∀ a m, (∀ r ∈ a.references, R.listed r) → R.Sound m →
    R.Follows (FlowMadeOf R.listed) (execute a m) (execute' a (R.there m))

section Parts

variable {evaluate evaluate' : Expr → Run Value} {execute execute' : Stmt → Run Flow}

theorem Evaluates.upkeep (evaluates : R.Evaluates evaluate evaluate') : R.upkeep.Evaluates evaluate evaluate' :=
  fun e m sound inside => evaluates e m inside sound

theorem Executes.upkeep (executes : R.Executes execute execute') : R.upkeep.Executes execute execute' :=
  fun a m sound inside => executes a m inside sound

end Parts

theorem sound_getInherited (sound : R.Sound m) {keyword : Reference} {method : Token} {v : Value}
    {m' : Machine} (found : getInherited keyword method m = .ok v m') :
    R.Sound m' ∧ ValueMadeOf R.listed v := by
  rw [getInherited, bind_get] at found
  cases means : findInherited m keyword with
  | none =>
      rw [means] at found
      cases found
  | some pair =>
      obtain ⟨parent, i⟩ := pair
      rw [means] at found
      obtain ⟨inner, -, parentBound, instanceBound⟩ := findInherited_inv means
      have methods : ValueMadeOf R.listed (.ofClass parent) := sound.code.getAt? parentBound
      have blames : R.upkeep.Blames method := fun _ _ _ => trivial
      exact Follows.sound (Upkeep.findMethod sound blames methods (sound.code.getAt? instanceBound)) found

/-! ## Declarations -/

theorem declareFunction {declaration : FunctionDecl} (inside : ∀ r ∈ declaration.references, R.listed r)
    (sound : R.Sound m) :
    R.Follows (fun _ => True) (Lox.declareFunction declaration m)
      (Lox.declareFunction declaration (R.there m)) :=
  .current (.bind (.newIdentity sound) fun identity _ sound₁ _ =>
    .define (v := .function identity ⟨declaration, m.current, false⟩) sound₁ inside)

theorem makeClass {frame home : FrameId} {name : Token} {parent : Option Class}
    {methods : List FunctionDecl} (own : ∀ r ∈ FunctionDecl.referencesAll methods, R.listed r)
    (inherited : ∀ c ∈ parent, ClassMadeOf R.listed c) (sound : R.Sound m) :
    let make : Run Unit := do
      let identity ← Run.newIdentity
      Run.define frame name.lexeme (.ofClass ⟨identity, name.lexeme, parent, methodTable home methods⟩)
    R.Follows (fun _ => True) (make m) (make (R.there m)) :=
  .bind (.newIdentity sound) fun identity _ sound₁ _ =>
    .define (v := .ofClass ⟨identity, name.lexeme, parent, methodTable home methods⟩) sound₁
      (classMadeOf_made own inherited)

theorem declareSubclass (faithful : R.Faithful) {name : Token} {superclass : Reference}
    {methods : List FunctionDecl}
    (passed : R.watch (.stmt (.classDecl name (some superclass) methods)) m = none)
    (listed : R.listed superclass) (own : ∀ r ∈ FunctionDecl.referencesAll methods, R.listed r)
    (sound : R.Sound m) :
    R.Follows (fun _ => True) (declareClass name (some superclass) methods m)
      (R.access.declareSubclass name superclass methods (R.there m)) := by
  have looked : R.Follows (ClassMadeOf R.listed) (lookUpSuperclass superclass m)
      (R.access.lookUpSuperclass superclass (R.there m)) := by
    have same := faithful.reads superclass m listed sound (.inr (.inr ⟨name, methods, passed⟩))
    have read : R.Follows (ValueMadeOf R.listed) (lookUp superclass m) (R.access.read superclass (R.there m)) :=
      Follows.of_moved same fun v m' found => sound_lookUp sound found
    refine .bind read fun v m₁ sound₁ value => ?_
    cases v with
    | ofClass parent => exact .pure sound₁ value
    | _ => exact .raise
  refine .current (.bind looked fun parent m₁ sound₁ inherited => ?_)
  refine .bind (.newFrame (fun _ => trivial) sound₁) fun home m₂ sound₂ _ => ?_
  refine .bind (.define (v := .ofClass parent) sound₂ inherited) fun _ m₃ sound₃ _ => ?_
  refine makeClass own (fun c mem => ?_) sound₃
  cases mem
  exact inherited

/-! ## Meanings from the meanings of parts -/

variable {evaluate' : Expr → Run Value} {execute' : Stmt → Run Flow} {fuel : Nat}

theorem evaluateWith (faithful : R.Faithful)
    (evaluates : R.Evaluates (evaluateUnder R.watch fuel) evaluate')
    (executes : R.Executes (executeUnder R.watch fuel) execute') {e : Expr}
    (passed : R.watch (.expr e) m = none) (inside : ∀ r ∈ e.references, R.listed r) (sound : R.Sound m) :
    R.Follows (ValueMadeOf R.listed)
      (Lox.evaluateWith (evaluateUnder R.watch fuel) (executeUnder R.watch fuel) e m)
      (R.access.evaluateWith evaluate' execute' e (R.there m)) := by
  cases e with
  | read name =>
      have same := faithful.reads name m (inside name (List.mem_singleton_self name)) sound (.inl passed)
      exact .of_moved same fun v m' found => sound_lookUp sound found
  | assign name value =>
      rw [Expr.references, List.forall_mem_append, List.forall_mem_singleton] at inside
      refine .bind_ok (evaluates value m inside.1 sound) fun v m₁ evaluated sound₁ made => ?_
      have same := faithful.writes name value fuel v m m₁ inside.2 passed evaluated sound₁
      have write : R.Follows (fun _ => True) (assign name v m₁) (R.access.write name v (R.there m₁)) :=
        Follows.of_moved same fun _ m' assigned => ⟨sound_assign sound₁ made assigned, trivial⟩
      exact .bind write fun _ m₂ sound₂ _ => .pure sound₂ made
  | self keyword =>
      have same := faithful.reads keyword m (inside keyword (List.mem_singleton_self keyword)) sound
        (.inr (.inl passed))
      exact .of_moved same fun v m' found => sound_lookUp sound found
  | inherited keyword method =>
      have same := faithful.inherits keyword method m (inside keyword (List.mem_singleton_self keyword)) sound
      exact .of_moved same fun v m' found => sound_getInherited sound found
  | _ => exact R.upkeep.evaluateWith evaluates.upkeep executes.upkeep sound inside rfl

theorem executeWith (faithful : R.Faithful)
    (evaluates : R.Evaluates (evaluateUnder R.watch fuel) evaluate')
    (executes : R.Executes (executeUnder R.watch fuel) execute') {a : Stmt}
    (passed : R.watch (.stmt a) m = none) (inside : ∀ r ∈ a.references, R.listed r) (sound : R.Sound m) :
    R.Follows (FlowMadeOf R.listed)
      (Lox.executeWith fuel (evaluateUnder R.watch fuel) (executeUnder R.watch fuel) a m)
      (R.access.executeWith fuel evaluate' execute' a (R.there m)) := by
  cases a with
  | funDecl declaration =>
      exact .bind (declareFunction inside sound) fun _ m₁ sound₁ _ => .pure sound₁ trivial
  | classDecl name superclass methods =>
      rw [Stmt.references, List.forall_mem_append] at inside
      cases superclass with
      | none =>
          have declares : R.Follows (fun _ => True) (declareClass name none methods m)
              (declareClass name none methods (R.there m)) :=
            .current (makeClass inside.2 nofun sound)
          exact .bind declares fun _ m₁ sound₁ _ => .pure sound₁ trivial
      | some reference =>
          have declares := declareSubclass faithful passed
            (inside.1 reference (List.mem_singleton_self reference)) inside.2 sound
          exact .bind declares fun _ m₁ sound₁ _ => .pure sound₁ trivial
  | _ => exact R.upkeep.executeWith evaluates.upkeep executes.upkeep fuel sound inside rfl

/-! ## Whole runs -/

theorem there_eq (same : R.distances' = R.distances) (table : m.distances = R.distances) :
    R.there m = m := by
  rw [there, same, ← table]

theorem moved_eq {action : Run α} (same : R.distances' = R.distances) (table : m.distances = R.distances)
    (keeps : (leaves action m).distances = m.distances) : R.moved (action m) = action m := by
  unfold leaves at keeps
  cases ended : action m with
  | ok a m' | error stop m' =>
      rw [ended] at keeps
      rw [moved, there_eq same (keeps.trans table)]

theorem follows (faithful : R.Faithful) (fuel : Nat) :
    R.Evaluates (evaluateUnder R.watch fuel) (R.access.evaluate fuel) ∧
      R.Executes (executeUnder R.watch fuel) (R.access.execute fuel) := by
  induction fuel with
  | zero =>
      refine ⟨fun e m _ _ => ?_, fun a m _ _ => ?_⟩
      · rw [evaluateUnder, Access.evaluate]
        exact .stopped
      · rw [executeUnder, Access.execute]
        exact .stopped
  | succ fuel ih =>
      refine ⟨fun e m inside sound => ?_, fun a m inside sound => ?_⟩
      · rw [evaluateUnder, Access.evaluate]
        exact .supervised fun passed => evaluateWith faithful ih.1 ih.2 passed inside sound
      · rw [executeUnder, Access.execute]
        exact .supervised fun passed => executeWith faithful ih.1 ih.2 passed inside sound

theorem program_follows (faithful : R.Faithful) (fuel : Nat) (body : List Stmt)
    (inside : ∀ r ∈ Stmt.referencesAll body, R.listed r) (sound : R.Sound m) :
    R.Follows (FlowMadeOf R.listed) (Lox.executeAll (executeUnder R.watch fuel) body m)
      (Lox.executeAll (R.access.execute fuel) body (R.there m)) :=
  Upkeep.executeAll (follows faithful fuel).2.upkeep sound (listed_statements inside)

end Rerun

end Lox
