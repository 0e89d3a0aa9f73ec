import Lox.Proofs.Dispatch.Lineage
import Lox.Proofs.Upkeep

/-!
# Runs keep values sound

A run that starts at a part of the program, in frames for its path and with only sound values around,
ends with only sound values around. Each expression and statement that it shows to its watch is a
part of the program as well, and the machine is in frames for the path of this part (`Placed`). Each
step of the run keeps this up (`Course.upkeep`), and from that `under_yields` by induction on the
fuel.
-/

namespace Lox

def Site.WellFormed : Site → Prop
  | .expr e => e.WellFormed
  | .stmt a => a.WellFormed

def Site.occurrences (path : Path) : Site → List (Path × Occurrence)
  | .expr e => e.occurrences path
  | .stmt a => a.occurrences path

namespace Dispatch.Course

/-- The machine is at a part of the program with this path. -/
structure At (R : Course) (path : Path) (m : Machine) : Prop where
  sound : R.SoundStore m.store
  linked : R.Linked m.store path m.current

structure Placed (R : Course) (site : Site) (m : Machine) : Prop where
  formed : site.WellFormed
  place : ∃ path, R.At path m ∧ site.occurrences path ⊆ occurrences R.program

structure After (R : Course) (m m' : Machine) : Prop where
  kept : Kept m.store m'.store
  current : m'.current = m.current
  sound : R.SoundStore m'.store

/-- How an action ends: well, or in some other way than by a watch, or at a site in its place. -/
inductive Yields (R : Course) {α : Type} (m : Machine) (post : Store → α → Prop) :
    EStateM.Result Stop Machine α → Prop where
  | done {a : α} {m' : Machine} : R.After m m' → post m'.store a → Yields R m post (.ok a m')
  | stopped {stop : Stop} {m' : Machine} :
      stop ≠ .defect .escapedReturn → Yields R m post (.error stop m')
  | watched {site : Site} {m₁ m' : Machine} {stop : Stop} :
      R.watch site m₁ = some stop → R.Placed site m₁ → Yields R m post (.error stop m')

variable {R : Course} {path : Path} {m m' m'' : Machine} {α β : Type}
  {post : Store → α → Prop} {post' : Store → β → Prop}

theorem After.refl (sound : R.SoundStore m.store) : R.After m m := ⟨.refl, rfl, sound⟩

theorem After.trans (first : R.After m m') (second : R.After m' m'') : R.After m m'' :=
  ⟨first.kept.trans second.kept, second.current.trans first.current, second.sound⟩

namespace Yields

theorem pure {a : α} (sound : R.SoundStore m.store) (holds : post m.store a) :
    R.Yields m post ((Pure.pure a : Run α) m) :=
  .done (.refl sound) holds

theorem raise {cause : RuntimeError.Cause} {token : Token} :
    R.Yields m post ((Run.raise cause token : Run α) m) :=
  .stopped nofun

theorem starve : R.Yields m post ((Run.starve : Run α) m) := .stopped nofun

theorem imp {post' : Store → α → Prop} {result : EStateM.Result Stop Machine α}
    (yields : R.Yields m post result) (imp : ∀ s a, post s a → post' s a) :
    R.Yields m post' result := by
  cases yields with
  | done after holds => exact .done after (imp _ _ holds)
  | stopped other => exact .stopped other
  | watched spoken placed => exact .watched spoken placed

theorem before {result : EStateM.Result Stop Machine α} (first : R.After m m')
    (rest : R.Yields m' post result) : R.Yields m post result := by
  cases rest with
  | done after holds => exact .done (first.trans after) holds
  | stopped other => exact .stopped other
  | watched spoken placed => exact .watched spoken placed

theorem bind {x : Run α} {f : α → Run β} (first : R.Yields m post (x m))
    (rest : ∀ a m', R.After m m' → post m'.store a → R.Yields m' post' (f a m')) :
    R.Yields m post' ((x >>= f) m) := by
  change R.Yields m post' (EStateM.bind x f m)
  unfold EStateM.bind
  cases ended : x m with
  | ok a m' =>
      rw [ended] at first
      obtain ⟨after, holds⟩ | _ | _ := first
      exact .before after (rest a m' after holds)
  | error stop m' =>
      rw [ended] at first
      obtain _ | other | ⟨spoken, placed⟩ := first
      · exact .stopped other
      · exact .watched spoken placed

theorem get {f : Machine → Run α} (rest : R.Yields m post (f m m)) :
    R.Yields m post ((MonadState.get >>= f) m) :=
  rest

theorem current {f : FrameId → Run α} (rest : R.Yields m post (f m.current m)) :
    R.Yields m post ((Run.current >>= f) m) :=
  rest

theorem within {frame : FrameId} {x : Run α}
    (inside : R.Yields { m with current := frame } post (x { m with current := frame })) :
    R.Yields m post (Run.within frame x m) := by
  unfold Run.within
  cases ended : x { m with current := frame } with
  | ok a m' =>
      rw [ended] at inside
      obtain ⟨after, holds⟩ | _ | _ := inside
      exact .done ⟨after.kept, rfl, after.sound⟩ holds
  | error stop m' =>
      rw [ended] at inside
      obtain _ | other | ⟨spoken, placed⟩ := inside
      · exact .stopped other
      · exact .watched spoken placed

theorem supervised {site : Site} {x : Run α} (placed : R.Placed site m)
    (unwatched : R.watch site m = none → R.Yields m post (x m)) :
    R.Yields m post (Lox.supervised R.watch site x m) := by
  unfold Lox.supervised
  split
  · rename_i stop spoken
    exact .watched spoken placed
  · rename_i passed
    exact unwatched passed

end Yields

/-! ## Variables -/

theorem SoundStore.getAt? {s : Store} (sound : R.SoundStore s) {frame : FrameId} {links : Nat}
    {name : String} {v : Value} (found : s.getAt? frame links name = some v) : R.SoundValue s v := by
  obtain ⟨holder, -, found⟩ := Store.read?_of_getAt? found
  exact sound.frames holder name v found

theorem SoundStore.get? {s : Store} (sound : R.SoundStore s) {frame : FrameId}
    {name : String} {v : Value} (found : s.get? frame name = some v) : R.SoundValue s v := by
  obtain ⟨holder, found⟩ := Store.read?_of_get? found
  exact sound.frames holder name v found

theorem lookUp_yields (r : Reference) (sound : R.SoundStore m.store) :
    R.Yields m (fun s v => s = m.store ∧ lookUp r m = .ok v m ∧ R.SoundValue s v) (lookUp r m) := by
  generalize same : lookUp r m = result
  unfold lookUp at same
  simp only at same
  split at same
  · rename_i v found
    rw [← same]
    refine .done (.refl sound) ⟨rfl, rfl, ?_⟩
    split at found
    · exact sound.getAt? found
    · exact sound.get? found
  · rw [← same]
    exact .raise

theorem define_yields {frame : FrameId} {name : String} {v : Value} (isName : IsName name)
    (sound : R.SoundStore m.store) (value : R.SoundValue m.store v) :
    R.Yields m (fun _ _ => True) (Run.define frame name v m) :=
  .done ⟨define_kept isName, rfl, sound.define isName value⟩ trivial

theorem assign_yields {r : Reference} {v : Value} (isName : IsName r.name)
    (sound : R.SoundStore m.store) (value : R.SoundValue m.store v) :
    R.Yields m (fun _ _ => True) (assign r v m) := by
  unfold assign
  simp only
  split
  · exact define_yields isName sound value
  · exact .raise

/-! ## Basic actions -/

theorem newFrame_yields {inside : Store → FrameId → Prop} {outer : FrameId} (sound : R.SoundStore m.store)
    (holds : inside (m.store.newFrame (some outer)).2 m.store.frames.size) :
    R.Yields m inside (Run.newFrame outer m) :=
  .done ⟨newFrame_kept outer, rfl, sound.newFrame outer⟩ holds

theorem newIdentity_yields (sound : R.SoundStore m.store) :
    R.Yields m (fun _ _ => True) (Run.newIdentity m) :=
  .done ⟨beside_kept, rfl, sound.newIdentity⟩ trivial

theorem newInstance_yields {type : Class} (methods : R.SoundClass m.store type) (sound : R.SoundStore m.store) :
    R.Yields m (fun s made => R.SoundValue s (.ofInstance made)) (Run.newInstance type m) :=
  .done ⟨beside_kept, rfl, sound.newInstance type⟩ (SoundValue.mono (v := .ofClass type) beside_kept methods)

theorem setField_yields {i : Instance} {name : String} {v : Value} (sound : R.SoundStore m.store)
    (value : R.SoundValue m.store v) : R.Yields m (fun _ _ => True) (Run.setField i name v m) :=
  .done ⟨beside_kept, rfl, sound.setField i value⟩ trivial

theorem emit_yields (text : String) (sound : R.SoundStore m.store) :
    R.Yields m (fun _ _ => True) (Run.emit text m) := by
  unfold Run.emit
  obtain ⟨failed, sink⟩ := m.sink.write text
  cases failed with
  | none => exact .done ⟨.refl, rfl, sound⟩ trivial
  | some error => exact .stopped nofun

theorem bindMethod_yields {method : Closure} {i : Instance} (sound : R.SoundStore m.store)
    (found : R.SoundMethod m.store method) (type : R.SoundClass m.store i.type) :
    R.Yields m (fun s bound => ∀ identity, R.SoundValue s (.function identity bound)) (bindMethod method i m) := by
  obtain ⟨formed, K, path, home, listed⟩ := found
  have kept : Kept m.store (frameWith method.captured "this" (.ofInstance i) m.store) :=
    frameWith_kept "this" (.ofInstance i)
  have bound : R.SoundFunction (frameWith method.captured "this" (.ofInstance i) m.store)
      { method with captured := m.store.frames.size } := by
    refine ⟨formed, .method, .classBody K :: path, .inr rfl, ?_, listed⟩
    exact ⟨i, method.captured, frameWith_bound, frameWith_link home.older, home.mono kept⟩
  exact .done ⟨kept, rfl, sound.frameWith method.captured "this" type⟩ fun _ => bound

/-! ## Declarations -/

theorem declareFunction_yields {declaration : FunctionDecl} (formed : declaration.WellFormed)
    (listed : declaration.occurrences .function (.heading declaration.name :: path) ⊆
      occurrences R.program) (here : R.At path m) :
    R.Yields m (fun _ _ => True) (declareFunction declaration m) := by
  have isName : IsName declaration.name.lexeme := by
    obtain ⟨name, params, body⟩ := declaration
    rw [FunctionDecl.WellFormed] at formed
    exact formed.1
  refine .current (.bind (newIdentity_yields here.sound) fun identity m₁ after₁ _ => ?_)
  refine define_yields isName after₁.sound ⟨formed, .function, .heading declaration.name :: path,
    .inl rfl, ?_, listed⟩
  exact here.linked.mono after₁.kept

theorem lookUpSuperclass_yields (r : Reference) (sound : R.SoundStore m.store) :
    R.Yields m (fun s parent => s = m.store ∧ lookUp r m = .ok (.ofClass parent) m ∧
      R.SoundValue s (.ofClass parent)) (lookUpSuperclass r m) := by
  refine .bind (lookUp_yields r sound) ?_
  rintro v m₁ after ⟨same, found, value⟩
  cases v with
  | ofClass parent => exact .pure after.sound ⟨same, found, value⟩
  | _ => exact .raise

theorem soundClass_made {K : ClassDecl} {s : Store} {home : FrameId} {identity : Nat}
    {parent : Option Class} (formed : FunctionDecl.WellFormedAll K.methods)
    (listed : FunctionDecl.occurrencesAll (.classBody K :: path) K.methods ⊆ occurrences R.program)
    (atHome : R.Home s K home) (inherits : ∀ c ∈ parent, R.SoundClass s c) :
    R.SoundClass s ⟨identity, K.name.lexeme, parent, methodTable home K.methods⟩ := by
  intro name method found
  rcases findMethod?_made found with ⟨d, mem, rfl⟩ | ⟨c, above, found⟩
  · exact ⟨formed.of_mem mem, K, path, atHome, List.Subset.trans (FunctionDecl.occurrences_subset _ mem) listed⟩
  · exact inherits c above name method found

theorem declareClass_yields {K : ClassDecl} (passed : R.watch (.stmt K.statement) m = none)
    (formed : K.statement.WellFormed) (listed : K.statement.occurrences path ⊆ occurrences R.program)
    (here : R.At path m) :
    R.Yields m (fun _ _ => True) (declareClass K.name K.superclass K.methods m) := by
  obtain ⟨name, superclass, methods⟩ := K
  rw [ClassDecl.statement, Stmt.WellFormed] at formed
  rw [ClassDecl.statement, Stmt.occurrences, List.append_subset] at listed
  obtain ⟨isName, -, formed⟩ := formed
  have makes {m₁ : Machine} {home : FrameId} {parent : Option Class} (sound : R.SoundStore m₁.store)
      (atHome : R.Home m₁.store ⟨name, superclass, methods⟩ home)
      (inherits : ∀ c ∈ parent, R.SoundValue m₁.store (.ofClass c)) :
      R.Yields m₁ (fun _ _ => True) ((do
        let identity ← Run.newIdentity
        Run.define m.current name.lexeme
          (.ofClass ⟨identity, name.lexeme, parent, methodTable home methods⟩) : Run Unit) m₁) := by
    refine .bind (newIdentity_yields sound) fun identity m₂ after₂ _ => ?_
    exact define_yields isName after₂.sound (soundClass_made formed listed.2
      (atHome.mono after₂.kept) fun c mem => (inherits c mem).mono after₂.kept)
  cases superclass with
  | none => exact makes here.sound ⟨here.linked.older, nofun⟩ nofun
  | some reference =>
      refine .current (.bind (lookUpSuperclass_yields reference here.sound) ?_)
      rintro parent m₁ after₁ ⟨same, found, parentSound⟩
      have kept : Kept m₁.store (frameWith m.current "super" (.ofClass parent) m₁.store) :=
        frameWith_kept "super" (.ofClass parent)
      have sound := after₁.sound.frameWith m.current "super" parentSound
      have home : R.Home (frameWith m.current "super" (.ofClass parent) m₁.store)
          ⟨name, some reference, methods⟩ m₁.store.frames.size := by
        refine ⟨Store.older_of_read frameWith_bound, fun _ => ⟨parent, ?_, frameWith_bound⟩⟩
        exact ⟨m, reference, rfl, passed, found, by rw [same]⟩
      have made : R.After m₁ { m₁ with store := frameWith m.current "super" (.ofClass parent) m₁.store } :=
        ⟨kept, rfl, sound⟩
      refine .before made (makes sound home fun c mem => ?_)
      cases mem
      exact parentSound.mono kept

/-! ## Parts of the program -/

/-- The site is a part of the program, and the frame is one for the path of this part. -/
def Lies (R : Course) (site : Site) (s : Store) (frame : FrameId) : Prop :=
  site.WellFormed ∧ ∃ path, R.Linked s path frame ∧ site.occurrences path ⊆ occurrences R.program

theorem Lies.mono {site : Site} {s s' : Store} {frame : FrameId} (kept : Kept s s') (lies : R.Lies site s frame) :
    R.Lies site s' frame := by
  obtain ⟨formed, path, linked, listed⟩ := lies
  exact ⟨formed, path, linked.mono kept, listed⟩

theorem Placed.lies {site : Site} (placed : R.Placed site m) : R.Lies site m.store m.current := by
  obtain ⟨formed, path, here, listed⟩ := placed
  exact ⟨formed, path, here.linked, listed⟩

theorem wellFormed_part {part site : Site} (of : part.Part site) (formed : site.WellFormed) : part.WellFormed := by
  cases of with
  | argument mem =>
      rw [Site.WellFormed, Expr.WellFormed] at formed
      exact formed.2.of_mem mem
  | @condition _ _ elseBranch | @thenBranch _ _ elseBranch =>
      cases elseBranch <;> simp_all [Site.WellFormed, Stmt.WellFormed]
  | _ => simp_all [Site.WellFormed, Expr.WellFormed, Stmt.WellFormed, Expr.WellFormed?]

/-- Only an initializer has a longer path than what it is a part of. -/
theorem occurrences_part {part site : Site} (of : part.Part site) (path : Path) :
    ∃ inner, (inner = path ∨ ∃ name, inner = .initializer name :: path) ∧
      part.occurrences inner ⊆ site.occurrences path := by
  cases of with
  | @initializer name =>
      refine ⟨.initializer name :: path, .inr ⟨name, rfl⟩, ?_⟩
      simp [Site.occurrences, Stmt.occurrences, Expr.occurrences?]
  | argument mem =>
      refine ⟨path, .inl rfl, ?_⟩
      have inside := Expr.occurrences_subset path mem
      simp [Site.occurrences, Expr.occurrences, inside]
  | @condition _ _ elseBranch | @thenBranch _ _ elseBranch =>
      refine ⟨path, .inl rfl, ?_⟩
      cases elseBranch <;> simp [Site.occurrences, Stmt.occurrences]
  | _ => exact ⟨path, .inl rfl, by simp [Site.occurrences, Expr.occurrences, Stmt.occurrences, Expr.occurrences?]⟩

theorem Lies.part {part site : Site} {s : Store} {frame : FrameId} (of : part.Part site)
    (lies : R.Lies site s frame) : R.Lies part s frame := by
  obtain ⟨formed, path, linked, listed⟩ := lies
  obtain ⟨inner, rfl | ⟨name, rfl⟩, inside⟩ := occurrences_part of path
  · exact ⟨wellFormed_part of formed, inner, linked, List.Subset.trans inside listed⟩
  · exact ⟨wellFormed_part of formed, .initializer name :: path, linked, List.Subset.trans inside listed⟩

theorem lies_statements {s : Store} {frame : FrameId} (place : List Stmt → Path) (before : List Stmt)
    {body : List Stmt} (formed : Stmt.WellFormedAll body)
    (listed : Stmt.occurrencesAll place before body ⊆ occurrences R.program)
    (linked : ∀ before, R.Linked s (place before) frame) : ∀ a ∈ body, R.Lies (.stmt a) s frame := by
  induction body generalizing before with
  | nil => exact nofun
  | cons first rest ih =>
      rw [Stmt.WellFormedAll] at formed
      rw [Stmt.occurrencesAll, List.append_subset] at listed
      exact List.forall_mem_cons.mpr ⟨⟨formed.1, place before, linked before, listed.1⟩,
        ih (before ++ [first]) formed.2 listed.2⟩

theorem enter_linked {s : Store} {frame : FrameId} (linked : R.Linked s path frame) :
    ∃ around, (s.newFrame (some frame)).2.enclosing? s.frames.size = some around ∧
      R.Linked (s.newFrame (some frame)).2 path around :=
  ⟨frame, Store.enclosing?_newFrame_self linked.older, linked.mono (newFrame_kept frame)⟩

theorem lies_in_block {body : List Stmt} (placed : R.Placed (.stmt (.block body)) m) :
    ∀ a ∈ body, R.Lies (.stmt a) (m.store.newFrame (some m.current)).2 m.store.frames.size := by
  obtain ⟨formed, path, here, listed⟩ := placed
  rw [Site.WellFormed, Stmt.WellFormed] at formed
  rw [Site.occurrences, Stmt.occurrences] at listed
  exact lies_statements _ [] formed listed fun _ => enter_linked here.linked

theorem lies_in_body {s : Store} {closure : Closure} (function : R.SoundFunction s closure) :
    ∀ a ∈ closure.declaration.body,
      R.Lies (.stmt a) (s.newFrame (some closure.captured)).2 s.frames.size := by
  obtain ⟨⟨name, params, body⟩, captured, isInitializer⟩ := closure
  obtain ⟨formed, layer, path, kind, linked, listed⟩ := function
  simp only [FunctionDecl.WellFormed] at formed
  simp only [FunctionDecl.occurrences] at listed
  refine lies_statements _ [] formed.2.2 listed fun before => ?_
  -- a body is linked to its function or method in the same way
  rcases kind with rfl | rfl <;> exact enter_linked linked

/-! ## Expressions and statements -/

def SoundFlow (R : Course) (s : Store) : Flow → Prop
  | .normal => True
  | .returned v => R.SoundValue s v

def Evaluates (R : Course) (evaluate : Expr → Run Value) : Prop :=
  ∀ (e : Expr) (path : Path) (m : Machine), e.WellFormed →
    e.occurrences path ⊆ occurrences R.program → R.At path m → R.Yields m R.SoundValue (evaluate e m)

def Executes (R : Course) (execute : Stmt → Run Flow) : Prop :=
  ∀ (a : Stmt) (path : Path) (m : Machine), a.WellFormed →
    a.occurrences path ⊆ occurrences R.program → R.At path m → R.Yields m R.SoundFlow (execute a m)

theorem soundValue_of_plain {v : Value} {s : Store} (plain : Plain v) : R.SoundValue s v := by
  cases v with
  | function _ _ | ofClass _ | ofInstance _ => exact plain.elim
  | _ => trivial

/-- Only sound values are around, and what is run is a part of the program, in its frames. -/
def upkeep (R : Course) : Upkeep where
  Sound m := R.SoundStore m.store
  Good := R.SoundValue
  Binds _ _ := IsName
  Shown := R.Lies
  Passed := R.Placed
  Allowed stop := stop ≠ .defect .escapedReturn
  After := R.After
  Relates m post _ y := R.Yields m post (y m)
  refl := .refl
  sound_after after := after.sound
  sound_within _ := id
  good_after after := .mono after.kept
  binds_after _ := id
  shown_after after := .mono after.kept
  shown_current after shown := after.current ▸ shown
  plain := soundValue_of_plain
  type := id
  field sound _ bound := sound.fields _ _ _ bound
  this sound _ bound := sound.frames _ _ _ bound
  starving := nofun
  failing _ _ _ _ := nofun
  unmade _ _ _ := nofun
  pure := .pure
  stop _ := .stopped
  get _ := id
  bind := .bind
  within := .within
  define sound isName value := define_yields isName sound value
  newIdentity := newIdentity_yields
  newInstance sound methods := newInstance_yields methods sound
  setField sound _ value := setField_yields sound value
  emit := emit_yields
  bindMethod sound methods found type := bindMethod_yields sound (methods _ _ found) type
  block sound placed := newFrame_yields sound (lies_in_block placed)
  body sound function := newFrame_yields sound ⟨function.formed.params, lies_in_body function⟩
  part of placed := placed.lies.part of
  varDecl placed _ := by
    have formed := placed.formed
    rw [Site.WellFormed, Stmt.WellFormed] at formed
    exact formed.1

variable {evaluate : Expr → Run Value} {execute : Stmt → Run Flow}

theorem Evaluates.upkeep (evaluates : R.Evaluates evaluate) : R.upkeep.Evaluates evaluate evaluate := by
  rintro e m sound ⟨formed, path, linked, listed⟩
  exact evaluates e path m formed listed ⟨sound, linked⟩

theorem Executes.upkeep (executes : R.Executes execute) : R.upkeep.Executes execute execute := by
  rintro a m sound ⟨formed, path, linked, listed⟩
  exact executes a path m formed listed ⟨sound, linked⟩

theorem getInherited_yields {keyword : Reference} {method : Token} (sound : R.SoundStore m.store) :
    R.Yields m R.SoundValue (getInherited keyword method m) := by
  refine .get ?_
  cases found : findInherited m keyword with
  | none => exact .stopped nofun
  | some means =>
      obtain ⟨parent, i⟩ := means
      obtain ⟨inner, -, parentBound, instanceBound⟩ := findInherited_inv found
      have methods : R.SoundValue m.store (.ofClass parent) := sound.getAt? parentBound
      exact Upkeep.findMethod (U := R.upkeep) sound (fun _ _ _ => nofun) methods (sound.getAt? instanceBound)

theorem evaluateWith_yields (evaluates : R.Evaluates evaluate) (executes : R.Executes execute) {e : Expr}
    (placed : R.Placed (.expr e) m) : R.Yields m R.SoundValue (evaluateWith evaluate execute e m) := by
  obtain ⟨formed, path, here, listed⟩ := id placed
  cases e with
  | read name => exact (lookUp_yields name here.sound).imp fun _ _ found => found.2.2
  | assign name value =>
      rw [Site.WellFormed, Expr.WellFormed] at formed
      rw [Site.occurrences, Expr.occurrences, List.append_subset] at listed
      refine .bind (evaluates value path m formed.1 listed.1 here) fun v m₁ after₁ value => ?_
      refine .bind (assign_yields formed.2 after₁.sound value) fun _ m₂ after₂ _ => ?_
      exact .pure after₂.sound (value.mono after₂.kept)
  | self keyword => exact (lookUp_yields keyword here.sound).imp fun _ _ found => found.2.2
  | inherited keyword method => exact getInherited_yields here.sound
  | _ => exact R.upkeep.evaluateWith evaluates.upkeep executes.upkeep here.sound placed rfl

/-- What a statement does, once the watch let it pass. -/
theorem executeWith_yields (evaluates : R.Evaluates evaluate) (executes : R.Executes execute)
    (rounds : Nat) {a : Stmt} (passed : R.watch (.stmt a) m = none) (placed : R.Placed (.stmt a) m) :
    R.Yields m R.SoundFlow (executeWith rounds evaluate execute a m) := by
  obtain ⟨formed, path, here, listed⟩ := id placed
  cases a with
  | funDecl declaration =>
      rw [Site.WellFormed, Stmt.WellFormed] at formed
      refine .bind (declareFunction_yields formed listed here) fun _ m₁ after₁ _ => ?_
      exact .pure after₁.sound trivial
  | classDecl name superclass methods =>
      have declares := declareClass_yields (K := ⟨name, superclass, methods⟩) passed formed listed here
      refine .bind declares fun _ m₁ after₁ _ => ?_
      exact .pure after₁.sound trivial
  | _ => exact R.upkeep.executeWith evaluates.upkeep executes.upkeep rounds here.sound placed rfl

theorem under_yields (R : Course) (fuel : Nat) :
    R.Evaluates (evaluateUnder R.watch fuel) ∧ R.Executes (executeUnder R.watch fuel) := by
  induction fuel with
  | zero => exact ⟨fun _ _ _ _ _ _ => .starve, fun _ _ _ _ _ _ => .starve⟩
  | succ fuel ih =>
      obtain ⟨evaluates, executes⟩ := ih
      refine ⟨fun e path m formed listed here => ?_, fun a path m formed listed here => ?_⟩
      · have placed : R.Placed (.expr e) m := ⟨formed, path, here, listed⟩
        exact .supervised placed fun _ => evaluateWith_yields evaluates executes placed
      · have placed : R.Placed (.stmt a) m := ⟨formed, path, here, listed⟩
        exact .supervised placed fun passed => executeWith_yields evaluates executes fuel passed placed

/-! ## Whole runs -/

theorem soundStore_initial : R.SoundStore .initial where
  frames frame name v bound := by
    rw [Store.read?_initial] at bound
    split at bound <;> cases bound
    trivial
  fields i name v bound := by
    cases bound

theorem program_yields (R : Course) (formed : Stmt.WellFormedAll R.program) (fuel : Nat)
    (distances : Distances) (sink : Sink) (clock : Float) :
    R.Yields { Machine.initial sink clock with distances } R.SoundFlow
      (executeAll (executeUnder R.watch fuel) R.program
        { Machine.initial sink clock with distances }) := by
  have inside : ∀ _ : List Stmt, R.Linked Store.initial [] Store.globals :=
    fun _ => (by decide : Store.globals < Store.initial.frames.size)
  have executes := (under_yields R fuel).2
  exact Upkeep.executeAll executes.upkeep soundStore_initial
    (lies_statements (fun _ => []) [] formed (List.Subset.refl _) inside)

end Dispatch.Course

end Lox
