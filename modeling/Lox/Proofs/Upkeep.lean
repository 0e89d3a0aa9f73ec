import Lox.Proofs.Operators
import Lox.Proofs.Passage
import Lox.Proofs.Supervision

/-!
# What runs keep up

Many facts about runs are of one kind. There are only good values around, the parts of the program are run
only where they may be, and each basic action keeps it so. An `Upkeep` says what this means in a certain
case, for one run or for two runs side by side. Then expressions and statements keep it up if their parts do
(`Upkeep.evaluateWith`, `Upkeep.executeWith`).

What differs from case to case is left to the cases: how variables are reached, and how functions and classes
are declared.
-/

namespace Lox
open Run

/-- Is evaluated or executed for the other one, in the same frame. -/
inductive Site.Part : Site → Site → Prop where
  | grouped {inner : Expr} : Part (.expr inner) (.expr (.grouping inner))
  | operand {operator : Token} {right : Expr} : Part (.expr right) (.expr (.unary operator right))
  | left {left right : Expr} {operator : Token} : Part (.expr left) (.expr (.binary left operator right))
  | right {left right : Expr} {operator : Token} : Part (.expr right) (.expr (.binary left operator right))
  | deciding {left right : Expr} {operator : Token} : Part (.expr left) (.expr (.logical left operator right))
  | other {left right : Expr} {operator : Token} : Part (.expr right) (.expr (.logical left operator right))
  | assigned {name : Reference} {value : Expr} : Part (.expr value) (.expr (.assign name value))
  | callee {callee : Expr} {paren : Token} {arguments : List Expr} :
      Part (.expr callee) (.expr (.call callee paren arguments))
  | argument {callee e : Expr} {paren : Token} {arguments : List Expr} (mem : e ∈ arguments) :
      Part (.expr e) (.expr (.call callee paren arguments))
  | object {object : Expr} {name : Token} : Part (.expr object) (.expr (.get object name))
  | changed {object value : Expr} {name : Token} : Part (.expr object) (.expr (.set object name value))
  | field {object value : Expr} {name : Token} : Part (.expr value) (.expr (.set object name value))
  | expression {value : Expr} : Part (.expr value) (.stmt (.expression value))
  | printed {value : Expr} : Part (.expr value) (.stmt (.print value))
  | initializer {name : Token} {value : Expr} : Part (.expr value) (.stmt (.varDecl name (some value)))
  | condition {condition : Expr} {thenBranch : Stmt} {elseBranch : Option Stmt} :
      Part (.expr condition) (.stmt (.ifElse condition thenBranch elseBranch))
  | thenBranch {condition : Expr} {thenBranch : Stmt} {elseBranch : Option Stmt} :
      Part (.stmt thenBranch) (.stmt (.ifElse condition thenBranch elseBranch))
  | elseBranch {condition : Expr} {thenBranch elseBranch : Stmt} :
      Part (.stmt elseBranch) (.stmt (.ifElse condition thenBranch (some elseBranch)))
  | test {condition : Expr} {body : Stmt} : Part (.expr condition) (.stmt (.whileLoop condition body))
  | round {condition : Expr} {body : Stmt} : Part (.stmt body) (.stmt (.whileLoop condition body))
  | returned {keyword : Token} {value : Expr} : Part (.expr value) (.stmt (.returnStmt keyword (some value)))

/-- Where errors point to that an expression itself ends in. -/
def Expr.culprit? : Expr → Option Token
  | .unary operator _ | .binary _ operator _ => some operator
  | .call _ paren _ => some paren
  | .get _ name | .set _ name _ => some name
  | _ => none

def Expr.usesScope : Expr → Bool
  | .read _ | .assign _ _ | .self _ | .inherited _ _ => true
  | _ => false

def Stmt.makesFunctions : Stmt → Bool
  | .funDecl _ | .classDecl _ _ _ => true
  | _ => false

/-- The machines differ in nothing that an action looks at, apart from the ways to variables. -/
structure Similar (m m' : Machine) : Prop where
  store : m'.store = m.store
  current : m'.current = m.current
  clock : m'.clock = m.clock

/--
What is kept up from step to step. Two actions are related on a machine if they go together in the way that is
of interest, and end as they may, and with a value of which something holds in the store afterwards.
-/
structure Upkeep where
  Sound : Machine → Prop
  Good : Store → Value → Prop
  /-- A name may get a good value in a frame. -/
  Binds : Store → FrameId → String → Prop
  /-- A site may come up in a frame. -/
  Shown : Site → Store → FrameId → Prop
  /-- A site is being run. -/
  Passed : Site → Machine → Prop
  Allowed : Stop → Prop
  After : Machine → Machine → Prop
  Relates {α : Type} : Machine → (Store → α → Prop) → Run α → Run α → Prop
  -- later machines
  refl {m : Machine} : Sound m → After m m
  sound_after {m m' : Machine} : After m m' → Sound m'
  sound_within {m : Machine} (frame : FrameId) : Sound m → Sound { m with current := frame }
  good_after {m m' : Machine} {v : Value} : After m m' → Good m.store v → Good m'.store v
  binds_after {m m' : Machine} {frame : FrameId} {name : String} :
    After m m' → Binds m.store frame name → Binds m'.store frame name
  shown_after {m m' : Machine} {site : Site} {frame : FrameId} :
    After m m' → Shown site m.store frame → Shown site m'.store frame
  shown_current {m m' : Machine} {site : Site} :
    After m m' → Shown site m'.store m.current → Shown site m'.store m'.current
  -- values
  plain {s : Store} {v : Value} : Plain v → Good s v
  type {s : Store} {i : Instance} : Good s (.ofInstance i) → Good s (.ofClass i.type)
  field {m : Machine} {i : Instance} {name : String} {v : Value} :
    Sound m → Good m.store (.ofInstance i) → m.store.field? i name = some v → Good m.store v
  this {m : Machine} {identity : Nat} {closure : Closure} {v : Value} :
    Sound m → Good m.store (.function identity closure) →
      m.store.read? closure.captured "this" = some v → Good m.store v
  -- stops
  starving : Allowed .outOfFuel
  failing {e : Expr} {m : Machine} {token : Token} {error : RuntimeError} :
    Passed (.expr e) m → e.culprit? = some token → error.line = token.line →
      error.cause ≠ .initializerWithoutInstance → Allowed (.runtime error)
  unmade {s : Store} {identity : Nat} {closure : Closure} :
    Good s (.function identity closure) → closure.isInitializer = true →
      s.read? closure.captured "this" = none →
        Allowed (.runtime ⟨.initializerWithoutInstance, closure.declaration.name.line⟩)
  -- sequences
  pure {α : Type} {m : Machine} {post : Store → α → Prop} {a : α} :
    Sound m → post m.store a → Relates m post (Pure.pure a) (Pure.pure a)
  stop {α : Type} {m : Machine} {post : Store → α → Prop} {stop : Stop} :
    Sound m → Allowed stop → Relates m post (fun m => .error stop m) (fun m => .error stop m)
  get {α : Type} {m : Machine} {post : Store → α → Prop} {f g : Machine → Run α} :
    (∀ m', Similar m m' → g m' = g m) → Relates m post (f m) (g m) → Relates m post (get >>= f) (get >>= g)
  bind {α β : Type} {m : Machine} {post : Store → α → Prop} {next : Store → β → Prop} {x y : Run α}
    {f g : α → Run β} : Relates m post x y →
      (∀ a m', After m m' → post m'.store a → Relates m' next (f a) (g a)) →
        Relates m next (x >>= f) (y >>= g)
  within {α : Type} {m : Machine} {post : Store → α → Prop} {frame : FrameId} {x y : Run α} :
    Relates { m with current := frame } post x y → Relates m post (within frame x) (within frame y)
  -- basic actions
  define {m : Machine} {frame : FrameId} {name : String} {v : Value} :
    Sound m → Binds m.store frame name → Good m.store v →
      Relates m (fun _ _ => True) (define frame name v) (define frame name v)
  newIdentity {m : Machine} : Sound m → Relates m (fun _ _ => True) newIdentity newIdentity
  newInstance {m : Machine} {type : Class} :
    Sound m → Good m.store (.ofClass type) →
      Relates m (fun s made => Good s (.ofInstance made)) (newInstance type) (newInstance type)
  setField {m : Machine} {i : Instance} {name : String} {v : Value} :
    Sound m → Good m.store (.ofInstance i) → Good m.store v →
      Relates m (fun _ _ => True) (setField i name v) (setField i name v)
  emit {m : Machine} (text : String) : Sound m → Relates m (fun _ _ => True) (emit text) (emit text)
  -- new scopes
  bindMethod {m : Machine} {c : Class} {name : String} {method : Closure} {i : Instance} :
    Sound m → Good m.store (.ofClass c) → c.findMethod? name = some method → Good m.store (.ofInstance i) →
      Relates m (fun s bound => ∀ identity, Good s (.function identity bound)) (bindMethod method i)
        (bindMethod method i)
  block {m : Machine} {body : List Stmt} :
    Sound m → Passed (.stmt (.block body)) m →
      Relates m (fun s frame => ∀ a ∈ body, Shown (.stmt a) s frame) (newFrame m.current) (newFrame m.current)
  body {m : Machine} {identity : Nat} {closure : Closure} :
    Sound m → Good m.store (.function identity closure) →
      Relates m (fun s frame => (∀ param ∈ closure.declaration.params, Binds s frame param.lexeme) ∧
          ∀ a ∈ closure.declaration.body, Shown (.stmt a) s frame)
        (newFrame closure.captured) (newFrame closure.captured)
  -- parts
  part {part site : Site} {m : Machine} : part.Part site → Passed site m → Shown part m.store m.current
  varDecl {name : Token} {initializer : Option Expr} {m m' : Machine} :
    Passed (.stmt (.varDecl name initializer)) m → After m m' → Binds m'.store m'.current name.lexeme

namespace Upkeep

variable (U : Upkeep)

def GoodFlow (s : Store) : Flow → Prop
  | .normal => True
  | .returned v => U.Good s v

/-- What fails at the token may do so. -/
def Blames (token : Token) : Prop :=
  ∀ error : RuntimeError, error.line = token.line → error.cause ≠ .initializerWithoutInstance →
    U.Allowed (.runtime error)

def Evaluates (evaluate evaluate' : Expr → Run Value) : Prop :=
  ∀ e m, U.Sound m → U.Shown (.expr e) m.store m.current → U.Relates m U.Good (evaluate e) (evaluate' e)

def Executes (execute execute' : Stmt → Run Flow) : Prop :=
  ∀ a m, U.Sound m → U.Shown (.stmt a) m.store m.current → U.Relates m U.GoodFlow (execute a) (execute' a)

variable {U} {m m' : Machine} {α : Type} {post : Store → α → Prop}

theorem blames_culprit {e : Expr} {token : Token} (passed : U.Passed (.expr e) m)
    (culprit : e.culprit? = some token) : U.Blames token :=
  fun _ => U.failing passed culprit

theorem shown_later {site : Site} (after : U.After m m') (shown : U.Shown site m.store m.current) :
    U.Shown site m'.store m'.current :=
  U.shown_current after (U.shown_after after shown)

/-! ## Basic actions -/

theorem raise {cause : RuntimeError.Cause} {token : Token} (sound : U.Sound m) (blames : U.Blames token)
    (other : cause ≠ .initializerWithoutInstance) :
    U.Relates m post (Run.raise cause token) (Run.raise cause token) :=
  U.stop sound (blames _ rfl other)

theorem lift {result : Except RuntimeError Value} (sound : U.Sound m) (plain : ∀ v, result = .ok v → Plain v)
    (allowed : ∀ error, result = .error error → U.Allowed (.runtime error)) :
    U.Relates m U.Good (Run.lift result) (Run.lift result) := by
  cases result with
  | ok v => exact U.pure sound (U.plain (plain v rfl))
  | error error => exact U.stop sound (allowed error rfl)

theorem current {f g : FrameId → Run α} (rest : U.Relates m post (f m.current) (g m.current)) :
    U.Relates m post (Run.current >>= f) (Run.current >>= g) :=
  U.get (fun _ similar => congrArg g similar.current) rest

theorem defineAll {frame : FrameId} {params : List Token} {arguments : List Value} (sound : U.Sound m)
    (binds : ∀ param ∈ params, U.Binds m.store frame param.lexeme) (values : ∀ v ∈ arguments, U.Good m.store v) :
    U.Relates m (fun _ _ => True) (Run.defineAll frame params arguments) (Run.defineAll frame params arguments) := by
  induction params generalizing arguments m with
  | nil => exact U.pure sound trivial
  | cons param params ih =>
      cases arguments with
      | nil => exact U.pure sound trivial
      | cons v arguments =>
          rw [List.forall_mem_cons] at binds values
          refine U.bind (U.define sound binds.1 values.1) fun _ m' after _ => ?_
          exact ih (U.sound_after after) (fun param mem => U.binds_after after (binds.2 param mem))
            fun v mem => U.good_after after (values.2 v mem)

/-! ## Sequences, blocks and loops -/

section Parts

variable {evaluate evaluate' : Expr → Run Value} {execute execute' : Stmt → Run Flow}

theorem executeAll (executes : U.Executes execute execute') {body : List Stmt} (sound : U.Sound m)
    (shown : ∀ a ∈ body, U.Shown (.stmt a) m.store m.current) :
    U.Relates m U.GoodFlow (Lox.executeAll execute body) (Lox.executeAll execute' body) := by
  induction body generalizing m with
  | nil => exact U.pure sound trivial
  | cons first rest ih =>
      rw [List.forall_mem_cons] at shown
      refine U.bind (executes first m sound shown.1) fun flow m' after returned => ?_
      cases flow with
      | normal => exact ih (U.sound_after after) fun a mem => shown_later after (shown.2 a mem)
      | returned v => exact U.pure (U.sound_after after) returned

theorem executeBlock (executes : U.Executes execute execute') {body : List Stmt} (sound : U.Sound m)
    (passed : U.Passed (.stmt (.block body)) m) :
    U.Relates m U.GoodFlow (Lox.executeBlock execute m.current body) (Lox.executeBlock execute' m.current body) := by
  refine U.bind (U.block sound passed) fun frame m' after inside => ?_
  exact U.within (executeAll executes (U.sound_within frame (U.sound_after after)) inside)

theorem repeatWhile (evaluates : U.Evaluates evaluate evaluate') (executes : U.Executes execute execute')
    {condition : Expr} {body : Stmt} (rounds : Nat) (sound : U.Sound m)
    (test : U.Shown (.expr condition) m.store m.current) (round : U.Shown (.stmt body) m.store m.current) :
    U.Relates m U.GoodFlow (Lox.repeatWhile (evaluate condition) (execute body) rounds)
      (Lox.repeatWhile (evaluate' condition) (execute' body) rounds) := by
  -- condition and body are shown where the loop starts, and still are where each round ends
  induction rounds generalizing m with
  | zero => exact U.stop sound U.starving
  | succ rounds ih =>
      refine U.bind (evaluates condition m sound test) fun v m₁ after₁ _ => ?_
      have sound₁ := U.sound_after after₁
      have round₁ := shown_later after₁ round
      split
      · refine U.bind (executes body m₁ sound₁ round₁) fun flow m₂ after₂ returned => ?_
        cases flow with
        | normal =>
            exact ih (U.sound_after after₂) (shown_later after₂ (shown_later after₁ test)) (shown_later after₂ round₁)
        | returned v => exact U.pure (U.sound_after after₂) returned
      · exact U.pure sound₁ trivial

/-! ## Calls and properties -/

theorem evaluateAll (evaluates : U.Evaluates evaluate evaluate') {es : List Expr} (sound : U.Sound m)
    (shown : ∀ e ∈ es, U.Shown (.expr e) m.store m.current) :
    U.Relates m (fun s vs => ∀ v ∈ vs, U.Good s v) (Lox.evaluateAll evaluate es) (Lox.evaluateAll evaluate' es) := by
  induction es generalizing m with
  | nil => exact U.pure sound nofun
  | cons first rest ih =>
      rw [List.forall_mem_cons] at shown
      refine U.bind (evaluates first m sound shown.1) fun v m₁ after₁ good => ?_
      have shown₁ := fun e mem => shown_later after₁ (shown.2 e mem)
      refine U.bind (ih (U.sound_after after₁) shown₁) fun vs m₂ after₂ others => ?_
      exact U.pure (U.sound_after after₂) (List.forall_mem_cons.mpr ⟨U.good_after after₂ good, others⟩)

theorem invoke (executes : U.Executes execute execute') (identity : Nat) {closure : Closure}
    {arguments : List Value} (sound : U.Sound m) (function : U.Good m.store (.function identity closure))
    (values : ∀ v ∈ arguments, U.Good m.store v) :
    U.Relates m U.Good (Lox.invoke execute closure arguments) (Lox.invoke execute' closure arguments) := by
  refine U.bind (U.body sound function) fun frame m₁ after₁ entered => ?_
  have sound₁ := U.sound_after after₁
  refine U.bind (defineAll sound₁ entered.1 fun v mem => U.good_after after₁ (values v mem)) fun _ m₂ after₂ _ => ?_
  have sound₂ := U.sound_after after₂
  have shown : ∀ a ∈ closure.declaration.body, U.Shown (.stmt a) m₂.store frame := fun a mem =>
    U.shown_after after₂ (entered.2 a mem)
  refine U.bind (U.within (executeAll executes (U.sound_within frame sound₂) shown)) fun flow m₃ after₃ returned => ?_
  have sound₃ := U.sound_after after₃
  -- the frame that the function closes over may have changed in its body
  have function₃ := U.good_after after₃ (U.good_after after₂ (U.good_after after₁ function))
  cases flagged : closure.isInitializer with
  | true =>
      refine U.get (fun m' similar => by rw [similar.store]) ?_
      cases bound : m₃.store.read? closure.captured "this" with
      | none => exact U.stop sound₃ (U.unmade function₃ flagged bound)
      | some made => exact U.pure sound₃ (U.this sound₃ function₃ bound)
  | false =>
      cases flow with
      | normal => exact U.pure sound₃ (U.plain trivial)
      | returned v => exact U.pure sound₃ returned

theorem methodValue {c : Class} {name : String} {method : Closure} {i : Instance} (sound : U.Sound m)
    (methods : U.Good m.store (.ofClass c)) (found : c.findMethod? name = some method)
    (this : U.Good m.store (.ofInstance i)) :
    U.Relates m U.Good (Lox.methodValue method i) (Lox.methodValue method i) := by
  refine U.bind (U.bindMethod sound methods found this) fun bound m₁ after₁ function => ?_
  refine U.bind (U.newIdentity (U.sound_after after₁)) fun identity m₂ after₂ _ => ?_
  exact U.pure (U.sound_after after₂) (U.good_after after₂ (function identity))

theorem construct (executes : U.Executes execute execute') {type : Class} {arguments : List Value}
    (sound : U.Sound m) (methods : U.Good m.store (.ofClass type)) (values : ∀ v ∈ arguments, U.Good m.store v) :
    U.Relates m U.Good (Lox.construct execute type arguments) (Lox.construct execute' type arguments) := by
  refine U.bind (U.newInstance sound methods) fun made m₁ after₁ this => ?_
  have sound₁ := U.sound_after after₁
  cases found : type.initializer? with
  | none => exact U.pure sound₁ this
  | some method =>
      have bound := U.bindMethod sound₁ (U.good_after after₁ methods) found this
      refine U.bind bound fun bound m₂ after₂ function => ?_
      have values₂ := fun v mem => U.good_after after₂ (U.good_after after₁ (values v mem))
      refine U.bind (invoke executes 0 (U.sound_after after₂) (function 0) values₂) fun _ m₃ after₃ _ => ?_
      exact U.pure (U.sound_after after₃) (U.good_after after₃ (U.good_after after₂ this))

theorem callChecked (executes : U.Executes execute execute') {callee : Value} {paren : Token}
    {arguments : List Value} (sound : U.Sound m) (blames : U.Blames paren) (target : U.Good m.store callee)
    (values : ∀ v ∈ arguments, U.Good m.store v) :
    U.Relates m U.Good (Lox.callChecked execute callee paren arguments)
      (Lox.callChecked execute' callee paren arguments) := by
  unfold Lox.callChecked
  split
  · exact raise sound blames nofun
  split
  · cases callee with
    | native function =>
        cases function
        have clock : U.Relates m U.Good (MonadState.get >>= fun m => Pure.pure (.number m.clock))
            (MonadState.get >>= fun m => Pure.pure (.number m.clock)) :=
          U.get (fun m' similar => by rw [similar.clock]) (U.pure sound (U.plain trivial))
        exact clock
    | function identity closure => exact invoke executes identity sound target values
    | ofClass type => exact construct executes sound target values
    | _ => exact raise sound blames nofun
  · exact raise sound blames nofun

theorem findMethod {c : Class} {i : Instance} {name : Token} (sound : U.Sound m) (blames : U.Blames name)
    (methods : U.Good m.store (.ofClass c)) (this : U.Good m.store (.ofInstance i)) :
    let found : Run Value := match c.findMethod? name.lexeme with
      | some method => Lox.methodValue method i
      | none => Run.raise (.undefinedProperty name.lexeme) name
    U.Relates m U.Good found found := by
  dsimp only
  split
  · rename_i method found
    exact methodValue sound methods found this
  · exact raise sound blames nofun

theorem getProperty {i : Instance} {name : Token} (sound : U.Sound m) (blames : U.Blames name)
    (this : U.Good m.store (.ofInstance i)) :
    U.Relates m U.Good (Lox.getProperty i name) (Lox.getProperty i name) := by
  refine U.get (fun m' similar => by rw [similar.store]) ?_
  cases bound : m.store.field? i name.lexeme with
  | none => exact findMethod sound blames (U.type this) this
  | some v => exact U.pure sound (U.field sound this bound)

/-! ## Meanings from the meanings of parts -/

/-- All expressions but those for which it matters how variables are reached. -/
theorem evaluateWith (evaluates : U.Evaluates evaluate evaluate') (executes : U.Executes execute execute')
    {e : Expr} (sound : U.Sound m) (passed : U.Passed (.expr e) m) (plain : e.usesScope = false) :
    U.Relates m U.Good (Lox.evaluateWith evaluate execute e) (Lox.evaluateWith evaluate' execute' e) := by
  cases e with
  | literal constant => exact U.pure sound (U.plain (plain_literal constant))
  | grouping inner => exact evaluates inner m sound (U.part .grouped passed)
  | unary operator right =>
      refine U.bind (evaluates right m sound (U.part .operand passed)) fun v m₁ after₁ _ => ?_
      refine lift (U.sound_after after₁) (fun _ => applyUnary_plain) fun error failed => ?_
      obtain ⟨here, other⟩ := applyUnary_error failed
      exact blames_culprit passed rfl error here other
  | binary left operator right =>
      refine U.bind (evaluates left m sound (U.part .left passed)) fun v m₁ after₁ _ => ?_
      have shown := shown_later after₁ (U.part .right passed)
      refine U.bind (evaluates right m₁ (U.sound_after after₁) shown) fun w m₂ after₂ _ => ?_
      refine lift (U.sound_after after₂) (fun _ => applyBinary_plain) fun error failed => ?_
      obtain ⟨here, other⟩ := applyBinary_error failed
      exact blames_culprit passed rfl error here other
  | logical left operator right =>
      refine U.bind (evaluates left m sound (U.part .deciding passed)) fun v m₁ after₁ good => ?_
      split
      · exact U.pure (U.sound_after after₁) good
      · exact evaluates right m₁ (U.sound_after after₁) (shown_later after₁ (U.part .other passed))
  | call callee paren arguments =>
      refine U.bind (evaluates callee m sound (U.part .callee passed)) fun v m₁ after₁ target => ?_
      have given := evaluateAll evaluates (U.sound_after after₁) fun e mem =>
        shown_later after₁ (U.part (.argument mem) passed)
      refine U.bind given fun vs m₂ after₂ values => ?_
      exact callChecked executes (U.sound_after after₂) (blames_culprit passed rfl) (U.good_after after₂ target) values
  | get object name =>
      refine U.bind (evaluates object m sound (U.part .object passed)) fun v m₁ after₁ good => ?_
      have blames : U.Blames name := blames_culprit passed rfl
      cases v with
      | ofInstance i => exact getProperty (U.sound_after after₁) blames good
      | _ => exact raise (U.sound_after after₁) blames nofun
  | set object name value =>
      refine U.bind (evaluates object m sound (U.part .changed passed)) fun v m₁ after₁ target => ?_
      cases v with
      | ofInstance i =>
          have shown := shown_later after₁ (U.part .field passed)
          refine U.bind (evaluates value m₁ (U.sound_after after₁) shown) fun w m₂ after₂ good => ?_
          refine U.bind (U.setField (U.sound_after after₂) (U.good_after after₂ target) good) fun _ m₃ after₃ _ => ?_
          exact U.pure (U.sound_after after₃) (U.good_after after₃ good)
      | _ => exact raise (U.sound_after after₁) (blames_culprit passed rfl) nofun
  | read _ | assign _ _ | self _ | inherited _ _ => cases plain

/-- All statements but those that declare functions or classes. -/
theorem executeWith (evaluates : U.Evaluates evaluate evaluate') (executes : U.Executes execute execute')
    (rounds : Nat) {a : Stmt} (sound : U.Sound m) (passed : U.Passed (.stmt a) m) (plain : a.makesFunctions = false) :
    U.Relates m U.GoodFlow (Lox.executeWith rounds evaluate execute a)
      (Lox.executeWith rounds evaluate' execute' a) := by
  cases a with
  | expression value =>
      refine U.bind (evaluates value m sound (U.part .expression passed)) fun _ m₁ after₁ _ => ?_
      exact U.pure (U.sound_after after₁) trivial
  | print value =>
      refine U.bind (evaluates value m sound (U.part .printed passed)) fun v m₁ after₁ _ => ?_
      refine U.bind (U.emit _ (U.sound_after after₁)) fun _ m₂ after₂ _ => ?_
      exact U.pure (U.sound_after after₂) trivial
  | varDecl name initializer =>
      -- with and without an initializer, the last step is the same
      have defines {v : Value} {m₁ : Machine} (after : U.After m m₁) (good : U.Good m₁.store v) :
          let defined : Run Flow := do
            Run.define (← Run.current) name.lexeme v
            Pure.pure .normal
          U.Relates m₁ U.GoodFlow defined defined := by
        have define := U.define (U.sound_after after) (U.varDecl passed after) good
        refine current (U.bind define fun _ m₂ after₂ _ => ?_)
        exact U.pure (U.sound_after after₂) trivial
      cases initializer with
      | none => exact defines (U.refl sound) (U.plain trivial)
      | some value =>
          exact U.bind (evaluates value m sound (U.part .initializer passed)) fun v m₁ after₁ good => defines after₁ good
  | block body => exact current (executeBlock executes sound passed)
  | ifElse condition thenBranch elseBranch =>
      refine U.bind (evaluates condition m sound (U.part .condition passed)) fun v m₁ after₁ _ => ?_
      have sound₁ := U.sound_after after₁
      split
      · exact executes thenBranch m₁ sound₁ (shown_later after₁ (U.part .thenBranch passed))
      · cases elseBranch with
        | none => exact U.pure sound₁ trivial
        | some other => exact executes other m₁ sound₁ (shown_later after₁ (U.part .elseBranch passed))
  | whileLoop condition body =>
      exact repeatWhile evaluates executes rounds sound (U.part .test passed) (U.part .round passed)
  | returnStmt keyword value =>
      cases value with
      | none => exact U.pure sound (U.plain trivial)
      | some value =>
          refine U.bind (evaluates value m sound (U.part .returned passed)) fun v m₁ after₁ good => ?_
          exact U.pure (U.sound_after after₁) good
  | funDecl _ | classDecl _ _ _ => cases plain

end Parts

end Upkeep

end Lox
