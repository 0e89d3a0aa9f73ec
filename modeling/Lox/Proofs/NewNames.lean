import Lox.Proofs.Passage
import Lox.Proofs.Scope.Routes
import Lox.Proofs.Store
import Lox.Proofs.Watches

/-!
# Names of old frames

What a run may do to frames that were there before: it adds names to the running one only (`Gains`). An
assignment adds none if it finds the name bound, so what matters are the assignments in the expressions of
the statements that the run gets to (`Stmt.Covered`). Where all of these are covered, each statement adds
just the name that it declares, and a call adds none (`under_keeps`).
-/

namespace Lox

/-! ## Covered assignments -/

def Stmt.expression? : Stmt → Option Expr
  | .expression value | .print value => some value
  | .varDecl _ initializer => initializer
  | .ifElse condition _ _ | .whileLoop condition _ => some condition
  | .returnStmt _ value => value
  | .block _ | .funDecl _ | .classDecl _ _ _ => none

/-- The assignment finds the name bound, or may add it to the running frame. -/
def Covered (names : String → Prop) (m : Machine) (r : Reference) : Prop :=
  ∀ d, m.distances.find? r.id = some d → ∃ f, m.store.ancestor? m.current d = some f ∧
    ((m.store.read? f r.name).isSome ∨ f = m.current ∧ names r.name)

abbrev Expr.Covered (names : String → Prop) (m : Machine) (e : Expr) : Prop :=
  ∀ r, e.Assigns r → Lox.Covered names m r

def Stmt.Declares (a : Stmt) (x : String) : Prop := a.declared? = some x

structure Stmt.Covered (m : Machine) (a : Stmt) : Prop where
  formed : a.WellFormed
  expression : ∀ e, a.expression? = some e → e.Covered a.Declares m

theorem not_declares {a : Stmt} (plain : a.isDeclaration = false) (x : String) : ¬ a.Declares x := by
  cases a with
  | varDecl _ _ | funDecl _ | classDecl _ _ _ => cases plain
  | _ => exact nofun

/-! ## Machines -/

/-- Of the frames below `old`, only the running one gets new names, and only some. -/
structure Gains (old : Nat) (names : String → Prop) (m m' : Machine) : Prop where
  size : m.store.frames.size ≤ m'.store.frames.size
  links : ∀ f < m.store.frames.size, m'.store.enclosing? f = m.store.enclosing? f
  current : m'.current = m.current
  distances : m'.distances = m.distances
  kept : ∀ f x, (m.store.read? f x).isSome → (m'.store.read? f x).isSome
  added : ∀ f x, f < old → (m'.store.read? f x).isSome → (m.store.read? f x).isSome ∨ f = m.current ∧ names x

namespace Gains

variable {old : Nat} {names names' : String → Prop} {m m' m'' : Machine} {frame : FrameId}

theorem refl : Gains old names m m :=
  ⟨Nat.le.refl, fun _ _ => rfl, rfl, rfl, fun _ _ => id, fun _ _ _ => .inl⟩

theorem trans (first : Gains old names m m') (second : Gains old names m' m'') : Gains old names m m'' where
  size := Nat.le_trans first.size second.size
  links f older := (second.links f (Nat.lt_of_lt_of_le older first.size)).trans (first.links f older)
  current := second.current.trans first.current
  distances := second.distances.trans first.distances
  kept f x bound := second.kept f x (first.kept f x bound)
  added f x older bound := by
    rcases second.added f x older bound with before | ⟨here, allowed⟩
    · exact first.added f x older before
    · exact .inr ⟨here.trans first.current, allowed⟩

theorem room (gains : Gains old names m m') (le : old ≤ m.store.frames.size) : old ≤ m'.store.frames.size :=
  Nat.le_trans le gains.size

theorem imp (gains : Gains old names m m') (imp : ∀ x, names x → names' x) : Gains old names' m m' where
  size := gains.size
  links := gains.links
  current := gains.current
  distances := gains.distances
  kept := gains.kept
  added f x older bound := (gains.added f x older bound).imp_right fun allowed => ⟨allowed.1, imp x allowed.2⟩

theorem of_frames (current : m'.current = m.current) (distances : m'.distances = m.distances)
    (frames : m'.store.frames = m.store.frames) : Gains old names m m' := by
  have reads (f : FrameId) (x : String) : m'.store.read? f x = m.store.read? f x := by
    rw [Store.read?, Store.read?, frames]
  have size := Nat.le_of_eq (congrArg Array.size frames.symm)
  refine ⟨size, fun f _ => ?_, current, distances, fun f x bound => ?_, fun f x _ bound => ?_⟩
  · rw [Store.enclosing?, Store.enclosing?, frames]
  · rwa [reads]
  · rw [reads] at bound
    exact .inl bound

theorem define {x : String} {v : Value}
    (allowed : frame < old → (m.store.read? frame x).isSome ∨ frame = m.current ∧ names x) :
    Gains old names m { m with store := m.store.define frame x v } where
  size := Nat.le_of_eq Store.size_define.symm
  links _ _ := Store.enclosing?_define
  current := rfl
  distances := rfl
  kept _ _ := Store.isSome_read?_define
  added f y older bound := by
    by_cases here : f = frame ∧ y = x
    · obtain ⟨rfl, rfl⟩ := here
      exact allowed older
    · rw [Store.read?_define_of_ne here] at bound
      exact .inl bound

theorem newFrame (enclosing : Option FrameId) :
    Gains old names m { m with store := (m.store.newFrame enclosing).2 } where
  size := by
    rw [Store.newFrame, Array.size_push]
    exact Nat.le_succ _
  links _ older := Store.enclosing?_newFrame enclosing older
  current := rfl
  distances := rfl
  kept f x bound := by rwa [Store.read?_newFrame]
  added f x _ bound := by
    rw [Store.read?_newFrame] at bound
    exact .inl bound

theorem within (gains : Gains old names' { m with current := frame } m') (young : old ≤ frame) :
    Gains old names m { m' with current := m.current } where
  size := gains.size
  links := gains.links
  current := rfl
  distances := gains.distances
  kept := gains.kept
  added f x older bound := by
    rcases gains.added f x older bound with before | ⟨rfl, -⟩
    · exact .inl before
    · exact (Nat.not_lt_of_le young older).elim

theorem ancestor? (gains : Gains old names m m') {g : FrameId} {links : Nat}
    (reached : m.store.ancestor? frame links = some g) : m'.store.ancestor? frame links = some g := by
  induction links generalizing frame with
  | zero => exact reached
  | succ links ih =>
      rw [Store.ancestor?] at reached ⊢
      split at reached
      · rename_i outer link
        rw [gains.links frame (Store.older_of_enclosing link), link]
        exact ih reached
      · cases reached

end Gains

/-! ## Covered assignments on the way -/

section Covered

variable {old : Nat} {names names' : String → Prop} {m m' : Machine} {r : Reference} {e : Expr}

theorem Covered.after (covered : Covered names m r) (gains : Gains old names' m m') : Covered names m' r := by
  intro d entry
  rw [gains.distances] at entry
  obtain ⟨f, reached, bound⟩ := covered d entry
  rw [gains.current]
  exact ⟨f, gains.ancestor? reached, bound.imp_left (gains.kept f r.name)⟩

namespace Expr.Covered

theorem after (covered : e.Covered names m) (gains : Gains old names' m m') : e.Covered names m' :=
  fun r assigned => (covered r assigned).after gains

theorem first {part : Expr} {rest : Path → List (Path × Occurrence)} (covered : e.Covered names m)
    (split : ∀ path, e.occurrences path = part.occurrences path ++ rest path) : part.Covered names m :=
  fun r assigned => covered r fun path => split path ▸ List.mem_append_left _ (assigned path)

theorem second {part : Expr} {front : Path → List (Path × Occurrence)} (covered : e.Covered names m)
    (split : ∀ path, e.occurrences path = front path ++ part.occurrences path) : part.Covered names m :=
  fun r assigned => covered r fun path => split path ▸ List.mem_append_right _ (assigned path)

theorem argument {callee : Expr} {paren : Token} {arguments : List Expr} (mem : e ∈ arguments)
    (covered : (Expr.call callee paren arguments).Covered names m) : e.Covered names m := by
  intro r assigned
  refine covered r fun path => ?_
  rw [Expr.occurrences]
  exact List.mem_append_right _ (Expr.occurrences_subset path mem (assigned path))

end Expr.Covered

end Covered

/-! ## Results -/

/--
However an action ends, it has added some names to the running frame only. Of one that is stopped with the mark
nothing is known.
-/
inductive Keeps (mark : Stop) (old : Nat) (names : String → Prop) (m : Machine) {α : Type} :
    EStateM.Result Stop Machine α → Prop where
  | done {a : α} {m' : Machine} : Gains old names m m' → Keeps mark old names m (.ok a m')
  | stopped {stop : Stop} {m' : Machine} :
      (stop ≠ mark → Gains old names m m') → Keeps mark old names m (.error stop m')

variable {mark : Stop} {old : Nat} {names names' : String → Prop} {m m' : Machine} {frame : FrameId}
  {α β : Type}

namespace Keeps

theorem pure (a : α) : Keeps mark old names m ((Pure.pure a : Run α) m) := .done .refl

theorem stop {stop : Stop} : Keeps mark old names m (.error stop m : EStateM.Result Stop Machine α) :=
  .stopped fun _ => .refl

theorem lift (result : Except RuntimeError α) : Keeps mark old names m (Run.lift result m) := by
  cases result with
  | ok a => exact .done .refl
  | error error => exact .stop

theorem imp {result : EStateM.Result Stop Machine α} (keeps : Keeps mark old names m result)
    (imp : ∀ x, names x → names' x) : Keeps mark old names' m result := by
  cases keeps with
  | done gains => exact .done (gains.imp imp)
  | stopped gains => exact .stopped fun other => (gains other).imp imp

theorem after {result : EStateM.Result Stop Machine α} (first : Gains old names m m')
    (rest : Keeps mark old names m' result) : Keeps mark old names m result := by
  cases rest with
  | done gains => exact .done (first.trans gains)
  | stopped gains => exact .stopped fun other => first.trans (gains other)

theorem bind {x : Run α} {f : α → Run β} (first : Keeps mark old names m (x m))
    (rest : ∀ a m', Gains old names m m' → Keeps mark old names m' (f a m')) :
    Keeps mark old names m ((x >>= f) m) := by
  change Keeps mark old names m (EStateM.bind x f m)
  unfold EStateM.bind
  cases ended : x m with
  | ok a m' =>
      rw [ended] at first
      obtain gains | _ := first
      exact .after gains (rest a m' gains)
  | error stop m' =>
      rw [ended] at first
      obtain _ | gains := first
      exact .stopped gains

theorem get {f : Machine → Run α} (rest : Keeps mark old names m (f m m)) :
    Keeps mark old names m ((MonadState.get >>= f) m) :=
  rest

theorem current {f : FrameId → Run α} (rest : Keeps mark old names m (f m.current m)) :
    Keeps mark old names m ((Run.current >>= f) m) :=
  rest

theorem newFrame {enclosing : FrameId} {f : FrameId → Run α} (le : old ≤ m.store.frames.size)
    (rest : ∀ frame m', old ≤ frame → Gains old names m m' → Keeps mark old names m' (f frame m')) :
    Keeps mark old names m ((Run.newFrame enclosing >>= f) m) :=
  .after (.newFrame (some enclosing)) (rest m.store.frames.size _ le (.newFrame (some enclosing)))

theorem define {x : String} {v : Value}
    (allowed : frame < old → (m.store.read? frame x).isSome ∨ frame = m.current ∧ names x) :
    Keeps mark old names m (Run.define frame x v m) :=
  .done (.define allowed)

theorem defineYoung {x : String} {v : Value} (young : old ≤ frame) :
    Keeps mark old names m (Run.define frame x v m) :=
  .define fun older => (Nat.not_lt_of_le young older).elim

theorem newIdentity : Keeps mark old names m (Run.newIdentity m) := .done (.of_frames rfl rfl rfl)

theorem newInstance (type : Class) : Keeps mark old names m (Run.newInstance type m) :=
  .done (.of_frames rfl rfl rfl)

theorem setField (i : Instance) (x : String) (v : Value) : Keeps mark old names m (Run.setField i x v m) :=
  .done (.of_frames rfl rfl rfl)

theorem emit (text : String) : Keeps mark old names m (Run.emit text m) := by
  unfold Run.emit
  obtain ⟨failed, sink⟩ := m.sink.write text
  cases failed with
  | none => exact .done (.of_frames rfl rfl rfl)
  | some error => exact .stopped fun _ => .of_frames rfl rfl rfl

theorem within {x : Run α} (young : old ≤ frame)
    (inside : Keeps mark old names' { m with current := frame } (x { m with current := frame })) :
    Keeps mark old names m (Run.within frame x m) := by
  unfold Run.within
  cases ended : x { m with current := frame } with
  | ok a m' =>
      rw [ended] at inside
      obtain gains | _ := inside
      exact .done (gains.within young)
  | error stop m' =>
      rw [ended] at inside
      obtain _ | gains := inside
      exact .stopped fun other => (gains other).within young

end Keeps

/-! ## Variables -/

theorem lookUp_keeps (r : Reference) : Keeps mark old names m (lookUp r m) := by
  unfold lookUp
  simp only
  split
  · exact .done .refl
  · exact .stop

theorem assign_keeps {r : Reference} {v : Value} (covered : Covered names m r) :
    Keeps mark old names m (assign r v m) := by
  unfold assign
  simp only
  split
  · rename_i frame target
    refine .define fun _ => ?_
    split at target
    · rename_i d entry
      obtain ⟨f, reached, bound⟩ := covered d entry
      cases reached.symm.trans target
      exact bound
    · rw [Store.binder?_globals] at target
      split at target
      · rename_i bound
        cases target
        exact .inl bound
      · cases target
  · exact .stop

theorem defineAll_keeps (params : List Token) (arguments : List Value) (young : old ≤ frame) :
    Keeps mark old names m (Run.defineAll frame params arguments m) := by
  induction params generalizing arguments m with
  | nil => exact .pure ()
  | cons param params ih =>
      cases arguments with
      | nil => exact .pure ()
      | cons v arguments => exact .bind (.defineYoung young) fun _ _ _ => ih arguments

/-! ## Statements in sequence -/

def KeepsEvaluating (mark : Stop) (old : Nat) (evaluate : Expr → Run Value) : Prop :=
  ∀ e names m, old ≤ m.store.frames.size → e.Covered names m → Keeps mark old names m (evaluate e m)

def KeepsExecuting (mark : Stop) (old : Nat) (execute : Stmt → Run Flow) : Prop :=
  ∀ (a : Stmt) m, old ≤ m.store.frames.size → Keeps mark old a.Declares m (execute a m)

variable {evaluate : Expr → Run Value} {execute : Stmt → Run Flow}

theorem KeepsExecuting.plain {a : Stmt} (executes : KeepsExecuting mark old execute)
    (plain : a.isDeclaration = false) (le : old ≤ m.store.frames.size) : Keeps mark old names m (execute a m) :=
  (executes a m le).imp fun x declares => (not_declares plain x declares).elim

theorem executeAll_keeps (executes : KeepsExecuting mark old execute) (body : List Stmt)
    (le : old ≤ m.store.frames.size) :
    Keeps mark old (fun _ => True) m (executeAll execute body m) := by
  induction body generalizing m with
  | nil => exact .pure _
  | cons first rest ih =>
      refine .bind ((executes first m le).imp fun _ _ => trivial) fun flow m' gains => ?_
      cases flow with
      | normal => exact ih (gains.room le)
      | returned value => exact .pure _

theorem executeBlock_keeps (executes : KeepsExecuting mark old execute) (enclosing : FrameId) (body : List Stmt)
    (le : old ≤ m.store.frames.size) : Keeps mark old names m (executeBlock execute enclosing body m) := by
  refine .newFrame le fun frame m' young gains => ?_
  exact .within young (executeAll_keeps executes body (gains.room le))

theorem repeatWhile_keeps {condition : Expr} {body : Stmt} (evaluates : KeepsEvaluating mark old evaluate)
    (executes : KeepsExecuting mark old execute) (plain : body.isDeclaration = false) (rounds : Nat)
    (le : old ≤ m.store.frames.size) (covered : condition.Covered names m) :
    Keeps mark old names m (repeatWhile (evaluate condition) (execute body) rounds m) := by
  induction rounds generalizing m with
  | zero => exact .stop
  | succ rounds ih =>
      refine .bind (evaluates condition names m le covered) fun v m₁ gains₁ => ?_
      have le₁ := gains₁.room le
      split
      · refine .bind (executes.plain plain le₁) fun flow m₂ gains₂ => ?_
        cases flow with
        | normal => exact ih (gains₂.room le₁) (covered.after (gains₁.trans gains₂))
        | returned value => exact .pure _
      · exact .pure _

/-! ## Calls -/

theorem evaluateAll_keeps (evaluates : KeepsEvaluating mark old evaluate) {es : List Expr}
    (le : old ≤ m.store.frames.size) (covered : ∀ e ∈ es, e.Covered names m) :
    Keeps mark old names m (evaluateAll evaluate es m) := by
  induction es generalizing m with
  | nil => exact .pure _
  | cons first rest ih =>
      rw [List.forall_mem_cons] at covered
      refine .bind (evaluates first names m le covered.1) fun v m' gains => ?_
      have later := ih (gains.room le) fun e mem => (covered.2 e mem).after gains
      exact .bind later fun _ _ _ => .pure _

theorem invoke_keeps (executes : KeepsExecuting mark old execute) (closure : Closure) (arguments : List Value)
    (le : old ≤ m.store.frames.size) : Keeps mark old names m (invoke execute closure arguments m) := by
  refine .newFrame le fun frame m₁ young gains₁ => ?_
  refine .bind (defineAll_keeps _ arguments young) fun _ m₂ gains₂ => ?_
  have le₂ : old ≤ m₂.store.frames.size := gains₂.room (gains₁.room le)
  refine .bind (.within young (executeAll_keeps executes _ le₂)) fun flow m₃ _ => ?_
  cases closure.isInitializer with
  | true =>
      simp only [if_true]
      refine .get ?_
      cases m₃.store.read? closure.captured "this" with
      | none => exact .stop
      | some made => exact .pure made
  | false =>
      simp only [Bool.false_eq_true, if_false]
      cases flow <;> exact .pure _

theorem bindMethod_keeps (method : Closure) (i : Instance) (le : old ≤ m.store.frames.size) :
    Keeps mark old names m (bindMethod method i m) :=
  .newFrame le fun _ _ young _ => .bind (.defineYoung young) fun _ _ _ => .pure _

theorem methodValue_keeps (method : Closure) (i : Instance) (le : old ≤ m.store.frames.size) :
    Keeps mark old names m (methodValue method i m) :=
  .bind (bindMethod_keeps method i le) fun _ _ _ => .bind .newIdentity fun _ _ _ => .pure _

theorem construct_keeps (executes : KeepsExecuting mark old execute) (type : Class) (arguments : List Value)
    (le : old ≤ m.store.frames.size) : Keeps mark old names m (construct execute type arguments m) := by
  refine .bind (.newInstance type) fun made m₁ gains₁ => ?_
  cases type.initializer? with
  | none => exact .pure _
  | some method =>
      have le₁ := gains₁.room le
      refine .bind (bindMethod_keeps method made le₁) fun bound m₂ gains₂ => ?_
      have le₂ := gains₂.room le₁
      exact .bind (invoke_keeps executes bound arguments le₂) fun _ _ _ => .pure _

theorem callChecked_keeps (executes : KeepsExecuting mark old execute) (callee : Value) (paren : Token)
    (arguments : List Value) (le : old ≤ m.store.frames.size) :
    Keeps mark old names m (callChecked execute callee paren arguments m) := by
  unfold callChecked
  cases callee.arity? with
  | none => exact .stop
  | some arity =>
      by_cases count : arguments.length = arity
      · simp only [if_pos count]
        cases callee with
        | native function =>
            cases function
            exact .done .refl
        | function identity closure => exact invoke_keeps executes closure arguments le
        | ofClass type => exact construct_keeps executes type arguments le
        | _ => exact .stop
      · simp only [if_neg count]
        exact .stop

/-! ## Properties -/

theorem findMethod_keeps (c : Class) (i : Instance) (name : Token) (le : old ≤ m.store.frames.size) :
    Keeps mark old names m
      ((match c.findMethod? name.lexeme with
        | some method => methodValue method i
        | none => Run.raise (.undefinedProperty name.lexeme) name : Run Value) m) := by
  cases c.findMethod? name.lexeme with
  | none => exact .stop
  | some method => exact methodValue_keeps method i le

theorem getProperty_keeps (i : Instance) (name : Token) (le : old ≤ m.store.frames.size) :
    Keeps mark old names m (getProperty i name m) := by
  refine .get ?_
  cases m.store.field? i name.lexeme with
  | none => exact findMethod_keeps i.type i name le
  | some v => exact .pure v

theorem getInherited_keeps (keyword : Reference) (method : Token) (le : old ≤ m.store.frames.size) :
    Keeps mark old names m (getInherited keyword method m) := by
  refine .get ?_
  cases findInherited m keyword with
  | none => exact .stop
  | some means => exact findMethod_keeps means.1 means.2 method le

/-! ## Declarations -/

theorem defineHere_keeps {x : String} {v : Value} (allowed : names x) :
    Keeps mark old names m (Run.define m.current x v m) :=
  .define fun _ => .inr ⟨rfl, allowed⟩

theorem declareFunction_keeps {declaration : FunctionDecl} (allowed : names declaration.name.lexeme) :
    Keeps mark old names m (declareFunction declaration m) := by
  refine .current (.bind .newIdentity fun identity m₁ gains₁ => ?_)
  rw [← gains₁.current]
  exact defineHere_keeps allowed

theorem declareClass_keeps {name : Token} (superclass : Option Reference) (methods : List FunctionDecl)
    (allowed : names name.lexeme) (le : old ≤ m.store.frames.size) :
    Keeps mark old names m (declareClass name superclass methods m) := by
  have makes {m₁ : Machine} (gains : Gains old names m m₁) (home : FrameId) (parent : Option Class) :
      Keeps mark old names m₁ ((do
        let identity ← Run.newIdentity
        Run.define m.current name.lexeme
          (.ofClass ⟨identity, name.lexeme, parent, methodTable home methods⟩) : Run Unit) m₁) := by
    refine .bind .newIdentity fun identity m₂ gains₂ => ?_
    rw [← (gains.trans gains₂).current]
    exact defineHere_keeps allowed
  cases superclass with
  | none => exact makes .refl m.current none
  | some reference =>
      refine .current ?_
      have looks : Keeps mark old names m (lookUpSuperclass reference m) := by
        refine .bind (lookUp_keeps reference) fun v _ _ => ?_
        cases v with
        | ofClass parent => exact .pure parent
        | _ => exact .stop
      refine .bind looks fun parent m₁ gains₁ => ?_
      refine .newFrame (gains₁.room le) fun home m₂ young gains₂ => ?_
      refine .bind (.defineYoung young) fun _ m₃ gains₃ => ?_
      exact makes ((gains₁.trans gains₂).trans gains₃) home (some parent)

/-! ## Meanings from the meanings of parts -/

theorem evaluateWith_keeps (evaluates : KeepsEvaluating mark old evaluate)
    (executes : KeepsExecuting mark old execute) : KeepsEvaluating mark old (evaluateWith evaluate execute) := by
  intro e names m le covered
  cases e with
  | literal constant => exact .pure _
  | grouping inner => exact evaluates inner names m le covered
  | unary operator right => exact .bind (evaluates right names m le covered) fun _ _ _ => .lift _
  | binary left operator right =>
      refine .bind (evaluates left names m le (covered.first fun _ => rfl)) fun v m₁ gains₁ => ?_
      have covered₁ : right.Covered names m₁ := (covered.second fun _ => rfl).after gains₁
      exact .bind (evaluates right names m₁ (gains₁.room le) covered₁) fun _ _ _ => .lift _
  | logical left operator right =>
      refine .bind (evaluates left names m le (covered.first fun _ => rfl)) fun v m₁ gains₁ => ?_
      have covered₁ : right.Covered names m₁ := (covered.second fun _ => rfl).after gains₁
      split
      · exact .pure v
      · exact evaluates right names m₁ (gains₁.room le) covered₁
  | read name => exact lookUp_keeps name
  | assign name value =>
      refine .bind (evaluates value names m le (covered.first fun _ => rfl)) fun v m₁ gains₁ => ?_
      have covered₁ : Covered names m₁ name := (covered name (Expr.assigns_self name value)).after gains₁
      exact .bind (assign_keeps covered₁) fun _ _ _ => .pure v
  | call callee paren arguments =>
      refine .bind (evaluates callee names m le (covered.first fun _ => rfl)) fun v m₁ gains₁ => ?_
      have le₁ := gains₁.room le
      have covered₁ (e : Expr) (mem : e ∈ arguments) : e.Covered names m₁ :=
        (Expr.Covered.argument mem covered).after gains₁
      refine .bind (evaluateAll_keeps evaluates le₁ covered₁) fun vs m₂ gains₂ => ?_
      exact callChecked_keeps executes v paren vs (gains₂.room le₁)
  | get object name =>
      refine .bind (evaluates object names m le covered) fun v m₁ gains₁ => ?_
      cases v with
      | ofInstance i => exact getProperty_keeps i name (gains₁.room le)
      | _ => exact .stop
  | set object name value =>
      refine .bind (evaluates object names m le (covered.first fun _ => rfl)) fun v m₁ gains₁ => ?_
      have covered₁ : value.Covered names m₁ := (covered.second fun _ => rfl).after gains₁
      cases v with
      | ofInstance i =>
          refine .bind (evaluates value names m₁ (gains₁.room le) covered₁) fun w _ _ => ?_
          exact .bind (.setField i name.lexeme w) fun _ _ _ => .pure w
      | _ => exact .stop
  | self keyword => exact lookUp_keeps keyword
  | inherited keyword method => exact getInherited_keeps keyword method le

theorem executeWith_keeps (evaluates : KeepsEvaluating mark old evaluate)
    (executes : KeepsExecuting mark old execute) (rounds : Nat) {a : Stmt} (covered : a.Covered m)
    (le : old ≤ m.store.frames.size) : Keeps mark old a.Declares m (executeWith rounds evaluate execute a m) := by
  obtain ⟨formed, expression⟩ := covered
  have evaluates' (e : Expr) (own : a.expression? = some e) : Keeps mark old a.Declares m (evaluate e m) :=
    evaluates e a.Declares m le (expression e own)
  cases a with
  | expression value => exact .bind (evaluates' value rfl) fun _ _ _ => .pure _
  | print value => exact .bind (evaluates' value rfl) fun v _ _ => .bind (.emit _) fun _ _ _ => .pure _
  | varDecl name initializer =>
      have defines (v : Value) (m₁ : Machine) :
          Keeps mark old (Stmt.varDecl name initializer).Declares m₁ ((do
            Run.define (← Run.current) name.lexeme v
            Pure.pure .normal : Run Flow) m₁) :=
        .current (.bind (defineHere_keeps rfl) fun _ _ _ => .pure _)
      cases initializer with
      | none => exact defines .nil m
      | some value => exact .bind (evaluates' value rfl) fun v m₁ _ => defines v m₁
  | block body => exact .current (executeBlock_keeps executes m.current body le)
  | ifElse condition thenBranch elseBranch =>
      refine .bind (evaluates' condition rfl) fun v m₁ gains₁ => ?_
      have le₁ := gains₁.room le
      split
      · exact executes.plain formed.ifElse_inv.2.2 le₁
      · cases elseBranch with
        | none => exact .pure _
        | some other =>
            rw [Stmt.WellFormed] at formed
            exact executes.plain formed.2.2.2.2 le₁
  | whileLoop condition body =>
      rw [Stmt.WellFormed] at formed
      exact repeatWhile_keeps evaluates executes formed.2.2 rounds le (expression condition rfl)
  | funDecl declaration => exact .bind (declareFunction_keeps rfl) fun _ _ _ => .pure _
  | returnStmt keyword value =>
      cases value with
      | none => exact .pure _
      | some value => exact .bind (evaluates' value rfl) fun _ _ _ => .pure _
  | classDecl name superclass methods =>
      exact .bind (declareClass_keeps superclass methods rfl le) fun _ _ _ => .pure _

/-! ## Whole runs -/

open Classical in
/-- Stops a run with the mark at the first statement that is not covered. -/
noncomputable def uncovered (mark : Stop) : Watch
  | .stmt a, m => if a.Covered m then none else some mark
  | .expr _, _ => none

theorem under_keeps (mark : Stop) (old fuel : Nat) :
    KeepsEvaluating mark old (evaluateUnder (uncovered mark) fuel) ∧
      KeepsExecuting mark old (executeUnder (uncovered mark) fuel) := by
  induction fuel with
  | zero => exact ⟨fun _ _ _ _ _ => .stop, fun _ _ _ => .stop⟩
  | succ fuel ih =>
      obtain ⟨evaluates, executes⟩ := ih
      constructor
      · intro e names m le covered
        rw [evaluateUnder, supervised_of_none rfl]
        exact evaluateWith_keeps evaluates executes e names m le covered
      · intro a m le
        rw [executeUnder]
        by_cases covered : a.Covered m
        · rw [supervised_of_none (if_pos covered)]
          exact executeWith_keeps evaluates executes fuel covered le
        · rw [supervised_of_some (if_neg covered)]
          exact .stop

theorem gains_of_covered {x : Watch → Run α} (watched : Watched x)
    (keeps : ∀ mark, Keeps mark old names m (x (uncovered mark) m))
    (covered : ∀ a m₁, (∀ stop, ∃ m', x (breakpoint (.stmt a) m₁ stop) m = .error stop m') → a.Covered m₁) :
    Gains old names m (leaves (x silent) m) := by
  -- No statement on the way is uncovered, so that the watch changes nothing, whatever its mark.
  have same (mark : Stop) : x silent m = x (uncovered mark) m := by
    rcases watched (uncovered mark) m with same | ⟨site, m₁, speaks, stops⟩
    · exact same silent fun _ _ _ => rfl
    · cases site with
      | expr e => exact (speaks rfl).elim
      | stmt a =>
          refine (speaks (if_pos (covered a m₁ fun stop => ?_))).elim
          exact stops _ stop (breakpoint_within speaks) breakpoint_self
  unfold leaves
  cases ended : x silent m with
  | ok a m' =>
      have here := keeps .outOfFuel
      rw [← same, ended] at here
      obtain gains | _ := here
      exact gains
  | error stop m' =>
      -- With another mark, this is not the stop of the watch.
      obtain ⟨mark, different⟩ := stop.exists_ne
      have here := keeps mark
      rw [← same, ended] at here
      obtain _ | gains := here
      exact gains different.symm

end Lox
