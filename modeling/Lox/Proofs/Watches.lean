import Lox.Proofs.Passage
import Lox.Proofs.Supervision

/-!
# What watches see

A run is the same under all watches up to where one of them speaks (`Watched`). So whatever a watch
is shown before it speaks is reached by the run (`silent_or_reaches`). A run that gets to some site
can be followed there by a watch that would have stopped it at any site that it does not reach
(`guide_arrives`), and so everything on its way is reached as well.
-/

namespace Lox
open Run

namespace Watch

/-- The watch speaks only where the other one does. -/
def Within (quiet loud : Watch) : Prop := ∀ site m, loud site m = none → quiet site m = none

end Watch

/--
Under a watch, either the action is the same as under all watches that say less, or there is a first
site where the watch speaks, and of those that say less each one that speaks there stops the action.
-/
def Watched {α : Type} (action : Watch → Run α) : Prop :=
  ∀ (loud : Watch) (m : Machine),
    (∀ quiet, quiet.Within loud → action quiet m = action loud m) ∨
      ∃ site m₁, loud site m₁ ≠ none ∧ ∀ quiet stop, quiet.Within loud →
        quiet site m₁ = some stop → ∃ m₂, action quiet m = .error stop m₂

namespace Watched

variable {α β : Type}

theorem const (action : Run α) : Watched fun _ => action := fun _ _ => .inl fun _ _ => rfl

theorem bind {action : Watch → Run α} {rest : Watch → α → Run β} (first : Watched action)
    (second : ∀ a, Watched fun watch => rest watch a) :
    Watched fun watch => action watch >>= rest watch := by
  intro loud m
  change (∀ quiet, _ → EStateM.bind (action quiet) (rest quiet) m = EStateM.bind _ _ m) ∨ ∃ site m₁, _ ∧
    ∀ quiet stop, _ → _ → ∃ m₂, EStateM.bind (action quiet) (rest quiet) m = .error stop m₂
  unfold EStateM.bind
  rcases first loud m with same | ⟨site, m₁, speaks, stops⟩
  · cases done : action loud m with
    | error stop m' =>
        refine .inl fun quiet within => ?_
        rw [same quiet within, done]
    | ok a m' =>
        rcases second a loud m' with same' | ⟨site, m₁, speaks, stops⟩
        · refine .inl fun quiet within => ?_
          rw [same quiet within, done]
          exact same' quiet within
        · refine .inr ⟨site, m₁, speaks, fun quiet stop within spoken => ?_⟩
          rw [same quiet within, done]
          exact stops quiet stop within spoken
  · refine .inr ⟨site, m₁, speaks, fun quiet stop within spoken => ?_⟩
    obtain ⟨m₂, stopped⟩ := stops quiet stop within spoken
    rw [stopped]
    exact ⟨m₂, rfl⟩

theorem within {action : Watch → Run α} (frame : FrameId) (watched : Watched action) :
    Watched fun watch => Run.within frame (action watch) := by
  intro loud m
  rcases watched loud { m with current := frame } with same | ⟨site, m₁, speaks, stops⟩
  · exact .inl fun quiet within => within_of_eq (same quiet within)
  · refine .inr ⟨site, m₁, speaks, fun quiet stop within spoken => ?_⟩
    obtain ⟨m₂, stopped⟩ := stops quiet stop within spoken
    exact ⟨_, within_of_error stopped⟩

theorem supervised {action : Watch → Run α} (site : Site) (watched : Watched action) :
    Watched fun watch => supervised watch site (action watch) := by
  intro loud m
  cases said : loud site m with
  | some stop =>
      refine .inr ⟨site, m, said ▸ Option.some_ne_none stop, fun quiet stop within spoken => ?_⟩
      exact ⟨m, supervised_of_some spoken⟩
  | none =>
      rcases watched loud m with same | ⟨site', m₁, speaks, stops⟩
      · refine .inl fun quiet within => ?_
        dsimp only
        rw [supervised_of_none said, supervised_of_none (within site m said), same quiet within]
      · refine .inr ⟨site', m₁, speaks, fun quiet stop within spoken => ?_⟩
        dsimp only
        rw [supervised_of_none (within site m said)]
        exact stops quiet stop within spoken

theorem ite {condition : Prop} [Decidable condition] {yes no : Watch → Run α} (first : Watched yes)
    (second : Watched no) : Watched fun watch => if condition then yes watch else no watch := by
  split
  · exact first
  · exact second

/-! ## Evaluation -/

variable {evaluate : Watch → Expr → Run Value} {execute : Watch → Stmt → Run Flow}

theorem executeAll (executes : ∀ a, Watched fun watch => execute watch a) (body : List Stmt) :
    Watched fun watch => executeAll (execute watch) body := by
  induction body with
  | nil => exact const _
  | cons first rest ih =>
      refine bind (executes first) fun flow => ?_
      cases flow with
      | normal => exact ih
      | returned value => exact const _

theorem executeBlock (executes : ∀ a, Watched fun watch => execute watch a) (enclosing : FrameId)
    (body : List Stmt) : Watched fun watch => executeBlock (execute watch) enclosing body :=
  bind (const _) fun frame => within frame (executeAll executes body)

theorem repeatWhile {condition : Watch → Run Value} {body : Watch → Run Flow}
    (tests : Watched condition) (runs : Watched body) (rounds : Nat) :
    Watched fun watch => repeatWhile (condition watch) (body watch) rounds := by
  induction rounds with
  | zero => exact const _
  | succ rounds ih =>
      refine bind tests fun value => ite (bind runs fun flow => ?_) (const _)
      cases flow with
      | normal => exact ih
      | returned value => exact const _

theorem evaluateAll (evaluates : ∀ e, Watched fun watch => evaluate watch e) (es : List Expr) :
    Watched fun watch => evaluateAll (evaluate watch) es := by
  induction es with
  | nil => exact const _
  | cons first rest ih => exact bind (evaluates first) fun value => bind ih fun values => const _

theorem invoke (executes : ∀ a, Watched fun watch => execute watch a) (closure : Closure)
    (arguments : List Value) : Watched fun watch => invoke (execute watch) closure arguments :=
  bind (const _) fun frame => bind (const _) fun _ =>
    bind (within frame (executeAll executes closure.declaration.body)) fun _ => const _

theorem construct (executes : ∀ a, Watched fun watch => execute watch a) (type : Class)
    (arguments : List Value) : Watched fun watch => construct (execute watch) type arguments := by
  refine bind (const _) fun made => ?_
  cases type.initializer? with
  | none => exact const _
  | some method =>
      exact bind (const _) fun bound => bind (invoke executes bound arguments) fun _ => const _

theorem callChecked (executes : ∀ a, Watched fun watch => execute watch a) (callee : Value)
    (paren : Token) (arguments : List Value) :
    Watched fun watch => callChecked (execute watch) callee paren arguments := by
  unfold Lox.callChecked
  split
  · exact const _
  split
  · cases callee with
    | function identity closure => exact invoke executes closure arguments
    | ofClass type => exact construct executes type arguments
    | _ => exact const _
  · exact const _

theorem evaluateWith (evaluates : ∀ e, Watched fun watch => evaluate watch e)
    (executes : ∀ a, Watched fun watch => execute watch a) (e : Expr) :
    Watched fun watch => evaluateWith (evaluate watch) (execute watch) e := by
  cases e with
  | grouping inner => exact evaluates inner
  | unary operator right => exact bind (evaluates right) fun value => const _
  | binary left operator right =>
      exact bind (evaluates left) fun a => bind (evaluates right) fun b => const _
  | logical left operator right =>
      exact bind (evaluates left) fun a => ite (const _) (evaluates right)
  | assign name value => exact bind (evaluates value) fun result => const _
  | call callee paren arguments =>
      exact bind (evaluates callee) fun target => bind (evaluateAll evaluates arguments) fun values =>
        callChecked executes target paren values
  | get object name => exact bind (evaluates object) fun value => const _
  | set object name value =>
      refine bind (evaluates object) fun target => ?_
      cases target with
      | ofInstance i => exact bind (evaluates value) fun result => const _
      | _ => exact const _
  | literal _ | read _ | self _ | inherited _ _ => exact const _

theorem executeWith (evaluates : ∀ e, Watched fun watch => evaluate watch e)
    (executes : ∀ a, Watched fun watch => execute watch a) (rounds : Nat) (a : Stmt) :
    Watched fun watch => executeWith rounds (evaluate watch) (execute watch) a := by
  cases a with
  | expression value | print value => exact bind (evaluates value) fun result => const _
  | varDecl name initializer =>
      cases initializer with
      | none => exact const _
      | some expression => exact bind (evaluates expression) fun value => const _
  | block body => exact bind (const _) fun frame => executeBlock executes frame body
  | ifElse condition thenBranch elseBranch =>
      refine bind (evaluates condition) fun value => ite (executes thenBranch) ?_
      cases elseBranch with
      | none => exact const _
      | some other => exact executes other
  | whileLoop condition body => exact repeatWhile (evaluates condition) (executes body) rounds
  | returnStmt keyword value =>
      cases value with
      | none => exact const _
      | some expression => exact bind (evaluates expression) fun result => const _
  | funDecl _ | classDecl _ _ _ => exact const _

theorem under (fuel : Nat) : (∀ e, Watched fun watch => evaluateUnder watch fuel e) ∧
    ∀ a, Watched fun watch => executeUnder watch fuel a := by
  induction fuel with
  | zero => exact ⟨fun _ => const _, fun _ => const _⟩
  | succ fuel ih =>
      obtain ⟨evaluates, executes⟩ := ih
      exact ⟨fun e => supervised (.expr e) (evaluateWith evaluates executes e),
        fun a => supervised (.stmt a) (executeWith evaluates executes fuel a)⟩

end Watched

/-! ## Following a run -/

open Classical in
/--
Leads a run to a target: it lets pass what the run reaches, and at the target it stops the run in a
way in which no program ends.
-/
noncomputable def guide (reached : Site → Machine → Prop) (target : Site) (there : Machine) : Watch :=
  fun site m =>
    if site = target ∧ m = there then some (.defect .escapedReturn)
    else if reached site m then none
    else some .outOfFuel

variable {reached : Site → Machine → Prop} {target site : Site} {there m : Machine}

theorem reached_of_guide (passed : guide reached target there site m = none) : reached site m := by
  unfold guide at passed
  split at passed
  · cases passed
  split at passed
  · assumption
  · cases passed

theorem eq_of_guide (stopped : guide reached target there site m = some (.defect .escapedReturn)) :
    site = target ∧ m = there := by
  unfold guide at stopped
  split at stopped
  · assumption
  split at stopped <;> cases stopped

theorem guide_target : guide reached target there target there = some (.defect .escapedReturn) :=
  if_pos ⟨rfl, rfl⟩

theorem breakpoint_within {watch : Watch} {stop : Stop} (speaks : watch target there ≠ none) :
    (breakpoint target there stop).Within watch := by
  intro site m passed
  cases fired : breakpoint target there stop site m with
  | none => rfl
  | some stop =>
      obtain ⟨rfl, rfl⟩ := breakpoint_eq_some fired
      exact (speaks passed).elim

variable {fuel : Nat} {program : List Stmt} {distances : Distances} {start : Machine}

/-- A watch that speaks either changes nothing or stops the run at a site that the run reaches. -/
theorem silent_or_reaches (fuel : Nat) (program : List Stmt) (distances : Distances)
    (start : Machine) (watch : Watch) :
    (∀ quiet : Watch, quiet.Within watch →
      executeAll (executeUnder quiet fuel) program { start with distances } =
        executeAll (executeUnder watch fuel) program { start with distances }) ∨
      ∃ site m stop, Reaches fuel program distances start site m ∧ watch site m = some stop ∧
        ∃ m', executeAll (executeUnder watch fuel) program { start with distances } = .error stop m' := by
  have watched := Watched.executeAll (Watched.under fuel).2 program
  rcases watched watch { start with distances } with same | ⟨site, m, speaks, stops⟩
  · exact .inl same
  · obtain ⟨stop, said⟩ := Option.ne_none_iff_exists'.mp speaks
    exact .inr ⟨site, m, stop, fun stop => stops _ stop (breakpoint_within speaks) breakpoint_self,
      said, stops watch stop (fun _ _ => id) said⟩

theorem guide_arrives_among {visited : Site → Machine → Prop}
    (among : ∀ site m, Reaches fuel program distances start site m → visited site m)
    (arrives : Reaches fuel program distances start target there) :
    ∃ m', executeAll (executeUnder (guide visited target there) fuel) program { start with distances } =
      .error (.defect .escapedReturn) m' := by
  rcases silent_or_reaches fuel program distances start (guide visited target there) with
    same | ⟨site, m, stop, arrived, said, ended⟩
  · have speaks : guide visited target there target there ≠ none := guide_target ▸ Option.some_ne_none _
    obtain ⟨m₁, starved⟩ := arrives .outOfFuel
    obtain ⟨m₂, stopped⟩ := arrives (.defect .escapedReturn)
    rw [same _ (breakpoint_within speaks)] at starved stopped
    rw [starved] at stopped
    cases stopped
  · unfold guide at said
    split at said
    · cases said
      exact ended
    · rw [if_pos (among site m arrived)] at said
      cases said

theorem guide_arrives (arrives : Reaches fuel program distances start target there) :
    ∃ m', executeAll (executeUnder (guide (Reaches fuel program distances start) target there) fuel)
      program { start with distances } = .error (.defect .escapedReturn) m' :=
  guide_arrives_among (fun _ _ => id) arrives

end Lox
