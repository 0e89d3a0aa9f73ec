import Lox.Proofs.Fuel
import Lox.Proofs.Instances.Run
import Lox.Proofs.Subruns
import Lox.Proofs.SuperDispatch

/-!
# Initializers yield their instance

In the run of a checked program, methods become values only when they are bound to an instance, which stays
what `this` is in their frame. So an initializer yields this instance however its body ends, and calling a
class yields a new instance of just this class (`initializers_yield`).
-/

namespace Lox
open Binding

/-! ## Calls that come to a value -/

section Calls

variable {execute : Stmt → Run Flow} {closure : Closure} {type : Class} {callee result : Value} {paren : Token}
  {arguments : List Value} {m m' : Machine}

theorem invoke_initializer (flagged : closure.isInitializer = true)
    (ended : invoke execute closure arguments m = .ok result m') :
    m'.store.read? closure.captured "this" = some result := by
  obtain ⟨frame, m₁, -, ended⟩ := bind_ok.mp ended
  obtain ⟨_, m₂, -, ended⟩ := bind_ok.mp ended
  obtain ⟨flow, m₃, -, ended⟩ := bind_ok.mp ended
  rw [if_pos flagged, bind_get] at ended
  cases this : m₃.store.read? closure.captured "this" with
  | none =>
      rw [this] at ended
      cases ended
  | some made =>
      rw [this] at ended
      obtain ⟨rfl, rfl⟩ := pure_ok.mp ended
      exact this

theorem construct_made (ended : construct execute type arguments m = .ok result m') :
    result = .ofInstance ⟨m.store.fields.size, type⟩ := by
  obtain ⟨made, m₁, fresh, ended⟩ := bind_ok.mp ended
  cases fresh
  cases found : type.initializer? with
  | none =>
      simp only [found] at ended
      exact (pure_ok.mp ended).1.symm
  | some method =>
      simp only [found] at ended
      obtain ⟨bound, m₂, -, ended⟩ := bind_ok.mp ended
      obtain ⟨_, m₃, -, ended⟩ := bind_ok.mp ended
      exact (pure_ok.mp ended).1.symm

theorem callChecked_ok (ended : callChecked execute callee paren arguments m = .ok result m') :
    callee.arity? = some arguments.length ∧ callValue execute callee paren arguments m = .ok result m' := by
  unfold callChecked at ended
  cases takes : callee.arity? with
  | none =>
      rw [takes] at ended
      cases ended
  | some arity =>
      simp only [takes] at ended
      split at ended
      · rename_i count
        exact ⟨congrArg some count.symm, ended⟩
      · cases ended

end Calls

/-! ## What a run visits -/

/-- Some amount of fuel lets the run of the program get to the site. -/
def Visits (program : List Stmt) (distances : Distances) (start : Machine) (site : Site) (m : Machine) : Prop :=
  ∃ fuel, Reaches fuel program distances start site m

section Visits

variable {program : List Stmt} {distances : Distances} {start m there : Machine} {site target : Site} {level : Nat}

theorem Visits.trans (visits : Visits program distances start site m) (goesOn : site.Reaches level m target there) :
    Visits program distances start target there := by
  obtain ⟨fuel, reached⟩ := visits
  exact ⟨fuel + level, reached.trans goesOn⟩

theorem Visits.wellFormed {sink : Sink} {clock : Float} (formed : Stmt.WellFormedAll program)
    (visits : Visits program distances (.initial sink clock) site m) : site.WellFormed := by
  obtain ⟨fuel, reached⟩ := visits
  obtain ⟨watch, -, placed⟩ := sound_of_reaches formed reached
  exact placed.formed

end Visits

section Free

variable {P : Pursuit} {m : Machine} {α : Type} {post : Store → α → Prop} {x : Watch → Run α}

theorem free_eq_silent (watched : Watched x)
    (inside : ∀ site there, (∀ stop, ∃ m', x (breakpoint site there stop) m = .error stop m') →
      P.visited site there) : x P.free m = x silent m := by
  rcases watched P.free m with same | ⟨site, m₁, speaks, stops⟩
  · exact (same silent fun _ _ _ => rfl).symm
  · have visited := inside site m₁ fun stop => stops _ stop (breakpoint_within speaks) breakpoint_self
    exact (speaks (if_pos visited)).elim

theorem Binding.Pursuit.Follows.unwatched (follows : P.Follows m post (x P.led) (x P.free)) (watched : Watched x)
    (inside : ∀ site there, (∀ stop, ∃ m', x (breakpoint site there stop) m = .error stop m') →
      P.visited site there) : P.Follows m post (x P.led) (x silent) := by
  have same := free_eq_silent watched inside
  obtain ⟨ends, led⟩ := follows
  rw [same] at ends led
  refine ⟨ends, led.imp_right ?_⟩
  rintro ⟨stopped, rooted, later, passed⟩
  rw [leaves, same] at later passed
  exact ⟨stopped, rooted, later, passed⟩

end Free

/-! ## Runs of programs -/

section Programs

variable {program : List Stmt} {distances : Distances} {sink : Sink} {clock : Float} {fuel level : Nat}
  {m m₁ m₂ m' : Machine}

def pursuit (distances : Distances) (sink : Sink) (clock : Float) (formed : Stmt.WellFormedAll program)
    (target : Site) (there : Machine) : Pursuit where
  visited := Visits program distances (.initial sink clock)
  formed _ _ visits := visits.wellFormed formed
  target := target
  there := there

theorem program_follows (distances : Distances) (sink : Sink) (clock : Float) (formed : Stmt.WellFormedAll program)
    (target : Site) (there : Machine) (fuel : Nat) :
    (pursuit distances sink clock formed target there).Follows { Machine.initial sink clock with distances }
      (Pursuit.RootedFlow (Visits program distances (.initial sink clock)))
      (executeAll (executeUnder (guide (Visits program distances (.initial sink clock)) target there) fuel) program)
      (executeAll (execute fuel) program) := by
  rw [← executeUnder_silent fuel]
  have executes := ((pursuit distances sink clock formed target there).under_follows fuel).2
  apply (Pursuit.executeAll_follows executes program rootedStore_initial).unwatched
    (x := fun watch => executeAll (executeUnder watch fuel) program)
  · exact Watched.executeAll (Watched.under fuel).2 program
  · intro site m reached
    exact ⟨fuel, reached⟩

theorem arrives_of_reaches (formed : Stmt.WellFormedAll program) {site : Site}
    (reached : Reaches fuel program distances (.initial sink clock) site m) :
    (pursuit distances sink clock formed site m).Arrives { Machine.initial sink clock with distances }
      (executeAll (executeUnder (guide (Visits program distances (.initial sink clock)) site m) fuel) program)
      (executeAll (execute fuel) program) := by
  obtain ⟨ends, led⟩ := program_follows distances sink clock formed site m fuel
  have among (site' : Site) (m' : Machine) (reached : Reaches fuel program distances (.initial sink clock) site' m') :
      Visits program distances (.initial sink clock) site' m' := ⟨fuel, reached⟩
  obtain ⟨m', arrived⟩ := guide_arrives_among among reached
  rcases led with same | arrives
  · rw [← same, arrived] at ends
    obtain _ | ⟨-, ⟨⟩⟩ := ends
  · exact arrives

variable {e callee : Expr} {paren : Token} {arguments : List Expr} {v : Value} {values : List Value}

theorem evaluate_ends (level : Nat) (formed : Stmt.WellFormedAll program)
    (inside : ∀ site there, (Site.expr e).Reaches level m site there →
      Visits program distances (.initial sink clock) site there)
    (rooted : RootedStore (Visits program distances (.initial sink clock)) m.store) :
    (pursuit distances sink clock formed (.expr e) m).Ends m
      (Rooted (Visits program distances (.initial sink clock))) (evaluate level e m) := by
  have follows := ((pursuit distances sink clock formed (.expr e) m).under_follows level).1 e m rooted
  rw [← (under_silent level).1]
  exact (follows.unwatched (x := fun watch => evaluateUnder watch level e) ((Watched.under level).1 e) inside).ends

/-- In a run that ends, the frames that there are after some expression have the same `this` in the end. -/
theorem later_of_evaluated (formed : Stmt.WellFormedAll program)
    (reached : Reaches fuel program distances (.initial sink clock) (.expr e) m)
    (evaluated : evaluate level e m = .ok v m')
    (fed : ∀ after, executeAll (execute fuel) program { Machine.initial sink clock with distances } ≠
      .error .outOfFuel after) :
    Later m'.store
      (leaves (executeAll (execute fuel) program) { Machine.initial sink clock with distances }).store := by
  obtain ⟨left, own, starves⟩ := (arrives_of_reaches formed reached).passed
  have visits : Visits program distances (.initial sink clock) (.expr e) m := ⟨fuel, reached⟩
  have free : evaluateUnder (pursuit distances sink clock formed (.expr e) m).free left e m = evaluate left e m := by
    rw [← (under_silent left).1]
    exact free_eq_silent (x := fun watch => evaluateUnder watch left e) ((Watched.under left).1 e)
      fun _ _ => visits.trans
  have goesOn (after : Machine) : evaluate left e m ≠ .error .outOfFuel after := by
    intro starved
    obtain ⟨last, ended⟩ := starves ⟨after, free.trans starved⟩
    exact fed last ended
  have same : evaluate left e m = .ok v m' := by
    rw [← evaluated]
    apply evaluate_unique goesOn
    rw [evaluated]
    nofun
  have ended : leaves (evaluateUnder (pursuit distances sink clock formed (.expr e) m).free left e) m = m' := by
    rw [leaves, free, same]
  rw [← ended]
  exact own

/-- What a call is made with, and how it ends. -/
structure CallEnds (P : Pursuit) (level : Nat) (paren : Token) (target : Value) (values : List Value)
    (m₁ m₂ : Machine) : Prop where
  callee : Rooted P.visited m₁.store target
  after : P.After m₁ m₂
  given : ∀ v ∈ values, Rooted P.visited m₂.store v
  ends : P.Ends m₂ (Rooted P.visited) (callChecked (execute level) target paren values m₂)

theorem call_ends (formed : Stmt.WellFormedAll program)
    (visits : Visits program distances (.initial sink clock) (.expr (.call callee paren arguments)) m)
    (rooted : RootedStore (Visits program distances (.initial sink clock)) m.store)
    (called : evaluate level callee m = .ok v m₁)
    (given : evaluateAll (evaluate level) arguments m₁ = .ok values m₂) :
    CallEnds (pursuit distances sink clock formed (.expr callee) m) level paren v values m₁ m₂ := by
  obtain ⟨evaluates, executes⟩ := (pursuit distances sink clock formed (.expr callee) m).under_follows level
  obtain ⟨watchedExpr, watchedStmt⟩ := Watched.under level
  have calleeEnds := evaluate_ends level formed (fun site there stops => visits.trans (reaches_of_callee stops)) rooted
  rw [called] at calleeEnds
  obtain ⟨after₁, target⟩ | _ := calleeEnds
  have argumentsFollow := (Pursuit.evaluateAll_follows evaluates arguments after₁.rooted).unwatched
    (x := fun watch => evaluateAll (evaluateUnder watch level) arguments)
    (Watched.evaluateAll watchedExpr arguments)
    fun site there stops => visits.trans (reaches_of_arguments called stops)
  have argumentsEnd := argumentsFollow.ends
  rw [(under_silent level).1, given] at argumentsEnd
  obtain ⟨after₂, rootedValues⟩ | _ := argumentsEnd
  have target₂ := target.later after₂.later
  have callFollows := (Pursuit.callChecked_follows executes after₂.rooted target₂ rootedValues).unwatched
    (x := fun watch => callChecked (executeUnder watch level) v paren values)
    (Watched.callChecked watchedStmt v paren values)
    fun site there stops => visits.trans (reaches_of_call called given stops)
  have callEnds := callFollows.ends
  rw [executeUnder_silent] at callEnds
  exact ⟨target, after₂, rootedValues, callEnds⟩

/-! ## Checked programs -/

theorem equals_of_newer {visited : Site → Machine → Prop} {s : Store} {w : Value} {type : Class}
    (rooted : Rooted visited s w) : w.equals (.ofInstance ⟨s.fields.size, type⟩) = false := by
  cases w with
  | ofInstance i => exact decide_eq_false (Nat.ne_of_lt rooted.1)
  | _ => rfl

/-- The function has an instance as `this`, and the same one in the end. -/
def BoundForGood (s last : Store) (closure : Closure) : Prop :=
  ∃ i, s.read? closure.captured "this" = some (.ofInstance i) ∧
    last.read? closure.captured "this" = some (.ofInstance i)

theorem Binding.Made.boundForGood {visited : Site → Machine → Prop} {s last : Store} {closure : Closure}
    (made : Made visited s closure) (flagged : closure.isInitializer = true) (later : Later s last) :
    BoundForGood s last closure := by
  obtain ⟨i, this⟩ := made.this flagged
  exact ⟨i, this, (later.this _ (Store.older_of_read this)).trans this⟩

/--
In the run of a checked program each function value, in a variable, in a field or just evaluated, was declared
as a function or is a method bound to an instance. If it is an initializer, it stays bound to this instance and
yields it when it is called. Calling a class takes as many arguments as its initializer, if it has one, and
yields a new instance of it. The program never stops for an initializer without an instance.
-/
theorem initializers_yield {source : String} (checked : check source = .ok (program, distances)) (fuel : Nat)
    (sink : Sink) (clock : Float) :
    let ended := executeAll (execute fuel) program { Machine.initial sink clock with distances }
    let last := (leaves (executeAll (execute fuel) program) { Machine.initial sink clock with distances }).store
    (∀ site m identity closure, Reaches fuel program distances (.initial sink clock) site m →
      m.store.Holds (.function identity closure) →
      Made (Visits program distances (.initial sink clock)) m.store closure ∧
        (closure.isInitializer = true → BoundForGood m.store last closure)) ∧
    (∀ e m level identity closure m', Reaches fuel program distances (.initial sink clock) (.expr e) m →
      evaluate level e m = .ok (.function identity closure) m' →
      Made (Visits program distances (.initial sink clock)) m'.store closure ∧
        (closure.isInitializer = true → (∀ after, ended ≠ .error .outOfFuel after) →
          BoundForGood m'.store last closure)) ∧
    (∀ callee paren arguments m level identity closure m₁ values m₂ result m₃,
      Reaches fuel program distances (.initial sink clock) (.expr (.call callee paren arguments)) m →
      evaluate level callee m = .ok (.function identity closure) m₁ →
      evaluateAll (evaluate level) arguments m₁ = .ok values m₂ →
      callChecked (execute level) (.function identity closure) paren values m₂ = .ok result m₃ →
      closure.isInitializer = true →
      ∃ i, result = .ofInstance i ∧ m₁.store.read? closure.captured "this" = some (.ofInstance i) ∧
        m₃.store.read? closure.captured "this" = some (.ofInstance i)) ∧
    (∀ callee paren arguments m level c m₁ values m₂ result m₃,
      Reaches fuel program distances (.initial sink clock) (.expr (.call callee paren arguments)) m →
      evaluate level callee m = .ok (.ofClass c) m₁ →
      evaluateAll (evaluate level) arguments m₁ = .ok values m₂ →
      callChecked (execute level) (.ofClass c) paren values m₂ = .ok result m₃ →
      values.length = c.arity ∧ (∃ made, result = .ofInstance made ∧ made.type = c) ∧
        ∀ w, m₂.store.Holds w ∨ w ∈ values → w.equals result = false) ∧
    ∀ line after, ended ≠ .error (.runtime ⟨.initializerWithoutInstance, line⟩) after := by
  have formed := (accepted_of_check checked).wellFormed
  refine ⟨?_, ?_, ?_, ?_, ?_⟩
  · intro site m identity closure reached held
    obtain ⟨-, rooted, later, -⟩ := arrives_of_reaches formed reached
    have made := (rooted _ held).2
    exact ⟨made, fun flagged => made.boundForGood flagged later⟩
  · intro e m level identity closure m' reached evaluated
    obtain ⟨-, rooted, -, -⟩ := arrives_of_reaches formed reached
    have visits : Visits program distances (.initial sink clock) (.expr e) m := ⟨fuel, reached⟩
    have ends := evaluate_ends level formed (fun _ _ => visits.trans) rooted
    rw [evaluated] at ends
    obtain ⟨-, value⟩ | _ := ends
    refine ⟨value.2, fun flagged fed => ?_⟩
    exact value.2.boundForGood flagged (later_of_evaluated formed reached evaluated fed)
  · intro callee paren arguments m level identity closure m₁ values m₂ result m₃ reached called given ended
      flagged
    obtain ⟨-, rooted, -, -⟩ := arrives_of_reaches formed reached
    obtain ⟨target, after, -, ends⟩ := call_ends formed ⟨fuel, reached⟩ rooted called given
    rw [ended] at ends
    obtain ⟨after', -⟩ | _ := ends
    obtain ⟨i, this, kept⟩ := target.2.boundForGood flagged (after.trans after').later
    have yielded := invoke_initializer flagged (callChecked_ok ended).2
    rw [kept] at yielded
    exact ⟨i, (Option.some.inj yielded).symm, this, kept⟩
  · intro callee paren arguments m level c m₁ values m₂ result m₃ reached called given ended
    obtain ⟨-, rooted, -, -⟩ := arrives_of_reaches formed reached
    obtain ⟨-, after, rootedValues, -⟩ := call_ends formed ⟨fuel, reached⟩ rooted called given
    obtain ⟨takes, constructs⟩ := callChecked_ok ended
    cases construct_made constructs
    refine ⟨(Option.some.inj takes).symm, ⟨_, rfl, rfl⟩, fun w old => ?_⟩
    rcases old with held | argument
    · exact equals_of_newer (after.rooted w held)
    · exact equals_of_newer (rootedValues w argument)
  · intro line after ended
    obtain ⟨ends, -⟩ := program_follows distances sink clock formed (.stmt (.block [])) (.initial sink clock) fuel
    rw [ended] at ends
    obtain _ | ⟨-, ⟨⟩⟩ := ends

end Programs

/-- The initializer is that of the superclass, returns early, and is called a second time. -/
theorem instance_of_second_call :
    ∃ program distances callee paren m identity closure m₁ i m₂,
      check "\x7b class A \x7b init() \x7b return; \x7d \x7d class B < A \x7b\x7d B().init(); \x7d" =
        .ok (program, distances) ∧
      Reaches 5 program distances (.initial .unlimited 0) (.expr (.call callee paren [])) m ∧
      evaluate 5 callee m = .ok (.function identity closure) m₁ ∧ closure.isInitializer = true ∧
      callChecked (execute 5) (.function identity closure) paren [] m₁ = .ok (.ofInstance i) m₂ ∧
      m₁.store.read? closure.captured "this" = some (.ofInstance i) := by
  let A : Token := ⟨.identifier, "A", 1⟩
  let B : Token := ⟨.identifier, "B", 1⟩
  let init : Token := ⟨.identifier, "init", 1⟩
  let paren : Token := ⟨.symbol .rightParen, ")", 1⟩
  let method : FunctionDecl := ⟨init, [], [.returnStmt ⟨.symbol .returnWord, "return", 1⟩ none]⟩
  let parent : Stmt := .classDecl A none [method]
  let child : Stmt := .classDecl B (some ⟨0, A⟩) []
  let object : Expr := .call (.read ⟨1, B⟩) paren []
  let call : Expr := .call (.get object init) paren []
  let program : List Stmt := [.block [parent, child, .expression call]]
  let distances : Distances := (Bindings.empty.insert 0 0).insert 1 0
  let a : Class := ⟨0, "A", none, methodTable 1 [method]⟩
  let b : Class := ⟨1, "B", some a, .empty⟩
  let made : Instance := ⟨0, b⟩
  let globals : Frame := ⟨Bindings.empty.insert "clock" (.native .clock), none⟩
  let block : Frame := ⟨(Bindings.empty.insert "A" (.ofClass a)).insert "B" (.ofClass b), some 0⟩
  let home : Frame := ⟨Bindings.empty.insert "super" (.ofClass a), some 1⟩
  let bound : Frame := ⟨Bindings.empty.insert "this" (.ofInstance made), some 1⟩
  let body : Frame := ⟨.empty, some 3⟩
  let machine (s : Store) : Machine := ⟨s, 1, distances, .unlimited, 0⟩
  let inside : Machine := machine (Store.initial.newFrame (some 0)).2
  let between : Machine := machine ⟨#[globals, ⟨Bindings.empty.insert "A" (.ofClass a), some 0⟩], #[], 1⟩
  let m : Machine := machine ⟨#[globals, block, home], #[], 2⟩
  let m₁ : Machine := machine ⟨#[globals, block, home, bound, body, bound], #[.empty], 3⟩
  let m₂ : Machine := machine ⟨#[globals, block, home, bound, body, bound, ⟨.empty, some 5⟩], #[.empty], 3⟩
  have checked : check "\x7b class A \x7b init() \x7b return; \x7d \x7d class B < A \x7b\x7d B().init(); \x7d" =
      .ok (program, distances) := by cbv
  have reached : Reaches 5 program distances (.initial .unlimited 0) (.expr call) m := by
    intro stop
    let watch := breakpoint (.expr call) m stop
    have passes (a : Stmt) (m' : Machine) : watch (.stmt a) m' = none :=
      breakpoint_elsewhere (by rintro ⟨⟨⟩, -⟩)
    have first : executeUnder watch 4 parent inside = .ok .normal between := by
      rw [executeUnder, supervised_of_none (passes _ _)]
      rfl
    have second : executeUnder watch 4 child between = .ok .normal m := by
      rw [executeUnder, supervised_of_none (passes _ _)]
      rfl
    have third : executeUnder watch 4 (.expression call) m = .error stop m := by
      rw [executeUnder, supervised_of_none (passes _ _)]
      exact bind_of_error (supervised_of_some breakpoint_self)
    have all : executeAll (executeUnder watch 4) [parent, child, .expression call] inside = .error stop m :=
      (bind_of first).trans ((bind_of second).trans (bind_of_error third))
    refine ⟨{ m with current := 0 }, bind_of_error ?_⟩
    rw [executeUnder, supervised_of_none (passes _ _)]
    exact within_of_error all
  have constructed : evaluate 4 object m =
      .ok (.ofInstance made) (machine ⟨#[globals, block, home, bound, body], #[.empty], 2⟩) := rfl
  have called : evaluate 5 (.get object init) m = .ok (.function 2 ⟨method, 5, true⟩) m₁ := by
    rw [evaluate, onStack_eq, evaluateWith, bind_of constructed]
    rfl
  have ended : callChecked (execute 5) (.function 2 ⟨method, 5, true⟩) paren [] m₁ =
      .ok (.ofInstance made) m₂ := rfl
  obtain ⟨-, -, yields, -⟩ := initializers_yield checked 5 .unlimited 0
  obtain ⟨i, same, this, -⟩ :=
    yields (.get object init) paren [] m 5 2 _ m₁ [] m₁ _ m₂ reached called rfl ended rfl
  exact ⟨program, distances, .get object init, paren, m, 2, _, m₁, i, m₂, checked, reached, called, rfl,
    same ▸ ended, this⟩

end Lox
