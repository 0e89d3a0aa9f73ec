import Lox.Proofs.FrameChains
import Lox.Proofs.NewNames
import Lox.Proofs.Subruns

/-!
# Hygiene of scopes

In the run of a checked program the assignments of each statement find their names bound, but for those in
the initializer of the variable that they assign (`covered_of_placed`). So a declaration adds its own name to
the running frame, and nothing else adds or removes any name in a frame that was there before
(`scopes_hygienic`).
-/

namespace Lox
open Scoping Simulation

namespace Store

/-- The frames of the first store have kept their names, and only one has got others. -/
structure AddsOnly (s : Store) (frame : FrameId) (names : String → Prop) (s' : Store) : Prop where
  kept : ∀ f x, f < s.frames.size → (s.read? f x).isSome → (s'.read? f x).isSome
  added : ∀ f x, f < s.frames.size → (s'.read? f x).isSome → (s.read? f x).isSome ∨ f = frame ∧ names x

def SameNames (s s' : Store) : Prop :=
  ∀ f x, f < s.frames.size → (s'.read? f x).isSome = (s.read? f x).isSome

end Store

theorem Gains.addsOnly {names : String → Prop} {m m' : Machine} (gains : Gains m.store.frames.size names m m') :
    m.store.AddsOnly m.current names m'.store :=
  ⟨fun f x _ => gains.kept f x, gains.added⟩

theorem Gains.sameNames {names : String → Prop} {m m' : Machine} (gains : Gains m.store.frames.size names m m')
    (none : ∀ x, ¬ names x) : m.store.SameNames m'.store := by
  intro f x older
  rw [Bool.eq_iff_iff]
  refine ⟨fun bound => ?_, gains.kept f x⟩
  exact (gains.added f x older bound).resolve_right fun added => none x added.2

/-! ## Statements of a program -/

variable {program : List Stmt} {distances : Distances} {tokens : List Token} {c : Context} {s : Scoping}
  {finals : List Scope} {m : Machine}

theorem Visit.evaluated {a : Stmt} {e : Expr} (visit : Visit program c s finals (.stmt a))
    (own : a.expression? = some e) : ∃ s', Visit program c s' finals (.expr e) ∧
      (s'.scopes = s.scopes ∨ ∃ x, a.Declares x ∧ s'.scopes = markIn x false s.scopes) := by
  cases a with
  | expression value =>
      cases own
      exact ⟨s, visit.expression, .inl rfl⟩
  | print value =>
      cases own
      exact ⟨s, visit.print, .inl rfl⟩
  | varDecl name value =>
      cases own
      exact ⟨s.declare name.lexeme, visit.initializer, .inr ⟨name.lexeme, rfl, mark_scopes _ _ s⟩⟩
  | ifElse condition thenBranch elseBranch =>
      cases own
      exact ⟨s, visit.condition, .inl rfl⟩
  | whileLoop condition body =>
      cases own
      exact ⟨s, visit.loopCondition, .inl rfl⟩
  | returnStmt keyword value =>
      cases own
      exact ⟨_, visit.result, .inl ((reportIf_scopes _ _ _ _).trans (reportIf_scopes _ _ _ _))⟩
  | block _ | funDecl _ | classDecl _ _ _ => cases own

theorem distance?_markIn_self {x : String} {ready : Bool} {scopes : List Scope} {d : Nat}
    (found : distance? x (markIn x ready scopes) = some d) : d = 0 := by
  cases scopes with
  | nil => cases found
  | cons scope outer =>
      rw [markIn, distance?_cons, Bindings.contains_insert, decide_eq_true rfl, Bool.true_or, if_pos rfl] at found
      exact (Option.some.inj found).symm

/-- The initializer of a local variable may assign it before it is bound. -/
theorem covered_of_placed (parsed : parseProgram tokens = .ok program)
    (resolved : Distances.ofProgram program = .ok distances) (accepted : Accepted program distances) {a : Stmt}
    (placed : Setting.Placed ⟨program, distances, silent⟩ (.stmt a) m) : a.Covered m := by
  obtain ⟨W, c, s, finals, names, r', visit, agree, chain⟩ := placed
  refine ⟨visit.wellFormed accepted, fun e own r assigned d entry => ?_⟩
  have bound (found : distance? r.name s.scopes = some d) : ∃ f, m.store.ancestor? m.current d = some f ∧
      ((m.store.read? f r.name).isSome ∨ f = m.current ∧ a.Declares r.name) := by
    obtain ⟨holder, l, reached, -, -, bound⟩ := chain.of_distance found
    rw [agree.store] at reached bound
    exact ⟨holder, reached, .inl (bound ((visit.tidy accepted).here rfl r.name))⟩
  obtain ⟨s', visit', scopes⟩ := visit.evaluated own
  rw [agree.distances, visit'.assigns_entry parsed resolved accepted assigned] at entry
  rcases scopes with same | ⟨x, declares, marked⟩
  · exact bound (same ▸ entry)
  · rw [marked] at entry
    by_cases itself : r.name = x
    · rw [itself] at entry ⊢
      rw [distance?_markIn_self entry]
      exact ⟨m.current, rfl, .inr ⟨rfl, declares⟩⟩
    · rw [distance?_markIn itself] at entry
      exact bound entry

/-! ## Parts of a run -/

variable {source : String} {fuel level : Nat} {sink : Sink} {clock : Float}

theorem gains_of_reaches (checked : check source = .ok (program, distances)) {site : Site} {α : Type}
    {x : Watch → Run α} {old : Nat} {names : String → Prop} {m₁ : Machine}
    (reached : Reaches fuel program distances (.initial sink clock) site m) (watched : Watched x)
    (inside : ∀ target there,
      (∀ stop, ∃ m', x (breakpoint target there stop) m₁ = .error stop m') → site.Reaches level m target there)
    (keeps : ∀ mark, Keeps mark old names m₁ (x (uncovered mark) m₁)) :
    Gains old names m₁ (leaves (x silent) m₁) := by
  obtain ⟨parsed, resolved⟩ := check_inv checked
  have accepted := accepted_of_check checked
  refine gains_of_covered watched keeps fun a there stops => covered_of_placed parsed resolved accepted ?_
  exact placed_of_reaches accepted (reached.trans (inside (.stmt a) there stops))

theorem execute_gains (checked : check source = .ok (program, distances)) {a : Stmt}
    (reached : Reaches fuel program distances (.initial sink clock) (.stmt a) m) :
    Gains m.store.frames.size a.Declares m (leaves (execute level a) m) := by
  have keeps (mark : Stop) := (under_keeps mark m.store.frames.size level).2 a m Nat.le.refl
  have inside (target : Site) (there : Machine) :
      (∀ stop, ∃ m', executeUnder (breakpoint target there stop) level a m = .error stop m') →
        (Site.stmt a).Reaches level m target there := id
  have gains := gains_of_reaches checked reached ((Watched.under level).2 a) inside keeps
  rwa [executeUnder_silent] at gains

theorem call_gains (checked : check source = .ok (program, distances)) {callee : Expr} {paren : Token}
    {arguments : List Expr} {target : Value} {values : List Value} {m₁ m₂ : Machine}
    (reached : Reaches fuel program distances (.initial sink clock) (.expr (.call callee paren arguments)) m)
    (called : evaluate level callee m = .ok target m₁)
    (given : evaluateAll (evaluate level) arguments m₁ = .ok values m₂) :
    Gains m₂.store.frames.size (fun _ => False) m₂
      (leaves (callChecked (execute level) target paren values) m₂) := by
  have keeps (mark : Stop) : Keeps mark m₂.store.frames.size (fun _ => False) m₂
      (callChecked (executeUnder (uncovered mark) level) target paren values m₂) :=
    callChecked_keeps (under_keeps mark _ level).2 target paren values Nat.le.refl
  have watched := Watched.callChecked (Watched.under level).2 target paren values
  have gains := gains_of_reaches checked reached watched (fun _ _ => reaches_of_call called given) keeps
  rwa [executeUnder_silent] at gains

theorem assign_defines (checked : check source = .ok (program, distances)) {r : Reference} {value : Expr}
    {d : Nat} {v : Value} {m₁ : Machine}
    (reached : Reaches fuel program distances (.initial sink clock) (.expr (.assign r value)) m)
    (entry : distances.find? r.id = some d) (evaluated : evaluate level value m = .ok v m₁) :
    ∃ f, m₁.store.ancestor? m₁.current d = some f ∧ assign r v m₁ = Run.define f r.name v m₁ ∧
      ((m₁.store.read? f r.name).isSome ∨ f = m₁.current ∧
        ∃ path, (path, .assign r) ∈ occurrences program ∧ path.initializes r.name = true) := by
  have accepted := accepted_of_check checked
  obtain ⟨c, s, finals, visit, found, f, holder, defines, bound⟩ :=
    assign_of_placed accepted (placed_of_reaches accepted reached) entry evaluated
  refine ⟨f, holder, defines, ?_⟩
  rcases visit.assigns_pending accepted (Expr.assigns_self r value) with ⟨pending, own⟩ | ready
  · cases (distance?_of_isPending pending).symm.trans found
    exact .inr ⟨(Option.some.inj holder).symm, own⟩
  · exact .inl (bound ready)

/--
In the run of a checked program, a declaration adds no name but its own, and only to the running frame; other
statements, and calls, add and remove no name in the frames from before. An assignment with a distance gives a
value to a bound name, or it stands in the initializer of its variable, in the running frame.
-/
theorem scopes_hygienic (checked : check source = .ok (program, distances)) (fuel : Nat) (sink : Sink)
    (clock : Float) :
    (∀ a m level, Reaches fuel program distances (.initial sink clock) (.stmt a) m →
      m.store.AddsOnly m.current a.Declares (leaves (execute level a) m).store ∧
      (a.isDeclaration = false → m.store.SameNames (leaves (execute level a) m).store)) ∧
    (∀ callee paren arguments m level target m₁ values m₂,
      Reaches fuel program distances (.initial sink clock) (.expr (.call callee paren arguments)) m →
      evaluate level callee m = .ok target m₁ → evaluateAll (evaluate level) arguments m₁ = .ok values m₂ →
      m₂.store.SameNames (leaves (callChecked (execute level) target paren values) m₂).store) ∧
    ∀ r value m d level v m₁, Reaches fuel program distances (.initial sink clock) (.expr (.assign r value)) m →
      distances.find? r.id = some d → evaluate level value m = .ok v m₁ →
      ∃ f, m₁.store.ancestor? m₁.current d = some f ∧ assign r v m₁ = Run.define f r.name v m₁ ∧
        ((m₁.store.read? f r.name).isSome ∨ f = m₁.current ∧
          ∃ path, (path, .assign r) ∈ occurrences program ∧ path.initializes r.name = true) := by
  refine ⟨?_, ?_, ?_⟩
  · intro a m level reached
    have gains : Gains _ _ m (leaves (execute level a) m) := execute_gains checked reached
    exact ⟨gains.addsOnly, fun plain => gains.sameNames (not_declares plain)⟩
  · intro callee paren arguments m level target m₁ values m₂ reached called given
    exact (call_gains checked reached called given).sameNames fun _ => id
  · intro r value m d level v m₁ reached entry evaluated
    exact assign_defines checked reached entry evaluated

/-- The assignment binds the variable before its declaration does. -/
theorem hygienic_of_initializer :
    ∃ program distances m r value, check "\x7b var a = a = nil; \x7d" = .ok (program, distances) ∧
      Reaches 4 program distances (.initial .unlimited 0) (.expr (.assign r value)) m ∧
      m.store.read? m.current r.name = none ∧
      ∃ path, (path, .assign r) ∈ occurrences program ∧ path.initializes r.name = true := by
  let a : Token := ⟨.identifier, "a", 1⟩
  let assignment : Expr := .assign ⟨0, a⟩ (.literal .nil)
  let program : List Stmt := [.block [.varDecl a (some assignment)]]
  let distances : Distances := Bindings.empty.insert 0 0
  let inside : Machine := ⟨(Store.initial.newFrame (some 0)).2, 1, distances, .unlimited, 0⟩
  have checked : check "\x7b var a = a = nil; \x7d" = .ok (program, distances) := by cbv
  have reached : Reaches 4 program distances (.initial .unlimited 0) (.expr assignment) inside := by
    intro stop
    refine ⟨{ inside with current := 0 }, ?_⟩
    simp [program, inside, assignment, a, executeAll, executeUnder, evaluateUnder, supervised, breakpoint,
      executeWith, executeBlock, Bind.bind, EStateM.bind, Run.newFrame, Run.within, Run.current,
      Machine.initial, Store.newFrame, Store.define, Store.initial, Store.empty, Store.globals]
  have unbound : inside.store.read? inside.current "a" = none := rfl
  obtain ⟨-, -, assigns⟩ := scopes_hygienic checked 4 .unlimited 0
  obtain ⟨f, here, -, bound | ⟨-, own⟩⟩ := assigns ⟨0, a⟩ (.literal .nil) inside 0 1 .nil inside reached rfl rfl
  · cases here
    cases bound
  · exact ⟨program, distances, inside, ⟨0, a⟩, .literal .nil, checked, reached, unbound, own⟩

end Lox
