import Mathlib
import Lox.Proofs.Dispatch.Run
import Lox.Proofs.FrameChains
import Lox.Proofs.Scope.Paths
import Lox.Proofs.ScopeRules
import Lox.Proofs.Watches

/-!
# Methods of the superclass

What `super` means does not change after a class is declared. Wherever and however late a part of a
method evaluates it, the look-up starts at the class that the superclass was when the declaration of
the class was executed, and what is found is bound to the instance that the method runs on
(`super_is_static`).
-/

namespace Lox
open Scoping Dispatch

namespace Dispatch.Course

variable {R : Course} {s : Store} {path : Path} {frame : FrameId}

/-- So many links away from the frame is one that a method of the class was bound to an instance in. -/
def InMethod (R : Course) (s : Store) (K : ClassDecl) (frame : FrameId) (links : Nat) : Prop :=
  ∃ activation i home, s.ancestor? frame links = some activation ∧
    s.read? activation "this" = some (.ofInstance i) ∧ s.enclosing? activation = some home ∧
    R.Home s K home

theorem InMethod.outward {K : ClassDecl} {outer : FrameId} {links : Nat}
    (link : s.enclosing? frame = some outer) (within : R.InMethod s K outer links) :
    R.InMethod s K frame (links + 1) := by
  rw [InMethod, Store.ancestor?_succ link]
  exact within

theorem Linked.inMethod {K : ClassDecl} {inner : Nat} (linked : R.Linked s path frame)
    (named : path.Named) (around : path.class? = some K)
    (nearest : nearest? "this" path.scopes = some inner) : R.InMethod s K frame inner := by
  induction path generalizing frame inner with
  | nil => cases around
  | cons layer outer ih =>
      cases layer with
      | initializer name | heading name =>
          obtain ⟨isName, named⟩ := named
          rw [Path.scopes, nearest?_declaring isName.1.symm] at nearest
          exact ih linked named around nearest
      | block before | function declaration before | method declaration before =>
          obtain ⟨isName, named⟩ := named
          obtain ⟨outside, link, outward⟩ := linked
          obtain ⟨inner, nearer, rfl⟩ := nearest?_cons_inv (fun mem => (isName _ mem).1 rfl) nearest
          exact (ih outward named around nearer).outward link
      | classBody inside =>
          cases around
          obtain ⟨name, superclass, methods⟩ := K
          obtain ⟨i, home, bound, link, atHome⟩ := linked
          have here : inner = 0 := by cases superclass <;> exact (Option.some.inj nearest).symm
          rw [here]
          exact ⟨frame, i, home, rfl, bound, link, atHome⟩

end Dispatch.Course

/--
Executing the declaration at this machine finds the superclass to be `parent` and makes a class that
inherits from it. Its methods are closed over a new frame.
-/
structure Declares (m : Machine) (K : ClassDecl) (parent : Class) (home : FrameId) : Prop where
  superclass : ∃ name, K.superclass = some name ∧ lookUp name m = .ok (.ofClass parent) m
  fresh : m.store.frames.size = home
  made : ∃ identity m', (∀ fuel, execute (fuel + 1) K.statement m = .ok .normal m') ∧
    m'.store.read? m.current K.name.lexeme =
      some (.ofClass ⟨identity, K.name.lexeme, some parent, methodTable home K.methods⟩)

theorem Declares.of_lookUp {m : Machine} {K : ClassDecl} {name : Reference} {parent : Class}
    (superclass : K.superclass = some name) (found : lookUp name m = .ok (.ofClass parent) m)
    (older : m.current < m.store.frames.size) : Declares m K parent m.store.frames.size := by
  obtain ⟨className, _, methods⟩ := K
  cases superclass
  refine ⟨⟨name, rfl, found⟩, rfl, ?_⟩
  have looked : lookUpSuperclass name m = .ok parent m := by
    rw [lookUpSuperclass, bind_of found]
    rfl
  let made : Class :=
    ⟨m.store.identities, className.lexeme, some parent, methodTable m.store.frames.size methods⟩
  let atHome : Store := (frameWith m.current "super" (.ofClass parent) m.store).newIdentity.2
  have declared : declareClass className (some name) methods m =
      .ok () { m with store := atHome.define m.current className.lexeme (.ofClass made) } := by
    change (lookUpSuperclass name >>= _) m = _
    rw [bind_of looked]
    rfl
  have executed (fuel : Nat) :
      execute (fuel + 1) (ClassDecl.statement ⟨className, some name, methods⟩) m =
        .ok .normal { m with store := atHome.define m.current className.lexeme (.ofClass made) } := by
    rw [execute, onStack_eq, ClassDecl.statement, executeWith, bind_of declared]
    rfl
  have older' : m.current < atHome.frames.size :=
    Nat.lt_of_lt_of_le older (frameWith_kept "super" (.ofClass parent)).size
  exact ⟨_, _, executed, Store.read?_define_self older'⟩

/-! ## Evaluating `super` -/

/-- The innermost frame around that binds `this` is one of a method closed over the home. -/
def Activated (m : Machine) (path : Path) (home : FrameId) (i : Instance) : Prop :=
  ∃ inner activation, Nearest "this" path.scopes inner ∧
    m.store.ancestor? m.current inner = some activation ∧
    m.store.enclosing? activation = some home ∧
    m.store.read? activation "this" = some (.ofInstance i)

/-- Evaluating `super` starts at the class and binds what it finds there to the instance. -/
structure Dispatches (m : Machine) (keyword : Reference) (method : Token) (parent : Class)
    (i : Instance) : Prop where
  found : ∀ closure, parent.findMethod? method.lexeme = some closure → ∃ identity bound m',
    (∀ fuel, evaluate (fuel + 1) (.inherited keyword method) m =
      .ok (.function identity { closure with captured := bound }) m') ∧
    m'.store.enclosing? bound = some closure.captured ∧
    m'.store.read? bound "this" = some (.ofInstance i)
  missing : parent.findMethod? method.lexeme = none → ∀ fuel,
    evaluate (fuel + 1) (.inherited keyword method) m =
      .error (.runtime ⟨.undefinedProperty method.lexeme, method.line⟩) m

theorem findInherited_bound {m : Machine} {keyword : Reference} {inner : Nat} {parent : Class}
    {i : Instance} (entry : m.distances.find? keyword.id = some (inner + 1))
    (super : m.store.getAt? m.current (inner + 1) "super" = some (.ofClass parent))
    (this : m.store.getAt? m.current inner "this" = some (.ofInstance i)) :
    findInherited m keyword = some (parent, i) := by
  rw [findInherited, entry]
  simp only [super, this]

theorem methodValue_bound {m : Machine} {found : Closure} {i : Instance}
    (older : found.captured < m.store.frames.size) :
    ∃ identity bound m', methodValue found i m =
        .ok (.function identity { found with captured := bound }) m' ∧
      m'.store.enclosing? bound = some found.captured ∧
      m'.store.read? bound "this" = some (.ofInstance i) :=
  ⟨m.store.identities, m.store.frames.size,
    { m with store := (frameWith found.captured "this" (.ofInstance i) m.store).newIdentity.2 }, rfl,
    frameWith_link older, frameWith_bound⟩

theorem Dispatches.of_sought {m : Machine} {keyword : Reference} {method : Token} {parent : Class}
    {i : Instance} (sought : findInherited m keyword = some (parent, i))
    (older : ∀ closure, parent.findMethod? method.lexeme = some closure →
      closure.captured < m.store.frames.size) : Dispatches m keyword method parent i where
  found closure found := by
    obtain ⟨identity, bound, m', made, link, thisBound⟩ := methodValue_bound (older closure found)
    refine ⟨identity, bound, m', fun fuel => ?_, link, thisBound⟩
    rw [evaluate, onStack_eq, evaluateWith, getInherited, bind_get, sought]
    simp only [found, made]
  missing missing fuel := by
    rw [evaluate, onStack_eq, evaluateWith, getInherited, bind_get, sought]
    simp only [missing]
    rfl

/-! ## Checked programs -/

theorem sound_of_reaches {program : List Stmt} {distances : Distances} {fuel : Nat} {sink : Sink}
    {clock : Float} {site : Site} {m : Machine} (formed : Stmt.WellFormedAll program)
    (reached : Reaches fuel program distances (.initial sink clock) site m) :
    ∃ watch : Watch, (∀ site' m', watch site' m' = none →
        Reaches fuel program distances (.initial sink clock) site' m') ∧
      Course.Placed ⟨program, watch⟩ site m := by
  let watch := guide (Reaches fuel program distances (.initial sink clock)) site m
  refine ⟨watch, fun _ _ => reached_of_guide, ?_⟩
  obtain ⟨m', arrived⟩ := guide_arrives reached
  have yields := Course.program_yields ⟨program, watch⟩ formed fuel distances sink clock
  have ended : executeAll (executeUnder watch fuel) program
      { Machine.initial sink clock with distances } = .error (.defect .escapedReturn) m' := arrived
  rw [ended] at yields
  cases yields with
  | stopped other => exact (other rfl).elim
  | watched spoken placed =>
      obtain ⟨rfl, rfl⟩ := eq_of_guide spoken
      exact placed

theorem derived_of_accepted {tokens : List Token} {program : List Stmt} {distances : Distances}
    {path : Path} {keyword : Reference} {method : Token}
    (parsed : parseProgram tokens = .ok program)
    (resolved : Distances.ofProgram program = .ok distances)
    (listed : (path, .inherited keyword method) ∈ occurrences program) :
    ∃ K, path.class? = some K ∧ K.superclass.isSome := by
  have fine : (Occurrence.inherited keyword method).misuse? path = none :=
    List.filterMap_eq_nil_iff.mp (no_violations parsed resolved) _ listed
  unfold Occurrence.misuse? at fine
  cases around : path.class? with
  | none =>
      rw [around] at fine
      cases fine
  | some K =>
      obtain ⟨name, superclass, methods⟩ := K
      cases superclass with
      | none =>
          rw [around] at fine
          cases fine
      | some parent => exact ⟨_, rfl, rfl⟩

/--
Where a checked program evaluates `super`, it is in a method of the innermost class around. The
declaration of this class was executed, with some superclass then, and it is there that the method
is looked up. What is found is bound to the instance that `this` is; if nothing is found, the
property is undefined.
-/
theorem super_is_static {source : String} {program : List Stmt} {distances : Distances}
    (checked : check source = .ok (program, distances)) {fuel : Nat} {sink : Sink} {clock : Float}
    {keyword : Reference} {method : Token} {m : Machine}
    (reached : Reaches fuel program distances (.initial sink clock)
      (.expr (.inherited keyword method)) m) :
    ∃ path K, (path, .inherited keyword method) ∈ occurrences program ∧ path.class? = some K ∧
      ∃ m₀ parent home i,
        Reaches fuel program distances (.initial sink clock) (.stmt K.statement) m₀ ∧
        Declares m₀ K parent home ∧ Activated m path home i ∧
        Dispatches m keyword method parent i := by
  have accepted := accepted_of_check checked
  obtain ⟨parsed, resolved⟩ := check_inv checked
  obtain ⟨watch, passed, name, path, here, listed⟩ := sound_of_reaches accepted.wellFormed reached
  have listed : (path, .inherited keyword method) ∈ occurrences program :=
    listed (List.mem_singleton_self _)
  have name : keyword.name = "super" := by rwa [Site.WellFormed, Expr.WellFormed] at name
  obtain ⟨K, around, derived⟩ := derived_of_accepted parsed resolved listed
  have named := named_of_occurrence accepted.wellFormed listed
  obtain ⟨inner, thisNearest, superNearest⟩ := Path.nearest_keywords named around derived
  obtain ⟨activation, i, home, activated, thisBound, link, atHome⟩ :=
    here.linked.inMethod named around thisNearest
  obtain ⟨parent, ⟨m₀, reference, superclass, unwatched, looked, fresh⟩, superBound⟩ :=
    atHome.origin derived
  have declared := passed _ _ unwatched
  have declares : Declares m₀ K parent home := by
    obtain ⟨_, _, _, _, atDeclaration, _⟩ := sound_of_reaches accepted.wellFormed declared
    exact fresh ▸ .of_lookUp superclass looked atDeclaration.linked.older
  have entry : m.distances.find? keyword.id = some (inner + 1) := by
    rw [(mirrored_of_placed accepted (Simulation.placed_of_reaches accepted reached)).table,
      find?_of_occurrence parsed resolved listed rfl, name, superNearest]
  have this := (Store.getAt?_of_ancestor activated).trans thisBound
  have super := (Store.getAt?_of_ancestor (Store.ancestor?_outward activated link)).trans superBound
  have older (closure : Closure) (found : parent.findMethod? method.lexeme = some closure) :
      closure.captured < m.store.frames.size := by
    have parentSound := here.sound.frames home "super" _ superBound
    obtain ⟨_, _, _, methodHome, _⟩ := parentSound _ _ found
    exact methodHome.older
  exact ⟨path, K, listed, around, m₀, parent, home, i, declared, declares,
    ⟨inner, activation, nearest?_eq_some.mp thisNearest, activated, link, thisBound⟩,
    .of_sought (findInherited_bound entry super this) older⟩

/-- Stops a run where it first gets to `super`. -/
def haltAtSuper : Watch
  | .expr (.inherited _ _), _ => some .outOfFuel
  | _, _ => none

theorem super_after_rebinding :
    ∃ program distances keyword method K m m₀ parent home i,
      check ("class A \x7b m() \x7b\x7d \x7d class B < A \x7b n() \x7b super.m; \x7d \x7d " ++
        "class C < B \x7b\x7d A = nil; C().n();") = .ok (program, distances) ∧
      Reaches 8 program distances (.initial .unlimited 0) (.expr (.inherited keyword method)) m ∧
      K.name.lexeme = "B" ∧
      Reaches 8 program distances (.initial .unlimited 0) (.stmt K.statement) m₀ ∧
      Declares m₀ K parent home ∧ Dispatches m keyword method parent i := by
  let A : Token := ⟨.identifier, "A", 1⟩
  let B : Token := ⟨.identifier, "B", 1⟩
  let C : Token := ⟨.identifier, "C", 1⟩
  let method : Token := ⟨.identifier, "m", 1⟩
  let caller : Token := ⟨.identifier, "n", 1⟩
  let paren : Token := ⟨.symbol .rightParen, ")", 1⟩
  let keyword : Reference := ⟨1, ⟨.symbol .superWord, "super", 1⟩⟩
  let program : List Stmt :=
    [.classDecl A none [⟨method, [], []⟩],
      .classDecl B (some ⟨0, A⟩) [⟨caller, [], [.expression (.inherited keyword method)]⟩],
      .classDecl C (some ⟨2, B⟩) [],
      .expression (.assign ⟨3, A⟩ (.literal .nil)),
      .expression (.call (.get (.call (.read ⟨4, C⟩) paren []) caller) paren [])]
  let distances : Distances := ⟨[(1, 2)]⟩
  let start : Machine := { Machine.initial .unlimited 0 with distances }
  have checked : check
      ("class A \x7b m() \x7b\x7d \x7d class B < A \x7b n() \x7b super.m; \x7d \x7d " ++
        "class C < B \x7b\x7d A = nil; C().n();") = .ok (program, distances) := by cbv
  have stops : (executeAll (executeUnder haltAtSuper 8) program |>.run' start).isSome = false := by
    decide +kernel
  have passes : (executeAll (executeUnder silent 8) program |>.run' start).isSome = true := by
    decide +kernel
  obtain ⟨keyword, method, m, reached⟩ : ∃ keyword method m,
      Reaches 8 program distances (.initial .unlimited 0) (.expr (.inherited keyword method)) m := by
    rcases silent_or_reaches 8 program distances (.initial .unlimited 0) haltAtSuper with
      same | ⟨site, m, stop, reached, said, -⟩
    · have same : (executeAll (executeUnder silent 8) program).run start =
          (executeAll (executeUnder haltAtSuper 8) program).run start := same silent fun _ _ _ => rfl
      unfold EStateM.run' at stops passes
      rw [same, stops] at passes
      cases passes
    · unfold haltAtSuper at said
      split at said
      · exact ⟨_, _, m, reached⟩
      · cases said
  obtain ⟨path, K, listed, around, m₀, parent, home, i, declared, declares, -, dispatches⟩ :=
    super_is_static checked reached
  have named : K.name.lexeme = "B" := by
    simp [program, occurrences, Stmt.occurrencesAll, Stmt.occurrences,
      FunctionDecl.occurrencesAll, FunctionDecl.occurrences, Expr.occurrences,
      Expr.occurrencesAll] at listed
    obtain ⟨rfl, -⟩ := listed
    cases around
    rfl
  exact ⟨program, distances, keyword, method, K, m, m₀, parent, home, i, checked, reached, named,
    declared, declares, dispatches⟩

end Lox
