import Lox.Proofs.Lexical.Objects

/-!
# Sequences, loops and calls in corresponding runs

If the meanings of expressions and of statements correspond (`EvaluateSim`, `ExecuteSim`), so do
those of lists of statements, blocks, loops and calls. A block and the body of a function run in a
new frame for their scope.
-/

namespace Lox.Simulation
open Scoping

inductive RelatedFlow (program : List Stmt) (c : Context) (W : World) : Flow → Lexical.Flow → Prop where
  | normal : RelatedFlow program c W .normal .normal
  | returned {v : Value} {w : Lexical.Value} :
      c.function ≠ .none → RelatedValue program W v w →
        RelatedFlow program c W (.returned v) (.returned w)

/-- What holds behind a statement, if it is left normally with these scopes. -/
structure Executed (program : List Stmt) (c : Context) (frame : FrameId)
    (scopes finals : List Scope) (W : World)
    (flow : Flow) (result : Lexical.Place × Lexical.Flow) : Prop where
  related : RelatedFlow program c W flow result.2
  standing : flow = .normal → Standing W frame scopes finals result.1

namespace Executed

variable {program : List Stmt} {c : Context} {frame : FrameId} {scopes finals : List Scope}
    {W : World}
  {place : Lexical.Place}

theorem go (standing : Standing W frame scopes finals place) :
    Executed program c frame scopes finals W .normal (place, .normal) :=
  ⟨.normal, fun _ => standing⟩

theorem leave {v : Value} {w : Lexical.Value} (inFunction : c.function ≠ .none)
    (related : RelatedValue program W v w) :
    Executed program c frame scopes finals W (.returned v) (place, .returned w) where
  related := .returned inFunction related
  standing normal := by cases normal

end Executed

def EvaluateSim (S : Setting) (evaluate : Expr → Run Value)
    (evaluate' : Lexical.Names → Expr → Lexical.Run Lexical.Value) : Prop :=
  ∀ {W : World} {m : Machine} {r : Lexical.Machine} {c : Context} {s : Scoping} {finals : List Scope}
    {names : Lexical.Names} {e : Expr}, S.Visit c s finals (.expr e) → S.Agree W m r →
    Chain W m.current s.scopes finals names →
    Outcome S none W m.current S.RelatedValue (evaluate e m) (evaluate' names e r)

def ExecuteSim (S : Setting) (execute : Stmt → Run Flow)
    (execute' : Lexical.Place → Stmt → Lexical.Run (Lexical.Place × Lexical.Flow)) : Prop :=
  ∀ {W : World} {m : Machine} {r : Lexical.Machine} {c : Context} {s : Scoping} {finals : List Scope}
    {place : Lexical.Place} {a : Stmt}, S.Visit c s finals (.stmt a) → S.Agree W m r →
    Standing W m.current s.scopes finals place →
    Outcome S (some m.current) W m.current
      (Executed S.program c m.current (scopesAfter a s.scopes) finals)
      (execute a m) (execute' place a r)

variable {S : Setting} {evaluate : Expr → Run Value}
  {evaluate' : Lexical.Names → Expr → Lexical.Run Lexical.Value} {execute : Stmt → Run Flow}
  {execute' : Lexical.Place → Stmt → Lexical.Run (Lexical.Place × Lexical.Flow)}
  {W : World} {m : Machine} {r : Lexical.Machine} {c : Context} {s : Scoping} {finals : List Scope}
  {names : Lexical.Names} {place : Lexical.Place}

/-! ## Statements in sequence -/

theorem executeAll_outcome (accepted : Accepted S.program S.distances)
    (sim : ExecuteSim S execute execute') {body : List Stmt}
    (visit : S.Visit c s finals (.stmts body)) (agree : S.Agree W m r)
    (standing : Standing W m.current s.scopes finals place) :
    Outcome S (some m.current) W m.current (RelatedFlow S.program c) (executeAll execute body m)
      (Lexical.executeAll execute' place body r) := by
  induction body generalizing W m r s place with
  | nil => exact .pure agree .normal
  | cons first rest ih =>
      have formed := visit.wellFormed accepted
      simp only [Node.WellFormed, Stmt.WellFormedAll] at formed
      rw [executeAll, Lexical.executeAll]
      refine .bind (sim visit.statement agree standing) ?_
      rintro W₁ flow ⟨place₁, flow'⟩ m₁ r₁ - agree₁ here ⟨related, next⟩
      cases related with
      | normal =>
          have standing₁ := next rfl
          rw [← stmt_scopes c first s formed.1.plain, ← here] at standing₁
          rw [← here]
          exact ih visit.moreStatements agree₁ standing₁
      | returned inFunction related =>
          rw [← here]
          exact .pure agree₁ (.returned inFunction related)

theorem bind_current {α : Type} (f : FrameId → Run α) (m : Machine) :
    (Run.current >>= f) m = f m.current m := rfl

theorem newFrame_run (outer : FrameId) (m : Machine) :
    Run.newFrame outer m =
      .ok m.store.frames.size { m with store := (m.store.newFrame (some outer)).2 } := rfl

theorem executeBlock_outcome (accepted : Accepted S.program S.distances)
    (sim : ExecuteSim S execute execute') {body : List Stmt}
    (visit : S.Visit c s finals (.stmt (.block body))) (agree : S.Agree W m r)
    (chain : Chain W m.current s.scopes finals names) :
    Outcome S none W m.current (RelatedFlow S.program c) (executeBlock execute m.current body m)
      (Lexical.executeAll execute' (.inside names) body r) := by
  have entered := agree.enter m.current (innermost (stmts c body s.enter))
  have chain₁ := chain.enter agree.root (innermost (stmts c body s.enter))
  have standing := Standing.start chain₁ (fun _ => rfl) (unused_new agree _ _)
  rw [executeBlock, bind_of (newFrame_run m.current m), ← agree.store]
  rw [← agree.store] at entered
  have inside :=
    executeAll_outcome accepted sim visit.block (entered.entered W.store.frames.size) standing
  exact .fresh World.enter_grows (.within inside) Nat.le.refl

theorem plain_outcome (sim : ExecuteSim S execute execute') {scopes : List Scope} {a : Stmt}
    (visit : S.Visit c s finals (.stmt a)) (plain : a.isDeclaration = false)
    (same : s.scopes = scopes) (agree : S.Agree W m r)
    (standing : Standing W m.current scopes finals place) :
    Outcome S (some m.current) W m.current
      (fun W' flow result => Executed S.program c m.current scopes finals W' flow (place, result.2))
      (execute a m) (execute' place a r) := by
  subst same
  refine (sim visit agree standing).imp
    fun W' flow result grows executed => ⟨executed.related, fun normal => ?_⟩
  have later := executed.standing normal
  rw [scopesAfter_plain plain] at later
  exact standing.again grows later

theorem repeatWhile_outcome (accepted : Accepted S.program S.distances)
    (simE : EvaluateSim S evaluate evaluate') (sim : ExecuteSim S execute execute')
    {condition : Expr} {body : Stmt} (rounds : Nat)
    (visit : S.Visit c s finals (.stmt (.whileLoop condition body))) (agree : S.Agree W m r)
    (standing : Standing W m.current s.scopes finals place) :
    Outcome S (some m.current) W m.current
      (fun W' flow flow' => Executed S.program c m.current s.scopes finals W' flow (place, flow'))
      (repeatWhile (evaluate condition) (execute body) rounds m)
      (repeatWhile (evaluate' place.names condition)
        (execute' place body >>= fun result => pure result.2) rounds r) := by
  have formed := visit.wellFormed accepted
  simp only [Node.WellFormed, Stmt.WellFormed] at formed
  induction rounds generalizing W m r with
  | zero => exact .starve agree
  | succ rounds ih =>
      rw [repeatWhile, repeatWhile]
      refine .bindEvaluated (simE visit.loopCondition agree standing.chain) ?_
      intro W₁ v w m₁ r₁ grows agree₁ here truth
      have standing₁ := standing.mono grows agree.root
      rw [truth.isTruthy, ← here]
      rw [← here] at standing₁
      cases v.isTruthy with
      | false => exact .pure agree₁ (.go standing₁)
      | true =>
          simp only [if_true]
          have round : Outcome S (some m₁.current) W₁ m₁.current
              (fun W' flow flow' => Executed S.program c m₁.current s.scopes finals W' flow
                (place, flow'))
              (execute body m₁) ((execute' place body >>= fun result => pure result.2) r₁) :=
            .mapRight
              (plain_outcome sim visit.loopBody formed.2.2 (expr_scopes c condition s) agree₁ standing₁)
              fun _ _ _ _ => id
          refine .bind round ?_
          intro W₂ flow flow' m₂ r₂ _ agree₂ here₂ executed
          cases executed.related with
          | normal =>
              rw [← here₂]
              have standing₂ := executed.standing rfl
              rw [← here₂] at standing₂
              exact ih agree₂ standing₂
          | returned inFunction related =>
              rw [← here₂]
              exact .pure agree₂ (.leave inFunction related)

theorem evaluateAll_outcome (sim : EvaluateSim S evaluate evaluate') {es : List Expr}
    (visit : S.Visit c s finals (.exprs es)) (agree : S.Agree W m r)
    (chain : Chain W m.current s.scopes finals names) :
    Outcome S none W m.current (fun W' => List.Forall₂ (S.RelatedValue W'))
    (evaluateAll evaluate es m)
      (evaluateAll (evaluate' names) es r) := by
  induction es generalizing W m r s with
  | nil => exact .pure agree .nil
  | cons first rest ih =>
      rw [evaluateAll, evaluateAll]
      refine .bind (sim visit.argument agree chain) fun W₁ v w m₁ r₁ grows agree₁ here related => ?_
      have chain₁ := chain.mono grows
      rw [← expr_scopes c first s, ← here] at chain₁
      rw [← here]
      refine .bind (ih visit.moreArguments agree₁ chain₁)
        fun W₂ vs ws m₂ r₂ grows₂ agree₂ here₂ others => ?_
      rw [← here₂]
      exact .pure agree₂ (.cons (related.mono grows₂) others)

/-! ## Calls -/

theorem invoke_outcome (accepted : Accepted S.program S.distances)
    (sim : ExecuteSim S execute execute') {f : Closure} {g : Lexical.Closure}
    {arguments : List Value} {arguments' : List Lexical.Value} (agree : S.Agree W m r)
    (function : RelatedFunction S.program W f g)
    (related : List.Forall₂ (S.RelatedValue W) arguments arguments')
    (count : arguments.length = f.declaration.params.length) :
    Outcome S none W m.current S.RelatedValue (invoke execute f arguments m)
      (Lexical.invoke execute' g arguments' r) := by
  obtain ⟨⟨name, params, body⟩, captured, isInitializer⟩ := f
  obtain ⟨declaration', capture, isInitializer'⟩ := g
  obtain ⟨declaration, isInitializer, c, s, finals, kind, visit, chain, inMethod⟩ := function
  cases declaration
  cases isInitializer
  have formed := visit.wellFormed accepted
  simp only [Node.WellFormed, FunctionDecl.WellFormed] at formed
  have bodyVisit := visit.body
  generalize innermost (stmts (c.inFunction kind) body (s.enterFunction params)) = final at bodyVisit
  -- the parameters are among the names that the scope of the body holds in the end
  have within := (Within.scopesAfterAll body _).trans (bodyVisit.within accepted)
  rw [enterFunction_scopes] at within
  have entered := agree.enter captured final
  have chain₁ := chain.enter agree.root final
  have standing := Standing.start chain₁ (fun _ => rfl) (unused_new agree _ _)
  have grows₁ : W.Grows none (W.enter captured final) := World.enter_grows
  rw [invoke, Lexical.invoke, bind_of (newFrame_run captured m), ← agree.store]
  rw [← agree.store] at entered
  refine .fresh grows₁
    (.bind (declareAll_outcome entered standing (related.imp fun _ _ => .mono grows₁) count formed.2.1
    within) ?_) Nat.le.refl
  intro W₂ _ place₂ m₂ r₂ grows₂ agree₂ here₂ standing₂
  rw [← here₂]
  have atBody : (s.enterFunction params).scopes = introduceAll params .empty :: s.scopes :=
    enterFunction_scopes _ _
  rw [← atBody] at standing₂
  refine .bind (.within (executeAll_outcome accepted sim bodyVisit
    (agree₂.entered W.store.frames.size) standing₂)) ?_
  intro W₃ flow flow' m₃ r₃ grows₃ agree₃ here₃ flows
  rw [← here₃]
  cases isInitializer with
  | true =>
      -- both runs yield what `this` is in the scope around the method, and these values are related
      obtain ⟨outer, scopes⟩ := inMethod rfl
      rw [scopes] at chain
      have ready : Ready "this" (thisScope :: outer) := by
        rw [← scopes]
        exact (visit.tidy accepted).this
      have chain₃ := ((chain.mono grows₁).mono grows₂).mono grows₃
      obtain ⟨v, w, here, there, related, -⟩ := local_related agree₃ chain₃ rfl ready
      simp only [if_true]
      rw [bind_get, bind_get, there]
      have here : m₃.store.read? captured "this" = some v := here
      rw [here]
      exact .pure agree₃ related
  | false =>
      cases flows with
      | normal => exact .pure agree₃ .nil
      | returned _ related => exact .pure agree₃ related

theorem construct_outcome (accepted : Accepted S.program S.distances)
    (sim : ExecuteSim S execute execute') {type : Class} {type' : Lexical.Class}
    {arguments : List Value} {arguments' : List Lexical.Value} (agree : S.Agree W m r)
    (same : RelatedClass S.program W type type')
    (related : List.Forall₂ (S.RelatedValue W) arguments arguments')
    (count : arguments.length = type.arity) :
    Outcome S none W m.current S.RelatedValue (construct execute type arguments m)
      (Lexical.construct execute' type' arguments' r) := by
  refine .bind (newInstance_outcome agree same) fun W₁ i i' m₁ r₁ grows₁ agree₁ here₁ made => ?_
  rw [← here₁]
  rw [ClassOver.arity] at count
  unfold ClassOver.initializer? at count ⊢
  rcases rel_inv (same.findMethod initializerName) with ⟨here, there⟩ | ⟨f, g, here, there, method⟩
  · rw [here, there]
    exact .pure agree₁ made
  · rw [here] at count
    rw [here, there]
    refine .bind (bindMethod_outcome agree₁ (method.mono grows₁) made) ?_
    rintro W₂ bound bound' m₂ r₂ grows₂ agree₂ here₂ ⟨function, declaration⟩
    rw [← here₂]
    refine .bind (invoke_outcome accepted sim agree₂ function (related.imp fun _ _ related =>
      (related.mono grows₁).mono grows₂) (declaration ▸ count)) ?_
    intro W₃ _ _ m₃ r₃ grows₃ agree₃ here₃ _
    rw [← here₃]
    exact .pure agree₃ ((made.mono grows₂).mono grows₃)

theorem callChecked_outcome (accepted : Accepted S.program S.distances)
    (sim : ExecuteSim S execute execute') {callee : Value} {callee' : Lexical.Value} {paren : Token}
    {arguments : List Value} {arguments' : List Lexical.Value} (agree : S.Agree W m r)
    (same : S.RelatedValue W callee callee')
    (related : List.Forall₂ (S.RelatedValue W) arguments arguments') :
    Outcome S none W m.current S.RelatedValue (callChecked execute callee paren arguments m)
      (Lexical.callChecked execute' callee' paren arguments' r) := by
  rw [callChecked, Lexical.callChecked, same.arity?, ← related.length_eq]
  cases takes : callee.arity? with
  | none => exact .raise agree trivial
  | some arity =>
      by_cases count : arguments.length = arity
      · simp only [if_pos count]
        rw [← count] at takes
        cases same with
        | native function =>
            cases function
            refine .done .refl agree rfl ?_
            rw [agree.clock]
            exact .number m.clock
        | function function =>
          exact invoke_outcome accepted sim agree function related (Option.some.inj takes).symm
        | ofClass same =>
          exact construct_outcome accepted sim agree same related (Option.some.inj takes).symm
        | _ => exact .raise agree trivial
      · simp only [if_neg count]
        exact .raise agree trivial

end Lox.Simulation
