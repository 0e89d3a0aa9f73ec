import Lox.Proofs.Lexical.Calls

/-!
# The simulation

The run of a checked program over frames and its run over locations correspond, step by step: first
declarations, then what a meaning is made of (`evaluateWith_outcome`, `executeWith_outcome`), and by
induction on the fuel whole runs (`program_outcome`).
-/

namespace Lox.Simulation
open Scoping

variable {S : Setting} {evaluate : Expr → Run Value}
  {evaluate' : Lexical.Names → Expr → Lexical.Run Lexical.Value} {execute : Stmt → Run Flow}
  {execute' : Lexical.Place → Stmt → Lexical.Run (Lexical.Place × Lexical.Flow)}
  {W : World} {m : Machine} {r : Lexical.Machine} {c : Context} {s : Scoping} {finals : List Scope}
  {names : Lexical.Names} {place : Lexical.Place}

/-! ## Declarations -/

theorem declareFunction_outcome (accepted : Accepted S.program S.distances)
    {declaration : FunctionDecl} (visit : S.Visit c s finals (.stmt (.funDecl declaration)))
    (agree : S.Agree W m r) (standing : Standing W m.current s.scopes finals place) :
    Outcome S (some m.current) W m.current
      (fun W' _ place' => Standing W' m.current
        (introduceIn declaration.name.lexeme s.scopes) finals place')
      (declareFunction declaration m) (Lexical.declareFunction place declaration r) := by
  have isName : IsName declaration.name.lexeme := by
    obtain ⟨name, params, body⟩ := declaration
    have formed := visit.wellFormed accepted
    simp only [Node.WellFormed, Stmt.WellFormed, FunctionDecl.WellFormed] at formed
    exact formed.1
  have within : Within (markIn declaration.name.lexeme false s.scopes) finals :=
    (Within.markIn _ true _).trans (visit.within accepted)
  obtain ⟨W₁, place₁, r₁, declared, grows₁, agree₁, standing₁⟩ := declare_step agree standing within
  rw [declareFunction, Lexical.declareFunction, bind_current, bind_of declared]
  refine .after grows₁ (.bindEvaluated (newIdentity_outcome agree₁) ?_)
  rintro W₂ identity _ m₂ r₂ grows₂ agree₂ here rfl
  have standing₂ := standing₁.mono grows₂ agree₁.root
  have standing₃ :=
    standing₂.define (v := .function identity ⟨declaration, m.current, false⟩) agree₂.root
  have chain := standing₃.chain
  rw [← introduce_scopes] at chain
  obtain ⟨r₃, defined, agree₃⟩ :=
    define_step (w := .function identity ⟨declaration, ⟨place₁.names, none⟩, false⟩) agree₂
    standing₂ (.function ⟨rfl, rfl, c, _, finals, _, visit.function, chain,
      fun marked => (Bool.false_ne_true marked).elim⟩) isName
  rw [bind_of defined]
  exact .done World.define_grows.weaken agree₃ here standing₃

theorem lookUpSuperclass_outcome {reference : Reference} {scopes : List Scope}
    (agree : S.Agree W m r) (chain : Chain W m.current scopes finals names)
    (entry : S.distances.find? reference.id = distance? reference.name scopes)
    (ready : Ready reference.name scopes) (listed : reference ∈ Stmt.referencesAll S.program) :
    Outcome S none W m.current (RelatedClass S.program) (lookUpSuperclass reference m)
      (Lexical.lookUpSuperclass names reference r) := by
  refine .bind (lookUp_outcome agree chain entry ready listed)
    fun W₁ v w m₁ r₁ _ agree₁ here related => ?_
  rw [← here]
  cases related with
  | ofClass related => exact .pure agree₁ related
  | _ => exact .raise agree₁ trivial

theorem methodTable_related {program : List Stmt} {methods : List FunctionDecl} {captured : FrameId}
    {captured' : Lexical.Capture} (related : ∀ d ∈ methods,
      RelatedMethod program W ⟨d, captured, d.isInitializer⟩ ⟨d, captured', d.isInitializer⟩) :
    RelatedMethods program W (methodTable captured methods) (methodTable captured' methods) := by
  intro x
  rw [find?_methodTable, find?_methodTable]
  cases found : methods.reverse.find? _ with
  | none => exact .none
  | some d => exact .some (related d (List.mem_reverse.mp (List.mem_of_find?_eq_some found)))

theorem visit_method (accepted : Accepted S.program S.distances) {methods : List FunctionDecl}
    {d : FunctionDecl} (visit : S.Visit c s finals (.methods methods)) (mem : d ∈ methods) :
    ∃ s', S.Visit c s' finals (.function (methodKind d) d) ∧ s'.scopes = s.scopes := by
  induction methods generalizing s with
  | nil => cases mem
  | cons first rest ih =>
      rcases List.mem_cons.mp mem with rfl | mem
      · exact ⟨s, visit.method, rfl⟩
      · have formed := visit.wellFormed accepted
        simp only [Node.WellFormed, FunctionDecl.WellFormedAll] at formed
        obtain ⟨s', visit', same⟩ := ih visit.moreMethods mem
        exact ⟨s', visit', same.trans (function_scopes c _ first s formed.1.plain)⟩

/--
The methods of a class are at home in the frame in which the class is declared or, if there is a
superclass, in a frame inside of that one which binds `super`.
-/
def Home (W : World) (superclass : Option Reference) (frame : FrameId) (names : Lexical.Names)
    (home : FrameId) (location : Option Lexical.Location) : Prop :=
  ∀ {touched : Option FrameId} {W' : World} {scopes finals : List Scope}, W.Grows touched W' →
    Chain W' frame scopes finals names →
    Chain W' home (homeScopes superclass scopes) (homeScopes superclass finals)
      (Lexical.Capture.outer ⟨names, location⟩)

theorem makeClass_outcome (accepted : Accepted S.program S.distances) {name : Token}
    {superclass : Option Reference} {methods : List FunctionDecl} {parent : Option Class}
    {parent' : Option Lexical.Class} {home : FrameId} {location : Option Lexical.Location}
    (visit : S.Visit c s finals (.stmt (.classDecl name superclass methods)))
    (agree : S.Agree W m r)
    (standing : Standing W m.current (markIn name.lexeme false s.scopes) finals place)
    (parents : Option.Rel (RelatedClass S.program W) parent parent')
    (atHome : Home W superclass m.current place.names home location) :
    Outcome S (some m.current) W m.current
      (fun W' _ place' => Standing W' m.current (introduceIn name.lexeme s.scopes) finals place')
      ((do
        let identity ← Run.newIdentity
        Run.define m.current name.lexeme
          (.ofClass ⟨identity, name.lexeme, parent, methodTable home methods⟩) : Run Unit) m)
      ((do
        let identity ← Lexical.newIdentity
        Lexical.define place name.lexeme
          (.ofClass ⟨identity, name.lexeme, parent', methodTable ⟨place.names, location⟩ methods⟩)
        pure place : Lexical.Run Lexical.Place) r) := by
  have formed := visit.wellFormed accepted
  simp only [Node.WellFormed, Stmt.WellFormed] at formed
  refine .bindEvaluated (newIdentity_outcome agree) ?_
  rintro W₁ identity _ m₁ r₁ grows₁ agree₁ here rfl
  let made : Class := ⟨identity, name.lexeme, parent, methodTable home methods⟩
  let made' : Lexical.Class :=
    ⟨identity, name.lexeme, parent', methodTable ⟨place.names, location⟩ methods⟩
  let W₂ := W₁.define m.current name.lexeme (.ofClass made)
  have grows₂ : W₁.Grows none W₂ := World.define_grows
  have standing₁ := standing.mono grows₁ agree.root
  have standing₂ : Standing W₂ _ _ _ _ := standing₁.define agree₁.root
  have chain := atHome (grows₁.trans grows₂) standing₂.chain
  have table : RelatedMethods S.program W₂ made.methods made'.methods :=
    methodTable_related fun d mem => by
    obtain ⟨s', visit', scopes⟩ := visit_method accepted visit.methods mem
    rw [enterClass_scopes, introduce_scopes, classScopes_eq] at scopes
    rw [classScopes_eq] at visit'
    exact ⟨rfl, rfl, _, s', _, _, _, visit', scopes, chain⟩
  have related : RelatedClass S.program W₂ made made' := by
    cases parents with
    | none => exact .base table
    | some parents => exact .derived (parents.mono (grows₁.trans grows₂)) table
  obtain ⟨r₂, defined, agree₂⟩ := define_step agree₁ standing₁ (.ofClass related) formed.1
  rw [bind_of defined]
  exact .done grows₂.weaken agree₂ here standing₂

theorem declareClass_outcome (accepted : Accepted S.program S.distances) {name : Token}
    {superclass : Option Reference} {methods : List FunctionDecl}
    (visit : S.Visit c s finals (.stmt (.classDecl name superclass methods)))
    (agree : S.Agree W m r) (standing : Standing W m.current s.scopes finals place) :
    Outcome S (some m.current) W m.current
      (fun W' _ place' => Standing W' m.current (introduceIn name.lexeme s.scopes) finals place')
      (declareClass name superclass methods m)
        (Lexical.declareClass place name superclass methods r) := by
  have within : Within (markIn name.lexeme false s.scopes) finals :=
    (Within.markIn _ true _).trans (visit.within accepted)
  obtain ⟨W₁, place₁, r₁, declared, grows₁, agree₁, standing₁⟩ := declare_step agree standing within
  rw [declareClass, Lexical.declareClass, bind_current, bind_of declared]
  refine .after grows₁ ?_
  cases superclass with
  | none => exact makeClass_outcome accepted visit agree₁ standing₁ .none fun _ chain => chain
  | some reference =>
      obtain ⟨entry, ready, different⟩ := visit.superclass_inv accepted
      rw [← distance?_markIn different] at entry
      have ready₁ : Ready reference.name (markIn name.lexeme false s.scopes) :=
        ready_markIn ready fun same => (different same).elim
      have listed := visit.references reference (List.mem_cons_self ..)
      refine .bindEvaluated (lookUpSuperclass_outcome agree₁ standing₁.chain entry ready₁ listed) ?_
      intro W₂ parent parent' m₂ r₂ grows₂ agree₂ here₂ related
      have standing₂ := standing₁.mono grows₂ agree₁.root
      have typed : Typed "super" (.ofClass parent) :=
        ⟨fun other => absurd other (by decide), fun _ => ⟨parent, rfl⟩⟩
      obtain ⟨W₃, grows₃, binds, agree₃⟩ :=
        enter_binding agree₂ (standing₂.chain.older agree₂.root) (.ofClass related)
        typed
      have standing₃ := standing₂.mono grows₃ agree₂.root
      rw [← here₂] at standing₃ binds agree₃ ⊢
      have atHome : Home W₃ (some reference) m₂.current place₁.names m₂.store.frames.size
        (some r₂.cells.size) :=
        fun grows chain => (binds.mono grows).chain chain
      exact .after grows₃.weaken
        (makeClass_outcome accepted visit agree₃ standing₃ (.some (related.mono grows₃)) atHome)

/-! ## Meanings from the meanings of parts -/

theorem evaluateWith_outcome (accepted : Accepted S.program S.distances)
    (simE : EvaluateSim S evaluate evaluate') (sim : ExecuteSim S execute execute') :
    EvaluateSim S (evaluateWith evaluate execute) (Lexical.evaluateWith evaluate' execute') := by
  intro W m r c s finals names e visit agree chain
  cases e with
  | literal constant => exact .pure agree (related_literal constant)
  | grouping inner => exact simE visit.grouping agree chain
  | unary operator right =>
      refine .bind (simE visit.unary agree chain) fun W₁ v w m₁ r₁ _ agree₁ here related => ?_
      rw [← here]
      exact lift_outcome agree₁ (applyUnary_same operator related)
  | binary left operator right =>
      refine .bind (simE visit.binaryLeft agree chain) fun W₁ v w m₁ r₁ grows₁ agree₁ here related => ?_
      have chain₁ := chain.mono grows₁
      rw [← here, ← expr_scopes c left s] at chain₁
      rw [← here]
      refine .bind (simE visit.binaryRight agree₁ chain₁)
        fun W₂ v' w' m₂ r₂ grows₂ agree₂ here₂ related' => ?_
      rw [← here₂]
      exact lift_outcome agree₂ (applyBinary_same operator (related.mono grows₂) related')
  | logical left operator right =>
      refine .bind (simE visit.logicalLeft agree chain)
        fun W₁ v w m₁ r₁ grows₁ agree₁ here related => ?_
      have chain₁ := chain.mono grows₁
      rw [← here, ← expr_scopes c left s] at chain₁
      have same : decidesAlone operator w = decidesAlone operator v := by
        rw [decidesAlone, decidesAlone, related.isTruthy]
      rw [← here, same]
      cases decidesAlone operator v with
      | true => exact .pure agree₁ related
      | false => exact simE visit.logicalRight agree₁ chain₁
  | read name =>
      obtain ⟨entry, ready⟩ := visit.read_inv accepted
      exact lookUp_outcome agree chain entry ready
        (visit.references name (List.mem_singleton_self name))
  | assign name value =>
      obtain ⟨entry, isName⟩ := visit.assign_inv accepted
      have listed := visit.references name (List.mem_append_right _ (List.mem_singleton_self name))
      refine .bind (simE visit.assigned agree chain) fun W₁ v w m₁ r₁ grows₁ agree₁ here related => ?_
      have chain₁ := chain.mono grows₁
      rw [← here] at chain₁ ⊢
      refine .bind (assign_outcome agree₁ chain₁ entry isName listed related)
        fun W₂ _ _ m₂ r₂ grows₂ agree₂ here₂ _ => ?_
      rw [← here₂]
      exact .pure agree₂ (related.mono grows₂)
  | call callee paren arguments =>
      refine .bind (simE visit.callee agree chain) fun W₁ v w m₁ r₁ grows₁ agree₁ here related => ?_
      have chain₁ := chain.mono grows₁
      rw [← here, ← expr_scopes c callee s] at chain₁
      rw [← here]
      refine .bind (evaluateAll_outcome simE visit.arguments agree₁ chain₁) ?_
      intro W₂ vs ws m₂ r₂ grows₂ agree₂ here₂ others
      rw [← here₂]
      exact callChecked_outcome accepted sim agree₂ (related.mono grows₂) others
  | get object name =>
      refine .bind (simE visit.getObject agree chain) fun W₁ v w m₁ r₁ grows₁ agree₁ here related => ?_
      rw [← here]
      cases related with
      | ofInstance type => exact getProperty_outcome agree₁ (.ofInstance type)
      | _ => exact .raise agree₁ trivial
  | set object name value =>
      refine .bind (simE visit.setObject agree chain) fun W₁ v w m₁ r₁ grows₁ agree₁ here related => ?_
      have chain₁ := chain.mono grows₁
      rw [← here, ← expr_scopes c object s] at chain₁
      rw [← here]
      cases related with
      | ofInstance type =>
          refine .bind (simE visit.setValue agree₁ chain₁)
            fun W₂ v w m₂ r₂ grows₂ agree₂ here₂ related => ?_
          rw [← here₂]
          refine .bind (setField_outcome name.lexeme agree₂ (.ofInstance (type.mono grows₂)) related) ?_
          intro W₃ _ _ m₃ r₃ grows₃ agree₃ here₃ _
          rw [← here₃]
          exact .pure agree₃ (related.mono grows₃)
      | _ => exact .raise agree₁ trivial
  | self keyword =>
      obtain ⟨entry, ready⟩ := visit.self_inv accepted
      exact lookUp_outcome agree chain entry ready
        (visit.references keyword (List.mem_singleton_self keyword))
  | inherited keyword method =>
      obtain ⟨-, inner, entry, this, super⟩ := visit.inherited_inv accepted
      have tidy := visit.tidy accepted
      exact getInherited_outcome agree chain entry this super tidy.this tidy.super

theorem defineVar_outcome {x : String} {v : Value} {w : Lexical.Value} {scopes : List Scope}
    (isName : IsName x) (agree : S.Agree W m r)
    (standing : Standing W m.current (markIn x false scopes) finals place)
    (related : S.RelatedValue W v w) :
    Outcome S (some m.current) W m.current
      (Executed S.program c m.current (introduceIn x scopes) finals)
      ((do
        Run.define (← Run.current) x v
        pure .normal : Run Flow) m)
      ((do
        Lexical.define place x w
        pure (place, .normal) : Lexical.Run (Lexical.Place × Lexical.Flow)) r) := by
  obtain ⟨r', defined, agree'⟩ := define_step agree standing (related.mono World.define_grows) isName
  rw [bind_current, bind_of defined]
  exact .done World.define_grows.weaken agree' rfl (.go (standing.define agree.root))

theorem varDecl_outcome (accepted : Accepted S.program S.distances)
    (simE : EvaluateSim S evaluate evaluate') {rounds : Nat} {name : Token} {value : Option Expr}
    (visit : S.Visit c s finals (.stmt (.varDecl name value))) (agree : S.Agree W m r)
    (standing : Standing W m.current s.scopes finals place) :
    Outcome S (some m.current) W m.current
      (Executed S.program c m.current (introduceIn name.lexeme s.scopes) finals)
      (executeWith rounds evaluate execute (.varDecl name value) m)
      (Lexical.executeWith rounds evaluate' execute' place (.varDecl name value) r) := by
  have formed := visit.wellFormed accepted
  simp only [Node.WellFormed, Stmt.WellFormed] at formed
  have within : Within (markIn name.lexeme false s.scopes) finals :=
    (Within.markIn _ true _).trans (visit.within accepted)
  obtain ⟨W₁, place₁, r₁, declared, grows₁, agree₁, standing₁⟩ := declare_step agree standing within
  cases value with
  | none =>
      rw [executeWith, Lexical.executeWith, bind_of declared]
      exact .after grows₁ (defineVar_outcome formed.1 agree₁ standing₁ .nil)
  | some expression =>
      have chain₁ := standing₁.chain
      rw [← mark_scopes] at chain₁
      rw [executeWith, Lexical.executeWith, bind_of declared]
      refine .after grows₁ (.bindEvaluated (simE visit.initializer agree₁ chain₁) ?_)
      intro W₂ v w m₂ r₂ grows₂ agree₂ here₂ related
      have standing₂ := standing₁.mono grows₂ agree₁.root
      rw [← here₂] at standing₂ ⊢
      exact defineVar_outcome formed.1 agree₂ standing₂ related

theorem executeWith_outcome (accepted : Accepted S.program S.distances)
    (simE : EvaluateSim S evaluate evaluate') (sim : ExecuteSim S execute execute') (rounds : Nat) :
    ExecuteSim S (executeWith rounds evaluate execute)
    (Lexical.executeWith rounds evaluate' execute') := by
  intro W m r c s finals place a visit agree standing
  have formed := visit.wellFormed accepted
  cases a with
  | expression value =>
      refine .bindEvaluated (simE visit.expression agree standing.chain)
        fun W₁ _ _ m₁ r₁ grows₁ agree₁ here₁ _ => ?_
      have standing₁ := standing.mono grows₁ agree.root
      rw [← here₁] at standing₁ ⊢
      exact .pure agree₁ (.go standing₁)
  | print value =>
      refine .bindEvaluated (simE visit.print agree standing.chain)
        fun W₁ v w m₁ r₁ grows₁ agree₁ here₁ related => ?_
      have standing₁ := standing.mono grows₁ agree.root
      rw [← here₁, related.text] at *
      refine .bindEvaluated (emit_outcome agree₁ _) fun W₂ _ _ m₂ r₂ grows₂ agree₂ here₂ _ => ?_
      have standing₂ := standing₁.mono grows₂ agree₁.root
      rw [← here₂] at standing₂ ⊢
      exact .pure agree₂ (.go standing₂)
  | varDecl name value => exact varDecl_outcome accepted simE visit agree standing
  | block body =>
      have body := executeBlock_outcome accepted sim visit agree standing.chain
      rw [executeWith, bind_current]
      refine .mapRight
        (.weaken (body.imp fun W' flow flow' grows related => And.intro grows related)) ?_
      rintro W' flow flow' - ⟨grows, related⟩
      exact ⟨related, fun _ => standing.mono grows agree.root⟩
  | ifElse condition thenBranch elseBranch =>
      simp only [Node.WellFormed] at formed
      obtain ⟨-, thenFormed, thenPlain⟩ := formed.ifElse_inv
      refine .bindEvaluated (simE visit.condition agree standing.chain)
        fun W₁ v w m₁ r₁ grows₁ agree₁ here₁ truth => ?_
      have standing₁ := standing.mono grows₁ agree.root
      rw [← here₁] at standing₁ ⊢
      rw [truth.isTruthy]
      cases v.isTruthy with
      | true =>
          exact .mapRight
            (plain_outcome sim visit.thenBranch thenPlain (expr_scopes _ _ _) agree₁ standing₁)
            fun _ _ _ _ => id
      | false =>
          cases elseBranch with
          | none => exact .pure agree₁ (.go standing₁)
          | some elseBranch =>
              rw [Stmt.WellFormed] at formed
              have same : (stmt c thenBranch (expr c condition s)).scopes = s.scopes := by
                rw [stmt_scopes _ _ _ thenFormed.plain, scopesAfter_plain thenPlain, expr_scopes]
              exact .mapRight (plain_outcome sim visit.elseBranch formed.2.2.2.2 same agree₁ standing₁)
                fun _ _ _ _ => id
  | whileLoop condition body =>
      exact .mapRight (repeatWhile_outcome accepted simE sim rounds visit agree standing)
        fun _ _ _ _ => id
  | funDecl declaration =>
      refine .bind (declareFunction_outcome accepted visit agree standing) ?_
      intro W₁ _ place₁ m₁ r₁ _ agree₁ here₁ standing₁
      rw [← here₁] at standing₁ ⊢
      exact .pure agree₁ (.go standing₁)
  | returnStmt keyword value =>
      have inFunction := visit.return_inv accepted
      cases value with
      | none => exact .pure agree (.leave inFunction .nil)
      | some expression =>
          have chain := standing.chain
          have same : ((s.reportIf (c.function = .none) .topLevelReturn keyword).reportIf
              (c.function = .initializer)
              .initializerResult keyword).scopes = s.scopes :=
            (reportIf_scopes _ _ _ _).trans (reportIf_scopes _ _ _ _)
          rw [← same] at chain
          refine .bindEvaluated (simE visit.result agree chain)
            fun W₁ v w m₁ r₁ grows₁ agree₁ here₁ related => ?_
          rw [← here₁]
          exact .pure agree₁ (.leave inFunction related)
  | classDecl name superclass methods =>
      refine .bind (declareClass_outcome accepted visit agree standing) ?_
      intro W₁ _ place₁ m₁ r₁ _ agree₁ here₁ standing₁
      rw [← here₁] at standing₁ ⊢
      exact .pure agree₁ (.go standing₁)

/-! ## Whole runs -/

theorem under_outcome (accepted : Accepted S.program S.distances) (fuel : Nat) :
    EvaluateSim S (evaluateUnder S.watch fuel) (Lexical.evaluate fuel) ∧
      ExecuteSim S (executeUnder S.watch fuel) (Lexical.execute fuel) := by
  induction fuel with
  | zero =>
      constructor
      · intro W m r c s finals names e _ agree _
        rw [evaluateUnder, Lexical.evaluate]
        exact .starve agree
      · intro W m r c s finals place a _ agree _
        rw [executeUnder, Lexical.execute]
        exact .starve agree
  | succ fuel ih =>
      constructor
      · intro W m r c s finals names e visit agree chain
        rw [evaluateUnder, Lexical.evaluate]
        exact .supervised ⟨W, c, s, finals, names, r, visit, agree, chain⟩
          (evaluateWith_outcome accepted ih.1 ih.2 visit agree chain)
      · intro W m r c s finals place a visit agree standing
        rw [executeUnder, Lexical.execute]
        exact .supervised ⟨W, c, s, finals, place.names, r, visit, agree, standing.chain⟩
          (executeWith_outcome accepted ih.1 ih.2 fuel visit agree standing)

def World.initial : World := ⟨.initial, fun _ _ => none, fun _ => .empty⟩

theorem agree_initial (program : List Stmt) (distances : Distances) (sink : Sink) (clock : Float) :
    Agree program distances World.initial { Machine.initial sink clock with distances }
      (Lexical.Machine.initial sink clock) where
  store := rfl
  distances := rfl
  sink := rfl
  clock := rfl
  identities := rfl
  root := by decide
  globals x := by
    change Option.Rel _ (Store.initial.read? Store.globals x) ((Bindings.empty.insert _ _).find? x)
    rw [Store.read?_initial]
    by_cases same : x = Native.clock.name
    · rw [if_pos ⟨rfl, same⟩, same, Bindings.find?_insert_self]
      exact .some (.native .clock)
    · rw [if_neg fun both => same both.2, Bindings.find?_insert_of_ne _ _ same]
      exact .none
  inside _ _ _ := nofun
  cells _ _ _ := nofun
  unlocated f x notGlobals _ := Store.read?_initial.trans (if_neg fun both => notGlobals both.1)
  distinct _ _ _ _ _ := nofun
  typed f x v here := by
    rw [World.initial, Store.read?_initial] at here
    split at here
    · rename_i same
      exact same.2 ▸ typed_of_isName ⟨by decide, by decide⟩
    · cases here
  fieldCount := rfl
  fields _ _ := .none

theorem program_outcome (accepted : Accepted S.program S.distances) (fuel : Nat) (sink : Sink)
    (clock : Float) :
    Outcome S (some Store.globals) World.initial Store.globals (RelatedFlow S.program .topLevel)
      (executeAll (executeUnder S.watch fuel) S.program
        { Machine.initial sink clock with distances := S.distances })
      (Lexical.executeAll (Lexical.execute fuel) .topLevel S.program
        (Lexical.Machine.initial sink clock)) :=
  executeAll_outcome accepted (under_outcome accepted fuel).2 .program (agree_initial _ _ sink clock)
    ⟨.globals fun _ => rfl, fun _ => rfl, nofun⟩

theorem silent_outcome {program : List Stmt} {distances : Distances}
    (accepted : Accepted program distances) (fuel : Nat) (sink : Sink) (clock : Float) :
    Outcome ⟨program, distances, silent⟩ (some Store.globals) World.initial Store.globals
      (RelatedFlow program .topLevel)
      (executeAll (Lox.execute fuel) program { Machine.initial sink clock with distances })
      (Lexical.executeAll (Lexical.execute fuel) .topLevel program (.initial sink clock)) := by
  have outcome := program_outcome (S := ⟨program, distances, silent⟩) accepted fuel sink clock
  rwa [show Setting.watch ⟨program, distances, silent⟩ = silent from rfl, executeUnder_silent] at outcome

theorem genuine_of_interpret {program : List Stmt} {distances : Distances}
    (accepted : Accepted program distances) {fuel : Nat} {sink : Sink} {clock : Float} {stop : Stop}
    {m : Machine} (ended : interpret fuel program distances (.initial sink clock) = .error stop m) :
    Setting.Genuine ⟨program, distances, silent⟩ stop := by
  have outcome := silent_outcome accepted fuel sink clock
  rw [interpret] at ended
  generalize executeAll _ program _ = result at outcome ended
  generalize Lexical.executeAll _ _ program _ = result' at outcome
  cases outcome with
  | @done _ _ _ m' _ _ _ _ related =>
      cases related with
      | normal =>
          cases flush : m'.sink.flush with
          | none => simp [finish, flush] at ended
          | some error =>
              simp only [finish, flush, EStateM.Result.error.injEq] at ended
              exact ended.1 ▸ trivial
      | returned inFunction => exact (inFunction rfl).elim
  | @stopped stop' m' _ genuine _ =>
      cases stop' with
      | runtime cause | output cause =>
          cases flush : m'.sink.flush with
          | none =>
              simp only [finish, flush, EStateM.Result.error.injEq] at ended
              exact ended.1 ▸ genuine
          | some error =>
              simp only [finish, flush, EStateM.Result.error.injEq] at ended
              exact ended.1 ▸ trivial
      | defect defect => exact genuine.elim
      | outOfFuel =>
          cases ended
          trivial
  | watched fired => cases fired

theorem placed_of_reaches {program : List Stmt} {distances : Distances}
    (accepted : Accepted program distances) {fuel : Nat} {sink : Sink} {clock : Float} {site : Site}
    {m : Machine} (reached : Reaches fuel program distances (.initial sink clock) site m) :
    Setting.Placed ⟨program, distances, silent⟩ site m := by
  let S : Setting := ⟨program, distances, breakpoint site m (.defect .escapedReturn)⟩
  have outcome := program_outcome (S := S) accepted fuel sink clock
  obtain ⟨m', stopped⟩ := reached (.defect .escapedReturn)
  rw [show S.watch = breakpoint site m (.defect .escapedReturn) from rfl, stopped] at outcome
  generalize Lexical.executeAll _ _ S.program _ = result at outcome
  cases outcome with
  | stopped genuine => exact genuine.elim
  | watched fired placed =>
      obtain ⟨rfl, rfl⟩ := breakpoint_eq_some fired
      exact placed

end Lox.Simulation
