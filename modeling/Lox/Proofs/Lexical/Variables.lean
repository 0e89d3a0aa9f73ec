import Mathlib.Data.List.Forall2
import Lox.Proofs.Lexical.Outcome

/-!
# Variables in corresponding runs

A reference means the same variable by its distance and by its location (`lookUp_outcome`,
`assign_outcome`), and a declaration makes the same name known to the scopes, to its frame and to
the place (`Standing`, `declare_step`, `define_step`).
-/

namespace Lox.Simulation
open Scoping

variable {S : Setting} {W : World} {frame : FrameId} {scopes finals : List Scope}
    {names : Lexical.Names}
  {place : Lexical.Place} {m : Machine} {r : Lexical.Machine} {x : String} {v : Value} {w : Lexical.Value}

/-! ## References -/

theorem lookUp_outcome {reference : Reference} (agree : S.Agree W m r)
    (chain : Chain W m.current scopes finals names)
    (entry : S.distances.find? reference.id = distance? reference.name scopes)
    (ready : Ready reference.name scopes) (listed : reference ∈ Stmt.referencesAll S.program) :
    Outcome S none W m.current S.RelatedValue (lookUp reference m)
    (Lexical.lookUp names reference r) := by
  rw [lookUp, Lexical.lookUp, agree.distances, entry]
  cases found : distance? reference.name scopes with
  | none =>
      have globals := agree.globals reference.name
      rw [agree.store] at globals
      simp only [chain.of_global found, Store.get?_globals]
      rcases rel_inv globals with ⟨here, there⟩ | ⟨v, w, here, there, related⟩
      · simp only [here, there]
        exact .raise agree ⟨reference, listed, rfl, rfl, entry.trans found⟩
      · simp only [here, there]
        exact .done .refl agree rfl related
  | some d =>
      obtain ⟨holder, l, reached, same, located, bound⟩ := chain.of_distance found
      have cells := agree.cells holder _ l located
      have isBound := bound ready
      rw [agree.store] at cells reached isBound
      simp only [same, Store.getAt?, reached]
      rcases rel_inv cells with ⟨here, there⟩ | ⟨v, w, here, there, related⟩
      · rw [here] at isBound
        cases isBound
      · simp only [here, there]
        exact .done .refl agree rfl related

theorem assign_outcome {reference : Reference} (agree : S.Agree W m r)
    (chain : Chain W m.current scopes finals names)
    (entry : S.distances.find? reference.id = distance? reference.name scopes)
    (isName : IsName reference.name) (listed : reference ∈ Stmt.referencesAll S.program)
    (related : S.RelatedValue W v w) :
    Outcome S none W m.current (fun _ _ _ => True) (assign reference v m)
    (Lexical.assign names reference w r) := by
  have related' {f : FrameId} {y : String} {v' : Value} : S.RelatedValue (W.define f y v') v w :=
    related.mono World.define_grows
  rw [assign, Lexical.assign, agree.distances, entry]
  cases found : distance? reference.name scopes with
  | none =>
      have globals := agree.globals reference.name
      rw [agree.store] at globals
      simp only [chain.of_global found, Store.binder?_globals, Bindings.contains]
      rcases rel_inv globals with ⟨here, there⟩ | ⟨_, _, here, there, -⟩
      · simp only [here, there]
        exact .raise agree ⟨reference, listed, rfl, rfl, entry.trans found⟩
      · simp only [here, there]
        exact .done World.define_grows
          (agree.defineGlobal related' (typed_of_isName isName)) rfl trivial
  | some d =>
      obtain ⟨holder, l, reached, same, located, -⟩ := chain.of_distance found
      rw [agree.store] at reached
      simp only [same, reached]
      exact .done World.define_grows
        (agree.define located related' (typed_of_isName isName)) rfl trivial

/-! ## Declarations -/

namespace Chain

variable {scope : Scope} {outer : List Scope} {names' : Lexical.Names} {l : Lexical.Location}

theorem declare (chain : Chain W frame (scope :: outer) finals names)
    (located : W.location frame x = some l) (self : names'.find? x = some l)
    (others : ∀ y, y ≠ x → names'.find? y = names.find? y) :
    Chain W frame (scope.insert x false :: outer) finals names' := by
  cases chain with
  | frame older link bound places outside rest =>
      refine .frame older link (fun y ready => ?_) (fun y held => ?_) (fun y free => ?_) rest
      · have different : y ≠ x := by
          rintro rfl
          rw [Bindings.find?_insert_self] at ready
          cases ready
        rw [Bindings.find?_insert_of_ne _ _ different] at ready
        exact bound y ready
      · by_cases same : y = x
        · rw [same]
          exact ⟨l, located, self⟩
        · rw [Bindings.contains_insert, decide_eq_false same, Bool.false_or] at held
          rw [others y same]
          exact places y held
      · rw [Bindings.contains_insert, Bool.or_eq_false_iff, decide_eq_false_iff_not] at free
        rw [others y free.1]
        exact outside y free.2

theorem final_of_within {scope' : Scope} (chain : Chain W frame (scope :: outer) finals names)
    (within : Within (scope' :: outer) finals) (held : scope'.contains x = true) :
    (W.final frame).contains x = true := by
  cases chain with
  | frame => exact within.1 x held

theorem define (chain : Chain W frame (markIn x false scopes) finals names)
    (bound : scopes ≠ [] → (W.store.read? frame x).isSome) :
    Chain W frame (introduceIn x scopes) finals names := by
  cases scopes with
  | nil => exact chain
  | cons scope outer =>
      cases chain with
      | frame older link ready places outside rest =>
          refine .frame older link (fun y isReady => ?_) (fun y held => places y ?_)
            (fun y free => outside y ?_) rest
          · by_cases same : y = x
            · rw [same]
              exact bound nofun
            · rw [Bindings.find?_insert_of_ne _ _ same] at isReady
              exact ready y isReady
          · rw [Bindings.contains_insert] at held
            by_cases same : y = x
            · rw [same, Bindings.contains_insert, decide_eq_true rfl, Bool.true_or]
            · rwa [decide_eq_false same, Bool.false_or] at held
          · rw [Bindings.contains_insert, Bool.or_eq_false_iff] at free
            exact free.2

end Chain

/--
A place corresponds to the scopes there. What the running scope has declared is what its scope
holds, and its frame has variables for nothing else.
-/
structure Standing (W : World) (frame : FrameId) (scopes finals : List Scope)
    (place : Lexical.Place) : Prop where
  chain : Chain W frame scopes finals place.names
  outside : scopes = [] → place.own = none
  inside : ∀ scope ∈ scopes.head?, ∃ own, place.own = some own ∧
    ∀ x, (x ∈ own ↔ scope.contains x = true) ∧
    ∀ l, W.location frame x = some l → scope.contains x = true

namespace Standing

theorem mono {W' : World} (standing : Standing W frame scopes finals place)
    (grows : W.Grows none W') (root : Store.globals < W.store.frames.size) :
    Standing W' frame scopes finals place where
  chain := standing.chain.mono grows
  outside := standing.outside
  inside scope here := by
    rw [grows.others frame (standing.chain.older root) (Option.some_ne_none frame)]
    exact standing.inside scope here

theorem again {touched : Option FrameId} {W' : World} {place' : Lexical.Place}
    (standing : Standing W frame scopes finals place) (grows : W.Grows touched W')
    (later : Standing W' frame scopes finals place') : Standing W' frame scopes finals place where
  chain := standing.chain.mono grows
  outside := standing.outside
  inside scope here := by
    obtain ⟨own, same, declared⟩ := standing.inside scope here
    obtain ⟨_, _, declared'⟩ := later.inside scope here
    exact ⟨own, same, fun x => ⟨(declared x).1, (declared' x).2⟩⟩

theorem start {scope : Scope} {outer : List Scope}
    (chain : Chain W frame (scope :: outer) finals names) (empty : ∀ x, scope.contains x = false)
    (unused : ∀ x, W.location frame x = none) :
    Standing W frame (scope :: outer) finals (.inside names) where
  chain := chain
  outside := nofun
  inside scope' here := by
    cases here
    refine ⟨[], rfl, fun x => ⟨?_, fun l located => ?_⟩⟩
    · rw [empty]
      exact ⟨nofun, nofun⟩
    · rw [unused] at located
      cases located

end Standing

theorem declare_step (agree : S.Agree W m r) (standing : Standing W frame scopes finals place)
    (within : Within (markIn x false scopes) finals) :
    ∃ W' place' r', Lexical.declare place x r = .ok place' r' ∧ W.Grows (some frame) W' ∧
    S.Agree W' m r' ∧
      Standing W' frame (markIn x false scopes) finals place' := by
  cases scopes with
  | nil =>
      refine ⟨W, place, r, ?_, .refl, agree, standing⟩
      rw [Lexical.declare, standing.outside rfl]
      rfl
  | cons scope outer =>
      obtain ⟨own, same, declared⟩ := standing.inside scope rfl
      rw [Lexical.declare, same]
      -- a name that the scope has already keeps its location, a new one gets the next cell
      by_cases known : x ∈ own
      · obtain ⟨l, located, here⟩ := standing.chain.held ((declared x).1.mp known)
        refine ⟨W, place, r, ?_, .refl, agree, standing.chain.declare located here fun _ _ => rfl,
          nofun, ?_⟩
        · simp only [if_pos known]
          rfl
        · rintro _ ⟨⟩
          refine ⟨own, same, fun y => ?_⟩
          rw [Bindings.contains_insert]
          by_cases equal : y = x
          · simp [equal, known]
          · simpa [equal] using declared y
      · have free : W.location frame x = none := by
          cases located : W.location frame x with
          | none => rfl
          | some l => exact (known ((declared x).1.mpr ((declared x).2 l located))).elim
        have grows := World.locate_grows (l := r.cells.size) free
        have held : (W.final frame).contains x = true :=
          standing.chain.final_of_within within (by simp [Bindings.contains_insert])
        refine ⟨W.locate frame x r.cells.size, ⟨place.names.insert x r.cells.size, some (x :: own)⟩,
          _, ?_, grows, agree.locate standing.chain.ne_globals (standing.chain.older agree.root) free held,
          (standing.chain.mono grows).declare World.locate_self (Bindings.find?_insert_self _ _ _)
            fun y different => Bindings.find?_insert_of_ne _ _ different, nofun, ?_⟩
        · simp only [if_neg known]
          rfl
        · rintro _ ⟨⟩
          refine ⟨x :: own, rfl, fun y => ?_⟩
          rw [Bindings.contains_insert, List.mem_cons]
          by_cases equal : y = x
          · simp [equal]
          · rw [World.locate_of_ne fun both => equal both.2]
            simpa [equal] using declared y

theorem define_step (agree : S.Agree W m r)
    (standing : Standing W frame (markIn x false scopes) finals place)
    (related : S.RelatedValue (W.define frame x v) v w) (isName : IsName x) :
    ∃ r', Lexical.define place x w r = .ok () r' ∧
      S.Agree (W.define frame x v) { m with store := m.store.define frame x v } r' := by
  have typed := typed_of_isName (v := v) isName
  cases scopes with
  | nil =>
      refine ⟨{ r with globals := r.globals.insert x w }, ?_, ?_⟩
      · rw [Lexical.define, standing.outside rfl]
      · cases standing.chain
        exact agree.defineGlobal related typed
  | cons scope outer =>
      obtain ⟨own, same, -⟩ := standing.inside _ rfl
      obtain ⟨l, located, here⟩ := standing.chain.held (x := x) (by simp [Bindings.contains_insert])
      refine ⟨{ r with cells := r.cells.setIfInBounds l (some w) }, ?_,
        agree.define located related typed⟩
      rw [Lexical.define, same, here]
      rfl

theorem Standing.define (standing : Standing W frame (markIn x false scopes) finals place)
    (root : Store.globals < W.store.frames.size) :
    Standing (W.define frame x v) frame (introduceIn x scopes) finals place where
  chain := by
    refine (standing.chain.mono World.define_grows).define fun _ => ?_
    rw [read?_define (standing.chain.older root), if_pos ⟨rfl, rfl⟩]
    rfl
  outside empty := by
    cases scopes with
    | nil => exact standing.outside rfl
    | cons scope outer => cases empty
  inside := by
    cases scopes with
    | nil => nofun
    | cons scope outer =>
        rintro _ ⟨⟩
        obtain ⟨own, same, declared⟩ := standing.inside _ rfl
        refine ⟨own, same, fun y => ?_⟩
        change (y ∈ own ↔ _) ∧ ∀ l, W.location frame y = some l → _
        simpa [Bindings.contains_insert] using declared y

theorem declareAll_outcome {params : List Token} {values : List Value}
    {values' : List Lexical.Value} {scope : Scope} {outer : List Scope} (agree : S.Agree W m r)
    (standing : Standing W frame (scope :: outer) finals place)
    (related : List.Forall₂ (S.RelatedValue W) values values')
    (count : values.length = params.length) (isName : ∀ param ∈ params, IsName param.lexeme)
    (within : Within (introduceAll params scope :: outer) finals) :
    Outcome S (some frame) W m.current
      (fun W' _ place' => Standing W' frame (introduceAll params scope :: outer) finals place')
      (Run.defineAll frame params values m) (Lexical.declareAll place params values' r) := by
  induction params generalizing values values' W m r place scope with
  | nil =>
      rw [Run.defineAll, Lexical.declareAll]
      · exact .pure agree standing
      all_goals nofun
  | cons param rest ih =>
      cases related with
      | nil => cases count
      | @cons v w _ _ first others =>
          rw [List.forall_mem_cons] at isName
          have declared : Within (markIn param.lexeme false (scope :: outer)) finals :=
            (Within.markIn param.lexeme true _).trans ((Within.introduceAll rest _ outer).trans within)
          obtain ⟨W₁, place₁, r₁, step₁, grows₁, agree₁, standing₁⟩ :=
            declare_step agree standing declared
          have grows : W.Grows (some frame) (W₁.define frame param.lexeme v) :=
            grows₁.trans World.define_grows.weaken
          obtain ⟨r₂, step₂, agree₂⟩ := define_step agree₁ standing₁ (first.mono grows) isName.1
          rw [Run.defineAll, Lexical.declareAll, bind_of step₁, bind_of step₂]
          exact .after grows
            (ih agree₂ (standing₁.define agree₁.root) (others.imp fun _ _ => .mono grows)
            (Nat.succ.inj count) isName.2 within)

end Lox.Simulation
