import Lox.Proofs.Lexical.Variables

/-!
# Values and objects in corresponding runs

Nothing that a program can see tells related values apart. Operators, methods and properties come
out the same on them; methods are bound in a new frame of their own, at a new location.
-/

namespace Lox.Simulation
open Scoping

variable {S : Setting} {program : List Stmt} {W : World} {scopes finals : List Scope}
    {names : Lexical.Names}
  {m : Machine} {r : Lexical.Machine} {x : String} {v v' : Value} {w w' : Lexical.Value}

/-! ## What programs see of values -/

section
variable {c : Class} {d : Lexical.Class}

theorem RelatedClass.identity (related : RelatedClass program W c d) : d.identity = c.identity := by
  cases related <;> rfl

theorem RelatedClass.name (related : RelatedClass program W c d) : d.name = c.name := by
  cases related <;> rfl

theorem RelatedClass.findMethod (related : RelatedClass program W c d) (x : String) :
    Option.Rel (RelatedMethod program W) (c.findMethod? x) (d.findMethod? x) := by
  induction related with
  | base methods =>
      rw [ClassOver.findMethod?, ClassOver.findMethod?]
      rcases rel_inv (methods x) with ⟨here, there⟩ | ⟨f, g, here, there, related⟩
      · rw [here, there]
        exact .none
      · rw [here, there]
        exact .some related
  | derived _ methods ih =>
      rw [ClassOver.findMethod?, ClassOver.findMethod?]
      rcases rel_inv (methods x) with ⟨here, there⟩ | ⟨f, g, here, there, related⟩
      · rw [here, there]
        exact ih
      · rw [here, there]
        exact .some related

theorem RelatedClass.arity (related : RelatedClass program W c d) : d.arity = c.arity := by
  rw [ClassOver.arity, ClassOver.arity, ClassOver.initializer?, ClassOver.initializer?]
  rcases rel_inv (related.findMethod initializerName) with ⟨here, there⟩ | ⟨f, g, here, there, related⟩
  · rw [here, there]
  · rw [here, there]
    exact congrArg (·.params.length) related.declaration

end

theorem RelatedValue.isTruthy (related : RelatedValue program W v w) : w.isTruthy = v.isTruthy := by
  cases related with
  | boolean value => cases value <;> rfl
  | _ => rfl

theorem RelatedValue.arity? (related : RelatedValue program W v w) : w.arity? = v.arity? := by
  cases related with
  | function related =>
    exact congrArg (fun declaration => some declaration.params.length) related.declaration
  | ofClass related => exact congrArg some related.arity
  | _ => rfl

theorem RelatedValue.text (related : RelatedValue program W v w) : w.text = v.text := by
  cases related with
  | boolean value => cases value <;> rfl
  | function related =>
      exact congrArg (fun declaration => "<fn " ++ declaration.name.lexeme ++ ">") related.declaration
  | ofClass related => exact related.name
  | ofInstance related => exact congrArg (· ++ " instance") related.name
  | _ => rfl

theorem RelatedValue.equals (left : RelatedValue program W v w)
    (right : RelatedValue program W v' w') :
    w.equals w' = v.equals v' := by
  cases left with
  | ofClass left =>
      cases right with
      | ofClass right => rw [ValueOver.equals, ValueOver.equals, left.identity, right.identity]
      | _ => rfl
  | _ => cases right <;> rfl

theorem related_literal (literal : Literal) :
    RelatedValue program W literal.value literal.value := by
  cases literal with
  | nil => exact .nil
  | boolean b => exact .boolean b
  | number n => exact .number n
  | string text => exact .string text

/-! ## Operators -/

/-- The same error, which is not about a variable, or related results. -/
inductive SameResult (program : List Stmt) (W : World) :
    Except RuntimeError Value → Except RuntimeError Lexical.Value → Prop where
  | ok {v : Value} {w : Lexical.Value} : RelatedValue program W v w →
    SameResult program W (.ok v) (.ok w)
  | error {e : RuntimeError} : (∀ x, e.cause ≠ .undefinedVariable x) →
    SameResult program W (.error e) (.error e)

theorem applyUnary_same (operator : Token) (related : RelatedValue program W v w) :
    SameResult program W (applyUnary operator v) (applyUnary operator w) := by
  unfold applyUnary
  split
  · cases related with
    | number n => exact .ok (.number (-n))
    | _ => exact .error nofun
  · rw [related.isTruthy]
    exact .ok (.boolean _)
  · exact .error nofun

theorem onNumbers_same (operator : Token) {operation : Float → Float → Value}
    {operation' : Float → Float → Lexical.Value} (left : RelatedValue program W v w)
    (right : RelatedValue program W v' w')
    (same : ∀ a b, RelatedValue program W (operation a b) (operation' a b)) :
    SameResult program W (onNumbers operator v v' operation)
    (onNumbers operator w w' operation') := by
  cases left with
  | number a =>
      cases right with
      | number b => exact .ok (same a b)
      | _ => exact .error nofun
  | _ => exact .error nofun

theorem applyBinary_same (operator : Token) (left : RelatedValue program W v w)
    (right : RelatedValue program W v' w') :
    SameResult program W (applyBinary operator v v') (applyBinary operator w w') := by
  unfold applyBinary
  split
  · cases left with
    | number a =>
        cases right with
        | number b => exact .ok (.number _)
        | _ => exact .error nofun
    | string a =>
        cases right with
        | string b => exact .ok (.string _)
        | _ => exact .error nofun
    | _ => exact .error nofun
  · exact onNumbers_same operator left right fun _ _ => .number _
  · exact onNumbers_same operator left right fun _ _ => .number _
  · exact onNumbers_same operator left right fun _ _ => .number _
  · exact onNumbers_same operator left right fun _ _ => .boolean _
  · exact onNumbers_same operator left right fun _ _ => .boolean _
  · exact onNumbers_same operator left right fun _ _ => .boolean _
  · exact onNumbers_same operator left right fun _ _ => .boolean _
  · rw [left.equals right]
    exact .ok (.boolean _)
  · rw [left.equals right]
    exact .ok (.boolean _)
  · exact .error nofun

theorem Setting.genuine_runtime {e : RuntimeError} (other : ∀ x, e.cause ≠ .undefinedVariable x) :
    S.Genuine (.runtime e) := by
  obtain ⟨cause, line⟩ := e
  cases cause with
  | undefinedVariable x => exact (other x rfl).elim
  | _ => trivial

theorem lift_outcome {result : Except RuntimeError Value}
    {result' : Except RuntimeError Lexical.Value} (agree : S.Agree W m r)
    (same : SameResult S.program W result result') :
    Outcome S none W m.current S.RelatedValue (Run.lift result m) (Run.lift result' r) := by
  cases same with
  | ok related => exact .done .refl agree rfl related
  | error other => exact .stopped (S.genuine_runtime other) agree.sink

theorem emit_outcome (agree : S.Agree W m r) (text : String) :
    Outcome S none W m.current (fun _ _ _ => True) (Run.emit text m) (Lexical.emit text r) := by
  unfold Run.emit Lexical.emit
  rw [agree.sink]
  obtain ⟨failed, sink⟩ := m.sink.write text
  cases failed with
  | none => exact .done .refl (agree.emitted sink) rfl trivial
  | some error => exact .stopped trivial rfl

/-! ## New frames -/

theorem Chain.enter {outer : FrameId} (chain : Chain W outer scopes finals names)
    (root : Store.globals < W.store.frames.size) (final : Scope) :
    Chain (W.enter outer final) W.store.frames.size (.empty :: scopes) (final :: finals) names := by
  have same : (W.enter outer final).final W.store.frames.size = final := if_pos rfl
  have size : (W.enter outer final).store.frames.size = W.store.frames.size + 1 := Array.size_push _
  have link := Store.enclosing?_newFrame_self (chain.older root)
  have inside : Chain (W.enter outer final) W.store.frames.size (.empty :: scopes)
      ((W.enter outer final).final W.store.frames.size :: finals) names :=
    .frame (by rw [size]; exact Nat.lt_succ_self _) link (fun _ => nofun) (fun _ => nofun)
      (fun _ _ => rfl)
      (chain.mono World.enter_grows)
  rwa [same] at inside

theorem unused_new (agree : S.Agree W m r) (outer : FrameId) (final : Scope) (x : String) :
    (W.enter outer final).location W.store.frames.size x = none := by
  cases located : (W.enter outer final).location W.store.frames.size x with
  | none => rfl
  | some l => exact absurd (agree.inside _ x l located).2.1 (Nat.lt_irrefl _)

structure Binds (W : World) (frame outer : FrameId) (x : String) (l : Lexical.Location) : Prop where
  older : frame < W.store.frames.size
  link : W.store.enclosing? frame = some outer
  bound : (W.store.read? frame x).isSome
  located : W.location frame x = some l
  final : W.final frame = scopeOf x

theorem Binds.mono {touched : Option FrameId} {W' : World} {frame outer : FrameId}
    {l : Lexical.Location} (grows : W.Grows touched W') (binds : Binds W frame outer x l) :
    Binds W' frame outer x l where
  older := Nat.lt_of_lt_of_le binds.older grows.size
  link := (grows.links frame binds.older).trans binds.link
  bound := grows.bound frame x binds.bound
  located := grows.located frame x l binds.located
  final := (grows.final frame binds.older).trans binds.final

theorem Binds.chain {frame outer : FrameId} {l : Lexical.Location} (binds : Binds W frame outer x l)
    (chain : Chain W outer scopes finals names) :
    Chain W frame (scopeOf x :: scopes) (scopeOf x :: finals) (names.insert x l) := by
  have inside : Chain W frame (scopeOf x :: scopes) (W.final frame :: finals) (names.insert x l) := by
    refine .frame binds.older binds.link (fun y ready => ?_) (fun y held => ?_) (fun y free => ?_) chain
    · have held := Bindings.contains_iff.mpr ⟨true, ready⟩
      rw [contains_scopeOf, decide_eq_true_iff] at held
      exact held ▸ binds.bound
    · rw [contains_scopeOf, decide_eq_true_iff] at held
      exact ⟨l, held ▸ binds.located, held ▸ Bindings.find?_insert_self _ _ _⟩
    · rw [contains_scopeOf, decide_eq_false_iff_not] at free
      exact Bindings.find?_insert_of_ne _ _ free
  rwa [binds.final] at inside

/-- A new frame binds one name, and the machine over locations binds it at a new location. -/
theorem enter_binding {outer : FrameId} (agree : S.Agree W m r)
    (older : outer < W.store.frames.size) (related : S.RelatedValue W v w) (typed : Typed x v) :
    ∃ W', W.Grows none W' ∧ Binds W' m.store.frames.size outer x r.cells.size ∧
      S.Agree W' { m with store := (m.store.newFrame (some outer)).2.define m.store.frames.size x v }
        { r with cells := (r.cells.push none).setIfInBounds r.cells.size (some w) } := by
  have same : m.store.frames.size = W.store.frames.size := by rw [agree.store]
  have inside : W.store.frames.size < (W.enter outer (scopeOf x)).store.frames.size := by
    simp [World.enter, Store.newFrame]
  have free := unused_new agree outer (scopeOf x) x
  have final : (W.enter outer (scopeOf x)).final W.store.frames.size = scopeOf x := if_pos rfl
  have located := (agree.enter outer (scopeOf x)).locate (Nat.ne_of_gt agree.root) inside free
    (by rw [final, contains_scopeOf, decide_eq_true rfl])
  have grows : W.Grows none
    (((W.enter outer (scopeOf x)).locate W.store.frames.size x r.cells.size).define
      W.store.frames.size x v) :=
    .fresh World.enter_grows ((World.locate_grows free).trans World.define_grows.weaken) Nat.le.refl
  rw [same]
  refine ⟨_, grows, ⟨?_, ?_, ?_, World.locate_self, final⟩,
    located.define World.locate_self (related.mono grows) typed⟩
  · exact Nat.lt_of_lt_of_eq inside Store.size_define.symm
  · exact Store.enclosing?_define.trans (Store.enclosing?_newFrame_self older)
  · exact congrArg Option.isSome (Store.read?_define_self inside)

/-! ## Methods -/

theorem newIdentity_outcome (agree : S.Agree W m r) :
    Outcome S none W m.current (fun _ => Eq) (Run.newIdentity m) (Lexical.newIdentity r) :=
  .done World.beside_grows agree.newIdentity rfl agree.identities.symm

theorem newInstance_outcome {c : Class} {d : Lexical.Class} (agree : S.Agree W m r)
    (related : RelatedClass S.program W c d) :
    Outcome S none W m.current (fun W' i i' => S.RelatedValue W' (.ofInstance i) (.ofInstance i'))
      (Run.newInstance c m) (Lexical.newInstance d r) := by
  refine .done World.beside_grows agree.newInstance rfl ?_
  rw [agree.fieldCount]
  exact .ofInstance (related.mono World.beside_grows)

theorem bindMethod_outcome {f : Closure} {g : Lexical.Closure} {i : Instance}
    {i' : Lexical.Instance} (agree : S.Agree W m r) (method : RelatedMethod S.program W f g)
    (related : S.RelatedValue W (.ofInstance i) (.ofInstance i')) :
    Outcome S none W m.current
      (fun W' bound bound' => RelatedFunction S.program W' bound bound' ∧ bound.declaration = f.declaration)
      (bindMethod f i m) (Lexical.bindMethod g i' r) := by
  obtain ⟨c, s, outer, finals, kind, visit, scopes, chain⟩ := method.place
  have typed : Typed "this" (.ofInstance i) :=
    ⟨fun _ => ⟨i, rfl⟩, fun other => absurd other (by decide)⟩
  obtain ⟨W', grows, binds, agree'⟩ := enter_binding agree (chain.older agree.root) related typed
  have place := binds.chain (chain.mono grows)
  rw [show scopeOf "this" :: outer = s.scopes from scopes.symm] at place
  exact .done grows agree' rfl
    ⟨⟨method.declaration, method.isInitializer, c, s, _, kind, visit, place, fun _ => ⟨outer, scopes⟩⟩, rfl⟩

theorem methodValue_outcome {f : Closure} {g : Lexical.Closure} {i : Instance}
    {i' : Lexical.Instance} (agree : S.Agree W m r) (method : RelatedMethod S.program W f g)
    (related : S.RelatedValue W (.ofInstance i) (.ofInstance i')) :
    Outcome S none W m.current S.RelatedValue (methodValue f i m) (Lexical.methodValue g i' r) := by
  refine .bind (bindMethod_outcome agree method related)
    fun W₁ bound bound' m₁ r₁ _ agree₁ here ⟨related₁, _⟩ => ?_
  rw [← here]
  refine .bind (newIdentity_outcome agree₁) fun W₂ identity _ m₂ r₂ grows₂ agree₂ here₂ same => ?_
  rw [← here₂, ← same]
  exact .pure agree₂ (.function (related₁.mono grows₂))

/-! ## Properties -/

theorem field?_eq (s : Store) (i : Instance) (x : String) :
    s.field? i x = fieldOf s.fields i.id x := by
  rw [Store.field?, fieldOf]
  cases s.fields[i.id]? <;> rfl

theorem lexicalField?_eq (r : Lexical.Machine) (i : Lexical.Instance) (x : String) :
    r.field? i x = fieldOf r.fields i.id x := by
  rw [Lexical.Machine.field?, fieldOf]
  cases r.fields[i.id]? <;> rfl

theorem findMethod_outcome {c : Class} {d : Lexical.Class} {i : Instance} {i' : Lexical.Instance}
    {name : Token} (agree : S.Agree W m r) (parent : RelatedClass S.program W c d)
    (related : S.RelatedValue W (.ofInstance i) (.ofInstance i')) :
    Outcome S none W m.current S.RelatedValue
      ((match c.findMethod? name.lexeme with
        | some method => methodValue method i
        | none => Run.raise (.undefinedProperty name.lexeme) name : Run Value) m)
      ((match d.findMethod? name.lexeme with
        | some method => Lexical.methodValue method i'
        | none => Run.raise (.undefinedProperty name.lexeme) name : Lexical.Run Lexical.Value) r) := by
  rcases rel_inv (parent.findMethod name.lexeme) with ⟨here, there⟩ | ⟨f, g, here, there, method⟩
  · rw [here, there]
    exact .raise agree trivial
  · rw [here, there]
    exact methodValue_outcome agree method related

theorem getProperty_outcome {i : Instance} {i' : Lexical.Instance} {name : Token}
    (agree : S.Agree W m r) (related : S.RelatedValue W (.ofInstance i) (.ofInstance i')) :
    Outcome S none W m.current S.RelatedValue (getProperty i name m)
    (Lexical.getProperty i' name r) := by
  rw [getProperty, Lexical.getProperty, bind_get, bind_get, field?_eq, lexicalField?_eq]
  cases related with
  | ofInstance parent =>
      rcases rel_inv (agree.fields _ name.lexeme) with ⟨here, there⟩ | ⟨v, w, here, there, found⟩
      · rw [here, there]
        exact findMethod_outcome agree parent (.ofInstance parent)
      · rw [here, there]
        exact .pure agree found

theorem setField_outcome {i : Instance} {i' : Lexical.Instance} (name : String)
    (agree : S.Agree W m r) (object : S.RelatedValue W (.ofInstance i) (.ofInstance i'))
    (related : S.RelatedValue W v w) :
    Outcome S none W m.current (fun _ _ _ => True) (Run.setField i name v m)
    (Lexical.setField i' name w r) := by
  cases object with
  | ofInstance => exact .done World.beside_grows (agree.setField _ name related) rfl trivial

theorem local_related {frame : FrameId} {d : Nat} (agree : S.Agree W m r)
    (chain : Chain W frame scopes finals names) (found : distance? x scopes = some d)
    (ready : Ready x scopes) :
    ∃ v w, m.store.getAt? frame d x = some v ∧ r.local? names x = some w ∧ S.RelatedValue W v w ∧
    Typed x v := by
  obtain ⟨holder, l, reached, same, located, bound⟩ := chain.of_distance found
  have isBound := bound ready
  rcases rel_inv (agree.cells holder x l located) with ⟨here, there⟩ | ⟨v, w, here, there, related⟩
  · rw [here] at isBound
    cases isBound
  · have typed := agree.typed holder x v here
    rw [agree.store] at reached here
    refine ⟨v, w, ?_, ?_, related, typed⟩
    · rw [Store.getAt?, reached]
      exact here
    · rw [Lexical.Machine.local?, same]
      exact there

theorem getInherited_outcome {keyword : Reference} {method : Token} {inner : Nat}
    (agree : S.Agree W m r) (chain : Chain W m.current scopes finals names)
    (entry : S.distances.find? keyword.id = some (inner + 1))
    (this : distance? "this" scopes = some inner)
    (super : distance? "super" scopes = some (inner + 1)) (readyThis : Ready "this" scopes)
    (readySuper : Ready "super" scopes) :
    Outcome S none W m.current S.RelatedValue (getInherited keyword method m)
      (Lexical.getInherited names keyword method r) := by
  obtain ⟨v, w, parentHere, parentThere, parent, typed⟩ := local_related agree chain super readySuper
  obtain ⟨v', w', here, there, related, typed'⟩ := local_related agree chain this readyThis
  obtain ⟨c, rfl⟩ := typed.2 rfl
  obtain ⟨i, rfl⟩ := typed'.1 rfl
  cases parent with
  | ofClass parent =>
      cases related with
      | ofInstance type =>
          rw [getInherited, Lexical.getInherited, bind_get, bind_get, findInherited,
            agree.distances, entry]
          simp only [parentHere, here, parentThere, there]
          exact findMethod_outcome agree parent (.ofInstance type)

end Lox.Simulation
