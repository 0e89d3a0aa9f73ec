import Lox.Proofs.Lexical.Evaluation
import Lox.Proofs.Scope.Visit
import Lox.Proofs.Store

/-!
# Frames and locations

How a run over frames corresponds to a run over locations. A `World` remembers for each frame the
location of each of its variables and the names that its scope holds in the end. `Chain` ties the
frames from one frame outwards to the scopes around a place and to the names in force there; values
that functions are part of are related by such chains (`RelatedValue`), and `Agree` says that two
machines hold related values everywhere. A run makes a world grow (`World.Grows`), and all of these
relations stay true in the larger world.
-/

namespace Lox.Simulation
open Scoping

/--
A store with what it does not show of its frames: where their variables are, and what their scopes
hold at last.
-/
structure World where
  store : Store
  location : FrameId → String → Option Lexical.Location
  final : FrameId → Scope

namespace World

/--
What may become of a world. Old frames keep their variables, and only the touched one gets new ones.
-/
structure Grows (touched : Option FrameId) (W W' : World) : Prop where
  size : W.store.frames.size ≤ W'.store.frames.size
  links : ∀ f < W.store.frames.size, W'.store.enclosing? f = W.store.enclosing? f
  bound : ∀ f x, (W.store.read? f x).isSome → (W'.store.read? f x).isSome
  located : ∀ f x l, W.location f x = some l → W'.location f x = some l
  others : ∀ f < W.store.frames.size, some f ≠ touched → W'.location f = W.location f
  final : ∀ f < W.store.frames.size, W'.final f = W.final f

namespace Grows

variable {touched : Option FrameId} {W W₁ W₂ : World}

theorem refl : W.Grows touched W :=
  ⟨Nat.le.refl, fun _ _ => rfl, fun _ _ => id, fun _ _ _ => id, fun _ _ _ => rfl, fun _ _ => rfl⟩

theorem trans (first : W.Grows touched W₁) (second : W₁.Grows touched W₂) : W.Grows touched W₂ where
  size := Nat.le_trans first.size second.size
  links f older := (second.links f (Nat.lt_of_lt_of_le older first.size)).trans (first.links f older)
  bound f x bound := second.bound f x (first.bound f x bound)
  located f x l located := second.located f x l (first.located f x l located)
  others f older other :=
    (second.others f (Nat.lt_of_lt_of_le older first.size) other).trans (first.others f older other)
  final f older := (second.final f (Nat.lt_of_lt_of_le older first.size)).trans (first.final f older)

theorem weaken (grows : W.Grows none W₁) : W.Grows touched W₁ :=
  { grows with others := fun f older _ => grows.others f older nofun }

theorem fresh {frame : FrameId} (first : W.Grows touched W₁) (second : W₁.Grows (some frame) W₂)
    (new : W.store.frames.size ≤ frame) : W.Grows touched W₂ where
  size := Nat.le_trans first.size second.size
  links f older := (second.links f (Nat.lt_of_lt_of_le older first.size)).trans (first.links f older)
  bound f x bound := second.bound f x (first.bound f x bound)
  located f x l located := second.located f x l (first.located f x l located)
  others f older other := by
    have different : some f ≠ some frame := by
      rintro ⟨⟩
      exact Nat.not_lt_of_le new older
    exact (second.others f (Nat.lt_of_lt_of_le older first.size) different).trans
      (first.others f older other)
  final f older := (second.final f (Nat.lt_of_lt_of_le older first.size)).trans (first.final f older)

end Grows

end World

/-! ## Chains of frames -/

/--
From the frame outwards there is one frame for each scope, and then the globals. A frame binds the
names that its scope has ready, and the names in force mean the variables of the innermost frames
whose scopes hold them.
-/
inductive Chain (W : World) : FrameId → List Scope → List Scope → Lexical.Names → Prop where
  | globals {names : Lexical.Names} : (∀ x, names.find? x = none) → Chain W Store.globals [] [] names
  | frame {frame outer : FrameId} {scope : Scope} {scopes finals : List Scope}
      {names outerNames : Lexical.Names} :
      frame < W.store.frames.size → W.store.enclosing? frame = some outer →
      (∀ x, scope.find? x = some true → (W.store.read? frame x).isSome) →
      (∀ x, scope.contains x = true → ∃ l, W.location frame x = some l ∧ names.find? x = some l) →
      (∀ x, scope.contains x = false → names.find? x = outerNames.find? x) →
      Chain W outer scopes finals outerNames →
        Chain W frame (scope :: scopes) (W.final frame :: finals) names

namespace Chain

variable {W W' : World} {frame : FrameId} {scopes finals : List Scope} {names : Lexical.Names}
    {x : String}

theorem mono {touched : Option FrameId} (grows : W.Grows touched W')
    (chain : Chain W frame scopes finals names) :
    Chain W' frame scopes finals names := by
  induction chain with
  | globals empty => exact .globals empty
  | frame older link bound located others _ ih =>
      rw [← grows.final _ older]
      refine .frame (Nat.lt_of_lt_of_le older grows.size) ((grows.links _ older).trans link)
        (fun x ready => grows.bound _ x (bound x ready)) (fun x held => ?_) others ih
      obtain ⟨l, here, same⟩ := located x held
      exact ⟨l, grows.located _ x l here, same⟩

theorem older (chain : Chain W frame scopes finals names)
    (root : Store.globals < W.store.frames.size) :
    frame < W.store.frames.size := by
  cases chain with
  | globals => exact root
  | frame older => exact older

theorem ne_globals {scope : Scope} (chain : Chain W frame (scope :: scopes) finals names) :
    frame ≠ Store.globals := by
  cases chain with
  | frame _ link =>
      have younger := Store.enclosing?_lt link
      exact Nat.ne_of_gt (Nat.lt_of_le_of_lt (Nat.zero_le _) younger)

theorem held {scope : Scope} {outer : List Scope}
    (chain : Chain W frame (scope :: outer) finals names) (held : scope.contains x = true) :
    ∃ l, W.location frame x = some l ∧
    names.find? x = some l := by
  cases chain with
  | frame _ _ _ located => exact located x held

theorem of_distance {d : Nat} (chain : Chain W frame scopes finals names)
    (found : distance? x scopes = some d) :
    ∃ holder l, W.store.ancestor? frame d = some holder ∧ names.find? x = some l ∧
    W.location holder x = some l ∧
      (Ready x scopes → (W.store.read? holder x).isSome) := by
  induction chain generalizing d with
  | globals => cases found
  | frame older link bound located others _ ih =>
      rw [distance?_cons] at found
      split at found
      · rename_i held
        cases found
        obtain ⟨l, here, same⟩ := located x held
        refine ⟨_, l, rfl, same, here, fun ready => bound x ?_⟩
        obtain ⟨ready, value⟩ := Bindings.contains_iff.mp held
        cases ready with
        | true => exact value
        | false => exact ((ready_cons.mp ‹_›).1 value).elim
      · rename_i missing
        obtain ⟨d, outside, rfl⟩ := Option.map_eq_some_iff.mp found
        obtain ⟨holder, l, reached, same, here, isBound⟩ := ih outside
        refine ⟨holder, l, (Store.ancestor?_succ link d).trans reached, ?_, here, fun ready => ?_⟩
        · rw [others x (Bool.eq_false_iff.mpr missing), same]
        · exact isBound (ready_cons.mp ready).2

theorem of_global (chain : Chain W frame scopes finals names)
    (missing : distance? x scopes = none) :
    names.find? x = none := by
  induction chain with
  | globals empty => exact empty x
  | frame older link bound located others _ ih =>
      rw [distance?_cons] at missing
      split at missing
      · cases missing
      · rename_i held
        rw [others x (Bool.eq_false_iff.mpr held)]
        exact ih (Option.map_eq_none_iff.mp missing)

end Chain

/-! ## Related values -/

structure RelatedFunction (program : List Stmt) (W : World) (f : Closure)
    (g : Lexical.Closure) : Prop where
  declaration : g.declaration = f.declaration
  isInitializer : g.isInitializer = f.isInitializer
  place : ∃ c s finals kind, Visit program c s finals (.function kind f.declaration) ∧
    Chain W f.captured s.scopes finals g.captured.names ∧
    (f.isInitializer = true → ∃ outer, s.scopes = thisScope :: outer)

/-- Methods of one declaration over places that correspond but for the scope for `this`. -/
structure RelatedMethod (program : List Stmt) (W : World) (f : Closure)
    (g : Lexical.Closure) : Prop where
  declaration : g.declaration = f.declaration
  isInitializer : g.isInitializer = f.isInitializer
  place : ∃ c s outer finals kind, Visit program c s (thisScope :: finals)
    (.function kind f.declaration) ∧
    s.scopes = thisScope :: outer ∧ Chain W f.captured outer finals g.captured.outer

def RelatedMethods (program : List Stmt) (W : World) (fs : Bindings String Closure)
    (gs : Bindings String Lexical.Closure) : Prop :=
  ∀ x, Option.Rel (RelatedMethod program W) (fs.find? x) (gs.find? x)

inductive RelatedClass (program : List Stmt) (W : World) : Class → Lexical.Class → Prop where
  | base {identity : Nat} {name : String} {fs : Bindings String Closure}
      {gs : Bindings String Lexical.Closure} :
      RelatedMethods program W fs gs →
      RelatedClass program W ⟨identity, name, none, fs⟩ ⟨identity, name, none, gs⟩
  | derived {identity : Nat} {name : String} {parent : Class} {parent' : Lexical.Class}
      {fs : Bindings String Closure} {gs : Bindings String Lexical.Closure} :
      RelatedClass program W parent parent' → RelatedMethods program W fs gs →
      RelatedClass program W ⟨identity, name, some parent, fs⟩ ⟨identity, name, some parent', gs⟩

inductive RelatedValue (program : List Stmt) (W : World) : Value → Lexical.Value → Prop where
  | nil : RelatedValue program W .nil .nil
  | boolean (value : Bool) : RelatedValue program W (.boolean value) (.boolean value)
  | number (value : Float) : RelatedValue program W (.number value) (.number value)
  | string (text : String) : RelatedValue program W (.string text) (.string text)
  | native (function : Native) : RelatedValue program W (.native function) (.native function)
  | function {identity : Nat} {f : Closure} {g : Lexical.Closure} :
      RelatedFunction program W f g → RelatedValue program W (.function identity f)
        (.function identity g)
  | ofClass {c : Class} {d : Lexical.Class} :
      RelatedClass program W c d → RelatedValue program W (.ofClass c) (.ofClass d)
  | ofInstance {id : Nat} {c : Class} {d : Lexical.Class} :
      RelatedClass program W c d → RelatedValue program W (.ofInstance ⟨id, c⟩) (.ofInstance ⟨id, d⟩)

section Mono

variable {program : List Stmt} {touched : Option FrameId} {W W' : World}

theorem relMono {α β : Type} {R R' : α → β → Prop} {a : Option α} {b : Option β}
    (le : ∀ a b, R a b → R' a b) :
    Option.Rel R a b → Option.Rel R' a b
  | .some related => .some (le _ _ related)
  | .none => .none

theorem rel_inv {α β : Type} {R : α → β → Prop} {a : Option α} {b : Option β} :
    Option.Rel R a b → (a = none ∧ b = none) ∨ ∃ v w, a = some v ∧ b = some w ∧ R v w
  | .some related => .inr ⟨_, _, rfl, rfl, related⟩
  | .none => .inl ⟨rfl, rfl⟩

theorem RelatedFunction.mono {f : Closure} {g : Lexical.Closure} (grows : W.Grows touched W')
    (related : RelatedFunction program W f g) : RelatedFunction program W' f g := by
  obtain ⟨c, s, finals, kind, visit, chain, inMethod⟩ := related.place
  exact { related with place := ⟨c, s, finals, kind, visit, chain.mono grows, inMethod⟩ }

theorem RelatedMethod.mono {f : Closure} {g : Lexical.Closure} (grows : W.Grows touched W')
    (related : RelatedMethod program W f g) : RelatedMethod program W' f g := by
  obtain ⟨c, s, outer, finals, kind, visit, scopes, chain⟩ := related.place
  exact { related with place := ⟨c, s, outer, finals, kind, visit, scopes, chain.mono grows⟩ }

theorem RelatedClass.mono {c : Class} {d : Lexical.Class} (grows : W.Grows touched W')
    (related : RelatedClass program W c d) : RelatedClass program W' c d := by
  induction related with
  | base methods => exact .base fun x => relMono (fun _ _ => .mono grows) (methods x)
  | derived _ methods ih => exact .derived ih fun x => relMono (fun _ _ => .mono grows) (methods x)

theorem RelatedValue.mono {v : Value} {w : Lexical.Value} (grows : W.Grows touched W')
    (related : RelatedValue program W v w) : RelatedValue program W' v w := by
  cases related with
  | nil => exact .nil
  | boolean value => exact .boolean value
  | number value => exact .number value
  | string text => exact .string text
  | native function => exact .native function
  | function related => exact .function (related.mono grows)
  | ofClass related => exact .ofClass (related.mono grows)
  | ofInstance related => exact .ofInstance (related.mono grows)

end Mono

/-! ## Agreement of machines -/

def fieldOf {α : Type} (fields : Array (Bindings String α)) (id : Nat) (x : String) : Option α :=
  fields[id]?.bind (·.find? x)

def Typed (x : String) (v : Value) : Prop :=
  (x = "this" → ∃ i, v = .ofInstance i) ∧ (x = "super" → ∃ c, v = .ofClass c)

theorem typed_of_isName {x : String} {v : Value} (isName : IsName x) : Typed x v :=
  ⟨fun same => (isName.1 same).elim, fun same => (isName.2 same).elim⟩

/--
The machines hold related values in corresponding places, and what else can be observed is the same.
-/
structure Agree (program : List Stmt) (distances : Distances) (W : World) (m : Machine)
    (r : Lexical.Machine) :
    Prop where
  store : W.store = m.store
  distances : m.distances = distances
  sink : r.sink = m.sink
  clock : r.clock = m.clock
  identities : r.identities = m.store.identities
  root : Store.globals < W.store.frames.size
  globals : ∀ x, Option.Rel (RelatedValue program W) (W.store.read? Store.globals x) (r.globals.find? x)
  inside : ∀ f x l, W.location f x = some l →
    f ≠ Store.globals ∧ f < W.store.frames.size ∧ l < r.cells.size ∧ (W.final f).contains x = true
  cells : ∀ f x l, W.location f x = some l →
    Option.Rel (RelatedValue program W) (W.store.read? f x) (r.cells[l]?.join)
  unlocated : ∀ f x, f ≠ Store.globals → W.location f x = none → W.store.read? f x = none
  distinct : ∀ f x g y l, W.location f x = some l → W.location g y = some l → f = g ∧ x = y
  typed : ∀ f x v, W.store.read? f x = some v → Typed x v
  fieldCount : r.fields.size = m.store.fields.size
  fields : ∀ id x, Option.Rel (RelatedValue program W) (fieldOf m.store.fields id x)
    (fieldOf r.fields id x)

end Lox.Simulation
