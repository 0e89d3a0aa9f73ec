import Lox.Proofs.Scope.Occurrences
import Lox.Proofs.Store
import Lox.Proofs.Supervision

/-!
# Where frames and values come from

Each frame that a method can see was made by some step of the run. A frame that binds `super` was
made when a class declaration was executed, for the class that its superclass was then (`Origin`);
the frame that it is the home of binds `this` (`Linked`). Functions and methods are closed over such
frames, as their places in the program demand (`SoundValue`). A run changes neither the links
between frames nor what they bind to `this` and `super` (`Kept`), so all of this stays true.
-/

namespace Lox

def ClassDecl.statement (K : ClassDecl) : Stmt := .classDecl K.name K.superclass K.methods

namespace Dispatch

/-! ## What a run keeps -/

structure Kept (s s' : Store) : Prop where
  size : s.frames.size ≤ s'.frames.size
  links : ∀ f < s.frames.size, s'.enclosing? f = s.enclosing? f
  this : ∀ f < s.frames.size, s'.read? f "this" = s.read? f "this"
  super : ∀ f < s.frames.size, s'.read? f "super" = s.read? f "super"

variable {s s' s'' : Store} {frame outer : FrameId}

theorem Kept.refl : Kept s s := ⟨Nat.le.refl, fun _ _ => rfl, fun _ _ => rfl, fun _ _ => rfl⟩

theorem Kept.trans (first : Kept s s') (second : Kept s' s'') : Kept s s'' where
  size := Nat.le_trans first.size second.size
  links f older := (second.links f (Nat.lt_of_lt_of_le older first.size)).trans (first.links f older)
  this f older := (second.this f (Nat.lt_of_lt_of_le older first.size)).trans (first.this f older)
  super f older := (second.super f (Nat.lt_of_lt_of_le older first.size)).trans (first.super f older)

theorem define_kept {name : String} {v : Value} (isName : IsName name) :
    Kept s (s.define frame name v) where
  size := Nat.le_of_eq Store.size_define.symm
  links _ _ := Store.enclosing?_define
  this _ _ := Store.read?_define_of_ne fun same => isName.1 same.2.symm
  super _ _ := Store.read?_define_of_ne fun same => isName.2 same.2.symm

theorem newFrame_kept (outer : FrameId) : Kept s (s.newFrame (some outer)).2 where
  size := by simp [Store.newFrame]
  links _ older := Store.enclosing?_newFrame _ older
  this _ _ := Store.read?_newFrame _
  super _ _ := Store.read?_newFrame _

/-- A new frame that binds one name. -/
def frameWith (outer : FrameId) (name : String) (v : Value) (s : Store) : Store :=
  (s.newFrame (some outer)).2.define s.frames.size name v

theorem frameWith_kept (name : String) (v : Value) : Kept s (frameWith outer name v s) where
  size := Nat.le_trans (newFrame_kept outer).size (Nat.le_of_eq Store.size_define.symm)
  links _ older := Store.enclosing?_define.trans (Store.enclosing?_newFrame _ older)
  this _ older := (Store.read?_define_of_ne fun same => Nat.ne_of_lt older same.1).trans
    (Store.read?_newFrame _)
  super _ older := (Store.read?_define_of_ne fun same => Nat.ne_of_lt older same.1).trans
    (Store.read?_newFrame _)

theorem frameWith_bound {name : String} {v : Value} :
    (frameWith outer name v s).read? s.frames.size name = some v :=
  Store.read?_define_self (by simp [Store.newFrame])

theorem frameWith_link {name : String} {v : Value} (older : outer < s.frames.size) :
    (frameWith outer name v s).enclosing? s.frames.size = some outer :=
  Store.enclosing?_define.trans (Store.enclosing?_newFrame_self older)

theorem beside_kept {fields : Array (Bindings String Value)} {identities : Nat} :
    Kept s { s with fields, identities } :=
  ⟨Nat.le.refl, fun _ _ => rfl, fun _ _ => rfl, fun _ _ => rfl⟩

/-! ## Sound values -/

/-- A run of a program under a watch. -/
structure Course where
  program : List Stmt
  watch : Watch

namespace Course

/--
The watch let the declaration of the class pass, at a machine where its superclass was `parent` and
the next frame was to be `home`.
-/
def Origin (R : Course) (K : ClassDecl) (parent : Class) (home : FrameId) : Prop :=
  ∃ m name, K.superclass = some name ∧ R.watch (.stmt K.statement) m = none ∧
    lookUp name m = .ok (.ofClass parent) m ∧ m.store.frames.size = home

/-- The methods of the class can be closed over this frame. -/
structure Home (R : Course) (s : Store) (K : ClassDecl) (home : FrameId) : Prop where
  older : home < s.frames.size
  origin : K.superclass.isSome → ∃ parent, R.Origin K parent home ∧
    s.read? home "super" = some (.ofClass parent)

/-- The frame is one for the innermost scope of the path, and so are those around it, up to a class. -/
def Linked (R : Course) (s : Store) : Path → FrameId → Prop
  | [], frame => frame < s.frames.size
  | .initializer _ :: outer, frame | .heading _ :: outer, frame => R.Linked s outer frame
  | .block _ :: outer, frame | .function _ _ :: outer, frame | .method _ _ :: outer, frame =>
    ∃ around, s.enclosing? frame = some around ∧ R.Linked s outer around
  | .classBody K :: _, frame => ∃ i home, s.read? frame "this" = some (.ofInstance i) ∧
    s.enclosing? frame = some home ∧ R.Home s K home

structure SoundMethod (R : Course) (s : Store) (method : Closure) : Prop where
  formed : method.declaration.WellFormed
  place : ∃ K path, R.Home s K method.captured ∧
    method.declaration.occurrences .method (.classBody K :: path) ⊆ occurrences R.program

structure SoundFunction (R : Course) (s : Store) (closure : Closure) : Prop where
  formed : closure.declaration.WellFormed
  place : ∃ layer path, (layer = Layer.function ∨ layer = Layer.method) ∧
    R.Linked s path closure.captured ∧
    closure.declaration.occurrences layer path ⊆ occurrences R.program

def SoundClass (R : Course) (s : Store) (c : Class) : Prop :=
  ∀ name method, c.findMethod? name = some method → R.SoundMethod s method

def SoundValue (R : Course) (s : Store) : Value → Prop
  | .function _ closure => R.SoundFunction s closure
  | .ofClass c => R.SoundClass s c
  | .ofInstance i => R.SoundClass s i.type
  | _ => True

structure SoundStore (R : Course) (s : Store) : Prop where
  frames : ∀ frame name v, s.read? frame name = some v → R.SoundValue s v
  fields : ∀ i name v, s.field? i name = some v → R.SoundValue s v

variable {R : Course} {s s' : Store} {frame home outer : FrameId} {path : Path}

theorem Linked.older (linked : R.Linked s path frame) : frame < s.frames.size := by
  induction path with
  | nil => exact linked
  | cons layer rest ih =>
      cases layer with
      | initializer name | heading name => exact ih linked
      | block before | function declaration before | method declaration before =>
          obtain ⟨around, link, -⟩ := linked
          exact Store.older_of_enclosing link
      | classBody K =>
          obtain ⟨i, home, -, link, -⟩ := linked
          exact Store.older_of_enclosing link

theorem Home.mono {K : ClassDecl} (kept : Kept s s') (here : R.Home s K home) : R.Home s' K home where
  older := Nat.lt_of_lt_of_le here.older kept.size
  origin derived := by
    obtain ⟨parent, origin, bound⟩ := here.origin derived
    exact ⟨parent, origin, (kept.super home here.older).trans bound⟩

theorem Linked.mono (kept : Kept s s') (linked : R.Linked s path frame) : R.Linked s' path frame := by
  induction path generalizing frame with
  | nil => exact Nat.lt_of_lt_of_le linked kept.size
  | cons layer rest ih =>
      cases layer with
      | initializer name | heading name => exact ih linked
      | block before | function declaration before | method declaration before =>
          obtain ⟨around, link, outward⟩ := linked
          exact ⟨around, (kept.links frame (Store.older_of_enclosing link)).trans link, ih outward⟩
      | classBody K =>
          obtain ⟨i, home, bound, link, here⟩ := linked
          have older := Store.older_of_enclosing link
          exact ⟨i, home, (kept.this frame older).trans bound, (kept.links frame older).trans link,
            Home.mono kept here⟩

theorem SoundMethod.mono {method : Closure} (kept : Kept s s') (sound : R.SoundMethod s method) :
    R.SoundMethod s' method := by
  obtain ⟨formed, K, path, here, listed⟩ := sound
  exact ⟨formed, K, path, Home.mono kept here, listed⟩

theorem SoundValue.mono {v : Value} (kept : Kept s s') (sound : R.SoundValue s v) :
    R.SoundValue s' v := by
  cases v with
  | function identity closure =>
      obtain ⟨formed, layer, path, kind, linked, listed⟩ := sound
      exact ⟨formed, layer, path, kind, Linked.mono kept linked, listed⟩
  | ofClass c => exact fun name method found => SoundMethod.mono kept (sound name method found)
  | ofInstance i => exact fun name method found => SoundMethod.mono kept (sound name method found)
  | _ => trivial

namespace SoundStore

variable (sound : R.SoundStore s)
include sound

theorem after (kept : Kept s s')
    (frames : ∀ f x v, s'.read? f x = some v → s.read? f x = some v ∨ R.SoundValue s' v)
    (fields : ∀ i x v, s'.field? i x = some v → s.field? i x = some v ∨ R.SoundValue s' v) :
    R.SoundStore s' where
  frames f x v bound := by
    rcases frames f x v bound with old | new
    · exact SoundValue.mono kept (sound.frames f x v old)
    · exact new
  fields i x v bound := by
    rcases fields i x v bound with old | new
    · exact SoundValue.mono kept (sound.fields i x v old)
    · exact new

theorem define {name : String} {v : Value} (isName : IsName name) (value : R.SoundValue s v) :
    R.SoundStore (s.define frame name v) := by
  refine sound.after (define_kept isName) (fun f x v' bound => ?_) fun i x v' bound => .inl bound
  rcases Store.read?_define_inv bound with old | rfl
  · exact .inl old
  · exact .inr (SoundValue.mono (define_kept isName) value)

theorem newFrame (outer : FrameId) : R.SoundStore (s.newFrame (some outer)).2 := by
  refine sound.after (newFrame_kept outer) (fun f x v bound => ?_) fun i x v bound => .inl bound
  rw [Store.read?_newFrame] at bound
  exact .inl bound

theorem frameWith {v : Value} (outer : FrameId) (name : String) (value : R.SoundValue s v) :
    R.SoundStore (frameWith outer name v s) := by
  refine sound.after (frameWith_kept name v) (fun f x v' bound => ?_) fun i x v' bound => .inl bound
  rcases Store.read?_define_inv bound with old | rfl
  · rw [Store.read?_newFrame] at old
    exact .inl old
  · exact .inr (SoundValue.mono (frameWith_kept name v') value)

theorem newIdentity : R.SoundStore s.newIdentity.2 :=
  sound.after beside_kept (fun _ _ _ => .inl) fun _ _ _ => .inl

theorem newInstance (type : Class) : R.SoundStore (s.newInstance type).2 := by
  refine sound.after beside_kept (fun _ _ _ => .inl) fun i x v bound => ?_
  rw [Store.field?_newInstance] at bound
  exact .inl bound

theorem setField {name : String} {v : Value} (i : Instance) (value : R.SoundValue s v) :
    R.SoundStore (s.setField i name v) := by
  refine sound.after beside_kept (fun _ _ _ => .inl) fun i' x v' bound => ?_
  rcases Store.field?_setField_inv bound with old | rfl
  · exact .inl old
  · exact .inr (SoundValue.mono beside_kept value)

end SoundStore

end Course

end Dispatch

end Lox
