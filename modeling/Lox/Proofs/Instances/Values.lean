import Lox.Proofs.Dispatch.Lineage

/-!
# Where function values come from

A function value was made by a function declaration, or it is a method that was bound to an instance,
which is what its frame has as `this` (`Made`). Later stores bind `this` to the same instance in each
frame, so this stays true of a value once it is (`Rooted.later`).
-/

namespace Lox
open Dispatch

/-! ## Later stores -/

namespace Binding

structure Later (s s' : Store) : Prop extends Kept s s' where
  instances : s.fields.size ≤ s'.fields.size

variable {s s' s'' : Store} {frame outer : FrameId} {name : String} {v : Value}

theorem Later.refl : Later s s := ⟨.refl, Nat.le.refl⟩

theorem Later.trans (first : Later s s') (second : Later s' s'') : Later s s'' :=
  ⟨first.toKept.trans second.toKept, Nat.le_trans first.instances second.instances⟩

theorem later_define (isName : IsName name) : Later s (s.define frame name v) :=
  ⟨define_kept isName, Nat.le.refl⟩

theorem later_newFrame (outer : FrameId) : Later s (s.newFrame (some outer)).2 :=
  ⟨newFrame_kept outer, Nat.le.refl⟩

theorem later_frameWith (outer : FrameId) (name : String) (v : Value) : Later s (frameWith outer name v s) :=
  ⟨frameWith_kept name v, Nat.le.refl⟩

theorem later_newIdentity : Later s s.newIdentity.2 := ⟨beside_kept, Nat.le.refl⟩

theorem later_newInstance (type : Class) : Later s (s.newInstance type).2 where
  toKept := beside_kept
  instances := by simp [Store.newInstance]

theorem later_setField (i : Instance) (name : String) (v : Value) : Later s (s.setField i name v) where
  toKept := beside_kept
  instances := Nat.le_of_eq Array.size_modify.symm

/-! ## Values -/

variable {visited : Site → Machine → Prop} {closure : Closure}

/--
A function declaration made the function at some point of the run, or some class has it as a method and it
was bound to an instance.
-/
inductive Made (visited : Site → Machine → Prop) (s : Store) (closure : Closure) : Prop where
  | declared (m : Machine) : visited (.stmt (.funDecl closure.declaration)) m →
      m.current = closure.captured → closure.isInitializer = false → Made visited s closure
  | bound (c : Class) (name : String) (method : Closure) (i : Instance) :
      c.findMethod? name = some method → closure = { method with captured := closure.captured } →
      s.read? closure.captured "this" = some (.ofInstance i) → Made visited s closure

theorem Made.later (later : Later s s') (made : Made visited s closure) : Made visited s' closure := by
  cases made with
  | declared m declared here plain => exact .declared m declared here plain
  | bound c name method i found same this =>
      exact .bound c name method i found same ((later.this _ (Store.older_of_read this)).trans this)

theorem Made.this (made : Made visited s closure) (flagged : closure.isInitializer = true) :
    ∃ i, s.read? closure.captured "this" = some (.ofInstance i) := by
  cases made with
  | declared m declared here plain =>
      rw [plain] at flagged
      cases flagged
  | bound c name method i found same this => exact ⟨i, this⟩

def FormedClass (c : Class) : Prop :=
  ∀ name method, c.findMethod? name = some method → method.declaration.WellFormed

def Rooted (visited : Site → Machine → Prop) (s : Store) : Value → Prop
  | .function _ closure => closure.declaration.WellFormed ∧ Made visited s closure
  | .ofClass c => FormedClass c
  | .ofInstance i => i.id < s.fields.size ∧ FormedClass i.type
  | _ => True

theorem Rooted.later (later : Later s s') (rooted : Rooted visited s v) : Rooted visited s' v := by
  cases v with
  | function identity closure => exact ⟨rooted.1, rooted.2.later later⟩
  | ofClass c => exact rooted
  | ofInstance i => exact ⟨Nat.lt_of_lt_of_le rooted.1 later.instances, rooted.2⟩
  | _ => trivial

/-! ## Stores -/

def RootedStore (visited : Site → Machine → Prop) (s : Store) : Prop := ∀ v, s.Holds v → Rooted visited s v

namespace RootedStore

variable (rooted : RootedStore visited s)
include rooted

theorem later (later : Later s s') (held : ∀ w, s'.Holds w → s.Holds w ∨ Rooted visited s' w) :
    RootedStore visited s' := by
  intro w here
  rcases held w here with old | new
  · exact (rooted w old).later later
  · exact new

theorem define (isName : IsName name) (value : Rooted visited s v) :
    RootedStore visited (s.define frame name v) := by
  apply rooted.later (later_define isName)
  intro w held
  rcases held.of_define with old | rfl
  · exact .inl old
  · exact .inr (value.later (later_define isName))

theorem newFrame (outer : FrameId) : RootedStore visited (s.newFrame (some outer)).2 :=
  rooted.later (later_newFrame outer) fun _ held => .inl held.of_newFrame

theorem frameWith (outer : FrameId) (name : String) (value : Rooted visited s v) :
    RootedStore visited (frameWith outer name v s) := by
  apply rooted.later (later_frameWith outer name v)
  intro w held
  rcases Store.Holds.of_define held with old | rfl
  · exact .inl old.of_newFrame
  · exact .inr (value.later (later_frameWith outer name w))

theorem newIdentity : RootedStore visited s.newIdentity.2 :=
  rooted.later later_newIdentity fun _ => .inl

theorem newInstance (type : Class) : RootedStore visited (s.newInstance type).2 :=
  rooted.later (later_newInstance type) fun _ held => .inl held.of_newInstance

theorem setField (i : Instance) (name : String) (value : Rooted visited s v) :
    RootedStore visited (s.setField i name v) := by
  apply rooted.later (later_setField i name v)
  intro w held
  rcases held.of_setField with old | rfl
  · exact .inl old
  · exact .inr (value.later (later_setField i name w))

end RootedStore

theorem rootedStore_initial : RootedStore visited .initial := by
  rintro v (⟨frame, name, bound⟩ | ⟨i, name, field⟩)
  · rw [Store.read?_initial] at bound
    split at bound <;> cases bound
    trivial
  · cases field

end Binding

end Lox
