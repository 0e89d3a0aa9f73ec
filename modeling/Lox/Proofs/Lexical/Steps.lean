import Lox.Proofs.Lexical.World

/-!
# Steps of machines that agree

Machines that agree still do so after the same basic step of both: a definition, a declaration, a
new frame, a new identity or instance, a change of a field. Each step makes the world grow.
-/

namespace Lox.Simulation
open Scoping

namespace World

def define (frame : FrameId) (x : String) (v : Value) (W : World) : World :=
  { W with store := W.store.define frame x v }

def locate (frame : FrameId) (x : String) (l : Lexical.Location) (W : World) : World :=
  { W with location := fun f y => if f = frame ∧ y = x then some l else W.location f y }

def enter (outer : FrameId) (final : Scope) (W : World) : World where
  store := (W.store.newFrame (some outer)).2
  location := W.location
  final f := if f = W.store.frames.size then final else W.final f

def beside (fields : Array (Bindings String Value)) (identities : Nat) (W : World) : World :=
  { W with store := { W.store with fields, identities } }

variable {W : World} {frame outer : FrameId} {x : String} {v : Value} {l : Lexical.Location}
    {final : Scope}

theorem define_grows : W.Grows none (W.define frame x v) where
  size := Nat.le_of_eq Store.size_define.symm
  links _ _ := Store.enclosing?_define
  bound _ _ := Store.isSome_read?_define
  located _ _ _ := id
  others _ _ _ := rfl
  final _ _ := rfl

theorem locate_grows (free : W.location frame x = none) :
    W.Grows (some frame) (W.locate frame x l) where
  size := Nat.le.refl
  links _ _ := rfl
  bound _ _ := id
  located f y l' located := by
    have different : ¬(f = frame ∧ y = x) := by
      rintro ⟨rfl, rfl⟩
      rw [free] at located
      cases located
    exact (if_neg different).trans located
  others f _ other := by
    funext y
    exact if_neg fun same => other (congrArg some same.1)
  final _ _ := rfl

theorem locate_self : (W.locate frame x l).location frame x = some l := if_pos ⟨rfl, rfl⟩

theorem locate_of_ne {f : FrameId} {y : String} (different : ¬(f = frame ∧ y = x)) :
    (W.locate frame x l).location f y = W.location f y :=
  if_neg different

theorem enter_grows : W.Grows none (W.enter outer final) where
  size := by simp [enter, Store.newFrame]
  links _ older := Store.enclosing?_newFrame _ older
  bound f x bound := by
    rw [enter, Store.read?_newFrame]
    exact bound
  located _ _ _ := id
  others _ _ _ := rfl
  final f older := if_neg (Nat.ne_of_lt older)

theorem beside_grows {fields : Array (Bindings String Value)} {identities : Nat} :
    W.Grows none (W.beside fields identities) :=
  ⟨Nat.le.refl, fun _ _ => rfl, fun _ _ => id, fun _ _ _ => id, fun _ _ _ => rfl, fun _ _ => rfl⟩

end World

section

variable {program : List Stmt} {distances : Distances} {W : World} {m : Machine}
    {r : Lexical.Machine}

theorem join_push {α : Type} (cells : Array (Option α)) (l : Nat) :
    (cells.push none)[l]?.join = cells[l]?.join := by
  rw [Array.getElem?_push]
  split
  · rename_i same
    rw [same, Array.getElem?_eq_none Nat.le.refl]
    rfl
  · rfl

theorem read?_define {frame f : FrameId} {x y : String} {v : Value}
    (older : frame < W.store.frames.size) :
    (W.define frame x v).store.read? f y = if f = frame ∧
    y = x then some v else W.store.read? f y := by
  split
  · rename_i same
    rw [same.1, same.2]
    exact Store.read?_define_self older
  · rename_i different
    exact Store.read?_define_of_ne different

theorem relDefine {frame : FrameId} {x : String} {v : Value} {a : Option Value}
    {b : Option Lexical.Value} :
    Option.Rel (RelatedValue program W) a b →
    Option.Rel (RelatedValue program (W.define frame x v)) a b :=
  relMono fun _ _ => .mono World.define_grows

namespace Agree

variable (agree : Agree program distances W m r)
include agree

theorem typed_define {frame f : FrameId} {x y : String} {v v' : Value}
    (older : frame < W.store.frames.size) (typed : Typed x v)
    (here : (W.define frame x v).store.read? f y = some v') : Typed y v' := by
  rw [read?_define older] at here
  split at here
  · rename_i same
    cases here
    exact same.2 ▸ typed
  · exact agree.typed f y v' here

theorem define {frame : FrameId} {x : String} {l : Lexical.Location} {v : Value} {w : Lexical.Value}
    (located : W.location frame x = some l)
    (related : RelatedValue program (W.define frame x v) v w) (typed : Typed x v) :
    Agree program distances (W.define frame x v) { m with store := m.store.define frame x v }
      { r with cells := r.cells.setIfInBounds l (some w) } := by
  obtain ⟨notGlobals, older, inCells, -⟩ := agree.inside frame x l located
  exact { agree with
    store := congrArg (·.define frame x v) agree.store
    root := Nat.lt_of_lt_of_le agree.root World.define_grows.size
    globals := fun y => by
      rw [read?_define older, if_neg fun same => notGlobals same.1.symm]
      exact relDefine (agree.globals y)
    inside := fun f y l' here => by
      obtain ⟨notGlobals, older, inCells, held⟩ := agree.inside f y l' here
      exact ⟨notGlobals, Nat.lt_of_lt_of_le older World.define_grows.size, by simpa using inCells, held⟩
    cells := fun f y l' here => by
      rw [read?_define older, Array.getElem?_setIfInBounds]
      by_cases same : f = frame ∧ y = x
      · obtain ⟨rfl, rfl⟩ := same
        have : l = l' := Option.some.inj (located.symm.trans here)
        rw [if_pos ⟨rfl, rfl⟩, if_pos this, if_pos inCells]
        exact .some related
      · rw [if_neg same, if_neg]
        · exact relDefine (agree.cells f y l' here)
        · rintro rfl
          exact same (agree.distinct f y frame x l here located)
    unlocated := fun f y notGlobals missing => by
      rw [read?_define older, if_neg]
      · exact agree.unlocated f y notGlobals missing
      · rintro ⟨rfl, rfl⟩
        exact absurd (located.symm.trans missing) nofun
    typed := fun _ _ _ => agree.typed_define older typed
    fields := fun id y => relDefine (agree.fields id y) }

theorem defineGlobal {x : String} {v : Value} {w : Lexical.Value}
    (related : RelatedValue program (W.define Store.globals x v) v w) (typed : Typed x v) :
    Agree program distances (W.define Store.globals x v)
    { m with store := m.store.define Store.globals x v }
      { r with globals := r.globals.insert x w } :=
  { agree with
    store := congrArg (·.define Store.globals x v) agree.store
    root := Nat.lt_of_lt_of_le agree.root World.define_grows.size
    globals := fun y => by
      rw [read?_define agree.root]
      by_cases same : y = x
      · rw [if_pos ⟨rfl, same⟩, same, Bindings.find?_insert_self]
        exact .some related
      · rw [if_neg fun both => same both.2, Bindings.find?_insert_of_ne _ _ same]
        exact relDefine (agree.globals y)
    inside := fun f y l here => by
      obtain ⟨notGlobals, older, rest⟩ := agree.inside f y l here
      exact ⟨notGlobals, Nat.lt_of_lt_of_le older World.define_grows.size, rest⟩
    cells := fun f y l here => by
      rw [read?_define agree.root, if_neg fun both => (agree.inside f y l here).1 both.1]
      exact relDefine (agree.cells f y l here)
    unlocated := fun f y notGlobals missing => by
      rw [read?_define agree.root, if_neg fun both => notGlobals both.1]
      exact agree.unlocated f y notGlobals missing
    typed := fun _ _ _ => agree.typed_define agree.root typed
    fields := fun id y => relDefine (agree.fields id y) }

theorem locate {frame : FrameId} {x : String} (notGlobals : frame ≠ Store.globals)
    (older : frame < W.store.frames.size) (free : W.location frame x = none)
    (held : (W.final frame).contains x = true) :
    Agree program distances
      (W.locate frame x r.cells.size) m { r with cells := r.cells.push none } := by
  have mono {a : Option Value} {b : Option Lexical.Value} : Option.Rel (RelatedValue program W) a b →
      Option.Rel (RelatedValue program (W.locate frame x r.cells.size)) a b :=
    relMono fun _ _ => .mono (World.locate_grows free)
  -- the new location is that of this name alone, all others are as before
  have old {f : FrameId} {y : String} {l : Lexical.Location}
      (here : (W.locate frame x r.cells.size).location f y = some l) :
      (f = frame ∧ y = x ∧ l = r.cells.size) ∨ W.location f y = some l := by
    by_cases same : f = frame ∧ y = x
    · obtain ⟨rfl, rfl⟩ := same
      rw [World.locate_self] at here
      exact .inl ⟨rfl, rfl, (Option.some.inj here).symm⟩
    · rw [World.locate_of_ne same] at here
      exact .inr here
  exact { agree with
    globals := fun y => mono (agree.globals y)
    inside := fun f y l here => by
      rw [Array.size_push]
      rcases old here with ⟨rfl, rfl, rfl⟩ | here
      · exact ⟨notGlobals, older, Nat.lt_succ_self _, held⟩
      · obtain ⟨notGlobals, older, inCells, held⟩ := agree.inside f y l here
        exact ⟨notGlobals, older, Nat.lt_succ_of_lt inCells, held⟩
    cells := fun f y l here => by
      change Option.Rel _ (W.store.read? f y) ((r.cells.push none)[l]?.join)
      rcases old here with ⟨rfl, rfl, rfl⟩ | here
      · rw [agree.unlocated f y notGlobals free, Array.getElem?_push_size]
        exact .none
      · rw [join_push]
        exact mono (agree.cells f y l here)
    unlocated := fun f y notGlobals missing => by
      refine agree.unlocated f y notGlobals ?_
      by_cases same : f = frame ∧ y = x
      · rw [same.1, same.2, free]
      · rwa [World.locate_of_ne same] at missing
    distinct := fun f y g z l here there => by
      rcases old here with ⟨rfl, rfl, rfl⟩ | before
      · rcases old there with ⟨rfl, rfl, -⟩ | before'
        · exact ⟨rfl, rfl⟩
        · exact absurd (agree.inside g z _ before').2.2.1 (Nat.lt_irrefl _)
      · rcases old there with ⟨-, -, rfl⟩ | before'
        · exact absurd (agree.inside f y _ before).2.2.1 (Nat.lt_irrefl _)
        · exact agree.distinct f y g z l before before'
    fields := fun id y => mono (agree.fields id y) }

theorem enter (outer : FrameId) (final : Scope) :
    Agree program distances (W.enter outer final)
    { m with store := (m.store.newFrame (some outer)).2 } r := by
  have mono {a : Option Value} {b : Option Lexical.Value} : Option.Rel (RelatedValue program W) a b →
      Option.Rel (RelatedValue program (W.enter outer final)) a b :=
    relMono fun _ _ => .mono World.enter_grows
  have read (f : FrameId) (y : String) : (W.enter outer final).store.read? f y = W.store.read? f y :=
    Store.read?_newFrame _
  exact { agree with
    store := congrArg (fun store => (store.newFrame (some outer)).2) agree.store
    root := Nat.lt_of_lt_of_le agree.root World.enter_grows.size
    globals := fun y => by
      rw [read]
      exact mono (agree.globals y)
    inside := fun f y l here => by
      obtain ⟨notGlobals, older, inCells, held⟩ := agree.inside f y l here
      refine ⟨notGlobals, Nat.lt_of_lt_of_le older World.enter_grows.size, inCells, ?_⟩
      rw [World.enter_grows.final f older]
      exact held
    cells := fun f y l here => by
      rw [read]
      exact mono (agree.cells f y l here)
    unlocated := fun f y notGlobals missing => by
      rw [read]
      exact agree.unlocated f y notGlobals missing
    typed := fun f y v here => by
      rw [read] at here
      exact agree.typed f y v here
    fields := fun id y => mono (agree.fields id y) }

theorem beside {fields : Array (Bindings String Value)}
    {fields' : Array (Bindings String Lexical.Value)} {identities : Nat}
    (count : fields'.size = fields.size)
    (related : ∀ id x, Option.Rel (RelatedValue program W) (fieldOf fields id x)
      (fieldOf fields' id x)) :
    Agree program distances (W.beside fields identities)
    { m with store := { m.store with fields, identities } }
      { r with fields := fields', identities } := by
  have mono {a : Option Value} {b : Option Lexical.Value} : Option.Rel (RelatedValue program W) a b →
      Option.Rel (RelatedValue program (W.beside fields identities)) a b :=
    relMono fun _ _ => .mono World.beside_grows
  exact { agree with
    store := congrArg (fun store : Store => { store with fields, identities }) agree.store
    identities := rfl
    globals := fun y => mono (agree.globals y)
    cells := fun f y l here => mono (agree.cells f y l here)
    fieldCount := count
    fields := fun id y => mono (related id y) }

theorem newIdentity : Agree program distances (W.beside m.store.fields (m.store.identities + 1))
    { m with store := { m.store with identities := m.store.identities + 1 } }
    { r with identities := r.identities + 1 } := by
  rw [agree.identities]
  exact agree.beside agree.fieldCount agree.fields

theorem newInstance :
    Agree program distances (W.beside (m.store.fields.push .empty) m.store.identities)
    { m with store := { m.store with fields := m.store.fields.push .empty } }
    { r with fields := r.fields.push .empty } := by
  have same : { r with fields := r.fields.push .empty } =
      { r with fields := r.fields.push .empty, identities := m.store.identities } := by
    rw [← agree.identities]
  rw [same]
  refine agree.beside (by simp [agree.fieldCount]) fun id x => ?_
  simp only [fieldOf, Array.getElem?_push, agree.fieldCount]
  by_cases last : id = m.store.fields.size
  · rw [if_pos last, if_pos last]
    exact .none
  · rw [if_neg last, if_neg last]
    exact agree.fields id x

theorem setField (id : Nat) (x : String) {v : Value} {w : Lexical.Value}
    (related : RelatedValue program W v w) :
    Agree program distances
      (W.beside (m.store.fields.modify id fun fields => fields.insert x v) m.store.identities)
      { m with store := { m.store with fields := m.store.fields.modify id fun fields => fields.insert x v } }
      { r with fields := r.fields.modify id fun fields => fields.insert x w } := by
  have same : { r with fields := r.fields.modify id fun fields => fields.insert x w } =
      { r with fields := r.fields.modify id fun fields => fields.insert x w,
               identities := m.store.identities } := by
    rw [← agree.identities]
  rw [same]
  refine agree.beside (by simp [agree.fieldCount]) fun other y => ?_
  have before := agree.fields other y
  simp only [fieldOf, Array.getElem?_modify] at before ⊢
  by_cases here : id = other
  · subst here
    rw [if_pos rfl, if_pos rfl]
    have sizes := agree.fieldCount
    by_cases inside : id < m.store.fields.size
    · rw [Array.getElem?_eq_getElem inside, Array.getElem?_eq_getElem (sizes ▸ inside)] at before ⊢
      by_cases named : y = x
      · simp only [Option.map_some, Option.bind_some, named, Bindings.find?_insert_self]
        exact .some related
      · simp only [Option.map_some, Option.bind_some, Bindings.find?_insert_of_ne _ _ named] at before ⊢
        exact before
    · rw [Array.getElem?_eq_none (Nat.le_of_not_lt inside),
        Array.getElem?_eq_none (Nat.le_of_not_lt (sizes ▸ inside))]
      exact .none
  · rw [if_neg here, if_neg here]
    exact before

theorem emitted (sink : Sink) : Agree program distances W { m with sink } { r with sink } :=
  { agree with sink := rfl }

theorem entered (current : FrameId) : Agree program distances W { m with current } r :=
  { agree with }

end Agree

end

end Lox.Simulation
