import Lox.Store

/-!
# Observations of the store

What each operation on the store does to what can be observed of it: the values of frames (`read?`),
their links (`enclosing?`), the fields of instances, and the values held by frames and fields (`Holds`). Links
never change, and no operation unbinds a name.
-/

namespace Lox.Store

variable {s : Store} {frame other outer : FrameId} {name key : String} {value : Value}

/-! ## Definitions -/

@[simp] theorem size_define : (s.define frame name value).frames.size = s.frames.size :=
  Array.size_modify

theorem read?_of_le (outside : s.frames.size ≤ frame) : s.read? frame name = none := by
  rw [read?, Array.getElem?_eq_none outside]

theorem older_of_read (bound : s.read? frame name = some value) : frame < s.frames.size := by
  refine Nat.lt_of_not_le fun outside => ?_
  rw [read?_of_le outside] at bound
  cases bound

theorem getElem?_define : (s.define frame name value).frames[other]? =
    if frame = other then
      s.frames[other]?.map fun content => { content with bindings := content.bindings.insert name value }
    else s.frames[other]? :=
  Array.getElem?_modify

theorem read?_define_self (inside : frame < s.frames.size) :
    (s.define frame name value).read? frame name = some value := by
  rw [read?, getElem?_define, if_pos rfl, Array.getElem?_eq_getElem inside]
  exact Bindings.find?_insert_self _ _ _

theorem read?_define_of_ne (different : ¬(other = frame ∧ key = name)) :
    (s.define frame name value).read? other key = s.read? other key := by
  rw [read?, getElem?_define, read?]
  by_cases same : frame = other
  · subst same
    rw [if_pos rfl]
    cases s.frames[frame]? with
    | none => rfl
    | some content => exact Bindings.find?_insert_of_ne _ _ fun equal => different ⟨rfl, equal⟩
  · rw [if_neg same]

theorem read?_define_inv {value' : Value}
    (bound : (s.define frame name value).read? other key = some value') :
    s.read? other key = some value' ∨ value' = value := by
  by_cases same : other = frame ∧ key = name
  · obtain ⟨rfl, rfl⟩ := same
    by_cases inside : other < s.frames.size
    · rw [read?_define_self inside] at bound
      exact .inr (Option.some.inj bound).symm
    · rw [read?_of_le (by simpa using inside)] at bound
      cases bound
  · rw [read?_define_of_ne same] at bound
    exact .inl bound

theorem isSome_read?_define (bound : (s.read? other key).isSome) :
    ((s.define frame name value).read? other key).isSome := by
  by_cases same : other = frame ∧ key = name
  · obtain ⟨rfl, rfl⟩ := same
    by_cases inside : other < s.frames.size
    · rw [read?_define_self inside]
      rfl
    · rw [read?_of_le (Nat.le_of_not_lt inside)] at bound
      cases bound
  · rwa [read?_define_of_ne same]

@[simp] theorem enclosing?_define :
    (s.define frame name value).enclosing? other = s.enclosing? other := by
  rw [enclosing?, getElem?_define, enclosing?]
  by_cases same : frame = other
  · rw [if_pos same]
    cases s.frames[other]? with
    | none => rfl
    | some content =>
        obtain ⟨bindings, enclosing⟩ := content
        cases enclosing <;> rfl
  · rw [if_neg same]

/-! ## New frames -/

theorem read?_newFrame (enclosing : Option FrameId) :
    (s.newFrame enclosing).2.read? other key = s.read? other key := by
  simp only [read?, newFrame, Array.getElem?_push]
  by_cases same : other = s.frames.size
  · rw [if_pos same, same, Array.getElem?_eq_none Nat.le.refl]
    rfl
  · rw [if_neg same]

theorem enclosing?_newFrame (enclosing : Option FrameId) (older : other < s.frames.size) :
    (s.newFrame enclosing).2.enclosing? other = s.enclosing? other := by
  simp only [enclosing?, newFrame, Array.getElem?_push]
  rw [if_neg (Nat.ne_of_lt older)]

theorem enclosing?_newFrame_self (older : outer < s.frames.size) :
    (s.newFrame (some outer)).2.enclosing? s.frames.size = some outer := by
  simp only [enclosing?, newFrame, Array.getElem?_push, if_true]
  rw [if_pos older]

theorem enclosing?_newFrame_inv {enclosing : FrameId}
    (link : (s.newFrame (some enclosing)).2.enclosing? other = some outer) :
    s.enclosing? other = some outer ∨ outer = enclosing := by
  by_cases same : other = s.frames.size
  · right
    simp only [enclosing?, newFrame, Array.getElem?_push, if_pos same] at link
    split at link
    · exact (Option.some.inj link).symm
    · cases link
  · left
    simpa only [enclosing?, newFrame, Array.getElem?_push, if_neg same] using link

theorem read?_initial : initial.read? frame name =
    if frame = globals ∧ name = Native.clock.name then some (.native .clock) else none := by
  split
  · rename_i same
    rw [initial, same.1, same.2]
    exact read?_define_self (by decide)
  · rename_i different
    rw [initial, read?_define_of_ne different, read?_newFrame, read?_of_le (Nat.zero_le _)]

/-! ## Fields -/

theorem field?_newInstance {type : Class} {i : Instance} :
    (s.newInstance type).2.field? i name = s.field? i name := by
  simp only [field?, newInstance, Array.getElem?_push]
  by_cases same : i.id = s.fields.size
  · rw [if_pos same, same, Array.getElem?_eq_none Nat.le.refl]
    rfl
  · rw [if_neg same]

theorem field?_setField_inv {i i' : Instance} {value' : Value}
    (bound : (s.setField i name value).field? i' key = some value') :
    s.field? i' key = some value' ∨ value' = value := by
  simp only [field?, setField, Array.getElem?_modify] at bound ⊢
  by_cases same : i.id = i'.id
  · rw [if_pos same] at bound
    cases here : s.fields[i'.id]? with
    | none =>
        rw [here] at bound
        cases bound
    | some fields =>
        simp only [here, Option.map_some] at bound
        by_cases again : key = name
        · rw [again, Bindings.find?_insert_self] at bound
          exact .inr (Option.some.inj bound).symm
        · rw [Bindings.find?_insert_of_ne _ _ again] at bound
          exact .inl bound
  · rw [if_neg same] at bound
    exact .inl bound

/-! ## Links -/

theorem enclosing?_globals : s.enclosing? globals = none := by
  cases link : s.enclosing? globals with
  | none => rfl
  | some outer => exact (Nat.not_lt_zero outer (enclosing?_lt link)).elim

theorem older_of_enclosing (link : s.enclosing? frame = some outer) : frame < s.frames.size := by
  refine Nat.lt_of_not_le fun outside => ?_
  rw [enclosing?, Array.getElem?_eq_none outside] at link
  cases link

theorem binder?_of_bound (bound : (s.read? frame name).isSome) : s.binder? name frame = some frame := by
  rw [binder?, if_pos bound]

theorem binder?_of_unbound (unbound : s.read? frame name = none) (link : s.enclosing? frame = some outer) :
    s.binder? name frame = s.binder? name outer := by
  rw [binder?, unbound]
  simp only [Option.isSome_none, Bool.false_eq_true, if_false]
  split
  · rename_i found
    rw [link] at found
    cases found
    rfl
  · rename_i missing
    rw [link] at missing
    cases missing

theorem binder?_of_outermost (unbound : s.read? frame name = none) (outermost : s.enclosing? frame = none) :
    s.binder? name frame = none := by
  rw [binder?, unbound]
  simp only [Option.isSome_none, Bool.false_eq_true, if_false]
  split
  · rename_i found
    rw [outermost] at found
    cases found
  · rfl

theorem binder?_globals :
    s.binder? name globals = if (s.read? globals name).isSome then some globals else none := by
  rw [binder?]
  split
  · rfl
  · split
    · rename_i outer link
      rw [enclosing?_globals] at link
      cases link
    · rfl

theorem get?_globals : s.get? globals name = s.read? globals name := by
  rw [get?, binder?_globals]
  cases bound : s.read? globals name with
  | none => rfl
  | some value => exact bound

theorem ancestor?_succ (link : s.enclosing? frame = some outer) (links : Nat) :
    s.ancestor? frame (links + 1) = s.ancestor? outer links := by
  rw [ancestor?, link]

theorem ancestor?_outward {inner : FrameId} {links : Nat}
    (reached : s.ancestor? frame links = some inner) (link : s.enclosing? inner = some outer) :
    s.ancestor? frame (links + 1) = some outer := by
  induction links generalizing frame with
  | zero =>
      cases reached
      rw [ancestor?_succ link]
      rfl
  | succ links ih =>
      rw [ancestor?] at reached ⊢
      split at reached
      · exact ih reached
      · cases reached

theorem read?_of_getAt? {links : Nat} (found : s.getAt? frame links name = some value) :
    ∃ holder, s.ancestor? frame links = some holder ∧ s.read? holder name = some value := by
  unfold getAt? at found
  split at found
  · exact ⟨_, by assumption, found⟩
  · cases found

theorem read?_of_get? (found : s.get? frame name = some value) :
    ∃ holder, s.read? holder name = some value := by
  unfold get? at found
  split at found
  · exact ⟨_, found⟩
  · cases found

theorem getAt?_of_ancestor {inner : FrameId} {links : Nat}
    (reached : s.ancestor? frame links = some inner) :
    s.getAt? frame links name = s.read? inner name := by
  rw [getAt?, reached]

/-! ## The values of a store -/

/-- The value is that of a variable or of a field. -/
def Holds (s : Store) (v : Value) : Prop :=
  (∃ frame name, s.read? frame name = some v) ∨ ∃ i name, s.field? i name = some v

variable {v w : Value}

theorem Holds.of_define (held : (s.define frame name v).Holds w) : s.Holds w ∨ w = v := by
  rcases held with ⟨f, x, bound⟩ | field
  · rcases read?_define_inv bound with old | same
    · exact .inl (.inl ⟨f, x, old⟩)
    · exact .inr same
  · exact .inl (.inr field)

theorem Holds.of_newFrame (held : (s.newFrame (some outer)).2.Holds w) : s.Holds w := by
  rcases held with ⟨f, x, bound⟩ | field
  · rw [read?_newFrame] at bound
    exact .inl ⟨f, x, bound⟩
  · exact .inr field

theorem Holds.of_newInstance {type : Class} (held : (s.newInstance type).2.Holds w) : s.Holds w := by
  rcases held with bound | ⟨i, x, field⟩
  · exact .inl bound
  · rw [field?_newInstance] at field
    exact .inr ⟨i, x, field⟩

theorem Holds.of_setField {i : Instance} (held : (s.setField i name v).Holds w) : s.Holds w ∨ w = v := by
  rcases held with bound | ⟨j, x, field⟩
  · exact .inl (.inl bound)
  · rcases field?_setField_inv field with old | same
    · exact .inl (.inr ⟨j, x, old⟩)
    · exact .inr same

theorem Holds.of_getAt? {links : Nat} (found : s.getAt? frame links name = some v) : s.Holds v := by
  obtain ⟨holder, -, found⟩ := read?_of_getAt? found
  exact .inl ⟨holder, name, found⟩

theorem Holds.of_get? (found : s.get? frame name = some v) : s.Holds v := by
  obtain ⟨holder, found⟩ := read?_of_get? found
  exact .inl ⟨holder, name, found⟩

end Lox.Store
