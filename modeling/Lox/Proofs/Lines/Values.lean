import Lox.Machine
import Lox.Proofs.Lines.Trees

/-!
# Values and stores without lines

Functions and classes carry the trees of their declarations, and through them values and stores have
lines. Nothing that is asked of a value or of a store depends on these.
-/

namespace Lox

variable {κ : Type}

/-! ## Values -/

instance : Lined (ClosureOver κ) := ⟨fun closure => { closure with declaration := unlined closure.declaration }⟩

def Bindings.unlined {ι α : Type} [Lined α] (b : Bindings ι α) : Bindings ι α :=
  ⟨b.entries.map fun (key, value) => (key, Lined.unlined value)⟩

def ClassOver.unlined : ClassOver κ → ClassOver κ
  | ⟨identity, name, none, methods⟩ => ⟨identity, name, none, methods.unlined⟩
  | ⟨identity, name, some parent, methods⟩ => ⟨identity, name, some parent.unlined, methods.unlined⟩

instance : Lined (ClassOver κ) := ⟨ClassOver.unlined⟩

instance : Lined (InstanceOver κ) := ⟨fun i => { i with type := unlined i.type }⟩

instance : Lined (ValueOver κ) where
  unlined
    | .function identity closure => .function identity (unlined closure)
    | .ofClass c => .ofClass (unlined c)
    | .ofInstance i => .ofInstance (unlined i)
    | value => value

namespace Bindings

variable {ι α : Type} [DecidableEq ι] [Lined α]

theorem find?_unlined (b : Bindings ι α) (key : ι) : b.unlined.find? key = Lined.unlined (b.find? key) := by
  obtain ⟨entries⟩ := b
  induction entries with
  | nil => rfl
  | cons entry rest ih =>
      obtain ⟨k, value⟩ := entry
      show (if k = key then some (Lined.unlined value) else (Bindings.unlined ⟨rest⟩).find? key) =
        Lined.unlined (if k = key then some value else find? ⟨rest⟩ key)
      rw [ih, apply_ite Lined.unlined]
      rfl

theorem insert_unlined (b : Bindings ι α) (key : ι) (value : α) :
    b.unlined.insert key (Lined.unlined value) = (b.insert key value).unlined := by
  obtain ⟨entries⟩ := b
  induction entries with
  | nil => rfl
  | cons entry rest ih =>
      obtain ⟨k, old⟩ := entry
      have tail := congrArg Bindings.entries ih
      by_cases same : k = key
      · simp [Bindings.unlined, insert, insertIn, same]
      · simp only [Bindings.unlined, insert, insertIn, List.map_cons, if_neg same] at tail ⊢
        rw [tail]

end Bindings

theorem findMethod?_unlined (name : String) :
    ∀ c : ClassOver κ, (unlined c).findMethod? name = unlined (c.findMethod? name)
  | ⟨identity, own, none, methods⟩ => by
      have here := methods.find?_unlined name
      change ClassOver.findMethod? name ⟨identity, own, none, methods.unlined⟩ = _
      rw [ClassOver.findMethod?, here, ClassOver.findMethod?]
      cases methods.find? name with
      | none | some => rfl
  | ⟨identity, own, some parent, methods⟩ => by
      have here := methods.find?_unlined name
      have above := findMethod?_unlined name parent
      change ClassOver.findMethod? name ⟨identity, own, some (unlined parent), methods.unlined⟩ = _
      rw [ClassOver.findMethod?, here, above, ClassOver.findMethod?]
      cases methods.find? name with
      | none | some => rfl

theorem arity_unlined (closure : ClosureOver κ) : (unlined closure).arity = closure.arity := by
  obtain ⟨⟨name, params, body⟩, captured, isInitializer⟩ := closure
  exact List.length_map _

theorem classArity_unlined (c : ClassOver κ) : (unlined c).arity = c.arity := by
  rw [ClassOver.arity, ClassOver.arity, ClassOver.initializer?, ClassOver.initializer?, findMethod?_unlined]
  cases c.findMethod? initializerName with
  | none => rfl
  | some method => exact arity_unlined method

theorem className_unlined (c : ClassOver κ) : (unlined c).name = c.name := by
  obtain ⟨identity, name, superclass, methods⟩ := c
  cases superclass with
  | none | some => rfl

theorem classIdentity_unlined (c : ClassOver κ) : (unlined c).identity = c.identity := by
  obtain ⟨identity, name, superclass, methods⟩ := c
  cases superclass with
  | none | some => rfl

section Values

variable (value other : ValueOver κ)

theorem isTruthy_unlined : (unlined value).isTruthy = value.isTruthy := by
  cases value with
  | boolean b => cases b <;> rfl
  | _ => rfl

theorem arity?_unlined : (unlined value).arity? = value.arity? := by
  cases value with
  | function identity closure => exact congrArg some (arity_unlined closure)
  | ofClass c => exact congrArg some (classArity_unlined c)
  | _ => rfl

theorem text_unlined : (unlined value).text = value.text := by
  cases value with
  | function identity closure =>
      obtain ⟨⟨name, params, body⟩, captured, isInitializer⟩ := closure
      rfl
  | ofClass c => exact className_unlined c
  | ofInstance i => exact congrArg (· ++ " instance") (className_unlined i.type)
  | boolean b => cases b <;> rfl
  | _ => rfl

theorem equals_unlined : (unlined value).equals (unlined other) = value.equals other := by
  cases value <;> cases other <;> try rfl
  rename_i c c'
  show decide ((unlined c).identity = (unlined c').identity) = _
  rw [classIdentity_unlined, classIdentity_unlined]
  rfl

end Values

/-! ## Stores -/

instance : Lined Frame := ⟨fun frame => { frame with bindings := frame.bindings.unlined }⟩

instance : Lined (Bindings String Value) := ⟨Bindings.unlined⟩

instance : Lined Store := ⟨fun s => { s with frames := unlined s.frames, fields := unlined s.fields }⟩

namespace Store

variable (s : Store)

theorem getElem?_unlined (frame : FrameId) : (unlined s).frames[frame]? = unlined s.frames[frame]? :=
  Array.getElem?_map

theorem read?_unlined (frame : FrameId) (name : String) :
    (unlined s).read? frame name = unlined (s.read? frame name) := by
  rw [read?, read?, getElem?_unlined]
  cases s.frames[frame]? with
  | none => rfl
  | some content => exact content.bindings.find?_unlined name

theorem enclosing?_unlined (frame : FrameId) : (unlined s).enclosing? frame = s.enclosing? frame := by
  rw [enclosing?, enclosing?, getElem?_unlined]
  cases s.frames[frame]? with
  | none => rfl
  | some content =>
      obtain ⟨bindings, enclosing⟩ := content
      cases enclosing with
      | none | some => rfl

theorem newFrame_unlined (enclosing : Option FrameId) :
    (unlined s).newFrame enclosing = unlined (s.newFrame enclosing) := by
  have size : (unlined s.frames).size = s.frames.size := Array.size_map
  have pushed := push_unlined s.frames ⟨.empty, enclosing⟩
  show ((unlined s.frames).size, { unlined s with frames := (unlined s.frames).push (unlined ⟨.empty, enclosing⟩) }) = _
  rw [size, pushed]
  rfl

theorem define_unlined (frame : FrameId) (name : String) (value : Value) :
    (unlined s).define frame name (unlined value) = unlined (s.define frame name value) := by
  have frames : (unlined s.frames).modify frame (fun content =>
        { content with bindings := content.bindings.insert name (unlined value) }) =
      unlined (s.frames.modify frame fun content =>
        { content with bindings := content.bindings.insert name value }) := by
    apply modify_unlined
    intro content
    exact congrArg (Frame.mk · content.enclosing) (content.bindings.insert_unlined name value)
  exact congrArg (Store.mk · _ s.identities) frames

theorem newInstance_unlined (type : Class) :
    (unlined s).newInstance (unlined type) = unlined (s.newInstance type) := by
  have size : (unlined s.fields).size = s.fields.size := Array.size_map
  have pushed := push_unlined s.fields .empty
  show (InstanceOver.mk (unlined s.fields).size (unlined type),
    { unlined s with fields := (unlined s.fields).push (unlined .empty) }) = _
  rw [size, pushed]
  rfl

theorem field?_unlined (i : Instance) (name : String) :
    (unlined s).field? (unlined i) name = unlined (s.field? i name) := by
  have here : (unlined s).fields[(unlined i).id]? = unlined s.fields[i.id]? := Array.getElem?_map
  rw [field?, field?, here]
  cases s.fields[i.id]? with
  | none => rfl
  | some fields => exact fields.find?_unlined name

theorem setField_unlined (i : Instance) (name : String) (value : Value) :
    (unlined s).setField (unlined i) name (unlined value) = unlined (s.setField i name value) := by
  have fields : (unlined s.fields).modify i.id (fun fields => fields.insert name (unlined value)) =
      unlined (s.fields.modify i.id fun fields => fields.insert name value) := by
    apply modify_unlined
    intro fields
    exact fields.insert_unlined name value
  exact congrArg (Store.mk _ · s.identities) fields

theorem binder?_unlined (name : String) (frame : FrameId) :
    (unlined s).binder? name frame = s.binder? name frame := by
  induction frame using Nat.strongRecOn with
  | ind frame ih =>
      rw [binder?, binder?, read?_unlined, isSome_unlined]
      apply ite_congr rfl (fun _ => rfl)
      intro _
      split
      · rename_i outer link
        rw [enclosing?_unlined] at link
        split
        · rename_i outer' link'
          rw [link] at link'
          cases link'
          exact ih outer (enclosing?_lt link)
        · rename_i missing
          rw [link] at missing
          cases missing
      · rename_i missing
        rw [enclosing?_unlined] at missing
        split
        · rename_i outer link
          rw [missing] at link
          cases link
        · rfl

theorem get?_unlined (frame : FrameId) (name : String) :
    (unlined s).get? frame name = unlined (s.get? frame name) := by
  rw [get?, get?, binder?_unlined]
  cases s.binder? name frame with
  | none => rfl
  | some binder => exact s.read?_unlined binder name

theorem ancestor?_unlined (frame : FrameId) (links : Nat) :
    (unlined s).ancestor? frame links = s.ancestor? frame links := by
  induction links generalizing frame with
  | zero => rfl
  | succ links ih =>
      rw [ancestor?, ancestor?, enclosing?_unlined]
      cases s.enclosing? frame with
      | none => rfl
      | some outer => exact ih outer

theorem getAt?_unlined (frame : FrameId) (links : Nat) (name : String) :
    (unlined s).getAt? frame links name = unlined (s.getAt? frame links name) := by
  rw [getAt?, getAt?, ancestor?_unlined]
  cases s.ancestor? frame links with
  | none => rfl
  | some ancestor => exact s.read?_unlined ancestor name

theorem initial_unlined : unlined initial = initial := by
  have start : unlined empty = empty := by
    show Store.mk (Array.map unlined #[]) (Array.map unlined #[]) 0 = _
    rw [Array.map_empty, Array.map_empty]
    rfl
  have framed : unlined (empty.newFrame none).2 = (empty.newFrame none).2 := by
    have frame := congrArg Prod.snd (newFrame_unlined empty none)
    rw [start] at frame
    exact frame.symm
  have bound := define_unlined (empty.newFrame none).2 globals Native.clock.name (.native .clock)
  rw [framed] at bound
  exact bound.symm

end Store

end Lox
