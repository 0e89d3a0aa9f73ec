import Mathlib
import Lox.Proofs.Passage
import Lox.Proofs.Store

/-!
# The running frame comes back

Blocks and calls run in frames of their own. However they end, the frame that was running before is
running again, and no frame has got another link (`current_frame_restored`). Nothing is assumed of
the machine, and its distances need not belong to what it runs.
-/

namespace Lox

structure Restores (m after : Machine) : Prop where
  current : after.current = m.current
  links : ∀ (frame : FrameId) (content : Frame), m.store.frames[frame]? = some content →
    ∃ content', after.store.frames[frame]? = some content' ∧ content'.enclosing = content.enclosing

namespace Restores

theorem refl (m : Machine) : Restores m m := ⟨rfl, fun _ content here => ⟨content, here, rfl⟩⟩

theorem trans {m₁ m₂ m₃ : Machine} (first : Restores m₁ m₂) (second : Restores m₂ m₃) : Restores m₁ m₃ := by
  refine ⟨second.current.trans first.current, fun frame content here => ?_⟩
  obtain ⟨content', here', same⟩ := first.links frame content here
  obtain ⟨content'', here'', same'⟩ := second.links frame content' here'
  exact ⟨content'', here'', same'.trans same⟩

theorem of_frames {m after : Machine} (current : after.current = m.current)
    (frames : after.store.frames = m.store.frames) : Restores m after :=
  ⟨current, fun _ content here => ⟨content, by rw [frames, here], rfl⟩⟩

theorem newFrame (enclosing : FrameId) (m : Machine) :
    Restores m (leaves (Run.newFrame enclosing) m) := by
  refine ⟨rfl, fun frame content here => ⟨content, ?_, rfl⟩⟩
  have older : frame < m.store.frames.size := (Array.getElem?_eq_some_iff.mp here).1
  change (m.store.frames.push _)[frame]? = some content
  rw [Array.getElem?_push, if_neg (Nat.ne_of_lt older), here]

theorem define (frame : FrameId) (name : String) (value : Value) (m : Machine) :
    Restores m (leaves (Run.define frame name value) m) := by
  refine ⟨rfl, fun other content here => ?_⟩
  change ∃ content', (m.store.define frame name value).frames[other]? = some content' ∧ _
  rw [Store.getElem?_define, here]
  split
  · exact ⟨_, rfl, rfl⟩
  · exact ⟨content, rfl, rfl⟩

theorem emit (text : String) (m : Machine) : Restores m (leaves (Run.emit text) m) := by
  rw [leaves_emit]
  exact of_frames rfl rfl

theorem passage : Passage Restores where
  refl := refl
  trans := trans
  newFrame := newFrame
  define := define
  newIdentity _ := of_frames rfl rfl
  newInstance _ _ := of_frames rfl rfl
  setField _ _ _ _ := of_frames rfl rfl
  emit := emit
  within inner := ⟨rfl, inner.links⟩

end Restores

/-! ## Runs one after the other -/

theorem leaves_interpret (fuel : Nat) (program : List Stmt) (distances : Distances) (m : Machine) :
    leaves (interpret fuel program distances) m =
      leaves (executeAll (execute fuel) program) { m with distances } := by
  unfold leaves interpret
  cases executeAll (execute fuel) program { m with distances } with
  | ok flow after =>
      cases flow <;> simp only [finish] <;> cases after.sink.flush <;> rfl
  | error stop after =>
      cases stop <;> simp only [finish] <;> cases after.sink.flush <;> rfl

theorem interpret_restores (fuel : Nat) (program : List Stmt) (distances : Distances) (m : Machine) :
    Restores m (leaves (interpret fuel program distances) m) := by
  have runs := Restores.passage.program fuel program { m with distances }
  rw [leaves_interpret]
  exact ⟨runs.current, runs.links⟩

/--
Runs programs on one machine, each with its own fuel. A run that fails does not keep the next one from
starting.
-/
def interpretEach (runs : List (Nat × List Stmt × Distances)) (m : Machine) : Machine :=
  runs.foldl (fun m (fuel, program, distances) => leaves (interpret fuel program distances) m) m

theorem interpretEach_restores (runs : List (Nat × List Stmt × Distances)) (m : Machine) :
    Restores m (interpretEach runs m) := by
  induction runs generalizing m with
  | nil => exact .refl m
  | cons first rest ih =>
      obtain ⟨fuel, program, distances⟩ := first
      exact (interpret_restores fuel program distances m).trans (ih _)

/--
However an execution, an evaluation, a block, a call or a declaration of a class ends, the frame that
is running is the one from before, and old frames have their old links. Between programs the globals
are running.
-/
theorem current_frame_restored (fuel : Nat) (m : Machine) :
    (∀ e, Restores m (leaves (evaluate fuel e) m)) ∧
    (∀ a, Restores m (leaves (execute fuel a) m)) ∧
    (∀ body, Restores m (leaves (executeAll (execute fuel) body) m)) ∧
    (∀ enclosing body, Restores m (leaves (executeBlock (execute fuel) enclosing body) m)) ∧
    (∀ callee paren arguments, Restores m (leaves (callChecked (execute fuel) callee paren arguments) m)) ∧
    (∀ name superclass methods, Restores m (leaves (declareClass name superclass methods) m)) ∧
    (∀ runs, Restores m (interpretEach runs m)) ∧
    ∀ runs sink clock, (interpretEach runs (.initial sink clock)).current = Store.globals := by
  have passage := Restores.passage
  have executes := passage.execute fuel
  exact ⟨fun e => passage.evaluate fuel e m, fun a => executes a m,
    fun body => passage.executeAll executes body m,
    fun enclosing body => passage.executeBlock executes enclosing body m,
    fun callee paren arguments => passage.callChecked executes callee paren arguments m,
    fun name superclass methods => passage.declareClass name superclass methods m,
    fun runs => interpretEach_restores runs m,
    fun runs sink clock => (interpretEach_restores runs (.initial sink clock)).current⟩

end Lox
