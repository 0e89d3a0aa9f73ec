import Mathlib
import Lox.Proofs.Passage

/-!
# Runs and their sink

What was written to a sink stays written (`extends_passage`), and no run changes how much a sink takes
and whether flushing it fails (`sameKind_passage`).
-/

namespace Lox

def Extends (m after : Machine) : Prop := ∃ more, after.sink.held = m.sink.held ++ more

theorem extends_refl (m : Machine) : Extends m m := ⟨.empty, by simp⟩

theorem Extends.trans {m₁ m₂ m₃ : Machine} (first : Extends m₁ m₂) (second : Extends m₂ m₃) :
    Extends m₁ m₃ := by
  obtain ⟨more, same⟩ := first
  obtain ⟨more', same'⟩ := second
  exact ⟨more ++ more', by rw [same', same, ByteArray.append_assoc]⟩

theorem extends_passage : Passage Extends where
  refl := extends_refl
  trans := Extends.trans
  newFrame _ := extends_refl
  define _ _ _ := extends_refl
  newIdentity := extends_refl
  newInstance _ := extends_refl
  setField _ _ _ := extends_refl
  emit text m := by
    rw [leaves_emit]
    exact ⟨m.sink.fitting text.toUTF8, rfl⟩
  within := id

structure SameKind (m after : Machine) : Prop where
  limit : after.sink.limit = m.sink.limit
  flush : after.sink.flush = m.sink.flush

theorem sameKind_passage : Passage SameKind where
  refl _ := ⟨rfl, rfl⟩
  trans first second := ⟨second.limit.trans first.limit, second.flush.trans first.flush⟩
  newFrame _ _ := ⟨rfl, rfl⟩
  define _ _ _ _ := ⟨rfl, rfl⟩
  newIdentity _ := ⟨rfl, rfl⟩
  newInstance _ _ := ⟨rfl, rfl⟩
  setField _ _ _ _ := ⟨rfl, rfl⟩
  emit text m := by
    rw [leaves_emit]
    exact ⟨rfl, rfl⟩
  within same := ⟨same.limit, same.flush⟩

end Lox
