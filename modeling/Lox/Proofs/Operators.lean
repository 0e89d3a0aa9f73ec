import Lox.Evaluation

/-!
# What operators yield

Values that are neither functions nor classes nor instances say nothing about the store. Constants are
such values, and so is all that operators yield.
-/

namespace Lox

/-- Not a function of the program, a class or an instance. -/
def Plain : Value → Prop
  | .function .. | .ofClass _ | .ofInstance _ => False
  | _ => True

theorem plain_literal (constant : Literal) : Plain constant.value := by
  cases constant <;> trivial

variable {operator : Token} {left right v : Value}

theorem applyUnary_plain (applied : applyUnary operator right = .ok v) : Plain v := by
  unfold applyUnary at applied
  split at applied
  · split at applied <;> cases applied
    trivial
  · cases applied
    trivial
  · cases applied

theorem onNumbers_plain {operation : Float → Float → Value} (values : ∀ a b, Plain (operation a b))
    (applied : onNumbers operator left right operation = .ok v) : Plain v := by
  unfold onNumbers at applied
  split at applied <;> cases applied
  exact values _ _

theorem applyBinary_plain (applied : applyBinary operator left right = .ok v) : Plain v := by
  unfold applyBinary at applied
  split at applied
  · split at applied <;> cases applied <;> trivial
  iterate 7
    · exact onNumbers_plain (by intros; trivial) applied
  iterate 2
    · cases applied
      trivial
  · cases applied

/-! ## Errors of operators -/

variable {error : RuntimeError}

theorem applyUnary_error (failed : applyUnary operator right = .error error) :
    error.line = operator.line ∧ error.cause ≠ .initializerWithoutInstance := by
  unfold applyUnary at failed
  split at failed
  · split at failed <;> cases failed
    exact ⟨rfl, nofun⟩
  · cases failed
  · cases failed
    exact ⟨rfl, nofun⟩

theorem onNumbers_error {operation : Float → Float → Value}
    (failed : onNumbers operator left right operation = .error error) :
    error.line = operator.line ∧ error.cause ≠ .initializerWithoutInstance := by
  unfold onNumbers at failed
  split at failed <;> cases failed
  exact ⟨rfl, nofun⟩

theorem applyBinary_error (failed : applyBinary operator left right = .error error) :
    error.line = operator.line ∧ error.cause ≠ .initializerWithoutInstance := by
  unfold applyBinary at failed
  split at failed
  · split at failed <;> cases failed
    exact ⟨rfl, nofun⟩
  iterate 7
    · exact onNumbers_error failed
  iterate 2
    · cases failed
  · cases failed
    exact ⟨rfl, nofun⟩

end Lox
