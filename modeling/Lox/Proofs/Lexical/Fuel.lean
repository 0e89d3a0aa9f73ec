import Lox.Proofs.Lexical.Evaluation
import Lox.Proofs.Sequence

/-!
# More fuel for evaluation by locations

An action is continued by another one that does the same, unless it runs out of fuel (`Continued`). What is
put together from continued parts is continued, also if a loop may go round more often. So evaluation by
locations is continued by itself with more fuel (`continued`).
-/

namespace Lox.Lexical
open Run

/-- The second action does what the first one does, unless the first one is out of fuel. -/
def Continued {α : Type} (x y : Run α) : Prop := ∀ m, y m = x m ∨ ∃ m', x m = .error .outOfFuel m'

namespace Continued

variable {α β : Type} {x y z : Run α} {f g : α → Run β}

theorem refl (x : Run α) : Continued x x := fun _ => .inl rfl

theorem trans (first : Continued x y) (second : Continued y z) : Continued x z := by
  intro m
  rcases first m with same | starved
  · rcases second m with same' | ⟨m', starved⟩
    · exact .inl (same'.trans same)
    · exact .inr ⟨m', same ▸ starved⟩
  · exact .inr starved

theorem of_ended {m : Machine} {result : EStateM.Result Stop Machine α} (continued : Continued x y)
    (same : x m = result) (ended : ∀ m', result ≠ .error .outOfFuel m') : y m = result := by
  rcases continued m with same' | ⟨m', starved⟩
  · exact same'.trans same
  · exact (ended m' (same.symm.trans starved)).elim

theorem starve (y : Run α) : Continued Run.starve y := fun m => .inr ⟨m, rfl⟩

theorem bind (first : Continued x y) (rest : ∀ a, Continued (f a) (g a)) : Continued (x >>= f) (y >>= g) := by
  intro m
  rcases first m with same | ⟨m', starved⟩
  · cases ended : x m with
    | ok a m' =>
        rw [ended] at same
        rw [bind_of ended, bind_of same]
        exact rest a m'
    | error stop m' =>
        rw [ended] at same
        rw [bind_of_error ended, bind_of_error same]
        exact .inl rfl
  · exact .inr ⟨m', bind_of_error starved⟩

theorem ite {condition : Prop} [Decidable condition] {x' y' : Run α} (yes : Continued x y)
    (no : Continued x' y') : Continued (if condition then x else x') (if condition then y else y') := by
  split
  · exact yes
  · exact no

theorem repeatWhile {condition condition' : Run Value} {body body' : Run Flow} {rounds rounds' : Nat}
    (tests : Continued condition condition') (runs : Continued body body') (le : rounds ≤ rounds') :
    Continued (repeatWhile condition body rounds) (repeatWhile condition' body' rounds') := by
  induction rounds generalizing rounds' with
  | zero => exact starve _
  | succ rounds ih =>
      obtain ⟨rounds', rfl⟩ := Nat.exists_eq_add_of_lt le
      refine bind tests fun value => ite (bind runs fun flow => ?_) (refl _)
      cases flow with
      | normal => exact ih (Nat.le_add_right _ _)
      | returned value => exact refl _

/-! ## Meanings from the meanings of parts -/

variable {evaluate evaluate' : Names → Expr → Run Value}
  {execute execute' : Place → Stmt → Run (Place × Flow)}

theorem executeAll (executes : ∀ place a, Continued (execute place a) (execute' place a)) (body : List Stmt)
    (place : Place) : Continued (executeAll execute place body) (executeAll execute' place body) := by
  induction body generalizing place with
  | nil => exact refl _
  | cons first rest ih =>
      refine bind (executes place first) fun (place, flow) => ?_
      cases flow with
      | normal => exact ih place
      | returned value => exact refl _

theorem evaluateAll {names : Names} (evaluates : ∀ e, Continued (evaluate names e) (evaluate' names e))
    (es : List Expr) :
    Continued (evaluateAll (evaluate names) es) (Lox.evaluateAll (evaluate' names) es) := by
  induction es with
  | nil => exact refl _
  | cons first rest ih => exact bind (evaluates first) fun value => bind ih fun values => refl _

theorem invoke (executes : ∀ place a, Continued (execute place a) (execute' place a)) (closure : Closure)
    (arguments : List Value) :
    Continued (invoke execute closure arguments) (invoke execute' closure arguments) :=
  bind (refl _) fun place => bind (executeAll executes _ place) fun _ => refl _

theorem construct (executes : ∀ place a, Continued (execute place a) (execute' place a)) (type : Class)
    (arguments : List Value) :
    Continued (construct execute type arguments) (construct execute' type arguments) := by
  refine bind (refl _) fun made => ?_
  cases type.initializer? with
  | none => exact refl _
  | some method =>
      exact bind (refl _) fun bound => bind (invoke executes bound arguments) fun _ => refl _

theorem callChecked (executes : ∀ place a, Continued (execute place a) (execute' place a)) (callee : Value)
    (paren : Token) (arguments : List Value) :
    Continued (callChecked execute callee paren arguments) (callChecked execute' callee paren arguments) := by
  unfold Lexical.callChecked
  cases callee.arity? with
  | none => exact refl _
  | some arity =>
      refine ite ?_ (refl _)
      cases callee with
      | function identity closure => exact invoke executes closure arguments
      | ofClass type => exact construct executes type arguments
      | _ => exact refl _

theorem evaluateWith (evaluates : ∀ names e, Continued (evaluate names e) (evaluate' names e))
    (executes : ∀ place a, Continued (execute place a) (execute' place a)) (names : Names) (e : Expr) :
    Continued (evaluateWith evaluate execute names e) (evaluateWith evaluate' execute' names e) := by
  cases e with
  | grouping inner => exact evaluates names inner
  | unary operator right => exact bind (evaluates names right) fun value => refl _
  | binary left operator right =>
      exact bind (evaluates names left) fun a => bind (evaluates names right) fun b => refl _
  | logical left operator right =>
      exact bind (evaluates names left) fun a => ite (refl _) (evaluates names right)
  | assign name value => exact bind (evaluates names value) fun result => refl _
  | call callee paren arguments =>
      refine bind (evaluates names callee) fun target => ?_
      exact bind (evaluateAll (evaluates names) arguments) fun values =>
        callChecked executes target paren values
  | get object name => exact bind (evaluates names object) fun value => refl _
  | set object name value =>
      refine bind (evaluates names object) fun target => ?_
      cases target with
      | ofInstance i => exact bind (evaluates names value) fun result => refl _
      | _ => exact refl _
  | literal _ | read _ | self _ | inherited _ _ => exact refl _

theorem executeWith {rounds rounds' : Nat} (le : rounds ≤ rounds')
    (evaluates : ∀ names e, Continued (evaluate names e) (evaluate' names e))
    (executes : ∀ place a, Continued (execute place a) (execute' place a)) (place : Place) (a : Stmt) :
    Continued (executeWith rounds evaluate execute place a)
      (executeWith rounds' evaluate' execute' place a) := by
  cases a with
  | expression value | print value => exact bind (evaluates _ value) fun result => refl _
  | varDecl name initializer =>
      refine bind (refl _) fun place => ?_
      cases initializer with
      | none => exact refl _
      | some expression => exact bind (evaluates _ expression) fun value => refl _
  | block body => exact bind (executeAll executes body _) fun flow => refl _
  | ifElse condition thenBranch elseBranch =>
      refine bind (evaluates _ condition) fun value => ite (bind (executes place thenBranch) fun _ => refl _) ?_
      cases elseBranch with
      | none => exact refl _
      | some other => exact bind (executes place other) fun _ => refl _
  | whileLoop condition body =>
      refine bind (repeatWhile (evaluates _ condition) ?_ le) fun flow => refl _
      exact bind (executes place body) fun _ => refl _
  | returnStmt keyword value =>
      cases value with
      | none => exact refl _
      | some expression => exact bind (evaluates _ expression) fun result => refl _
  | funDecl _ | classDecl _ _ _ => exact refl _

end Continued

theorem continued {fuel more : Nat} (le : fuel ≤ more) :
    (∀ names e, Continued (evaluate fuel names e) (evaluate more names e)) ∧
      ∀ place a, Continued (execute fuel place a) (execute more place a) := by
  induction fuel generalizing more with
  | zero => exact ⟨fun _ _ => .starve _, fun _ _ => .starve _⟩
  | succ fuel ih =>
      obtain ⟨more, rfl⟩ := Nat.exists_eq_add_of_lt le
      have less : fuel ≤ fuel + more := Nat.le_add_right _ _
      obtain ⟨evaluates, executes⟩ := ih less
      exact ⟨.evaluateWith evaluates executes, .executeWith less evaluates executes⟩

end Lox.Lexical
