import Lox.Proofs.FirstFailure
import Lox.Proofs.Operators
import Lox.Proofs.Scope.Occurrences
import Lox.Proofs.Store
import Lox.Proofs.Watches

/-!
# Expressions on their own

An expression that is evaluated without a program around it meets no function, class or instance, so that
nothing it calls can go on forever: its evaluation comes to a value or to a runtime error, unless it gets
to a `super` (`Expr.answers`). No walk over the scopes has ruled that out, and there the evaluation ends in
a defect (`evaluateSource_settles`).
-/

namespace Lox
open Run

/-- There are only globals, and their values are plain. -/
structure Bare (m : Machine) : Prop where
  distances : m.distances = .empty
  globals : ∀ name value, m.store.read? Store.globals name = some value → Plain value

/--
How an expression on its own ends: with a good value, with a runtime error, where the watch says so, or at
one of its uses of `super`. It writes nothing.
-/
inductive Answers (watch : Watch) (used : List (Path × Occurrence)) (m : Machine) {α : Type} (good : α → Prop) :
    EStateM.Result Stop Machine α → Prop where
  | value (a : α) (after : Machine) (right : good a) (bare : Bare after) (sink : after.sink = m.sink) :
      Answers watch used m good (.ok a after)
  | failed (error : RuntimeError) (after : Machine) (sink : after.sink = m.sink) :
      Answers watch used m good (.error (.runtime error) after)
  | spoken (site : Site) (there : Machine) (stop : Stop) (after : Machine) (said : watch site there = some stop) :
      Answers watch used m good (.error stop after)
  | unresolved (keyword : Reference) (method : Token) (there after : Machine)
      (occurs : ([], .inherited keyword method) ∈ used)
      (quiet : watch (.expr (.inherited keyword method)) there = none) :
      Answers watch used m good (.error (.defect (.unresolvedSuper keyword.line)) after)

variable {watch : Watch} {used used' : List (Path × Occurrence)} {m : Machine} {α β : Type} {good : α → Prop}
  {good' : β → Prop}

namespace Answers

theorem mono {result : EStateM.Result Stop Machine α} (answers : Answers watch used m good result)
    (sub : used ⊆ used') : Answers watch used' m good result := by
  cases answers with
  | value a after right bare sink => exact .value a after right bare sink
  | failed error after sink => exact .failed error after sink
  | spoken site there stop after said => exact .spoken site there stop after said
  | unresolved keyword method there after occurs quiet =>
      exact .unresolved keyword method there after (sub occurs) quiet

theorem bind {x : Run α} {f : α → Run β} (first : Answers watch used m good (x m))
    (rest : ∀ a after, good a → Bare after → Answers watch used after good' (f a after)) :
    Answers watch used m good' ((x >>= f) m) := by
  generalize ended : x m = result at first
  cases first with
  | value a after right bare sink =>
      rw [bind_of ended]
      have later := rest a after right bare
      generalize f a after = result at later
      cases later with
      | value b last right bare sink' => exact .value b last right bare (sink'.trans sink)
      | failed error last sink' => exact .failed error last (sink'.trans sink)
      | spoken site there stop last said => exact .spoken site there stop last said
      | unresolved keyword method there last occurs quiet =>
          exact .unresolved keyword method there last occurs quiet
  | failed error after sink =>
      rw [bind_of_error ended]
      exact .failed error after sink
  | spoken site there stop after said =>
      rw [bind_of_error ended]
      exact .spoken site there stop after said
  | unresolved keyword method there after occurs quiet =>
      rw [bind_of_error ended]
      exact .unresolved keyword method there after occurs quiet

theorem pure (bare : Bare m) {a : α} (right : good a) : Answers watch used m good ((Pure.pure a : Run α) m) :=
  .value a m right bare rfl

theorem raise (cause : RuntimeError.Cause) (token : Token) :
    Answers watch used m good ((Run.raise cause token : Run α) m) :=
  .failed ⟨cause, token.line⟩ m rfl

theorem lift (bare : Bare m) {result : Except RuntimeError α} (right : ∀ a, result = .ok a → good a) :
    Answers watch used m good (Run.lift result m) := by
  cases result with
  | ok a => exact .value a m (right a rfl) bare rfl
  | error error => exact .failed error m rfl

theorem supervised {site : Site} {action : Run α}
    (inside : watch site m = none → Answers watch used m good (action m)) :
    Answers watch used m good (supervised watch site action m) := by
  unfold Lox.supervised
  cases said : watch site m with
  | some stop => exact .spoken site m stop m said
  | none => exact inside said

/-! ## Variables and calls -/

theorem lookUp (bare : Bare m) (r : Reference) : Answers watch used m Plain (lookUp r m) := by
  rw [Lox.lookUp, bare.distances, Bindings.find?_empty]
  cases found : m.store.get? Store.globals r.name with
  | none => exact raise _ _
  | some value =>
      rw [Store.get?_globals] at found
      exact pure bare (bare.globals r.name value found)

theorem assign (bare : Bare m) (r : Reference) {value : Value} (plain : Plain value) :
    Answers watch used m (fun _ => True) (assign r value m) := by
  rcases assign_cases r value m with ends | ⟨frame, ends⟩
  · rw [ends]
    exact raise _ _
  · rw [ends]
    refine .value () _ trivial ⟨bare.distances, fun name other bound => ?_⟩ rfl
    rcases Store.read?_define_inv bound with old | rfl
    · exact bare.globals name other old
    · exact plain

theorem callChecked (bare : Bare m) {callee : Value} (plain : Plain callee) (execute : Stmt → Run Flow)
    (paren : Token) (arguments : List Value) :
    Answers watch used m Plain (callChecked execute callee paren arguments m) := by
  unfold Lox.callChecked
  cases callee with
  | native function =>
      cases function
      simp only [ValueOver.arity?]
      split
      · exact .value (ValueOver.number m.clock) m trivial bare rfl
      · exact raise _ _
  | function _ _ | ofClass _ | ofInstance _ => exact plain.elim
  | nil | boolean _ | number _ | string _ => exact raise _ _

theorem inherited (bare : Bare m) (keyword : Reference) (method : Token)
    (occurs : ([], .inherited keyword method) ∈ used)
    (quiet : watch (.expr (.inherited keyword method)) m = none) :
    Answers watch used m Plain (getInherited keyword method m) := by
  have nowhere : findInherited m keyword = none := by
    rw [findInherited, bare.distances, Bindings.find?_empty]
  rw [getInherited, bind_get, nowhere]
  exact .unresolved keyword method m m occurs quiet

end Answers

/-! ## All expressions -/

def AnswersWith (watch : Watch) (e : Expr) (enough : Nat) : Prop :=
  ∀ fuel, enough ≤ fuel → ∀ m, Bare m → Answers watch (e.occurrences []) m Plain (evaluateUnder watch fuel e m)

theorem answersWith_succ {e : Expr} {enough : Nat}
    (inside : ∀ fuel, enough ≤ fuel → ∀ m, Bare m → watch (.expr e) m = none →
      Answers watch (e.occurrences []) m Plain
        (evaluateWith (evaluateUnder watch fuel) (executeUnder watch fuel) e m)) :
    AnswersWith watch e (enough + 1) := by
  intro fuel le m bare
  cases fuel with
  | zero => exact (Nat.not_succ_le_zero enough le).elim
  | succ fuel =>
      rw [evaluateUnder]
      exact .supervised (inside fuel (Nat.le_of_succ_le_succ le) m bare)

mutual

theorem Expr.answers (watch : Watch) (e : Expr) : ∃ enough, AnswersWith watch e enough := by
  cases e with
  | literal constant =>
      exact ⟨1, answersWith_succ fun _ _ _ bare _ => .pure bare (plain_literal constant)⟩
  | grouping inner =>
      obtain ⟨enough, answers⟩ := Expr.answers watch inner
      exact ⟨enough + 1, answersWith_succ fun fuel le m bare _ => answers fuel le m bare⟩
  | unary operator right =>
      obtain ⟨enough, answers⟩ := Expr.answers watch right
      refine ⟨enough + 1, answersWith_succ fun fuel le m bare _ => ?_⟩
      apply Answers.bind (answers fuel le m bare)
      intro v after _ bare
      exact .lift bare fun _ => applyUnary_plain
  | binary left operator right =>
      obtain ⟨enough, answers⟩ := Expr.answers watch left
      obtain ⟨enough', answers'⟩ := Expr.answers watch right
      refine ⟨max enough enough' + 1, answersWith_succ fun fuel le m bare _ => ?_⟩
      apply Answers.bind ((answers fuel (le_of_max_le_left le) m bare).mono (List.subset_append_left _ _))
      intro a after _ bare
      apply Answers.bind ((answers' fuel (le_of_max_le_right le) after bare).mono (List.subset_append_right _ _))
      intro b after _ bare
      exact .lift bare fun _ => applyBinary_plain
  | logical left operator right =>
      obtain ⟨enough, answers⟩ := Expr.answers watch left
      obtain ⟨enough', answers'⟩ := Expr.answers watch right
      refine ⟨max enough enough' + 1, answersWith_succ fun fuel le m bare _ => ?_⟩
      apply Answers.bind ((answers fuel (le_of_max_le_left le) m bare).mono (List.subset_append_left _ _))
      intro a after plain bare
      split
      · exact .pure bare plain
      · exact (answers' fuel (le_of_max_le_right le) after bare).mono (List.subset_append_right _ _)
  | read name => exact ⟨1, answersWith_succ fun _ _ _ bare _ => .lookUp bare name⟩
  | assign name value =>
      obtain ⟨enough, answers⟩ := Expr.answers watch value
      refine ⟨enough + 1, answersWith_succ fun fuel le m bare _ => ?_⟩
      apply Answers.bind ((answers fuel le m bare).mono (List.subset_append_left _ _))
      intro v after plain bare
      apply Answers.bind (.assign bare name plain)
      intro _ after _ bare
      exact .pure bare plain
  | call callee paren arguments =>
      obtain ⟨enough, answers⟩ := Expr.answers watch callee
      obtain ⟨enough', answers'⟩ := Expr.answersAll watch arguments
      refine ⟨max enough enough' + 1, answersWith_succ fun fuel le m bare _ => ?_⟩
      apply Answers.bind ((answers fuel (le_of_max_le_left le) m bare).mono (List.subset_append_left _ _))
      intro v after plain bare
      apply Answers.bind ((answers' fuel (le_of_max_le_right le) after bare).mono (List.subset_append_right _ _))
      intro vs after _ bare
      exact .callChecked bare plain _ paren vs
  | get object name =>
      obtain ⟨enough, answers⟩ := Expr.answers watch object
      refine ⟨enough + 1, answersWith_succ fun fuel le m bare _ => ?_⟩
      apply Answers.bind (answers fuel le m bare)
      intro v after plain bare
      cases v with
      -- there are no instances on a bare machine
      | ofInstance _ => exact plain.elim
      | _ => exact .raise _ _
  | set object name value =>
      obtain ⟨enough, answers⟩ := Expr.answers watch object
      refine ⟨enough + 1, answersWith_succ fun fuel le m bare _ => ?_⟩
      apply Answers.bind ((answers fuel le m bare).mono (List.subset_append_left _ _))
      intro v after plain bare
      cases v with
      | ofInstance _ => exact plain.elim
      | _ => exact .raise _ _
  | self keyword => exact ⟨1, answersWith_succ fun _ _ _ bare _ => .lookUp bare keyword⟩
  | inherited keyword method =>
      exact ⟨1, answersWith_succ fun _ _ _ bare quiet =>
        .inherited bare keyword method (List.mem_singleton_self _) quiet⟩

theorem Expr.answersAll (watch : Watch) (es : List Expr) :
    ∃ enough, ∀ fuel, enough ≤ fuel → ∀ m, Bare m →
      Answers watch (Expr.occurrencesAll [] es) m (fun _ => True)
        (evaluateAll (evaluateUnder watch fuel) es m) := by
  cases es with
  | nil => exact ⟨0, fun _ _ m bare => .pure bare trivial⟩
  | cons first rest =>
      obtain ⟨enough, answers⟩ := Expr.answers watch first
      obtain ⟨enough', answers'⟩ := Expr.answersAll watch rest
      refine ⟨max enough enough', fun fuel le m bare => ?_⟩
      apply Answers.bind ((answers fuel (le_of_max_le_left le) m bare).mono (List.subset_append_left _ _))
      intro v after _ bare
      apply Answers.bind ((answers' fuel (le_of_max_le_right le) after bare).mono (List.subset_append_right _ _))
      intro vs after _ bare
      exact .pure bare trivial

end

/-! ## Uses of `super` -/

/-- Speaks wherever `super` is about to be evaluated. -/
def superWatch : Watch := fun site _ =>
  match site with
  | .expr (.inherited _ _) => some .outOfFuel
  | _ => none

theorem superWatch_speaks {site : Site} (speaks : superWatch site m ≠ none) :
    ∃ keyword method, site = .expr (.inherited keyword method) := by
  unfold superWatch at speaks
  split at speaks
  · exact ⟨_, _, rfl⟩
  · exact (speaks rfl).elim

variable {e : Expr} {fuel : Nat} {keyword : Reference} {method : Token} {there : Machine}

theorem Answers.fed {result : EStateM.Result Stop Machine α} (answers : Answers silent used m good result)
    (after : Machine) : result ≠ .error .outOfFuel after := by
  rintro rfl
  cases answers with
  | spoken _ _ _ _ said => cases said

/-- An evaluation that gets to a `super`, and has the fuel to end, ends there. -/
theorem inherited_fails {more : Nat} (bare : Bare m) (fed : ∀ m', evaluate more e m ≠ .error .outOfFuel m')
    (reaches : e.Reaches fuel m (.expr (.inherited keyword method)) there) :
    ∃ after, evaluate more e m = .error (.defect (.unresolvedSuper keyword.line)) after := by
  obtain ⟨frame, same⟩ := reaches.respects keeps_distances
  have nowhere : findInherited there keyword = none := by
    rw [findInherited, show there.distances = _ from same, bare.distances, Bindings.find?_empty]
  have fails : Site.Fails 1 (.expr (.inherited keyword method)) there
      (.defect (.unresolvedSuper keyword.line)) there := by
    rw [Site.Fails, evaluate, onStack_eq, evaluateWith, getInherited, bind_get, nowhere]
    rfl
  have relates (mark : Stop) := (fails_under fails Stop.noConfusion mark fuel).1 e
  obtain ⟨frame, failed⟩ := failed_of_marks relates reaches
  have fed' : ∀ m', evaluate (fuel + 1) e m ≠ .error .outOfFuel m' := by
    intro m' starved
    cases failed.symm.trans starved
  exact ⟨_, (evaluate_unique fed fed').trans failed⟩

theorem evaluate_answers (e : Expr) : ∃ enough, ∀ fuel, enough ≤ fuel → ∀ m, Bare m →
    Answers silent (e.occurrences []) m Plain (evaluate fuel e m) := by
  obtain ⟨enough, answers⟩ := Expr.answers silent e
  refine ⟨enough, fun fuel le m bare => ?_⟩
  have here := answers fuel le m bare
  rwa [(under_silent fuel).1] at here

/-- With enough fuel an expression comes to a value or to a runtime error, unless it gets to a `super`. -/
theorem evaluate_cases (e : Expr) : ∃ enough, ∀ fuel, enough ≤ fuel → ∀ m, Bare m →
    (∀ after, evaluate fuel e m ≠ .error .outOfFuel after) ∧
      ((∃ v after, evaluate fuel e m = .ok v after) ∨
        (∃ error after, evaluate fuel e m = .error (.runtime error) after) ∨
        ∃ keyword method there after, e.Reaches fuel m (.expr (.inherited keyword method)) there ∧
          evaluate fuel e m = .error (.defect (.unresolvedSuper keyword.line)) after) := by
  obtain ⟨enough, answers⟩ := evaluate_answers e
  obtain ⟨enough', answers'⟩ := Expr.answers superWatch e
  refine ⟨max enough enough', fun fuel le m bare => ?_⟩
  have here := answers fuel (le_of_max_le_left le) m bare
  refine ⟨here.fed, ?_⟩
  rcases (Watched.under fuel).1 e superWatch m with same | ⟨site, there, speaks, stops⟩
  · -- The watch has seen no `super`.
    have watched := answers' fuel (le_of_max_le_right le) m bare
    rw [← show evaluateUnder silent fuel e m = evaluateUnder superWatch fuel e m from
      same silent fun _ _ _ => rfl, (under_silent fuel).1] at watched
    generalize evaluate fuel e m = result at here watched
    cases watched with
    | value v after => exact .inl ⟨v, after, rfl⟩
    | failed error after => exact .inr (.inl ⟨error, after, rfl⟩)
    | spoken site there stop after said =>
        obtain ⟨keyword, method, rfl⟩ := superWatch_speaks (said ▸ Option.some_ne_none stop)
        cases said
        exact (here.fed after rfl).elim
    | unresolved keyword method there after _ quiet => cases quiet
  · obtain ⟨keyword, method, rfl⟩ := superWatch_speaks speaks
    have reaches : e.Reaches fuel m (.expr (.inherited keyword method)) there :=
      fun stop => stops _ stop (breakpoint_within speaks) breakpoint_self
    obtain ⟨after, failed⟩ := inherited_fails bare here.fed reaches
    exact .inr (.inr ⟨keyword, method, there, after, reaches, failed⟩)

/-! ## Sources -/

theorem bare_initial (sink : Sink) (clock : Float) : Bare (.initial sink clock) := by
  refine ⟨rfl, fun name value bound => ?_⟩
  change Store.initial.read? _ _ = _ at bound
  rw [Store.read?_initial] at bound
  split at bound
  · cases bound
    trivial
  · cases bound

theorem Parser.run_nonempty {parser : Parser α} {tokens : List Token} {errors : List SyntaxError}
    (failed : run parser tokens = .error errors) : errors ≠ [] := by
  unfold run at failed
  split at failed
  · split at failed
    · cases failed
    · rename_i some
      cases failed
      simpa using some
  · cases failed
    exact List.append_ne_nil_of_right_ne_nil _ (List.cons_ne_nil _ _)

theorem checkExpression_nonempty {source : String} {errors : List StaticError}
    (failed : checkExpression source = .error errors) : errors ≠ [] := by
  unfold checkExpression at failed
  simp only at failed
  split at failed
  · split at failed
    · rename_i errors parsed
      cases failed
      simpa using Parser.run_nonempty parsed
    · cases failed
  · rename_i some
    cases failed
    simpa using some

variable {source : String} {clock : Float}

theorem evaluateSource_eq_ok {text : String} (checked : checkExpression source = .ok e) :
    evaluateSource fuel source clock = .ok text ↔
      ∃ v after, evaluate fuel e (.initial .unlimited clock) = .ok v after ∧ v.text = text := by
  rw [evaluateSource, checked]
  dsimp only
  cases evaluate fuel e (.initial .unlimited clock) <;> simp

theorem evaluateSource_eq_error {stop : Stop} (checked : checkExpression source = .ok e) :
    evaluateSource fuel source clock = .error (.stopped stop) ↔
      ∃ after, evaluate fuel e (.initial .unlimited clock) = .error stop after := by
  rw [evaluateSource, checked]
  dsimp only
  cases evaluate fuel e (.initial .unlimited clock) <;> simp

/--
The evaluation of a source comes to an end: to the text of a value, to errors found before, to a runtime
error, or to a defect. It ends in a defect exactly if it gets to a `super`, and the defect tells the line.
-/
theorem evaluateSource_settles (source : String) (clock : Float) :
    ∃ enough result, (∀ fuel, enough ≤ fuel → evaluateSource fuel source clock = result) ∧
      ((∃ text, result = .ok text) ∨ (∃ errors, errors ≠ [] ∧ result = .error (.static errors)) ∨
        (∃ error, result = .error (.stopped (.runtime error))) ∨
        ∃ line, result = .error (.stopped (.defect (.unresolvedSuper line)))) ∧
      ∀ line, result = .error (.stopped (.defect (.unresolvedSuper line))) ↔
        ∃ e keyword method there fuel, checkExpression source = .ok e ∧ keyword.line = line ∧
          e.Reaches fuel (.initial .unlimited clock) (.expr (.inherited keyword method)) there := by
  cases checked : checkExpression source with
  | error errors =>
      have result (fuel : Nat) : evaluateSource fuel source clock = .error (.static errors) := by
        rw [evaluateSource, checked]
      refine ⟨0, _, fun fuel _ => result fuel, .inr (.inl ⟨errors, checkExpression_nonempty checked, rfl⟩),
        fun line => ⟨nofun, ?_⟩⟩
      rintro ⟨e, _, _, _, _, ok, -⟩
      cases ok
  | ok e =>
      obtain ⟨enough, ends⟩ := evaluate_cases e
      have bare := bare_initial .unlimited clock
      obtain ⟨fed, ended⟩ := ends enough Nat.le.refl _ bare
      refine ⟨enough, evaluateSource enough source clock, fun fuel le => ?_, ?_,
        fun line => ⟨fun failed => ?_, ?_⟩⟩
      · rw [evaluateSource, evaluateSource, checked]
        simp only [evaluate_more fed le]
      · rcases ended with ⟨v, after, ended⟩ | ⟨error, after, ended⟩ | ⟨keyword, _, _, after, -, ended⟩
        · exact .inl ⟨v.text, (evaluateSource_eq_ok checked).mpr ⟨v, after, ended, rfl⟩⟩
        · exact .inr (.inr (.inl ⟨error, (evaluateSource_eq_error checked).mpr ⟨after, ended⟩⟩))
        · exact .inr (.inr (.inr ⟨keyword.line, (evaluateSource_eq_error checked).mpr ⟨after, ended⟩⟩))
      · obtain ⟨after, failed⟩ := (evaluateSource_eq_error checked).mp failed
        rw [failed] at ended
        rcases ended with ⟨_, _, ⟨⟩⟩ | ⟨_, _, ⟨⟩⟩ | ⟨keyword, method, there, _, reaches, ended⟩
        have lines : line = keyword.line := by
          injection ended with stops
          injection stops with defects
          injection defects
        exact ⟨e, keyword, method, there, enough, rfl, lines.symm, reaches⟩
      · rintro ⟨_, keyword, method, there, fuel, ⟨⟩, rfl, reaches⟩
        exact (evaluateSource_eq_error checked).mpr (inherited_fails bare fed reaches)

/-- The parser accepts `super.x`, and its evaluation ends in a defect. -/
theorem lone_super_defective :
    evaluateSource ampleFuel "super.x" 0 = .error (.stopped (.defect (.unresolvedSuper 1))) := by
  have checked : checkExpression "super.x" = .ok (.inherited ⟨0, ⟨.symbol .superWord, "super", 1⟩⟩
      ⟨.identifier, "x", 1⟩) := by cbv
  rw [evaluateSource_eq_error checked]
  refine ⟨.initial .unlimited 0, ?_⟩
  rw [ampleFuel, evaluate, onStack_eq]
  rfl

end Lox
