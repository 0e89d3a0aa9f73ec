import Lox.Proofs.Lines.Evaluation
import Lox.Proofs.Lines.Parsing
import Lox.Proofs.Lines.Scoping
import Lox.Proofs.Scanner.Layout

/-!
# Lines decide nothing

Two programs whose tokens differ in their lines only are parsed to the same tree, have the same distances
and the same errors, and run in the same way with the same output; only the lines that errors report
differ (`lines_decide_nothing`). So a program may be written with any blanks and comments between its
lexemes.
-/

namespace Lox

instance : Lined Failure where
  unlined
    | .static errors => .static (unlined errors)
    | .stopped stop => .stopped (unlined stop)

theorem unlined_eq_faces (tokens : List Token) :
    unlined tokens = (tokens.map Token.face).map fun face => ⟨face.1, face.2, 0⟩ := by
  rw [List.map_map]
  rfl

theorem sameButLines_of_faces {tokens tokens' : List Token}
    (same : tokens.map Token.face = tokens'.map Token.face) : SameButLines tokens tokens' := by
  rw [SameButLines, unlined_eq_faces, unlined_eq_faces, same]

theorem SameButLines.sink {m m' : Machine} (same : SameButLines m m') : m.sink = m'.sink := by
  have machines : unlined m = unlined m' := same
  have sinks := congrArg Machine.sink machines
  exact sinks

theorem SameButLines.image {α β : Type} [Lined α] [Lined β] {f : α → β} {a b : α} (same : SameButLines a b)
    (ignores : ∀ a, f (unlined a) = unlined (f a)) : SameButLines (f a) (f b) := by
  rw [SameButLines, ← ignores, ← ignores, same]

theorem interpret_sameButLines {program program' : List Stmt} (same : SameButLines program program')
    (fuel : Nat) (distances : Distances) {m m' : Machine} (machines : SameButLines m m') :
    SameButLines (interpret fuel program distances m) (interpret fuel program' distances m') := by
  have pairs : SameButLines (program, m) (program', m') := Prod.ext same machines
  exact pairs.image (f := fun pair => interpret fuel pair.1 distances pair.2) fun pair =>
    interpret_unlined fuel pair.1 distances pair.2

theorem evaluate_sameButLines {e e' : Expr} (same : SameButLines e e') (fuel : Nat) {m m' : Machine}
    (machines : SameButLines m m') : SameButLines (evaluate fuel e m) (evaluate fuel e' m') := by
  have pairs : SameButLines (e, m) (e', m') := Prod.ext same machines
  exact pairs.image (f := fun pair => evaluate fuel pair.1 pair.2) fun pair =>
    (evaluate_execute_unlined fuel).1 pair.1 pair.2

/-! ## Sources -/

/-- What `check` makes of the tokens and of the lexical errors of a source. -/
def checked (tokens : List Token) (lexical : List LexicalError) :
    Except (List StaticError) (List Stmt × Distances) :=
  match parseProgram tokens with
  | .error errors => .error (lexical.map .lexical ++ errors.map .grammar)
  | .ok program =>
    if lexical.isEmpty then
      match Distances.ofProgram program with
      | .error errors => .error (errors.map .scope)
      | .ok distances => .ok (program, distances)
    else .error (lexical.map .lexical)

def checkedExpression (tokens : List Token) (lexical : List LexicalError) : Except (List StaticError) Expr :=
  if lexical.isEmpty then
    match parseExpression tokens with
    | .error errors => .error (errors.map .grammar)
    | .ok expression => .ok expression
  else .error (lexical.map .lexical)

theorem map_unlined {α β : Type} [Lined α] [Lined β] {f : α → β} (same : ∀ a, f (unlined a) = unlined (f a))
    (as : List α) : (unlined as).map f = unlined (as.map f) := by
  show (as.map unlined).map f = (as.map f).map unlined
  rw [List.map_map, List.map_map]
  exact List.map_congr_left fun a _ => same a

theorem checked_unlined (tokens : List Token) (lexical : List LexicalError) :
    checked (unlined tokens) (unlined lexical) = unlined (checked tokens lexical) := by
  have reported := map_unlined (f := StaticError.lexical) (fun _ => rfl) lexical
  rw [checked, checked, parseProgram_unlined]
  cases parseProgram tokens with
  | error errors =>
      have grammar := map_unlined (f := StaticError.grammar) (fun _ => rfl) errors
      show Except.error ((unlined lexical).map StaticError.lexical ++ (unlined errors).map .grammar) = _
      rw [reported, grammar, append_unlined]
      rfl
  | ok program =>
      cases lexical with
      | cons => exact congrArg Except.error reported
      | nil =>
          show (match Distances.ofProgram (unlined program) with
            | .error errors => Except.error (errors.map StaticError.scope)
            | .ok distances => .ok (unlined program, distances)) =
            unlined (match Distances.ofProgram program with
              | .error errors => Except.error (errors.map StaticError.scope)
              | .ok distances => .ok (program, distances))
          rw [ofProgram_unlined]
          cases Distances.ofProgram program with
          | error errors => exact congrArg Except.error (map_unlined (f := StaticError.scope) (fun _ => rfl) errors)
          | ok distances => rfl

theorem checkedExpression_unlined (tokens : List Token) (lexical : List LexicalError) :
    checkedExpression (unlined tokens) (unlined lexical) = unlined (checkedExpression tokens lexical) := by
  cases lexical with
  | cons => exact congrArg Except.error (map_unlined (f := StaticError.lexical) (fun _ => rfl) _)
  | nil =>
      show (match parseExpression (unlined tokens) with
        | .error errors => Except.error (errors.map StaticError.grammar)
        | .ok expression => .ok expression) =
        unlined (match parseExpression tokens with
          | .error errors => Except.error (errors.map StaticError.grammar)
          | .ok expression => .ok expression)
      rw [parseExpression_unlined]
      cases parseExpression tokens with
      | error errors => exact congrArg Except.error (map_unlined (f := StaticError.grammar) (fun _ => rfl) errors)
      | ok expression => rfl

def runChecked (fuel : Nat) (m : Machine) : Except (List StaticError) (List Stmt × Distances) → Except Failure Unit × Machine
  | .error errors => (.error (.static errors), m)
  | .ok (program, distances) =>
    match interpret fuel program distances m with
    | .ok () m => (.ok (), m)
    | .error stop m => (.error (.stopped stop), m)

theorem runChecked_unlined (fuel : Nat) (m : Machine) (c : Except (List StaticError) (List Stmt × Distances)) :
    runChecked fuel (unlined m) (unlined c) = unlined (runChecked fuel m c) := by
  cases c with
  | error errors => rfl
  | ok pair =>
      obtain ⟨program, distances⟩ := pair
      show (match interpret fuel (unlined program) distances (unlined m) with
        | .ok () m => (Except.ok (), m)
        | .error stop m => (Except.error (Failure.stopped stop), m)) = _
      rw [interpret_unlined fuel program distances m, runChecked]
      cases interpret fuel program distances m with
      | ok | error => rfl

def evaluateChecked (fuel : Nat) (clock : Float) : Except (List StaticError) Expr → Except Failure String
  | .error errors => .error (.static errors)
  | .ok expression =>
    match evaluate fuel expression (.initial .unlimited clock) with
    | .ok value _ => .ok value.text
    | .error stop _ => .error (.stopped stop)

theorem initial_unlined (sink : Sink) (clock : Float) :
    unlined (Machine.initial sink clock) = .initial sink clock :=
  congrArg (Machine.mk · Store.globals .empty sink clock) Store.initial_unlined

theorem evaluateChecked_unlined (fuel : Nat) (clock : Float) (c : Except (List StaticError) Expr) :
    evaluateChecked fuel clock (unlined c) = unlined (evaluateChecked fuel clock c) := by
  cases c with
  | error errors => rfl
  | ok expression =>
      have ran := (evaluate_execute_unlined fuel).1 expression (.initial .unlimited clock)
      rw [initial_unlined] at ran
      show (match evaluate fuel (unlined expression) (.initial .unlimited clock) with
        | .ok value _ => Except.ok value.text
        | .error stop _ => Except.error (Failure.stopped stop)) = _
      rw [ran, evaluateChecked]
      cases evaluate fuel expression (.initial .unlimited clock) with
      | ok value => exact congrArg Except.ok (text_unlined value)
      | error => rfl

theorem run_sameButLines {source source' : String} (same : SameButLines (scan source) (scan source'))
    (fuel : Nat) {m m' : Machine} (machines : SameButLines m m') :
    SameButLines (run fuel source m) (run fuel source' m') := by
  have pairs : SameButLines (scan source, m) (scan source', m') := Prod.ext same machines
  apply pairs.image (f := fun pair => runChecked fuel pair.2 (checked pair.1.1 pair.1.2))
  intro pair
  rw [← runChecked_unlined, ← checked_unlined]
  rfl

theorem evaluateSource_sameButLines {source source' : String} (same : SameButLines (scan source) (scan source'))
    (fuel : Nat) (clock : Float) :
    SameButLines (evaluateSource fuel source clock) (evaluateSource fuel source' clock) := by
  apply same.image (f := fun pair => evaluateChecked fuel clock (checkedExpression pair.1 pair.2))
  intro pair
  rw [← evaluateChecked_unlined, ← checkedExpression_unlined]
  rfl

theorem layouts_sameButLines {layout layout' : Layout} (same : layout.map Prod.fst = layout'.map Prod.fst) :
    SameButLines (scan (.ofList layout.text)) (scan (.ofList layout'.text)) := by
  rw [scan_written, scan_written]
  apply Prod.ext
  · apply sameButLines_of_faces
    rw [Layout.tokens, Layout.tokens, Layout.faces, Layout.faces, same]
  · rfl

theorem spread_sameButLines {source : String} (gap : Nat → Gap) (clean : (scan source).2 = []) :
    SameButLines (scan source) (scan (.ofList (spread gap (scan source).1.dropLast))) := by
  obtain ⟨faces, none⟩ := scan_layout.2 source gap
  apply Prod.ext
  · exact sameButLines_of_faces faces.symm
  · exact congrArg unlined (clean.trans none.symm)

/-! ## What does not depend on lines -/

theorem message_of_sameButLines {e e' : StaticError} (same : SameButLines e e') :
    e.message = e'.message ∧ e.place = e'.place := by
  have unchanged (e : StaticError) : (unlined e).message = e.message ∧ (unlined e).place = e.place := by
    cases e with
    | lexical | grammar | scope => exact ⟨rfl, rfl⟩
  rw [← (unchanged e).1, ← (unchanged e).2, same, (unchanged e').1, (unchanged e').2]
  exact ⟨rfl, rfl⟩

theorem cause_of_sameButLines {e e' : RuntimeError} (same : SameButLines e e') : e.cause = e'.cause := by
  have errors : unlined e = unlined e' := same
  have causes := congrArg RuntimeError.cause errors
  exact causes

/--
Tokens that differ in their lines only are read as trees that differ in their lines only, with the same
numbers, or with the same errors; such trees have the same distances; and they run in the same way, from
machines that differ in the same way. So do sources that are scanned alike, such as one program laid out
twice, and what they write is equal. Lines are nothing that a message depends on.
-/
theorem lines_decide_nothing :
    (∀ tokens tokens' : List Token, tokens.map Token.face = tokens'.map Token.face →
      SameButLines (parseProgram tokens) (parseProgram tokens') ∧
        SameButLines (parseExpression tokens) (parseExpression tokens')) ∧
    (∀ program program' : List Stmt, SameButLines program program' →
      SameButLines (Distances.ofProgram program) (Distances.ofProgram program') ∧
        ∀ fuel distances m m', SameButLines m m' →
          SameButLines (interpret fuel program distances m) (interpret fuel program' distances m')) ∧
    (∀ e e' : Expr, SameButLines e e' → ∀ fuel m m', SameButLines m m' →
      SameButLines (evaluate fuel e m) (evaluate fuel e' m')) ∧
    (∀ source source', SameButLines (scan source) (scan source') → ∀ fuel m clock,
      SameButLines (run fuel source m) (run fuel source' m) ∧
        (run fuel source m).2.sink = (run fuel source' m).2.sink ∧
        SameButLines (evaluateSource fuel source clock) (evaluateSource fuel source' clock)) ∧
    (∀ layout layout' : Layout, layout.map Prod.fst = layout'.map Prod.fst →
      SameButLines (scan (.ofList layout.text)) (scan (.ofList layout'.text))) ∧
    (∀ source gap, (scan source).2 = [] →
      SameButLines (scan source) (scan (.ofList (spread gap (scan source).1.dropLast)))) ∧
    (∀ e e' : StaticError, SameButLines e e' → e.message = e'.message ∧ e.place = e'.place) ∧
    ∀ e e' : RuntimeError, SameButLines e e' → e.cause = e'.cause := by
  refine ⟨?_, ?_, ?_, ?_, ?_, ?_, ?_, ?_⟩
  · intro tokens tokens' faces
    have same := sameButLines_of_faces faces
    exact ⟨same.image parseProgram_unlined, same.image parseExpression_unlined⟩
  · intro program program' same
    exact ⟨same.image ofProgram_unlined, fun fuel distances _ _ => interpret_sameButLines same fuel distances⟩
  · exact fun _ _ same fuel _ _ => evaluate_sameButLines same fuel
  · intro source source' same fuel m clock
    have alike : SameButLines m m := rfl
    have ran := run_sameButLines same fuel alike
    have machines : SameButLines (run fuel source m).2 (run fuel source' m).2 := congrArg Prod.snd ran
    exact ⟨ran, machines.sink, evaluateSource_sameButLines same fuel clock⟩
  · exact fun _ _ => layouts_sameButLines
  · exact fun _ gap => spread_sameButLines gap
  · exact fun _ _ => message_of_sameButLines
  · exact fun _ _ => cause_of_sameButLines

/-- One statement on one line, and with each token on its own. -/
theorem alike_on_other_lines :
    [(⟨.symbol .printWord, "print", 1⟩ : Token), ⟨.identifier, "x", 1⟩, ⟨.symbol .semicolon, ";", 1⟩].map Token.face =
      [(⟨.symbol .printWord, "print", 3⟩ : Token), ⟨.identifier, "x", 4⟩, ⟨.symbol .semicolon, ";", 9⟩].map Token.face ∧
    SameButLines
      (parseProgram [⟨.symbol .printWord, "print", 1⟩, ⟨.identifier, "x", 1⟩, ⟨.symbol .semicolon, ";", 1⟩])
      (parseProgram [⟨.symbol .printWord, "print", 3⟩, ⟨.identifier, "x", 4⟩, ⟨.symbol .semicolon, ";", 9⟩]) :=
  ⟨rfl, (lines_decide_nothing.1 _ _ rfl).1⟩

end Lox
