import Lox.Proofs.Accepted
import Lox.Proofs.Finish
import Lox.Proofs.LoneExpression
import Lox.Proofs.OutputLimit
import Lox.Proofs.Parser.Acceptance
import Lox.Proofs.Scanner.Seams

/-!
# Printed expressions

An expression on its own and the program that prints it are two ways into the interpreter. They read the
same tree, the walk over the scopes has nothing to say about it, and the evaluation ends as the run does
(`evaluation_agrees_with_printing`).
-/

namespace Lox
open Run Grammar

/-! ## Trees -/

namespace Grammar

theorem Statement.print_inv {d : Bool} {ts : List Token} {n n' : Nat} {e : Expr}
    (derived : Statement d ts n (.print e) n') :
    ∃ keyword us semicolon, ts = keyword :: (us ++ [semicolon]) ∧ Derives .expression us n e n' := by
  generalize tree : Stmt.print e = a at derived
  cases derived with
  | print _ derived _ =>
      cases tree
      exact ⟨_, _, _, rfl, derived⟩
  | expression derived =>
      cases derived
      cases tree
  | @forLoop _ _ _ _ _ _ _ _ _ _ _ _ _ _ _ initializer =>
      cases initializer <;> cases tree
  | _ => cases tree

theorem Declaration.print_inv {ts : List Token} {n n' : Nat} {e : Expr}
    (derived : Declaration ts n (.print e) n') :
    ∃ keyword us semicolon, ts = keyword :: (us ++ [semicolon]) ∧ Derives .expression us n e n' := by
  cases derived with
  | varDecl derived => cases derived
  | statement derived => exact derived.print_inv

variable {body : List Token} {ending keyword semicolon ending' : Token} {e : Expr}

theorem Whole.print (isPrint : keyword.kind = .symbol .printWord)
    (isSemicolon : semicolon.kind = .symbol .semicolon) (isEnd : ending'.kind = .endOfInput) (whole : Whole (body ++ [ending]) e) :
    Program (keyword :: (body ++ [semicolon, ending'])) [.print e] := by
  generalize same : body ++ [ending] = tokens at whole
  obtain ⟨derived, -⟩ := whole
  obtain ⟨rfl, -⟩ := List.append_inj' same rfl
  have declarations := Declarations.cons (.statement (.print isPrint derived isSemicolon)) .nil
  simpa using Program.mk declarations isEnd

theorem Program.printed (isEnd : ending.kind = .endOfInput)
    (program : Program (keyword :: (body ++ [semicolon, ending'])) [.print e]) :
    Whole (body ++ [ending]) e := by
  generalize same : keyword :: (body ++ [semicolon, ending']) = tokens at program
  obtain @⟨last, _, _, _, declarations, -⟩ := program
  cases declarations with
  | cons first others =>
      cases others
      obtain ⟨keyword', us, semicolon', rfl, derived⟩ := first.print_inv
      have tokens : body ++ [semicolon, ending'] = us ++ [semicolon', last] := by
        simpa using (List.cons.inj same).2
      obtain ⟨rfl, -⟩ := List.append_inj' tokens rfl
      exact .mk derived isEnd

end Grammar

theorem parseExpression_iff_print {body : List Token} {ending keyword semicolon ending' : Token} (e : Expr)
    (endless : Endless body) (isEnd : ending.kind = .endOfInput) (isPrint : keyword.kind = .symbol .printWord)
    (isSemicolon : semicolon.kind = .symbol .semicolon) (isEnd' : ending'.kind = .endOfInput) :
    parseExpression (body ++ [ending]) = .ok e ↔
      parseProgram (keyword :: (body ++ [semicolon, ending'])) = .ok [.print e] := by
  constructor
  · intro parsed
    have whole := Parser.parseExpression_sound endless isEnd parsed
    exact Parser.parseProgram_complete (whole.print isPrint isSemicolon isEnd')
  · intro parsed
    have endless' : Endless (keyword :: (body ++ [semicolon])) := by
      simp [endless_cons, endless_append, endless_nil, endless, isPrint, isSemicolon]
    have tokens : keyword :: (body ++ [semicolon, ending']) = keyword :: (body ++ [semicolon]) ++ [ending'] := by
      simp
    rw [tokens] at parsed
    have program := Parser.parseProgram_sound endless' isEnd' parsed
    rw [← tokens] at program
    exact Parser.parseExpression_complete (program.printed isEnd)

/-! ## Sources -/

/--
The second source has the tokens of the first one, the word `print` before them, and a semicolon behind them.
-/
def PrintedBy (source printing : String) : Prop :=
  ∃ body ending keyword semicolon ending', scan source = (body ++ [ending], []) ∧
    scan printing = (keyword :: (body ++ [semicolon, ending']), []) ∧
    keyword.kind = .symbol .printWord ∧ semicolon.kind = .symbol .semicolon

theorem printedBy_of_scan {source : String} (clean : (scan source).2 = []) :
    PrintedBy source ("print " ++ source ++ "\n;") := by
  have closed := closed_of_items 1 clean
  obtain ⟨own, last, ends, goesOn⟩ := itemsFrom_append (pieces source.toList) 1
  have word : pieces "print".toList = [.lexeme (.symbol .printWord) "print".toList] := by cbv
  have mark : pieces [';'] = [.lexeme (.symbol .semicolon) [';']] := by cbv
  have text : ("print " ++ source ++ "\n;").toList =
      "print".toList ++ ' ' :: (source.toList ++ '\n' :: [';']) := by
    simp
  have pieced : pieces ("print " ++ source ++ "\n;").toList =
      .lexeme (.symbol .printWord) "print".toList :: .blank ' ' ::
        (pieces source.toList ++ [.blank '\n', .lexeme (.symbol .semicolon) [';']]) := by
    rw [text, pieces_seam rfl, word, pieces_blank rfl, pieces_seam rfl _ _ closed, pieces_blank rfl, mark]
    · rfl
    · rw [word]
      simp [Piece.ClosedBy]
  have here : items ("print " ++ source ++ "\n;") =
      .token ⟨.symbol .printWord, "print", 1⟩ :: (own ++ [.token ⟨.symbol .semicolon, ";", last + 1⟩,
        .token ⟨.endOfInput, "", last + 1⟩]) := by
    rw [items, pieced]
    change .token ⟨.symbol .printWord, "print", 1⟩ :: itemsFrom 1 (pieces source.toList ++ _) = _
    rw [goesOn]
    rfl
  have read : items source = own ++ [.token ⟨.endOfInput, "", last⟩] := ends
  have faultless : own.filterMap Item.error? = [] := by
    rw [scan, read, List.filterMap_append] at clean
    simpa [Item.error?] using clean
  refine ⟨own.filterMap Item.token?, ⟨.endOfInput, "", last⟩, ⟨.symbol .printWord, "print", 1⟩,
    ⟨.symbol .semicolon, ";", last + 1⟩, ⟨.endOfInput, "", last + 1⟩, ?_, ?_, rfl, rfl⟩
  · rw [scan, read]
    simp [Item.token?, Item.error?, faultless]
  · rw [scan, here]
    apply Prod.ext
    · change _ :: (own ++ _).filterMap Item.token? = _
      rw [List.filterMap_append]
      rfl
    · change (own ++ _).filterMap Item.error? = _
      rw [List.filterMap_append, faultless]
      rfl

/-! ## Scopes -/

/-- Neither `this` nor `super` is used. -/
def WithoutSelf (used : List (Path × Occurrence)) : Prop :=
  ∀ keyword, ([], .self keyword) ∉ used ∧ ∀ method, ([], .inherited keyword method) ∉ used

theorem withoutSelf_append {used used' : List (Path × Occurrence)} :
    WithoutSelf (used ++ used') ↔ WithoutSelf used ∧ WithoutSelf used' := by
  simp only [WithoutSelf, List.mem_append, not_or, forall_and]
  tauto

namespace Scoping

variable {s : Scoping} {c : Context}

theorem bind_global (global : s.scopes = []) (r : Reference) : s.bind r = s := by
  rw [bind, global]
  rfl

theorem read_global (global : s.scopes = []) (r : Reference) : s.read r = s := by
  rw [read, isPending, global]
  exact bind_global global r

mutual

/-- Outside of all scopes nothing is found out about an expression. -/
theorem expr_global (global : s.scopes = []) (e : Expr) (selfless : WithoutSelf (e.occurrences [])) :
    expr .topLevel e s = s := by
  cases e with
  | literal constant => rw [expr]
  | grouping inner => rw [expr, expr_global global inner selfless]
  | unary operator right => rw [expr, expr_global global right selfless]
  | binary left operator right | logical left operator right =>
      obtain ⟨selfless, selfless'⟩ := withoutSelf_append.mp selfless
      rw [expr, expr_global global left selfless, expr_global global right selfless']
  | read name => rw [expr, read_global global]
  | assign name value =>
      obtain ⟨selfless, -⟩ := withoutSelf_append.mp selfless
      rw [expr, expr_global global value selfless, bind_global global]
  | call callee paren arguments =>
      obtain ⟨selfless, selfless'⟩ := withoutSelf_append.mp selfless
      rw [expr, expr_global global callee selfless, exprs_global global arguments selfless']
  | get object name => rw [expr, expr_global global object selfless]
  | set object name value =>
      obtain ⟨selfless, selfless'⟩ := withoutSelf_append.mp selfless
      rw [expr, expr_global global object selfless, expr_global global value selfless']
  | self keyword => exact ((selfless keyword).1 (List.mem_singleton_self _)).elim
  | inherited keyword method => exact ((selfless keyword).2 method (List.mem_singleton_self _)).elim

theorem exprs_global (global : s.scopes = []) (es : List Expr)
    (selfless : WithoutSelf (Expr.occurrencesAll [] es)) : exprs .topLevel es s = s := by
  cases es with
  | nil => rw [exprs]
  | cons first rest =>
      obtain ⟨selfless, selfless'⟩ := withoutSelf_append.mp selfless
      rw [exprs, expr_global global first selfless, exprs_global global rest selfless']

end

end Scoping

theorem ofProgram_print {e : Expr} (selfless : WithoutSelf (e.occurrences [])) :
    Distances.ofProgram [.print e] = .ok .empty := by
  have walked : Scoping.stmts .topLevel [.print e] .start = .start := by
    rw [Scoping.stmts, Scoping.stmts, Scoping.stmt, Scoping.expr_global rfl e selfless]
  rw [Distances.ofProgram, walked]
  rfl

theorem check_printing {source printing : String} {e : Expr} (printed : PrintedBy source printing)
    (checked : checkExpression source = .ok e) (selfless : WithoutSelf (e.occurrences [])) :
    check printing = .ok ([.print e], .empty) := by
  obtain ⟨body, ending, keyword, semicolon, ending', scanned, scanned', isPrint, isSemicolon⟩ := printed
  have endings : Endless body ∧ ending.kind = .endOfInput := by
    obtain ⟨body', last, same, -, endless, kind⟩ := scan_tokens source
    rw [scanned] at same
    obtain ⟨rfl, ⟨⟩⟩ := List.append_inj' same rfl
    exact ⟨endless, kind⟩
  have isEnd : ending'.kind = .endOfInput := by
    obtain ⟨body', last, same, -, -, kind⟩ := scan_tokens printing
    have tokens : (keyword :: (body ++ [semicolon])) ++ [ending'] = body' ++ [last] := by
      rw [← same, scanned']
      simp
    obtain ⟨-, ⟨⟩⟩ := List.append_inj' tokens rfl
    exact kind
  have parsed : parseExpression (body ++ [ending]) = .ok e := by
    rw [checkExpression, scanned] at checked
    cases parsed : parseExpression (body ++ [ending]) with
    | ok e' =>
        simp only [parsed] at checked
        cases checked
        rfl
    | error errors =>
        simp only [parsed] at checked
        cases checked
  have program := (parseExpression_iff_print e endings.1 endings.2 isPrint isSemicolon isEnd).mp parsed
  rw [check, scanned']
  simp only [program, ofProgram_print selfless, List.isEmpty_nil, if_true]

/-! ## Runs -/

variable {e : Expr} {fuel : Nat} {m after : Machine}

theorem evaluate_withoutSelf (selfless : WithoutSelf (e.occurrences [])) :
    ∃ enough, ∀ fuel, enough ≤ fuel → ∀ m, Bare m →
    (∃ v after, evaluate fuel e m = .ok v after ∧ after.sink = m.sink) ∨
      ∃ error after, evaluate fuel e m = .error (.runtime error) after ∧ after.sink = m.sink := by
  obtain ⟨enough, answers⟩ := evaluate_answers e
  refine ⟨enough, fun fuel le m bare => ?_⟩
  have here := answers fuel le m bare
  generalize evaluate fuel e m = result at here
  cases here with
  | value v after _ _ sink => exact .inl ⟨v, after, rfl, sink⟩
  | failed error after sink => exact .inr ⟨error, after, rfl, sink⟩
  | spoken _ _ _ _ said => cases said
  | unresolved keyword method _ _ occurs _ => exact ((selfless keyword).2 method occurs).elim

theorem interpret_print_of_ok {v : Value} (unlimited : after.sink.limit = none)
    (flushed : after.sink.flush = none)
    (ended : evaluate fuel e { m with distances := .empty } = .ok v after) :
    interpret (fuel + 1) [.print e] .empty m =
      .ok () { after with sink := after.sink.extended (v.text ++ "\n") } := by
  have emitted : emit (v.text ++ "\n") after =
      .ok () { after with sink := after.sink.extended (v.text ++ "\n") } := by
    rw [emit, Sink.write_unlimited unlimited]
  have executed : execute (fuel + 1) (.print e) { m with distances := .empty } =
      .ok .normal { after with sink := after.sink.extended (v.text ++ "\n") } := by
    rw [execute, onStack_eq, executeWith, bind_of ended, bind_of emitted]
    rfl
  apply interpret_of_normal
  · exact flushed
  · rw [executeAll, bind_of executed]
    rfl

theorem interpret_print_of_error {error : RuntimeError} (flushed : after.sink.flush = none)
    (ended : evaluate fuel e { m with distances := .empty } = .error (.runtime error) after) :
    interpret (fuel + 1) [.print e] .empty m = .error (.runtime error) after := by
  have executed : execute (fuel + 1) (.print e) { m with distances := .empty } =
      .error (.runtime error) after := by
    rw [execute, onStack_eq, executeWith, bind_of_error ended]
  apply interpret_of_error flushed
  rw [executeAll, bind_of_error executed]

theorem interpret_print (selfless : WithoutSelf (e.occurrences [])) (clock : Float) :
    ∃ enough, ∀ fuel, enough ≤ fuel →
    (∃ v after m, evaluate fuel e (.initial .unlimited clock) = .ok v after ∧
      interpret fuel [.print e] .empty (.initial .unlimited clock) = .ok () m ∧
        m.sink.held = (v.text ++ "\n").toUTF8) ∨
    ∃ error after, evaluate fuel e (.initial .unlimited clock) = .error (.runtime error) after ∧
      interpret fuel [.print e] .empty (.initial .unlimited clock) = .error (.runtime error) after ∧
        after.sink.held = .empty := by
  obtain ⟨enough, ends⟩ := evaluate_withoutSelf selfless
  refine ⟨enough + 1, fun fuel le => ?_⟩
  obtain ⟨level, rfl⟩ : ∃ level, fuel = level + 1 := Nat.exists_eq_succ_of_ne_zero (Nat.ne_zero_of_lt le)
  rcases ends level (Nat.le_of_succ_le_succ le) _ (bare_initial .unlimited clock) with
    ⟨v, after, ended, sink⟩ | ⟨error, after, ended, sink⟩
  · left
    have more := (evaluate_prolongs (Nat.le_succ level) e).eq_of_ok ended
    refine ⟨v, after, _, more, interpret_print_of_ok (sink ▸ rfl) (sink ▸ rfl) ended, ?_⟩
    rw [sink]
    exact ByteArray.empty_append
  · right
    have more := (evaluate_prolongs (Nat.le_succ level) e).eq_of_error ended Stop.noConfusion
    refine ⟨error, after, more, interpret_print_of_error (sink ▸ rfl) ended, ?_⟩
    rw [sink]
    rfl

theorem line_injective {text text' : String} (same : (text ++ "\n").toUTF8 = (text' ++ "\n").toUTF8) :
    text = text' := by
  have lines : text ++ "\n" = text' ++ "\n" := String.toByteArray_inj.mp same
  simpa using lines

theorem lexical_clean {source : String} (checked : checkExpression source = .ok e) : (scan source).2 = [] := by
  unfold checkExpression at checked
  simp only at checked
  split at checked
  · rename_i clean
    exact List.isEmpty_iff.mp clean
  · cases checked

/--
An expression is read from tokens exactly if the statement that prints it is read from them with `print`
before and a semicolon behind. If it uses neither `this` nor `super`, its value has some text exactly if
that statement prints this text as a line, and it fails exactly if the statement fails in the same way,
with nothing printed. One of the two happens.
-/
theorem evaluation_agrees_with_printing :
    (∀ body ending keyword semicolon ending', Endless body → ending.kind = .endOfInput →
      keyword.kind = .symbol .printWord → semicolon.kind = .symbol .semicolon →
      ending'.kind = .endOfInput → ∀ e, parseExpression (body ++ [ending]) = .ok e ↔
          parseProgram (keyword :: (body ++ [semicolon, ending'])) = .ok [.print e]) ∧
    ∀ source e, checkExpression source = .ok e → WithoutSelf (e.occurrences []) →
      PrintedBy source ("print " ++ source ++ "\n;") ∧
      ∀ printing, PrintedBy source printing → ∀ clock, ∃ enough, ∀ fuel, enough ≤ fuel →
        (∀ text, evaluateSource fuel source clock = .ok text ↔
          ∃ m, run fuel printing (.initial .unlimited clock) = (.ok (), m) ∧
            m.sink.held = (text ++ "\n").toUTF8) ∧
        (∀ error, evaluateSource fuel source clock = .error (.stopped (.runtime error)) ↔
          ∃ m, run fuel printing (.initial .unlimited clock) = (.error (.stopped (.runtime error)), m) ∧
            m.sink.held = .empty) ∧
        ((∃ text, evaluateSource fuel source clock = .ok text) ∨
          ∃ error, evaluateSource fuel source clock = .error (.stopped (.runtime error))) := by
  constructor
  · intro body ending keyword semicolon ending' endless isEnd isPrint isSemicolon isEnd' e
    exact parseExpression_iff_print e endless isEnd isPrint isSemicolon isEnd'
  intro source e checked selfless
  refine ⟨printedBy_of_scan (lexical_clean checked), fun printing printed clock => ?_⟩
  have program := check_printing printed checked selfless
  obtain ⟨enough, ends⟩ := interpret_print selfless clock
  refine ⟨enough, fun fuel le => ?_⟩
  rcases ends fuel le with ⟨v, after, m, ended, ran, held⟩ | ⟨error, after, ended, ran, held⟩
  · have evaluated : evaluateSource fuel source clock = .ok v.text :=
      (evaluateSource_eq_ok checked).mpr ⟨v, after, ended, rfl⟩
    rw [run_of_ok program ran, evaluated]
    refine ⟨fun text => ⟨?_, ?_⟩, fun error => ⟨nofun, ?_⟩, .inl ⟨v.text, rfl⟩⟩
    · rintro ⟨⟩
      exact ⟨m, rfl, held⟩
    · rintro ⟨_, ⟨⟩, held'⟩
      rw [line_injective (held.symm.trans held')]
    · rintro ⟨_, ⟨⟩, -⟩
  · have evaluated : evaluateSource fuel source clock = .error (.stopped (.runtime error)) :=
      (evaluateSource_eq_error checked).mpr ⟨after, ended⟩
    rw [run_of_error program ran, evaluated]
    refine ⟨fun text => ⟨nofun, ?_⟩, fun error' => ⟨?_, ?_⟩, .inr ⟨error, rfl⟩⟩
    · rintro ⟨_, ⟨⟩, -⟩
    · rintro ⟨⟩
      exact ⟨after, rfl, held⟩
    · rintro ⟨_, ⟨⟩, -⟩
      rfl

/-- `"a" + "b"`, and the program that prints it. -/
theorem joined_strings_printed :
    let mark (symbol : Symbol) : Token := ⟨.symbol symbol, symbol.spelling, 1⟩
    let string (text : String) : Token := ⟨.string text, Text.quote text, 1⟩
    let body := [string "a", mark .plus, string "b"]
    let ending : Token := ⟨.endOfInput, "", 1⟩
    ∃ e, parseProgram (mark .printWord :: (body ++ [mark .semicolon, ending])) = .ok [.print e] ∧
      checkExpression "\"a\" + \"b\"" = .ok e ∧ WithoutSelf (e.occurrences []) ∧
      ∃ enough, ∀ fuel, enough ≤ fuel → ∃ m,
        run fuel "print \"a\" + \"b\"\n;" (.initial .unlimited 0) = (.ok (), m) ∧
          m.sink.held = "ab\n".toUTF8 := by
  intro mark string body ending
  let e : Expr := .binary (.literal (.string "a")) (mark .plus) (.literal (.string "b"))
  have parsed : parseExpression (body ++ [ending]) = .ok e := by cbv
  have endless : Endless body := by simp [Endless, body, mark, string]
  have checked : checkExpression "\"a\" + \"b\"" = .ok e := by cbv
  have selfless : WithoutSelf (e.occurrences []) := fun _ => ⟨List.not_mem_nil, fun _ => List.not_mem_nil⟩
  obtain ⟨reads, agrees⟩ := evaluation_agrees_with_printing
  obtain ⟨printed, prints⟩ := agrees _ e checked selfless
  obtain ⟨enough, ends⟩ := prints _ printed 0
  have parsed' := (reads body ending (mark .printWord) (mark .semicolon) ending endless rfl rfl rfl rfl e).mp parsed
  refine ⟨e, parsed', checked, selfless, max enough 2, fun fuel le => ?_⟩
  have ended : evaluate 2 e (.initial .unlimited 0) = .ok (.string "ab") (.initial .unlimited 0) := rfl
  have more := (evaluate_prolongs (le_of_max_le_right le) e).eq_of_ok ended
  obtain ⟨text, -, -⟩ := ends fuel (le_of_max_le_left le)
  exact (text "ab").mp ((evaluateSource_eq_ok checked).mpr ⟨_, _, more, rfl⟩)

end Lox
