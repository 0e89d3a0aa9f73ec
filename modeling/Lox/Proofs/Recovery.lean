import Lox.Proofs.Grammar.Trees
import Lox.Proofs.Parser.Prefix
import Lox.Proofs.Parser.Tracking

/-!
# Programs one after the other

What parsing reports about several programs that stand one after the other: the errors of each, in
order (`errors_compose`). Behind a declaration that failed, reading resumes at exactly the token
behind its semicolon, so what follows is read as if it stood alone; behind declarations without an
error the same holds, and only the references are numbered further on.
-/

namespace Lox
open Grammar Lox.Parser

def syntaxErrors (tokens : List Token) : List SyntaxError :=
  match parseProgram tokens with
  | .ok _ => []
  | .error errors => errors

/--
Tokens with one semicolon, at their end, that begin a declaration which fails. The error is at one of
these tokens, and no token behind it begins a statement. (`declaration` itself would already recover.)
-/
structure Faulty (ts : List Token) (ending : Token) : Prop where
  endless : Endless ts
  noElse : nextKind ts ≠ .symbol .elseWord
  oneSemicolon : ∃ body semicolon, ts = body ++ [semicolon] ∧ semicolon.kind = .symbol .semicolon ∧
    ∀ t ∈ body, t.kind ≠ .symbol .semicolon
  fails : ∃ error s,
    declarationWith (declaration ts.length) (statement ts.length) ⟨ts ++ [ending], 0, #[]⟩ = .error error s ∧
      error.token ∈ ts ∧ ∀ t ∈ s.rest.tail, statementWords.any t.kind.isSymbol = false

theorem Faulty.nonempty {ts : List Token} {ending : Token} (faulty : Faulty ts ending) : ts ≠ [] := by
  obtain ⟨body, semicolon, rfl, -⟩ := faulty.oneSemicolon
  exact List.append_ne_nil_of_right_ne_nil body (List.cons_ne_nil _ _)

namespace Parser

/-! ## Results -/

/-- The errors that a parser has found when it ends. -/
def found {α : Type} : EStateM.Result SyntaxError State α → List SyntaxError
  | .ok _ s => s.errors.toList
  | .error error s => s.errors.toList ++ [error]

def outcome {α : Type} : EStateM.Result SyntaxError State α → Except (List SyntaxError) α
  | .ok value s => if s.errors.isEmpty then .ok value else .error s.errors.toList
  | .error error s => .error (s.errors.toList ++ [error])

theorem parseProgram_eq (tokens : List Token) :
    parseProgram tokens =
      outcome (programItems (declaration tokens.length) tokens.length ⟨tokens, 0, #[]⟩) := rfl

theorem syntaxErrors_eq (tokens : List Token) :
    syntaxErrors tokens = found (programItems (declaration tokens.length) tokens.length ⟨tokens, 0, #[]⟩) := by
  rw [syntaxErrors, parseProgram_eq]
  generalize programItems (declaration tokens.length) tokens.length ⟨tokens, 0, #[]⟩ = result
  cases result with
  | error e s => rfl
  | ok ss s =>
      rw [outcome, found]
      by_cases clean : s.errors.isEmpty = true
      · rw [if_pos clean, Array.isEmpty_iff.mp clean]
      · rw [if_neg clean]

theorem outcome_ok_map {α β : Type} (f : α → β) (a : α) (errors : Array SyntaxError) :
    (if errors.isEmpty then Except.ok (f a) else .error errors.toList) =
      Except.map f (if errors.isEmpty then .ok a else .error errors.toList) := by
  split <;> rfl

theorem found_append (ss : List Stmt) (parser : Parser (List Stmt)) (s : State) :
    found ((do return ss ++ (← parser)) s) = found (parser s) := by
  cases read : parser s with
  | ok more s' => rw [bind_of read]; rfl
  | error e s' => rw [bind_of_error read]

theorem outcome_append (ss : List Stmt) (parser : Parser (List Stmt)) (s : State) :
    outcome ((do return ss ++ (← parser)) s) = (outcome (parser s)).map (ss ++ ·) := by
  cases read : parser s with
  | ok more s' =>
      rw [bind_of read, outcome]
      exact outcome_ok_map (ss ++ ·) more s'.errors
  | error e s' => rw [bind_of_error read]; rfl

variable {seam : Seam} {α : Type} [Shiftable α] {result result' : EStateM.Result SyntaxError State α}

theorem Same.found_eq (same : Same seam result result') :
    found result' = seam.earlier.toList ++ found result := by
  cases same <;> simp [found, Seam.left, Seam.right]

theorem Same.outcome_eq (same : Same seam result result') (clean : seam.earlier = #[]) :
    outcome result' = (outcome result).map (shift seam.shift) := by
  cases same with
  | ok a place =>
      simp only [outcome, Seam.left, Seam.right, clean, Array.empty_append]
      exact outcome_ok_map (shift seam.shift) a place.errors
  | error e place => simp [outcome, Seam.left, Seam.right, clean, Except.map]

/-! ## What follows -/

theorem items_behind {rest : List Token} (ends : ¬ Endless rest) (k rounds n : Nat)
    (earlier : Array SyntaxError) (enough : rest.length ≤ k) (more : rest.length ≤ rounds) :
    Same ⟨[], [], n, earlier⟩ (programItems (declaration rest.length) rest.length ⟨rest, 0, #[]⟩)
      (programItems (declaration k) rounds ⟨rest, n, earlier⟩) := by
  cases rest with
  | nil => exact (ends endless_nil).elim
  | cons t ts =>
      let seam : Seam := ⟨[], [], n, earlier⟩
      let start : Place := ⟨t, ts, 0, #[]⟩
      obtain ⟨progresses, both⟩ := Tracks.declaration_statement seam (t :: ts).length
      have tracks := Tracks.programItems (both k _ Nat.le.refl enough).1 progresses _ rounds Nat.le.refl more
      have left : seam.left start = ⟨t :: ts, 0, #[]⟩ := by simp [Seam.left, seam, start]
      have right : seam.right start = ⟨t :: ts, n, earlier⟩ := by simp [Seam.right, seam, start]
      rw [← left, ← right]
      refine (tracks t).same start rfl (by simp [start]) (Nat.pos_of_ne_zero fun none => ?_)
      -- the end of the input is never taken
      obtain ⟨taken, endless, read⟩ := (tracks.moves (seam.left start)).leads
      rw [List.eq_nil_of_length_eq_zero none, List.append_nil, left] at read
      rw [← show t :: ts = taken from read] at endless
      exact ends endless

end Parser

/-- The declaration that fails is skipped, whatever stands behind it, and its errors are known. -/
theorem Faulty.skipped {ts : List Token} {ending : Token} (faulty : Faulty ts ending)
    (ended : ending.kind = .endOfInput) :
    ∃ errors, ∀ tail k n, ts.length ≤ k →
      ∃ n', declaration (k + 1) ⟨ts ++ tail, n, #[]⟩ = .ok none ⟨tail, n', errors⟩ := by
  obtain ⟨body, semicolon, split, kind, plain⟩ := faulty.oneSemicolon
  obtain ⟨error, s, failed, within, noWord⟩ := faulty.fails
  -- where reading stops in these tokens
  have moves := (Tracks.declared ⟨[], [], 0, #[]⟩ (Nat.le_refl ts.length)).moves ⟨ts ++ [ending], 0, #[]⟩
  obtain ⟨taken, -, read⟩ := moves.leads
  rw [after_of_error failed] at read
  have notEnd : s.next.kind ≠ .endOfInput := by
    rw [← moves.blames failed]
    exact faulty.endless error.token within
  obtain ⟨more, rest, here⟩ := rest_of_split ended notEnd read
  have endless : Endless (s.next :: more) := (endless_append.mp (here ▸ faulty.endless)).2
  have skips (tail : List Token) : synchronize (s.next :: (more ++ tail)) = tail := by
    refine synchronize_semicolon (here.symm.trans split) kind plain endless (fun t mem => noWord t ?_) tail
    rw [rest]
    exact List.mem_append_left [ending] mem
  refine ⟨s.errors.push error, fun tail k n enough => ?_⟩
  cases ts with
  | nil => exact (faulty.nonempty rfl).elim
  | cons t us =>
      let seam : Seam := ⟨[ending], tail, n, #[]⟩
      let start : Place := ⟨t, us, 0, #[]⟩
      have same := (Tracks.declared seam enough t).same start rfl
      change declarationWith _ _ (seam.left start) = _ at failed
      rw [after_of_error failed, rest, failed] at same
      obtain ⟨place, stopped, failed'⟩ := (same (by simp [start]) (by simp [seam])).of_error
      have right : seam.right start = ⟨t :: us ++ tail, n, #[]⟩ := by simp [Seam.right, seam, start]
      rw [right] at failed'
      refine ⟨place.nextId + n, (recover_of_error failed').trans ?_⟩
      subst stopped
      have behind : place.more = more := by simpa [Seam.left, State.next, seam] using rest
      rw [← behind] at skips
      have gone : synchronize (seam.right place).rest = tail := skips tail
      rw [gone]
      simp [Seam.left, Seam.right, seam]

/-! ## What stands in front -/

variable {tokens : List Token} {ending : Token} {program : List Stmt}

theorem items_after {rest : List Token} {k rounds : Nat} (endless : Endless tokens)
    (ended : ending.kind = .endOfInput) (parsed : parseProgram (tokens ++ [ending]) = .ok program)
    (noElse : nextKind rest ≠ .symbol .elseWord) (enough : (tokens ++ rest).length ≤ k)
    (more : (tokens ++ rest).length ≤ rounds) :
    ∃ rounds', rest.length ≤ rounds' ∧
      programItems (declaration k) rounds ⟨tokens ++ rest, 0, #[]⟩ =
        (do return program ++ (← programItems (declaration k) rounds'))
          ⟨rest, (Stmt.referencesAll program).length, #[]⟩ := by
  obtain ⟨ts, left, n, rfl, derived, none⟩ := declarations_of_parsed (by exact ended) parsed
  have none : left = [] := by
    rcases none with none | kind
    · exact none
    · cases left with
      | nil => rfl
      | cons t left => exact (endless t (by simp) kind).elim
  subst none
  rw [List.append_nil] at enough more ⊢
  have count := derived.numbered.count
  rw [Nat.zero_add] at count
  rw [← count]
  exact derived.goOn #[] noElse enough more

theorem items_at_end {declaration : Parser (Option Stmt)} {rest : List Token} {n : Nat}
    {errors : Array SyntaxError} (ended : nextKind rest = .endOfInput) (rounds : Nat) :
    programItems declaration rounds ⟨rest, n, errors⟩ = .ok [] ⟨rest, n, errors⟩ := by
  cases rounds with
  | zero => rfl
  | succ rounds => exact bind_of (atEnd_of ended)

theorem items_failed {ts tail : List Token} {n n' k rounds : Nat} {errors : Array SyntaxError}
    (endless : Endless ts) (nonempty : ts ≠ [])
    (skipped : declaration k ⟨ts ++ tail, n, #[]⟩ = .ok none ⟨tail, n', errors⟩) :
    programItems (declaration k) (rounds + 1) ⟨ts ++ tail, n, #[]⟩ =
      (do return [] ++ (← programItems (declaration k) rounds)) ⟨tail, n', errors⟩ := by
  obtain ⟨t, us, rfl⟩ := List.exists_cons_of_ne_nil nonempty
  rw [programItems, bind_of (atEnd_of_ne (by exact endless t List.mem_cons_self))]
  exact bind_of skipped

theorem not_endless (ts : List Token) (ended : ending.kind = .endOfInput) : ¬ Endless (ts ++ [ending]) :=
  fun endless => endless ending (by simp) ended

/--
Behind declarations without an error, tokens in which a declaration fails and anything else have the
errors of the two parts, in this order. Anything that does not go on with `else` is read there as it is
alone, with its references numbered behind those of the declarations.
-/
theorem errors_compose {tokens : List Token} {ending : Token} {program : List Stmt}
    (endless : Endless tokens) (ended : ending.kind = .endOfInput)
    (parsed : parseProgram (tokens ++ [ending]) = .ok program) :
    (∀ faulty, Faulty faulty ending → ∀ others,
      syntaxErrors (tokens ++ (faulty ++ (others ++ [ending]))) =
        syntaxErrors (faulty ++ [ending]) ++ syntaxErrors (others ++ [ending])) ∧
    ∀ others, nextKind others ≠ .symbol .elseWord →
      parseProgram (tokens ++ (others ++ [ending])) =
        (parseProgram (others ++ [ending])).map fun more =>
          program ++ more.map (Stmt.shift (Stmt.referencesAll program).length) := by
  constructor
  · intro ts faulty others
    obtain ⟨errors, skipped⟩ := faulty.skipped ended
    have alone : syntaxErrors (ts ++ [ending]) = errors.toList := by
      obtain ⟨n, skipped⟩ := skipped [ending] ts.length 0 Nat.le.refl
      rw [syntaxErrors_eq, List.length_append, List.length_singleton,
        items_failed faulty.endless faulty.nonempty skipped, found_append, items_at_end (by exact ended)]
      rfl
    have noElse : nextKind (ts ++ (others ++ [ending])) ≠ .symbol .elseWord := by
      obtain ⟨t, us, rfl⟩ := List.exists_cons_of_ne_nil faulty.nonempty
      exact faulty.noElse
    obtain ⟨rounds, more, items⟩ := items_after endless ended parsed noElse Nat.le.refl Nat.le.refl
    rw [syntaxErrors_eq, alone, syntaxErrors_eq, items, found_append]
    have enough : (ts ++ (others ++ [ending])).length ≤ (tokens ++ (ts ++ (others ++ [ending]))).length := by
      simp
    generalize (tokens ++ (ts ++ (others ++ [ending]))).length = width at enough ⊢
    have progress := List.length_pos_iff.mpr faulty.nonempty
    have behind : 0 < (others ++ [ending]).length := by simp
    rw [List.length_append] at enough more
    -- the declaration that fails takes one of the rounds
    obtain ⟨k, rfl⟩ := Nat.exists_eq_succ_of_ne_zero (n := width) (by omega)
    obtain ⟨rounds, rfl⟩ := Nat.exists_eq_succ_of_ne_zero (n := rounds) (by omega)
    obtain ⟨n, skipped⟩ :=
      skipped (others ++ [ending]) k (Stmt.referencesAll program).length (by omega)
    have same := items_behind (not_endless others ended) (k + 1) rounds n errors (by omega) (by omega)
    rw [items_failed faulty.endless faulty.nonempty skipped, found_append, same.found_eq]
  · intro others noElse
    have noElse : nextKind (others ++ [ending]) ≠ .symbol .elseWord :=
      nextKind_append (fun _ => noElse) (by rw [nextKind_cons, ended]; nofun)
    obtain ⟨rounds, more, items⟩ := items_after endless ended parsed noElse Nat.le.refl Nat.le.refl
    have same := items_behind (not_endless others ended) (tokens ++ (others ++ [ending])).length rounds
      (Stmt.referencesAll program).length #[] (by simp) more
    rw [parseProgram_eq, items, outcome_append, same.outcome_eq rfl, ← parseProgram_eq]
    cases parseProgram (others ++ [ending]) <;> rfl

/--
The tokens of `a;`, of `nil = a b;`, which has an error that reading passes over and one where it fails,
and of `);`.
-/
theorem errors_compose_of_target :
    let mark (symbol : Symbol) : Token := ⟨.symbol symbol, symbol.spelling, 1⟩
    let name (text : String) : Token := ⟨.identifier, text, 1⟩
    let tokens := [name "a", mark .semicolon]
    let faulty := [mark .nilWord, mark .equal, name "a", name "b", mark .semicolon]
    let others := [mark .rightParen, mark .semicolon]
    Endless tokens ∧ missingEnd.kind = .endOfInput ∧
      parseProgram (tokens ++ [missingEnd]) = .ok [.expression (.read ⟨0, name "a"⟩)] ∧
      Faulty faulty missingEnd ∧ nextKind tokens ≠ .symbol .elseWord ∧
      syntaxErrors (tokens ++ (faulty ++ (others ++ [missingEnd]))) =
        [⟨.assignmentTarget, mark .equal⟩, ⟨.expressionEnd, name "b"⟩, ⟨.expression, mark .rightParen⟩] ∧
      parseProgram (tokens ++ (tokens ++ [missingEnd])) =
        .ok [.expression (.read ⟨0, name "a"⟩), .expression (.read ⟨1, name "a"⟩)] := by
  intro mark name tokens faulty others
  have endless : Endless tokens := by simp [Endless, tokens, mark, name]
  have noElse : nextKind tokens ≠ .symbol .elseWord := by simp [nextKind, tokens, name]
  have parsed : parseProgram (tokens ++ [missingEnd]) = .ok [.expression (.read ⟨0, name "a"⟩)] := by cbv
  have endless' : Endless faulty := by simp [Endless, faulty, mark, name]
  have noElse' : nextKind faulty ≠ .symbol .elseWord := by simp [nextKind, faulty, mark]
  have plain : ∀ t ∈ [mark .nilWord, mark .equal, name "a", name "b"], t.kind ≠ .symbol .semicolon := by
    simp [mark, name]
  let stopped : State := ⟨[name "b", mark .semicolon, missingEnd], 1, #[⟨.assignmentTarget, mark .equal⟩]⟩
  have fails : Faulty faulty missingEnd :=
    ⟨endless', noElse', ⟨_, _, rfl, rfl, plain⟩,
      ⟨⟨.expressionEnd, name "b"⟩, stopped, by cbv, by simp [faulty], by decide⟩⟩
  have reported : syntaxErrors (faulty ++ [missingEnd]) =
      [⟨.assignmentTarget, mark .equal⟩, ⟨.expressionEnd, name "b"⟩] := by cbv
  have reported' : syntaxErrors (others ++ [missingEnd]) = [⟨.expression, mark .rightParen⟩] := by cbv
  obtain ⟨errors, statements⟩ := errors_compose endless rfl parsed
  refine ⟨endless, rfl, parsed, fails, noElse, ?_, ?_⟩
  · rw [errors faulty fails others, reported, reported']
    rfl
  · rw [statements tokens noElse, parsed]
    rfl

end Lox
