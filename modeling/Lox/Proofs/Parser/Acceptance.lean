import Mathlib
import Lox.Proofs.Parser.Completeness

/-!
# The parser accepts the grammar

Statements and declarations that the grammar derives are read without an error
(`Statement.completes`, `Declaration.completes`), so together with soundness a list of tokens is
parsed to a tree exactly if the grammar derives that tree from it.
-/

namespace Lox.Parser
open Grammar

variable {t : Token} {rest : List Token} {n : Nat} {errors : Array SyntaxError} {word : Symbol}

/-! ## Single tokens -/

theorem accept_of_other {other : Symbol} (kind : t.kind = .symbol other) (differs : other ≠ word) :
    accept word ⟨t :: rest, n, errors⟩ = .ok none ⟨t :: rest, n, errors⟩ := by
  refine accept_of_ne ?_
  rw [nextKind_cons, kind]
  rintro ⟨⟩
  exact differs rfl

theorem ne_of_starts {k : Kind} (starts : startsExpression k = true)
    (other : startsExpression (.symbol word) = false) : k ≠ .symbol word := by
  rintro rfl
  rw [starts] at other
  cases other

theorem accept_of_starts {ts : List Token} (begins : BeginsWith (startsExpression · = true) ts)
    (other : startsExpression (.symbol word) = false) :
    accept word ⟨ts, n, errors⟩ = .ok none ⟨ts, n, errors⟩ := by
  obtain ⟨t, rest, rfl, starts⟩ := begins
  exact accept_of_ne (ne_of_starts starts other)

/-! ## Parts of statements -/

theorem expression_of {ts : List Token} {n' : Nat} {e : Expr}
    (derived : Derives .expression ts n e n') (ends : Ends .expression rest) :
    expression ⟨ts ++ rest, n, errors⟩ = .ok e ⟨rest, n', errors⟩ :=
  derived.completes.expressionWithin errors derived.begins.ne_nil Nat.le.refl ends

def delimits (word : Symbol) : Bool :=
    !startsExpression (.symbol word) && word ∉ extenders .expression

theorem expressionBefore_of {ts : List Token} {n' : Nat} {e : Option Expr}
    (derived : Optional (Derives .expression) ts n e n') (kind : t.kind = .symbol word)
    (delimiter : delimits word = true) :
    expressionBefore word ⟨ts ++ t :: rest, n, errors⟩ = .ok e ⟨t :: rest, n', errors⟩ := by
  simp only [delimits, Bool.and_eq_true, Bool.not_eq_true', decide_eq_true_eq] at delimiter
  unfold expressionBefore
  cases derived with
  | absent =>
      have here : nextKind (t :: rest) = .symbol word := kind
      exact bind_of (at?_of here)
  | present derived =>
      have given : nextKind (ts ++ t :: rest) ≠ .symbol word := by
        obtain ⟨first, ts, rfl, starts⟩ := derived.begins
        exact ne_of_starts starts delimiter.1
      exact (bind_of (at?_of_ne given)).trans
        (bind_of (expression_of derived (ends_of kind delimiter.2)))

theorem expressionStatement_of {ts : List Token} {n' : Nat} {s : Stmt}
    (derived : ExpressionStatement ts n s n') :
    expressionStatement ⟨ts ++ rest, n, errors⟩ = .ok s ⟨rest, n', errors⟩ := by
  obtain ⟨derived, endKind⟩ := derived
  rw [List.append_assoc]
  exact (bind_of (expression_of derived (ends_of endKind (by decide)))).trans
    (bind_of (expect_of endKind))

theorem varDeclaration_of {keyword : Token} {ts : List Token} {n' : Nat} {s : Stmt}
    (derived : VarDeclaration (keyword :: ts) n s n') :
    varDeclaration ⟨ts ++ rest, n, errors⟩ = .ok s ⟨rest, n', errors⟩ := by
  cases derived with
  | mk kind nameKind value endKind =>
      rw [varDeclaration, List.cons_append, List.append_assoc, bind_of (expectName_of nameKind)]
      cases value with
      | absent =>
          exact (bind_of (accept_of_other endKind (by decide))).trans (bind_of (expect_of endKind))
      | present value =>
          obtain ⟨equalsKind, value⟩ := value
          refine (bind_of (accept_of equalsKind)).trans
            ((bind_of ?_).trans (bind_of (expect_of endKind)))
          exact expression_of value (ends_of endKind (by decide))

theorem loopInitializer_of {ts : List Token} {n' : Nat} {s : Option Stmt}
    (derived : LoopInitializer ts n s n') :
    loopInitializer ⟨ts ++ rest, n, errors⟩ = .ok s ⟨rest, n', errors⟩ := by
  unfold loopInitializer
  cases derived with
  | absent kind => exact bind_of (accept_of kind)
  | «variable» derived =>
      obtain ⟨kind, nameKind, value, endKind⟩ := derived
      refine (bind_of (accept_of_other kind (by decide))).trans
        ((bind_of (accept_of kind)).trans (bind_of ?_))
      exact varDeclaration_of (.mk kind nameKind value endKind)
  | expression derived =>
      have begins := derived.begins.append rest
      refine (bind_of (accept_of_starts begins rfl)).trans
        ((bind_of (accept_of_starts begins rfl)).trans ?_)
      exact bind_of (expressionStatement_of derived)

theorem parameter_of {count : Nat} (kind : t.kind = .identifier) (below : count < mostParameters) :
    parameter count ⟨t :: rest, n, errors⟩ = .ok t ⟨rest, n, errors⟩ := by
  unfold parameter
  rw [if_neg (by omega)]
  exact expectName_of kind

theorem parameters_of {ts params : List Token} (derived : Parameters ts params)
    (closes : nextKind rest = .symbol .rightParen) :
    ∀ count rounds, (ts ++ rest).length ≤ rounds → count + params.length ≤ mostParameters →
      parameters count rounds ⟨ts ++ rest, n, errors⟩ = .ok params ⟨rest, n, errors⟩ := by
  induction derived with
  | one kind =>
      intro count rounds more short
      have noComma : nextKind rest ≠ .symbol .comma := by rw [closes]; nofun
      cases rounds with
      | zero => simp at more
      | succ rounds => exact (bind_of (parameter_of kind short)).trans (bind_of (accept_of_ne noComma))
  | more kind commaKind others ih =>
      intro count rounds more short
      rw [List.length_cons] at short
      cases rounds with
      | zero => simp at more
      | succ rounds =>
          simp only [List.cons_append, List.length_cons] at more ⊢
          have read := ih (count + 1) rounds (by omega) (by omega)
          refine (bind_of (parameter_of kind (by omega))).trans
            ((bind_of (accept_of commaKind)).trans ?_)
          exact bind_of read

theorem parameterList_of {ts params : List Token} (derived : Parameters ts params)
    (short : params.length ≤ longestList) (kind : t.kind = .symbol .rightParen) :
    nextKind (ts ++ t :: rest) ≠ .symbol .rightParen ∧
      withRounds (parameters 0) ⟨ts ++ t :: rest, n, errors⟩ = .ok params ⟨t :: rest, n, errors⟩ := by
  refine ⟨by cases derived <;> simp [*], ?_⟩
  have closes : nextKind (t :: rest) = .symbol .rightParen := kind
  exact parameters_of derived closes 0 _ Nat.le.refl (by rwa [Nat.zero_add])

/-! ## Declarations -/

/-- What there is to show of a statement: it is read unless an `else` follows that it would take. -/
def CompletesStatement (dangling : Bool) (ts : List Token) (n : Nat) (s : Stmt) (n' : Nat) : Prop :=
  ∀ k rest errors, (ts ++ rest).length ≤ k → (dangling = true → nextKind rest ≠ .symbol .elseWord) →
    statement k ⟨ts ++ rest, n, errors⟩ = .ok s ⟨rest, n', errors⟩

def CompletesDeclaration (ts : List Token) (n : Nat) (s : Stmt) (n' : Nat) : Prop :=
  ∀ k rest errors, (ts ++ rest).length ≤ k → nextKind rest ≠ .symbol .elseWord →
    declaration k ⟨ts ++ rest, n, errors⟩ = .ok (some s) ⟨rest, n', errors⟩

def CompletesDeclarations (ts : List Token) (n : Nat) (ss : List Stmt) (n' : Nat) : Prop :=
  ∀ k rest errors rounds, (ts ++ rest).length ≤ k → (ts ++ rest).length ≤ rounds →
    (nextKind rest = .symbol .rightBrace →
      blockItems (declaration k) rounds ⟨ts ++ rest, n, errors⟩ = .ok ss ⟨rest, n', errors⟩) ∧
    (nextKind rest = .endOfInput →
      programItems (declaration k) rounds ⟨ts ++ rest, n, errors⟩ = .ok ss ⟨rest, n', errors⟩)

def CompletesFunction (ts : List Token) (n : Nat) (f : FunctionDecl) (n' : Nat) : Prop :=
  ∀ k rest errors role, (ts ++ rest).length ≤ k →
    function (declaration k) role ⟨ts ++ rest, n, errors⟩ = .ok f ⟨rest, n', errors⟩

def CompletesFunctions (ts : List Token) (n : Nat) (fs : List FunctionDecl) (n' : Nat) : Prop :=
  ∀ k rest errors rounds, (ts ++ rest).length ≤ k → (ts ++ rest).length ≤ rounds →
    nextKind rest = .symbol .rightBrace →
      methods (declaration k) rounds ⟨ts ++ rest, n, errors⟩ = .ok fs ⟨rest, n', errors⟩

section Lists

variable {ts us : List Token} {n' n'' : Nat} {s : Stmt} {ss : List Stmt} {f : FunctionDecl}
    {fs : List FunctionDecl}

theorem atEnd_of_ne (other : nextKind rest ≠ .endOfInput) :
    atEnd ⟨rest, n, errors⟩ = .ok false ⟨rest, n, errors⟩ := by
  have missing : (nextKind rest).isEnd = false := by simpa [← isEnd_iff] using other
  exact congrArg (EStateM.Result.ok · _) missing

theorem atEnd_of (kind : nextKind rest = .endOfInput) :
    atEnd ⟨rest, n, errors⟩ = .ok true ⟨rest, n, errors⟩ :=
  congrArg (EStateM.Result.ok · _) (isEnd_iff.mpr kind)

theorem blockItems_of {declaration : Parser (Option Stmt)} {rounds : Nat} {first : Option Stmt}
    {s₁ s₂ : State} (begins : BeginsWith startsDeclaration rest)
    (read : declaration ⟨rest, n, errors⟩ = .ok first s₁)
    (readMore : blockItems declaration rounds s₁ = .ok ss s₂) :
    blockItems declaration (rounds + 1) ⟨rest, n, errors⟩ = .ok (first.toList ++ ss) s₂ := by
  obtain ⟨t, rest, rfl, notEnd, notBrace, -⟩ := begins
  rw [blockItems, bind_of (at?_of_ne (by exact notBrace)), bind_of (atEnd_of_ne (by exact notEnd))]
  exact (bind_of read).trans (bind_of readMore)

theorem programItems_of {declaration : Parser (Option Stmt)} {rounds : Nat} {first : Option Stmt}
    {s₁ s₂ : State} (begins : BeginsWith startsDeclaration rest)
    (read : declaration ⟨rest, n, errors⟩ = .ok first s₁)
    (readMore : programItems declaration rounds s₁ = .ok ss s₂) :
    programItems declaration (rounds + 1) ⟨rest, n, errors⟩ = .ok (first.toList ++ ss) s₂ := by
  obtain ⟨t, rest, rfl, notEnd, -⟩ := begins
  rw [programItems, bind_of (atEnd_of_ne (by exact notEnd))]
  exact (bind_of read).trans (bind_of readMore)

theorem methods_of {declaration : Parser (Option Stmt)} {rounds : Nat} {s₁ s₂ : State}
    (begins : BeginsWith startsDeclaration rest)
    (read : function declaration .method ⟨rest, n, errors⟩ = .ok f s₁)
    (readMore : methods declaration rounds s₁ = .ok fs s₂) :
    methods declaration (rounds + 1) ⟨rest, n, errors⟩ = .ok (f :: fs) s₂ := by
  obtain ⟨t, rest, rfl, notEnd, notBrace, -⟩ := begins
  rw [methods, bind_of (at?_of_ne (by exact notBrace)), bind_of (atEnd_of_ne (by exact notEnd))]
  exact (bind_of read).trans (bind_of readMore)

theorem noDeclarations_completes : CompletesDeclarations [] n [] n := by
  intro k rest errors rounds enough more
  refine ⟨fun closes => ?_, fun ended => ?_⟩ <;> cases rounds with
  | zero => rfl
  | succ rounds => ?_
  · exact bind_of (at?_of closes)
  · exact bind_of (atEnd_of ended)

theorem noFunctions_completes : CompletesFunctions [] n [] n := by
  intro k rest errors rounds enough more closes
  cases rounds with
  | zero => rfl
  | succ rounds => exact bind_of (at?_of closes)

theorem noElse_of_declarations (derived : Declarations us n ss n')
    (ends : nextKind rest ≠ .symbol .elseWord) :
    nextKind (us ++ rest) ≠ .symbol .elseWord := by
  cases derived with
  | nil => exact ends
  | cons first others =>
      obtain ⟨t, ts, rfl, -, -, noElse⟩ := first.begins
      exact noElse

theorem declarations_complete (derived : Declaration ts n s n')
    (derivedMore : Declarations us n' ss n'') (first : CompletesDeclaration ts n s n')
    (others : CompletesDeclarations us n' ss n'') :
    CompletesDeclarations (ts ++ us) n (s :: ss) n'' := by
  intro k rest errors rounds enough more
  have begins := derived.begins.append (us ++ rest)
  have progress := List.length_pos_iff.mpr derived.begins.ne_nil
  rw [List.append_assoc] at enough more ⊢
  rw [List.length_append] at enough more
  cases rounds with
  | zero => omega
  | succ rounds =>
      obtain ⟨inBlock, inProgram⟩ := others k rest errors rounds (by omega) (by omega)
      have read (ends : nextKind rest ≠ .symbol .elseWord) :=
        first k (us ++ rest) errors (by simpa using enough)
        (noElse_of_declarations derivedMore ends)
      refine ⟨fun closes => ?_, fun ended => ?_⟩
      · exact blockItems_of begins (read (by rw [closes]; nofun)) (inBlock closes)
      · exact programItems_of begins (read (by rw [ended]; nofun)) (inProgram ended)

theorem functions_complete (derived : Function ts n f n') (first : CompletesFunction ts n f n')
    (others : CompletesFunctions us n' fs n'') : CompletesFunctions (ts ++ us) n (f :: fs) n'' := by
  intro k rest errors rounds enough more closes
  have begins := derived.begins.append (us ++ rest)
  have progress := List.length_pos_iff.mpr derived.begins.ne_nil
  rw [List.append_assoc] at enough more ⊢
  rw [List.length_append] at enough more
  cases rounds with
  | zero => omega
  | succ rounds =>
      exact methods_of begins (first k (us ++ rest) errors .method (by simpa using enough))
        (others k rest errors rounds (by omega) (by omega) closes)

end Lists

/-! ### Functions and classes -/

theorem block_of {ts : List Token} {n' k : Nat} {ss : List Stmt} {closing : Token}
    (body : CompletesDeclarations ts n ss n') (kind : closing.kind = .symbol .rightBrace)
    (enough : (ts ++ closing :: rest).length ≤ k) :
    block (declaration k) ⟨ts ++ closing :: rest, n, errors⟩ = .ok ss ⟨rest, n', errors⟩ := by
  obtain ⟨read, -⟩ := body k (closing :: rest) errors _ enough Nat.le.refl
  exact (bind_of (read kind)).trans (bind_of (expect_of kind))

theorem function_completes {name opening closing brace brace' : Token} {ts us : List Token}
    {n' : Nat} {params : List Token} {ss : List Stmt} (nameKind : name.kind = .identifier)
    (openingKind : opening.kind = .symbol .leftParen) (listed : ParameterList ts params)
    (closingKind : closing.kind = .symbol .rightParen) (braceKind : brace.kind = .symbol .leftBrace)
    (body : CompletesDeclarations us n ss n') (braceKind' : brace'.kind = .symbol .rightBrace) :
    CompletesFunction
      (name :: opening :: (ts ++ closing :: brace :: (us ++ [brace']))) n ⟨name, params, ss⟩ n' := by
  intro k rest errors role enough
  simp only [List.cons_append, List.append_assoc, List.nil_append, List.length_cons,
    List.length_append] at enough ⊢
  refine (bind_of (expectName_of nameKind)).trans ((bind_of (expect_of openingKind)).trans ?_)
  have short : (us ++ brace' :: rest).length ≤ k := by simp; omega
  cases listed with
  | empty =>
      have empty : nextKind (closing :: brace :: (us ++ brace' :: rest)) = .symbol .rightParen :=
        closingKind
      refine (bind_of (at?_of empty)).trans ((bind_of (expect_of closingKind)).trans ?_)
      exact (bind_of (expect_of braceKind)).trans (bind_of (block_of body braceKind' short))
  | names listed few =>
      obtain ⟨given, read⟩ := parameterList_of (n := n) listed few closingKind
      refine (bind_of (at?_of_ne given)).trans
        ((bind_of read).trans ((bind_of (expect_of closingKind)).trans ?_))
      exact (bind_of (expect_of braceKind)).trans (bind_of (block_of body braceKind' short))

theorem classDeclaration_of {name opening closing : Token} {ts us : List Token} {n' n'' k : Nat}
    {superclass : Option Reference} {fs : List FunctionDecl} (nameKind : name.kind = .identifier)
    (parent : Optional Superclass ts n superclass n')
    (openingKind : opening.kind = .symbol .leftBrace) (members : CompletesFunctions us n' fs n'')
    (closingKind : closing.kind = .symbol .rightBrace)
    (enough : (us ++ closing :: rest).length ≤ k) :
    classDeclaration (declaration k) ⟨name :: (ts ++ opening :: (us ++ closing :: rest)), n, errors⟩ =
      .ok (.classDecl name superclass fs) ⟨rest, n'', errors⟩ := by
  have read := members k (closing :: rest) errors _ enough Nat.le.refl closingKind
  refine (bind_of (expectName_of nameKind)).trans ?_
  cases parent with
  | absent =>
      refine (bind_of (accept_of_other openingKind (by decide))).trans
        ((bind_of (expect_of openingKind)).trans ?_)
      exact (bind_of read).trans (bind_of (expect_of closingKind))
  | present parent =>
      obtain ⟨lessKind, parentKind⟩ := parent
      refine (bind_of (accept_of lessKind)).trans ((bind_of (expectName_of parentKind)).trans ?_)
      refine (bind_of (expect_of openingKind)).trans
        ((bind_of read).trans (bind_of (expect_of closingKind)))

/-! ### Statements -/

def afterKeyword (declaration : Parser (Option Stmt)) (statement : Parser Stmt) (keyword : Token) :
    Symbol → Option (Parser Stmt)
  | .forWord => some (forStatement statement)
  | .ifWord => some (ifStatement statement)
  | .printWord => some printStatement
  | .returnWord => some (returnStatement keyword)
  | .whileWord => some (whileStatement statement)
  | .leftBrace => some (return .block (← block declaration))
  | _ => none

theorem statementWith_of {declaration : Parser (Option Stmt)} {statement parser : Parser Stmt}
    (kind : t.kind = .symbol word)
    (after : afterKeyword declaration statement t word = some parser) :
    statementWith declaration statement ⟨t :: rest, n, errors⟩ = parser ⟨rest, n, errors⟩ := by
  unfold statementWith
  cases word <;> cases after
  case forWord => exact bind_of (accept_of kind)
  all_goals refine (bind_of (accept_of_other kind (by decide))).trans ?_
  case ifWord => exact bind_of (accept_of kind)
  all_goals refine (bind_of (accept_of_other kind (by decide))).trans ?_
  case printWord => exact bind_of (accept_of kind)
  all_goals refine (bind_of (accept_of_other kind (by decide))).trans ?_
  case returnWord => exact bind_of (accept_of kind)
  all_goals refine (bind_of (accept_of_other kind (by decide))).trans ?_
  case whileWord => exact bind_of (accept_of kind)
  case leftBrace =>
    exact (bind_of (accept_of_other kind (by decide))).trans (bind_of (accept_of kind))

theorem statementWith_of_starts {declaration : Parser (Option Stmt)} {statement : Parser Stmt}
    {ts : List Token} (begins : BeginsWith (startsExpression · = true) ts) :
    statementWith declaration statement ⟨ts, n, errors⟩ = expressionStatement ⟨ts, n, errors⟩ := by
  refine (bind_of (accept_of_starts begins rfl)).trans
    ((bind_of (accept_of_starts begins rfl)).trans ?_)
  refine (bind_of (accept_of_starts begins rfl)).trans
    ((bind_of (accept_of_starts begins rfl)).trans ?_)
  exact (bind_of (accept_of_starts begins rfl)).trans (bind_of (accept_of_starts begins rfl))

section Statements

variable {keyword : Token} {d : Bool} {ts us : List Token} {n' n'' : Nat} {e : Expr} {s : Stmt}

theorem CompletesStatement.of_keyword (kind : keyword.kind = .symbol word)
    (reads : ∀ k rest errors, (ts ++ rest).length ≤ k → (d = true → nextKind rest ≠ .symbol .elseWord) →
      ∃ parser, afterKeyword (declaration k) (statement k) keyword word = some parser ∧
        parser ⟨ts ++ rest, n, errors⟩ = .ok s ⟨rest, n', errors⟩) :
    CompletesStatement d (keyword :: ts) n s n' := by
  intro k rest errors enough noElse
  cases k with
  | zero => simp at enough
  | succ k =>
      obtain ⟨parser, after, read⟩ := reads k rest errors (Nat.le_of_succ_le_succ enough) noElse
      exact (statementWith_of kind after).trans read

theorem expressionStatement_completes (derived : ExpressionStatement ts n s n') :
    CompletesStatement false ts n s n' := by
  intro k rest errors enough _
  have begins := derived.begins.append rest
  cases k with
  | zero => exact (begins.ne_nil (List.eq_nil_of_length_eq_zero (Nat.le_zero.mp enough))).elim
  | succ k => exact (statementWith_of_starts begins).trans (expressionStatement_of derived)

theorem print_completes {semicolon : Token} (kind : keyword.kind = .symbol .printWord)
    (derived : Derives .expression ts n e n') (endKind : semicolon.kind = .symbol .semicolon) :
    CompletesStatement false (keyword :: (ts ++ [semicolon])) n (.print e) n' := by
  refine .of_keyword kind fun k rest errors enough noElse => ⟨_, rfl, ?_⟩
  rw [List.append_assoc]
  exact (bind_of (expression_of derived (ends_of endKind (by decide)))).trans
    (bind_of (expect_of endKind))

theorem returnStmt_completes {semicolon : Token} {value : Option Expr}
    (kind : keyword.kind = .symbol .returnWord)
    (derived : Optional (Derives .expression) ts n value n')
    (endKind : semicolon.kind = .symbol .semicolon) :
    CompletesStatement false (keyword :: (ts ++ [semicolon])) n (.returnStmt keyword value) n' := by
  refine .of_keyword kind fun k rest errors enough noElse => ⟨_, rfl, ?_⟩
  rw [List.append_assoc]
  exact (bind_of (expressionBefore_of derived endKind (by decide))).trans (bind_of (expect_of endKind))

theorem block_completes {closing : Token} {ss : List Stmt}
    (kind : keyword.kind = .symbol .leftBrace) (body : CompletesDeclarations ts n ss n')
    (closingKind : closing.kind = .symbol .rightBrace) :
    CompletesStatement false (keyword :: (ts ++ [closing])) n (.block ss) n' := by
  refine .of_keyword kind fun k rest errors enough noElse => ⟨_, rfl, ?_⟩
  rw [List.append_assoc] at enough ⊢
  exact bind_of (block_of body closingKind enough)

theorem whileLoop_completes {opening closing : Token} (kind : keyword.kind = .symbol .whileWord)
    (openingKind : opening.kind = .symbol .leftParen) (condition : Derives .expression ts n e n')
    (closingKind : closing.kind = .symbol .rightParen) (body : CompletesStatement d us n' s n'') :
    CompletesStatement d (keyword :: opening :: (ts ++ closing :: us)) n (.whileLoop e s) n'' := by
  refine .of_keyword kind fun k rest errors enough noElse => ⟨_, rfl, ?_⟩
  simp only [List.cons_append, List.append_assoc, List.length_cons, List.length_append] at enough ⊢
  have read := body k rest errors (by simp; omega) noElse
  refine (bind_of (expect_of openingKind)).trans ?_
  refine (bind_of (expression_of condition (ends_of closingKind (by decide)))).trans ?_
  exact (bind_of (expect_of closingKind)).trans (bind_of read)

theorem ifThen_completes {opening closing : Token} (kind : keyword.kind = .symbol .ifWord)
    (openingKind : opening.kind = .symbol .leftParen) (condition : Derives .expression ts n e n')
    (closingKind : closing.kind = .symbol .rightParen) (branch : CompletesStatement d us n' s n'') :
    CompletesStatement true (keyword :: opening :: (ts ++ closing :: us)) n (.ifElse e s none) n'' := by
  refine .of_keyword kind fun k rest errors enough noElse => ⟨_, rfl, ?_⟩
  simp only [List.cons_append, List.append_assoc, List.length_cons, List.length_append] at enough ⊢
  have read := branch k rest errors (by simp; omega) fun _ => noElse rfl
  refine (bind_of (expect_of openingKind)).trans ?_
  refine (bind_of (expression_of condition (ends_of closingKind (by decide)))).trans ?_
  refine (bind_of (expect_of closingKind)).trans ((bind_of read).trans ?_)
  exact bind_of (accept_of_ne (noElse rfl))

theorem ifElse_completes {opening closing otherwise : Token} {vs : List Token} {n₃ : Nat}
    {s' : Stmt} (kind : keyword.kind = .symbol .ifWord)
    (openingKind : opening.kind = .symbol .leftParen) (condition : Derives .expression ts n e n')
    (closingKind : closing.kind = .symbol .rightParen)
    (branch : CompletesStatement false us n' s n'') (elseKind : otherwise.kind = .symbol .elseWord)
    (other : CompletesStatement d vs n'' s' n₃) :
    CompletesStatement d (keyword :: opening :: (ts ++ closing :: (us ++ otherwise :: vs))) n
      (.ifElse e s (some s')) n₃ := by
  refine .of_keyword kind fun k rest errors enough noElse => ⟨_, rfl, ?_⟩
  simp only [List.cons_append, List.append_assoc, List.length_cons, List.length_append] at enough ⊢
  have readThen := branch k (otherwise :: (vs ++ rest)) errors (by simp; omega) nofun
  have readElse := other k rest errors (by simp; omega) noElse
  refine (bind_of (expect_of openingKind)).trans ?_
  refine (bind_of (expression_of condition (ends_of closingKind (by decide)))).trans ?_
  refine (bind_of (expect_of closingKind)).trans ((bind_of readThen).trans ?_)
  exact (bind_of (accept_of elseKind)).trans (bind_of readElse)

theorem forLoop_completes {opening closing semicolon : Token} {vs ws : List Token} {n₃ n₄ : Nat}
    {initializer : Option Stmt} {condition increment : Option Expr}
    (kind : keyword.kind = .symbol .forWord) (openingKind : opening.kind = .symbol .leftParen)
    (first : LoopInitializer ts n initializer n')
    (second : Optional (Derives .expression) us n' condition n'')
    (endKind : semicolon.kind = .symbol .semicolon)
    (third : Optional (Derives .expression) vs n'' increment n₃)
    (closingKind : closing.kind = .symbol .rightParen) (body : CompletesStatement d ws n₃ s n₄) :
    CompletesStatement d (keyword :: opening :: (ts ++ (us ++ semicolon :: (vs ++ closing :: ws)))) n
      (loopTree initializer condition increment s) n₄ := by
  rw [← loopStatement_eq]
  refine .of_keyword kind fun k rest errors enough noElse => ⟨_, rfl, ?_⟩
  simp only [List.cons_append, List.append_assoc, List.length_cons, List.length_append] at enough ⊢
  have read := body k rest errors (by simp; omega) noElse
  refine (bind_of (expect_of openingKind)).trans ((bind_of (loopInitializer_of first)).trans ?_)
  refine (bind_of (expressionBefore_of second endKind (by decide))).trans
    ((bind_of (expect_of endKind)).trans ?_)
  refine (bind_of (expressionBefore_of third closingKind (by decide))).trans ?_
  exact (bind_of (expect_of closingKind)).trans (bind_of read)

end Statements

/-! ### Declarations -/

theorem recover_of {parser : Parser Stmt} {s s' : State} {a : Stmt} (read : parser s = .ok a s') :
    recover parser s = .ok (some a) s' := by
  unfold recover
  rw [read]

section Declarations

variable {keyword : Token} {ts us : List Token} {n' n'' : Nat} {s : Stmt}

theorem CompletesDeclaration.of_read (begins : ts ≠ [])
    (reads : ∀ k rest errors, (ts ++ rest).length ≤ k + 1 → nextKind rest ≠ .symbol .elseWord →
      declarationWith (declaration k) (statement k) ⟨ts ++ rest, n, errors⟩ =
        .ok s ⟨rest, n', errors⟩) :
    CompletesDeclaration ts n s n' := by
  intro k rest errors enough noElse
  cases k with
  | zero => simp_all
  | succ k => exact recover_of (reads k rest errors enough noElse)

theorem classDecl_completes {name opening closing : Token} {superclass : Option Reference}
    {fs : List FunctionDecl} (kind : keyword.kind = .symbol .classWord)
    (nameKind : name.kind = .identifier) (parent : Optional Superclass ts n superclass n')
    (openingKind : opening.kind = .symbol .leftBrace) (members : CompletesFunctions us n' fs n'')
    (closingKind : closing.kind = .symbol .rightBrace) :
    CompletesDeclaration (keyword :: name :: (ts ++ opening :: (us ++ [closing]))) n
      (.classDecl name superclass fs) n'' := by
  refine .of_read (List.cons_ne_nil _ _) fun k rest errors enough noElse => ?_
  simp only [List.cons_append, List.append_assoc, List.nil_append, List.length_cons,
    List.length_append] at enough ⊢
  have short : (us ++ closing :: rest).length ≤ k := by simp; omega
  exact (bind_of (accept_of kind)).trans
    (classDeclaration_of nameKind parent openingKind members closingKind short)

theorem funDecl_completes {f : FunctionDecl} (kind : keyword.kind = .symbol .funWord)
    (derived : CompletesFunction ts n f n') :
    CompletesDeclaration (keyword :: ts) n (.funDecl f) n' := by
  refine .of_read (List.cons_ne_nil _ _) fun k rest errors enough noElse => ?_
  have read := derived k rest errors .function (Nat.le_of_succ_le_succ enough)
  refine (bind_of (accept_of_other kind (by decide))).trans ((bind_of (accept_of kind)).trans ?_)
  exact bind_of read

theorem varDecl_completes (derived : VarDeclaration ts n s n') :
    CompletesDeclaration ts n s n' := by
  obtain ⟨kind, nameKind, value, endKind⟩ := derived
  refine .of_read (List.cons_ne_nil _ _) fun k rest errors enough noElse => ?_
  refine (bind_of (accept_of_other kind (by decide))).trans
    ((bind_of (accept_of_other kind (by decide))).trans ?_)
  exact (bind_of (accept_of kind)).trans (varDeclaration_of (.mk kind nameKind value endKind))

theorem statement_completes {d : Bool} (derived : Statement d ts n s n')
    (completes : CompletesStatement d ts n s n') : CompletesDeclaration ts n s n' := by
  refine .of_read derived.begins.ne_nil fun k rest errors enough noElse => ?_
  obtain ⟨t, us, rfl, noClass, noFun, noVar⟩ := derived.beginsStatement
  have read := completes (k + 1) rest errors enough fun _ => noElse
  refine (bind_of (accept_of_ne (by exact noClass))).trans ?_
  refine (bind_of (accept_of_ne (by exact noFun))).trans ?_
  exact (bind_of (accept_of_ne (by exact noVar))).trans read

end Declarations

end Lox.Parser

namespace Lox.Grammar
open Lox.Parser

mutual

theorem Declaration.completes {ts : List Token} {n n' : Nat} {s : Stmt} :
    Declaration ts n s n' → CompletesDeclaration ts n s n'
  | .classDecl kind nameKind parent openingKind members closingKind =>
      classDecl_completes kind nameKind parent openingKind members.completes closingKind
  | .funDecl kind derived => funDecl_completes kind derived.completes
  | .varDecl derived => varDecl_completes derived
  | .statement derived => statement_completes derived derived.completes

theorem Declarations.completes {ts : List Token} {n n' : Nat} {ss : List Stmt} :
    Declarations ts n ss n' → CompletesDeclarations ts n ss n'
  | .nil => noDeclarations_completes
  | .cons first others => declarations_complete first others first.completes others.completes

theorem Function.completes {ts : List Token} {n n' : Nat} {f : FunctionDecl} :
    Function ts n f n' → CompletesFunction ts n f n'
  | .mk nameKind openingKind params closingKind braceKind body braceKind' =>
      function_completes nameKind openingKind params closingKind braceKind body.completes braceKind'

theorem Functions.completes {ts : List Token} {n n' : Nat} {fs : List FunctionDecl} :
    Functions ts n fs n' → CompletesFunctions ts n fs n'
  | .nil => noFunctions_completes
  | .cons first others => functions_complete first first.completes others.completes

theorem Statement.completes {d : Bool} {ts : List Token} {n n' : Nat} {s : Stmt} :
    Statement d ts n s n' → CompletesStatement d ts n s n'
  | .expression derived => expressionStatement_completes derived
  | .print kind derived endKind => print_completes kind derived endKind
  | .returnStmt kind value endKind => returnStmt_completes kind value endKind
  | .block kind body closingKind => block_completes kind body.completes closingKind
  | .ifThen kind openingKind condition closingKind branch =>
      ifThen_completes kind openingKind condition closingKind branch.completes
  | .ifElse kind openingKind condition closingKind branch elseKind other =>
      ifElse_completes kind openingKind condition closingKind branch.completes elseKind other.completes
  | .whileLoop kind openingKind condition closingKind body =>
      whileLoop_completes kind openingKind condition closingKind body.completes
  | .forLoop kind openingKind first second endKind third closingKind body =>
      forLoop_completes kind openingKind first second endKind third closingKind body.completes

end

end Lox.Grammar

namespace Lox.Parser
open Grammar

/-! ## Whole inputs -/

theorem parseProgram_complete {tokens : List Token} {program : List Stmt}
    (derived : Program tokens program) :
    parseProgram tokens = .ok program := by
  obtain ⟨derived, kind⟩ := derived
  obtain ⟨-, read⟩ := derived.completes _ [_] #[] _ Nat.le.refl Nat.le.refl
  have parsed := read kind
  unfold parseProgram run
  rw [Parser.program, withRounds, parsed]
  rfl

theorem parseExpression_complete {tokens : List Token} {e : Expr} (derived : Whole tokens e) :
    parseExpression tokens = .ok e := by
  obtain ⟨derived, kind⟩ := derived
  have ends : Ends .expression [_] := fun s _ same => by
    rw [nextKind_cons, kind] at same
    cases same
  have read : wholeExpression ⟨_, 0, #[]⟩ = .ok e _ :=
    (bind_of (expression_of derived ends)).trans (bind_of (atEnd_of (by exact kind)))
  unfold parseExpression run
  rw [read]
  rfl

end Lox.Parser

namespace Lox

/--
Of tokens with the end of the input at their end only, the parser makes a tree exactly if the
grammar derives the tokens, and it makes the tree of the derivation. The same holds of a single
expression.
-/
theorem parse_eq_ok_iff_derives {body : List Token} {ending : Token}
    (endless : Grammar.Endless body) (kind : ending.kind = .endOfInput) :
    (∀ program, parseProgram (body ++ [ending]) = .ok program ↔
      Grammar.Program (body ++ [ending]) program) ∧
      ∀ e, parseExpression (body ++ [ending]) = .ok e ↔ Grammar.Whole (body ++ [ending]) e :=
  ⟨fun _ => ⟨Parser.parseProgram_sound endless kind, Parser.parseProgram_complete⟩,
    fun _ => ⟨Parser.parseExpression_sound endless kind, Parser.parseExpression_complete⟩⟩

/-- `if (a) if (b) c(); else d.e = f - g - h;`, where the `else` belongs to the second `if`. -/
def danglingElse : List Token :=
  let mark (symbol : Symbol) : Token := ⟨.symbol symbol, symbol.spelling, 1⟩
  let name (text : String) : Token := ⟨.identifier, text, 1⟩
  [mark .ifWord, mark .leftParen, name "a", mark .rightParen,
    mark .ifWord, mark .leftParen, name "b", mark .rightParen,
    name "c", mark .leftParen, mark .rightParen, mark .semicolon,
    mark .elseWord, name "d", mark .dot, name "e", mark .equal,
    name "f", mark .minus, name "g", mark .minus, name "h", mark .semicolon]

def danglingElseTree : List Stmt :=
  let name (text : String) : Token := ⟨.identifier, text, 1⟩
  let minus : Token := ⟨.symbol .minus, "-", 1⟩
  let difference : Expr :=
    .binary (.binary (.read ⟨4, name "f"⟩) minus (.read ⟨5, name "g"⟩)) minus (.read ⟨6, name "h"⟩)
  [.ifElse (.read ⟨0, name "a"⟩)
    (.ifElse (.read ⟨1, name "b"⟩)
      (.expression (.call (.read ⟨2, name "c"⟩) ⟨.symbol .rightParen, ")", 1⟩ []))
      (some (.expression (.set (.read ⟨3, name "d"⟩) (name "e") difference))))
    none]

theorem danglingElse_derives :
    Grammar.Endless danglingElse ∧ Parser.missingEnd.kind = .endOfInput ∧
      Grammar.Program (danglingElse ++ [Parser.missingEnd]) danglingElseTree := by
  have endless : Grammar.Endless danglingElse := by
    simp [Grammar.Endless, danglingElse]
  have parsed : parseProgram (danglingElse ++ [Parser.missingEnd]) = .ok danglingElseTree := by cbv
  exact ⟨endless, rfl, ((parse_eq_ok_iff_derives endless rfl).1 danglingElseTree).mp parsed⟩

end Lox
