import Lox.Proofs.Parser.Soundness

/-!
# Phrases are parsed

A parser whose tokens begin with a phrase reads that phrase, reports no error and stops behind it,
provided that the next token does not go on with it. Operations and calls are read from left to
right while their derivations nest to the left, so for them the statement is about the loop that
goes on after the phrase (`Completes`).
-/

namespace Lox.Parser
open Grammar

/-! ## Single tokens -/

variable {t : Token} {rest : List Token} {n : Nat} {errors : Array SyntaxError} {word : Symbol}

def nextKind (rest : List Token) : Kind := (rest.headD missingEnd).kind

@[simp] theorem nextKind_cons : nextKind (t :: rest) = t.kind := rfl

theorem acceptAny_of {symbols : List Symbol} (kind : t.kind = .symbol word) (mem : word ∈ symbols) :
    acceptAny symbols ⟨t :: rest, n, errors⟩ = .ok (some t) ⟨rest, n, errors⟩ := by
  simp only [acceptAny]
  rw [if_pos (any_isSymbol_iff.mpr ⟨word, mem, kind⟩)]

theorem acceptAny_of_ne {symbols : List Symbol} (other : ∀ s ∈ symbols, nextKind rest ≠ .symbol s) :
    acceptAny symbols ⟨rest, n, errors⟩ = .ok none ⟨rest, n, errors⟩ := by
  cases rest with
  | nil => rfl
  | cons t rest =>
      simp only [acceptAny]
      rw [if_neg]
      intro found
      obtain ⟨s, mem, kind⟩ := any_isSymbol_iff.mp found
      exact other s mem kind

theorem accept_of (kind : t.kind = .symbol word) :
    accept word ⟨t :: rest, n, errors⟩ = .ok (some t) ⟨rest, n, errors⟩ :=
  acceptAny_of kind (List.mem_singleton_self word)

theorem accept_of_ne (other : nextKind rest ≠ .symbol word) :
    accept word ⟨rest, n, errors⟩ = .ok none ⟨rest, n, errors⟩ :=
  acceptAny_of_ne fun s mem => by rwa [List.mem_singleton.mp mem]

theorem peek_of : peek ⟨t :: rest, n, errors⟩ = .ok t ⟨t :: rest, n, errors⟩ := rfl

theorem skip_of : skip ⟨t :: rest, n, errors⟩ = .ok () ⟨rest, n, errors⟩ := rfl

theorem expect_of {cause : SyntaxError.Cause} (kind : t.kind = .symbol word) :
    expect word cause ⟨t :: rest, n, errors⟩ = .ok t ⟨rest, n, errors⟩ := by
  rw [expect, bind_of (accept_of kind)]
  rfl

theorem expectName_of {cause : SyntaxError.Cause} (kind : t.kind = .identifier) :
    expectName cause ⟨t :: rest, n, errors⟩ = .ok t ⟨rest, n, errors⟩ := by
  rw [expectName, bind_of peek_of, kind]
  rfl

theorem at?_of_ne (other : nextKind rest ≠ .symbol word) :
    at? word ⟨rest, n, errors⟩ = .ok false ⟨rest, n, errors⟩ := by
  have missing : (nextKind rest).isSymbol word = false := by simpa [← isSymbol_iff] using other
  exact congrArg (EStateM.Result.ok · _) missing

theorem at?_of (kind : nextKind rest = .symbol word) :
    at? word ⟨rest, n, errors⟩ = .ok true ⟨rest, n, errors⟩ :=
  congrArg (EStateM.Result.ok · _) (isSymbol_iff.mpr kind)

/-! ## Expressions -/

def levelsFrom : Precedence → List Level
  | .disjunction => levels
  | .conjunction => levels.drop 1
  | .equality => levels.drop 2
  | .comparison => levels.drop 3
  | .term => levels.drop 4
  | .factor => levels.drop 5

def parserOf (k : Nat) : Nonterminal → Parser Expr
  | .expression => expressionWithin (k + 1)
  | .operation p => operations (withRounds (signs (calls (expressionWithin k)))) (levelsFrom p)
  | .unary => withRounds (signs (calls (expressionWithin k)))
  | .call => calls (expressionWithin k)
  | .primary => primary (expressionWithin k)

theorem parserOf_operation (k : Nat) (p : Precedence) :
    parserOf k (.operation p) = (do
      let left ← parserOf k p.operand
      withRounds (chain (levelOf p) (parserOf k p.operand) left)) := by
  cases p <;> rfl

def extenders : Nonterminal → List Symbol
  | .primary => []
  | .call | .unary => [.leftParen, .dot]
  | .operation .factor => [.slash, .star, .leftParen, .dot]
  | .operation .term => [.minus, .plus, .slash, .star, .leftParen, .dot]
  | .operation .comparison =>
      [.greater, .greaterEqual, .less, .lessEqual, .minus, .plus, .slash, .star, .leftParen, .dot]
  | .operation .equality =>
      [.bangEqual, .equalEqual, .greater, .greaterEqual, .less, .lessEqual, .minus, .plus, .slash,
        .star, .leftParen, .dot]
  | .operation .conjunction =>
      [.andWord, .bangEqual, .equalEqual, .greater, .greaterEqual, .less, .lessEqual, .minus, .plus,
        .slash, .star, .leftParen, .dot]
  | .operation .disjunction =>
      [.orWord, .andWord, .bangEqual, .equalEqual, .greater, .greaterEqual, .less, .lessEqual,
        .minus, .plus, .slash, .star, .leftParen, .dot]
  | .expression =>
      [.equal, .orWord, .andWord, .bangEqual, .equalEqual, .greater, .greaterEqual, .less,
        .lessEqual, .minus, .plus, .slash, .star, .leftParen, .dot]

theorem extenders_operation (p : Precedence) :
    extenders (.operation p) = p.operators ++ extenders p.operand := by
  cases p <;> rfl

def Ends (nonterminal : Nonterminal) (rest : List Token) : Prop :=
  ∀ s ∈ extenders nonterminal, nextKind rest ≠ .symbol s

theorem ends_of {nonterminal : Nonterminal} (kind : t.kind = .symbol word)
    (other : word ∉ extenders nonterminal) : Ends nonterminal (t :: rest) := by
  intro s mem same
  have : Kind.symbol word = .symbol s := kind.symm.trans same
  cases this
  exact other mem

theorem Ends.operators {p : Precedence} (ends : Ends (.operation p) rest) :
    ∀ s ∈ p.operators, nextKind rest ≠ .symbol s := by
  intro s mem
  exact ends s (by rw [extenders_operation]; exact List.mem_append_left _ mem)

theorem Ends.operand {p : Precedence} (ends : Ends (.operation p) rest) : Ends p.operand rest := by
  intro s mem
  exact ends s (by rw [extenders_operation]; exact List.mem_append_right _ mem)

theorem operators_not_extend (p : Precedence) : ∀ s ∈ p.operators, s ∉ extenders p.operand := by
  cases p <;> decide

theorem operator_ends {p : Precedence} (kind : t.kind = .symbol word) (mem : word ∈ p.operators) :
    Ends p.operand (t :: rest) :=
  ends_of kind (operators_not_extend p word mem)

theorem suffixes_of_ends {inner : Parser Expr} {target : Expr} (ends : Ends .call rest)
    (rounds : Nat) :
    suffixes inner target rounds ⟨rest, n, errors⟩ = .ok target ⟨rest, n, errors⟩ := by
  cases rounds with
  | zero => rfl
  | succ rounds =>
      rw [suffixes, bind_of (accept_of_ne (ends _ (by decide)))]
      rw [Option.isSome_none, if_neg Bool.false_ne_true, bind_of (accept_of_ne (ends _ (by decide)))]
      rfl

theorem chain_of_ends {p : Precedence} {operand : Parser Expr} {left : Expr}
    (ends : ∀ s ∈ p.operators, nextKind rest ≠ .symbol s) (rounds : Nat) :
    chain (levelOf p) operand left rounds ⟨rest, n, errors⟩ = .ok left ⟨rest, n, errors⟩ := by
  cases rounds with
  | zero => rfl
  | succ rounds =>
      have none : acceptAny (levelOf p).operators ⟨rest, n, errors⟩ = .ok none ⟨rest, n, errors⟩ :=
        acceptAny_of_ne ends
      rw [chain, bind_of none]
      rfl

/--
What there is to show of a derivation, for all that may follow it: the parser reads the phrase, or
it has read the phrase as the left part of the operations or calls that go on with it.
-/
def Completes (nonterminal : Nonterminal) (ts : List Token) (n : Nat) (e : Expr) (n' : Nat) :
    Prop :=
  ∀ k rest errors, (ts ++ rest).length ≤ k + 1 →
    match nonterminal with
    | .call => ∃ rounds, rest.length ≤ rounds ∧
        calls (expressionWithin k) ⟨ts ++ rest, n, errors⟩ =
          suffixes (expressionWithin k) e rounds ⟨rest, n', errors⟩
    | .operation p => Ends p.operand rest → ∃ rounds, rest.length ≤ rounds ∧
        parserOf k (.operation p) ⟨ts ++ rest, n, errors⟩ =
          chain (levelOf p) (parserOf k p.operand) e rounds ⟨rest, n', errors⟩
    | other => Ends other rest → parserOf k other ⟨ts ++ rest, n, errors⟩ = .ok e ⟨rest, n', errors⟩

theorem Completes.parserOf {nonterminal : Nonterminal} {ts : List Token} {n n' : Nat} {e : Expr}
    (completes : Completes nonterminal ts n e n') {k : Nat} (errors : Array SyntaxError)
    (enough : (ts ++ rest).length ≤ k + 1) (ends : Ends nonterminal rest) :
    parserOf k nonterminal ⟨ts ++ rest, n, errors⟩ = .ok e ⟨rest, n', errors⟩ := by
  have here := completes k rest errors enough
  cases nonterminal with
  | call =>
      obtain ⟨rounds, -, read⟩ := here
      exact read.trans (suffixes_of_ends ends rounds)
  | operation p =>
      obtain ⟨rounds, -, read⟩ := here ends.operand
      exact read.trans (chain_of_ends ends.operators rounds)
  | _ => exact here ends

theorem Completes.expressionWithin {ts : List Token} {n n' : Nat} {e : Expr}
    (completes : Completes .expression ts n e n') {k : Nat} (errors : Array SyntaxError)
    (begins : ts ≠ []) (enough : (ts ++ rest).length ≤ k) (ends : Ends .expression rest) :
    expressionWithin k ⟨ts ++ rest, n, errors⟩ = .ok e ⟨rest, n', errors⟩ := by
  cases k with
  | zero => simp_all
  | succ k => exact completes.parserOf errors enough ends

/-! ### Operands -/

theorem constant_completes {value : Literal} (constant : Constant t.kind value) :
    Completes .primary [t] n (.literal value) n := by
  intro k rest errors enough ends
  change primary (expressionWithin k) ⟨t :: rest, n, errors⟩ = _
  rw [primary, bind_of peek_of]
  generalize t.kind = kind at constant
  cases constant <;> rfl

theorem name_completes (kind : t.kind = .identifier) :
    Completes .primary [t] n (.read ⟨n, t⟩) (n + 1) := by
  intro k rest errors enough ends
  change primary (expressionWithin k) ⟨t :: rest, n, errors⟩ = _
  rw [primary, bind_of peek_of, kind]
  rfl

theorem self_completes (kind : t.kind = .symbol .thisWord) :
    Completes .primary [t] n (.self ⟨n, t⟩) (n + 1) := by
  intro k rest errors enough ends
  change primary (expressionWithin k) ⟨t :: rest, n, errors⟩ = _
  rw [primary, bind_of peek_of, kind]
  rfl

theorem inherited_completes {dot method : Token} (kind : t.kind = .symbol .superWord)
    (dotKind : dot.kind = .symbol .dot) (methodKind : method.kind = .identifier) :
    Completes .primary [t, dot, method] n (.inherited ⟨n, t⟩ method) (n + 1) := by
  intro k rest errors enough ends
  change primary (expressionWithin k) ⟨t :: dot :: method :: rest, n, errors⟩ = _
  rw [primary, bind_of peek_of, kind]
  simp only
  rw [bind_of skip_of, bind_of (expect_of dotKind), bind_of (expectName_of methodKind)]
  rfl

theorem grouping_completes {opening closing : Token} {ts : List Token} {n' : Nat} {e : Expr}
    (kind : opening.kind = .symbol .leftParen) (inner : Completes .expression ts n e n')
    (begins : ts ≠ []) (closingKind : closing.kind = .symbol .rightParen) :
    Completes .primary (opening :: (ts ++ [closing])) n (.grouping e) n' := by
  intro k rest errors enough ends
  simp only [List.cons_append, List.append_assoc, List.nil_append, List.length_cons] at enough ⊢
  have closes : Ends .expression (closing :: rest) := ends_of closingKind (by decide)
  have read := inner.expressionWithin errors begins (Nat.le_of_succ_le_succ enough) closes
  change primary (expressionWithin k) ⟨opening :: (ts ++ closing :: rest), n, errors⟩ = _
  rw [primary, bind_of peek_of, kind]
  simp only
  rw [bind_of skip_of, bind_of read, bind_of (expect_of closingKind)]
  rfl

theorem sign_completes {operator : Token} {ts : List Token} {n' : Nat} {right : Expr}
    (kind : operator.kind = .symbol word) (mem : word ∈ [Symbol.bang, .minus])
    (inner : Completes .unary ts n right n') :
    Completes .unary (operator :: ts) n (.unary operator right) n' := by
  intro k rest errors enough ends
  have read : withRounds (signs (calls (expressionWithin k))) ⟨ts ++ rest, n, errors⟩ = _ :=
    inner k rest errors (Nat.le_of_succ_le enough) ends
  change signs (calls (expressionWithin k))
    ((ts ++ rest).length + 1) ⟨operator :: (ts ++ rest), n, errors⟩ = _
  rw [signs, bind_of (acceptAny_of kind mem)]
  exact bind_of read

theorem unsigned_completes {ts : List Token} {n' : Nat} {e : Expr}
    (inner : Completes .call ts n e n') (begins : BeginsWith startsOperand ts) :
    Completes .unary ts n e n' := by
  intro k rest errors enough ends
  have read := inner.parserOf errors enough ends
  obtain ⟨t, ts, rfl, notBang, notMinus⟩ := begins
  have noSign : ∀ s ∈ [Symbol.bang, .minus], nextKind (t :: (ts ++ rest)) ≠ .symbol s := by
    simp [notBang, notMinus]
  change signs (calls (expressionWithin k)) ((ts ++ rest).length + 1) ⟨t :: (ts ++ rest), n, errors⟩ = _
  rw [signs, bind_of (acceptAny_of_ne noSign)]
  exact read

/-! ### Calls -/

theorem primary_completes {ts : List Token} {n' : Nat} {e : Expr}
    (inner : Completes .primary ts n e n') :
    Completes .call ts n e n' := by
  intro k rest errors enough
  have read : primary (expressionWithin k) ⟨ts ++ rest, n, errors⟩ = _ :=
    inner k rest errors enough nofun
  refine ⟨rest.length, Nat.le.refl, ?_⟩
  rw [calls, bind_of read]
  rfl

theorem get_completes {dot name : Token} {ts : List Token} {n' : Nat} {o : Expr}
    (object : Completes .call ts n o n') (dotKind : dot.kind = .symbol .dot)
    (nameKind : name.kind = .identifier) :
    Completes .call (ts ++ [dot, name]) n (.get o name) n' := by
  intro k rest errors enough
  rw [List.append_assoc] at enough ⊢
  obtain ⟨rounds, more, read⟩ := object k _ errors enough
  cases rounds with
  | zero => simp at more
  | succ rounds =>
      simp only [List.cons_append, List.nil_append, List.length_cons] at more read ⊢
      refine ⟨rounds, by omega, read.trans ?_⟩
      have noParen : nextKind (dot :: name :: rest) ≠ .symbol .leftParen := by simp [dotKind]
      rw [suffixes, bind_of (accept_of_ne noParen), Option.isSome_none, if_neg Bool.false_ne_true,
        bind_of (accept_of dotKind), Option.isSome_some, if_pos rfl, bind_of (expectName_of nameKind)]

theorem callEmpty_completes {opening closing : Token} {ts : List Token} {n' : Nat} {callee : Expr}
    (inner : Completes .call ts n callee n') (kind : opening.kind = .symbol .leftParen)
    (closingKind : closing.kind = .symbol .rightParen) :
    Completes .call (ts ++ [opening, closing]) n (.call callee closing []) n' := by
  intro k rest errors enough
  rw [List.append_assoc] at enough ⊢
  obtain ⟨rounds, more, read⟩ := inner k _ errors enough
  cases rounds with
  | zero => simp at more
  | succ rounds =>
      simp only [List.cons_append, List.nil_append, List.length_cons] at more read ⊢
      refine ⟨rounds, by omega, read.trans ?_⟩
      have empty : nextKind (closing :: rest) = .symbol .rightParen := closingKind
      rw [suffixes, bind_of (accept_of kind), Option.isSome_some, if_pos rfl,
        bind_of (at?_of empty), if_pos rfl]
      exact bind_of (expect_of closingKind)

def CompletesArguments (ts : List Token) (n : Nat) (es : List Expr) (n' : Nat) : Prop :=
  ∀ k rest errors count rounds, (ts ++ rest).length ≤ k → (ts ++ rest).length ≤ rounds →
    count + es.length ≤ mostParameters → nextKind rest = .symbol .rightParen →
    arguments (expressionWithin k) count rounds ⟨ts ++ rest, n, errors⟩ = .ok es ⟨rest, n', errors⟩

theorem argument_of {ts : List Token} {n' : Nat} {e : Expr} (errors : Array SyntaxError)
    (inner : Completes .expression ts n e n') (begins : ts ≠ []) {k count : Nat}
    (enough : (ts ++ rest).length ≤ k) (below : count < mostParameters)
    (ends : Ends .expression rest) :
    argument (expressionWithin k) count ⟨ts ++ rest, n, errors⟩ = .ok e ⟨rest, n', errors⟩ := by
  unfold argument
  rw [if_neg (by omega)]
  exact inner.expressionWithin errors begins enough ends

theorem one_completes {ts : List Token} {n' : Nat} {e : Expr}
    (inner : Completes .expression ts n e n') (begins : ts ≠ []) :
    CompletesArguments ts n [e] n' := by
  intro k rest errors count rounds enough more short closes
  have ends : Ends .expression rest := by
    intro s mem same
    rw [closes] at same
    cases same
    revert mem
    decide
  have read := argument_of errors inner begins enough short ends
  have noComma : nextKind rest ≠ .symbol .comma := by rw [closes]; nofun
  cases rounds with
  | zero =>
      rw [arguments, bind_of read]
      rfl
  | succ rounds =>
      rw [arguments, bind_of read, bind_of (accept_of_ne noComma)]
      rfl

theorem more_completes {comma : Token} {ts us : List Token} {n' n'' : Nat} {e : Expr}
    {es : List Expr} (inner : Completes .expression ts n e n') (begins : ts ≠ [])
    (kind : comma.kind = .symbol .comma) (others : CompletesArguments us n' es n'') :
    CompletesArguments (ts ++ comma :: us) n (e :: es) n'' := by
  intro k rest errors count rounds enough more short closes
  simp only [List.append_assoc, List.cons_append, List.length_cons] at enough more short ⊢
  cases rounds with
  | zero => simp at more
  | succ rounds =>
      have read := argument_of errors inner begins enough (show count < mostParameters by omega)
        (ends_of kind (by decide))
      simp only [List.length_append, List.length_cons] at enough more
      have readMore :=
        others k rest errors (count + 1) rounds (by simp; omega) (by simp; omega) (by omega) closes
      rw [arguments, bind_of read, bind_of (accept_of kind)]
      exact bind_of readMore

theorem call_completes {opening closing : Token} {ts us : List Token} {n' n'' : Nat} {callee : Expr}
    {es : List Expr} (inner : Completes .call ts n callee n')
    (kind : opening.kind = .symbol .leftParen) (listed : CompletesArguments us n' es n'')
    (begins : BeginsWith (startsExpression · = true) us) (short : es.length ≤ longestList)
    (closingKind : closing.kind = .symbol .rightParen) :
    Completes .call (ts ++ opening :: (us ++ [closing])) n (.call callee closing es) n'' := by
  intro k rest errors enough
  simp only [List.append_assoc, List.cons_append, List.nil_append] at enough ⊢
  obtain ⟨rounds, more, read⟩ := inner k _ errors enough
  cases rounds with
  | zero => simp at more
  | succ rounds =>
      simp only [List.length_append, List.length_cons] at enough more
      refine ⟨rounds, by omega, read.trans ?_⟩
      have readList :=
        listed k (closing :: rest) errors 0 (us ++ closing :: rest).length (by simp; omega)
        Nat.le.refl (by rw [Nat.zero_add]; exact short) closingKind
      have given : nextKind (us ++ closing :: rest) ≠ .symbol .rightParen := by
        obtain ⟨t, us, rfl, starts⟩ := begins
        rintro same
        rw [List.cons_append, nextKind_cons] at same
        rw [same] at starts
        cases starts
      rw [suffixes, bind_of (accept_of kind), Option.isSome_some, if_pos rfl, bind_of (at?_of_ne given),
        if_neg Bool.false_ne_true]
      exact (bind_of readList).trans (bind_of (expect_of closingKind))

/-! ### Operations -/

theorem operand_completes {p : Precedence} {ts : List Token} {n' : Nat} {e : Expr}
    (inner : Completes p.operand ts n e n') : Completes (.operation p) ts n e n' := by
  intro k rest errors enough ends
  have read := inner.parserOf errors enough ends
  refine ⟨rest.length, Nat.le.refl, ?_⟩
  rw [parserOf_operation, bind_of read]
  rfl

theorem operate_completes {p : Precedence} {operator : Token} {ts us : List Token} {n' n'' : Nat}
    {l r : Expr} (left : Completes (.operation p) ts n l n') (kind : operator.kind = .symbol word)
    (mem : word ∈ p.operators) (right : Completes p.operand us n' r n'') :
    Completes (.operation p) (ts ++ operator :: us) n (p.build l operator r) n'' := by
  intro k rest errors enough ends
  simp only [List.append_assoc, List.cons_append] at enough ⊢
  obtain ⟨rounds, more, read⟩ := left k _ errors enough (operator_ends kind mem)
  cases rounds with
  | zero => simp at more
  | succ rounds =>
      simp only [List.length_append, List.length_cons] at enough more
      have readRight := right.parserOf (k := k) errors (by simp; omega) ends
      refine ⟨rounds, by omega, read.trans ?_⟩
      have accepted : acceptAny (levelOf p).operators ⟨operator :: (us ++ rest), n', errors⟩ = _ :=
        acceptAny_of kind mem
      rw [chain, bind_of accepted]
      exact bind_of readRight

/-! ### Assignments -/

theorem operation_completes {ts : List Token} {n' : Nat} {e : Expr}
    (inner : Completes (.operation .disjunction) ts n e n') : Completes .expression ts n e n' := by
  intro k rest errors enough ends
  have noOperator : Ends (.operation .disjunction) rest :=
    fun s mem => ends s (List.mem_cons_of_mem _ mem)
  have read := inner.parserOf errors enough noOperator
  change expressionWithin (k + 1) _ = _
  rw [expressionWithin]
  exact (bind_of read).trans (bind_of (accept_of_ne (ends _ (by decide))))

/-- A target is read as an operation, before it is known that an equals sign follows. -/
theorem target_completes {equals : Token} {ts us : List Token} {n' n'' : Nat}
    {target value e : Expr} (left : Completes (.operation .disjunction) ts n target n')
    (kind : equals.kind = .symbol .equal) (right : Completes .expression us n' value n'')
    (begins : us ≠ []) (assigned : assignTo target equals value = pure e) :
    Completes .expression (ts ++ equals :: us) n e n'' := by
  intro k rest errors enough ends
  simp only [List.append_assoc, List.cons_append] at enough ⊢
  have read := left.parserOf errors enough (ends_of kind (by decide))
  simp only [List.length_append, List.length_cons] at enough
  have readRight := right.expressionWithin (k := k) errors begins (by simp; omega) ends
  change expressionWithin (k + 1) _ = _
  rw [expressionWithin]
  refine (bind_of read).trans ((bind_of (accept_of kind)).trans ((bind_of readRight).trans ?_))
  rw [assigned]
  rfl

theorem call_target {ts : List Token} {n' : Nat} {e : Expr} (inner : Completes .call ts n e n')
    (begins : BeginsWith startsOperand ts) : Completes (.operation .disjunction) ts n e n' := by
  have unary := unsigned_completes inner begins
  have factor := operand_completes (p := .factor) unary
  have term := operand_completes (p := .term) factor
  have comparison := operand_completes (p := .comparison) term
  have equality := operand_completes (p := .equality) comparison
  have conjunction := operand_completes (p := .conjunction) equality
  exact operand_completes (p := .disjunction) conjunction

end Lox.Parser

namespace Lox.Grammar
open Lox.Parser

theorem begins_of_name {t : Token} (kind : t.kind = .identifier) : BeginsWith startsOperand [t] :=
  ⟨t, [], rfl, by simp [startsOperand, kind]⟩

theorem Arguments.begins {ts : List Token} {n n' : Nat} {es : List Expr}
    (derived : Arguments ts n es n') :
    BeginsWith (startsExpression · = true) ts := by
  cases derived with
  | one derived => exact derived.begins
  | more derived => exact derived.begins.append _

mutual

theorem Derives.completes {nonterminal : Nonterminal} {ts : List Token} {n n' : Nat} {e : Expr} :
    Derives nonterminal ts n e n' → Completes nonterminal ts n e n'
  | .assignName kind equalsKind value => by
      have target :=
        call_target (primary_completes (name_completes (n := n) kind)) (begins_of_name kind)
      exact target_completes target equalsKind value.completes value.begins.ne_nil rfl
  | .assignField object dotKind nameKind equalsKind value => by
      have target := call_target (get_completes object.completes dotKind nameKind)
        ((object.beginsOperand rfl).append _)
      have assigned := target_completes target equalsKind value.completes value.begins.ne_nil rfl
      rwa [List.append_assoc] at assigned
  | .operation derived => operation_completes derived.completes
  | .operate left kind mem right => operate_completes left.completes kind mem right.completes
  | .operand derived => operand_completes derived.completes
  | .sign kind mem right => sign_completes kind mem right.completes
  | .unsigned derived => unsigned_completes derived.completes (derived.beginsOperand rfl)
  | .callEmpty callee kind closingKind => callEmpty_completes callee.completes kind closingKind
  | .call callee kind listed short closingKind =>
      call_completes callee.completes kind listed.completes listed.begins short closingKind
  | .get object dotKind nameKind => get_completes object.completes dotKind nameKind
  | .primary derived => primary_completes derived.completes
  | .constant constant => constant_completes constant
  | .name kind => name_completes kind
  | .self kind => self_completes kind
  | .inherited kind dotKind methodKind => inherited_completes kind dotKind methodKind
  | .grouping kind inner closingKind => grouping_completes kind inner.completes inner.begins.ne_nil closingKind

theorem Arguments.completes {ts : List Token} {n n' : Nat} {es : List Expr} :
    Arguments ts n es n' → CompletesArguments ts n es n'
  | .one derived => one_completes derived.completes derived.begins.ne_nil
  | .more derived kind others => more_completes derived.completes derived.begins.ne_nil kind others.completes

end

end Lox.Grammar
