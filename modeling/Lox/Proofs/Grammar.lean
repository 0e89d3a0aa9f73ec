import Lox.Syntax

/-!
# The grammar

The phrases of the language as relations between tokens and trees, one rule for each production:

    program     → declaration* EOF
    declaration → "class" IDENT ( "<" IDENT )? "{" function* "}" | "fun" function | varDecl | statement
    function    → IDENT "(" parameters? ")" "{" declaration* "}"
    varDecl     → "var" IDENT ( "=" expression )? ";"
    statement   → expression ";" | "print" expression ";" | "return" expression? ";" | "{" declaration* "}"
                | "if" "(" expression ")" statement ( "else" statement )? | "while" "(" expression ")" statement
                | "for" "(" ( varDecl | expression ";" | ";" ) expression? ";" expression? ")" statement
    expression  → ( call "." )? IDENT "=" expression | operation
    operation   → operand ( operator operand )*, with one level for each precedence
    unary       → ( "!" | "-" ) unary | call
    call        → primary ( "(" arguments? ")" | "." IDENT )*
    primary     → constant | IDENT | "this" | "super" "." IDENT | "(" expression ")"

A tree numbers its references in the order in which their names are read, so a phrase also relates
the first free number before it to the first free number after it. Nothing here looks ahead: that an
`else` belongs to the nearest `if` is the rule that no `else` follows a statement that could still
take one.
-/

namespace Lox.Grammar

/-- Tokens, the first free number before them, their tree, and the first free number after them. -/
abbrev Phrase (α : Type) := List Token → Nat → α → Nat → Prop

def longestList : Nat := 255

/-! ## Expressions -/

inductive Precedence where
  | disjunction
  | conjunction
  | equality
  | comparison
  | term
  | factor

inductive Nonterminal where
  | expression
  | operation (precedence : Precedence)
  | unary
  | call
  | primary

namespace Precedence

def operators : Precedence → List Symbol
  | disjunction => [.orWord]
  | conjunction => [.andWord]
  | equality => [.bangEqual, .equalEqual]
  | comparison => [.greater, .greaterEqual, .less, .lessEqual]
  | term => [.minus, .plus]
  | factor => [.slash, .star]

def operand : Precedence → Nonterminal
  | disjunction => .operation .conjunction
  | conjunction => .operation .equality
  | equality => .operation .comparison
  | comparison => .operation .term
  | term => .operation .factor
  | factor => .unary

def build : Precedence → Expr → Token → Expr → Expr
  | disjunction | conjunction => .logical
  | _ => .binary

end Precedence

inductive Constant : Kind → Literal → Prop where
  | no : Constant (.symbol .falseWord) (.boolean false)
  | yes : Constant (.symbol .trueWord) (.boolean true)
  | nil : Constant (.symbol .nilWord) .nil
  | number (value : Float) : Constant (.number value) (.number value)
  | string (text : String) : Constant (.string text) (.string text)

mutual

/--
Operations group to the left: the left operand may be an operation of the same precedence, the right
one not.
-/
inductive Derives : Nonterminal → Phrase Expr where
  -- IDENT "=" expression
  | assignName {name equals : Token} {ts : List Token} {n n' : Nat} {v : Expr} :
      name.kind = .identifier → equals.kind = .symbol .equal →
      Derives .expression ts (n + 1) v n' →
      Derives .expression (name :: equals :: ts) n (.assign ⟨n, name⟩ v) n'
  -- call "." IDENT "=" expression
  | assignField {name equals dot : Token} {ts us : List Token} {n n' n'' : Nat} {v o : Expr} :
      Derives .call ts n o n' → dot.kind = .symbol .dot → name.kind = .identifier →
      equals.kind = .symbol .equal → Derives .expression us n' v n'' →
      Derives .expression (ts ++ dot :: name :: equals :: us) n (.set o name v) n''
  | operation {ts : List Token} {n n' : Nat} {e : Expr} :
      Derives (.operation .disjunction) ts n e n' → Derives .expression ts n e n'
  -- operation operator operand
  | operate {operator : Token} {ts us : List Token} {n n' n'' : Nat} {l r : Expr} {s : Symbol}
      {p : Precedence} :
      Derives (.operation p) ts n l n' → operator.kind = .symbol s → s ∈ p.operators →
      Derives p.operand us n' r n'' →
      Derives (.operation p) (ts ++ operator :: us) n (p.build l operator r) n''
  | operand {ts : List Token} {n n' : Nat} {e : Expr} {p : Precedence} :
      Derives p.operand ts n e n' → Derives (.operation p) ts n e n'
  -- ( "!" | "-" ) unary
  | sign {operator : Token} {ts : List Token} {n n' : Nat} {r : Expr} {s : Symbol} :
      operator.kind = .symbol s → s ∈ [Symbol.bang, .minus] → Derives .unary ts n r n' →
      Derives .unary (operator :: ts) n (.unary operator r) n'
  | unsigned {ts : List Token} {n n' : Nat} {e : Expr} :
      Derives .call ts n e n' → Derives .unary ts n e n'
  -- call "(" ")"
  | callEmpty {opening closing : Token} {ts : List Token} {n n' : Nat} {e : Expr} :
      Derives .call ts n e n' → opening.kind = .symbol .leftParen →
      closing.kind = .symbol .rightParen →
      Derives .call (ts ++ [opening, closing]) n (.call e closing []) n'
  -- call "(" arguments ")"
  | call {opening closing : Token} {ts us : List Token} {n n' n'' : Nat} {e : Expr} {es : List Expr} :
      Derives .call ts n e n' → opening.kind = .symbol .leftParen → Arguments us n' es n'' →
      es.length ≤ longestList → closing.kind = .symbol .rightParen →
      Derives .call (ts ++ opening :: (us ++ [closing])) n (.call e closing es) n''
  -- call "." IDENT
  | get {name dot : Token} {ts : List Token} {n n' : Nat} {o : Expr} :
      Derives .call ts n o n' → dot.kind = .symbol .dot → name.kind = .identifier →
      Derives .call (ts ++ [dot, name]) n (.get o name) n'
  | primary {ts : List Token} {n n' : Nat} {e : Expr} :
      Derives .primary ts n e n' → Derives .call ts n e n'
  | constant {t : Token} {n : Nat} {value : Literal} :
      Constant t.kind value → Derives .primary [t] n (.literal value) n
  | name {name : Token} {n : Nat} :
      name.kind = .identifier → Derives .primary [name] n (.read ⟨n, name⟩) (n + 1)
  | self {keyword : Token} {n : Nat} :
      keyword.kind = .symbol .thisWord → Derives .primary [keyword] n (.self ⟨n, keyword⟩) (n + 1)
  -- "super" "." IDENT
  | inherited {dot keyword method : Token} {n : Nat} :
      keyword.kind = .symbol .superWord → dot.kind = .symbol .dot → method.kind = .identifier →
      Derives .primary [keyword, dot, method] n (.inherited ⟨n, keyword⟩ method) (n + 1)
  -- "(" expression ")"
  | grouping {opening closing : Token} {ts : List Token} {n n' : Nat} {e : Expr} :
      opening.kind = .symbol .leftParen → Derives .expression ts n e n' →
      closing.kind = .symbol .rightParen →
      Derives .primary (opening :: (ts ++ [closing])) n (.grouping e) n'

inductive Arguments : Phrase (List Expr) where
  | one {ts : List Token} {n n' : Nat} {e : Expr} :
      Derives .expression ts n e n' → Arguments ts n [e] n'
  | more {comma : Token} {ts us : List Token} {n n' n'' : Nat} {e : Expr} {es : List Expr} :
      Derives .expression ts n e n' → comma.kind = .symbol .comma → Arguments us n' es n'' →
      Arguments (ts ++ comma :: us) n (e :: es) n''

end

/-! ## Statements -/

inductive Optional {α : Type} (phrase : Phrase α) : Phrase (Option α) where
  | absent {n : Nat} : Optional phrase [] n none n
  | present {ts : List Token} {n n' : Nat} {a : α} : phrase ts n a n' → Optional phrase ts n (some a) n'

inductive Initializer : Phrase Expr where
  | mk {equals : Token} {ts : List Token} {n n' : Nat} {e : Expr} :
      equals.kind = .symbol .equal → Derives .expression ts n e n' → Initializer (equals :: ts) n e n'

inductive VarDeclaration : Phrase Stmt where
  -- "var" IDENT ( "=" expression )? ";"
  | mk {name keyword semicolon : Token} {ts : List Token} {n n' : Nat} {value : Option Expr} :
      keyword.kind = .symbol .varWord → name.kind = .identifier → Optional Initializer ts n value n' →
      semicolon.kind = .symbol .semicolon →
      VarDeclaration (keyword :: name :: (ts ++ [semicolon])) n (.varDecl name value) n'

inductive ExpressionStatement : Phrase Stmt where
  -- expression ";"
  | mk {semicolon : Token} {ts : List Token} {n n' : Nat} {e : Expr} :
      Derives .expression ts n e n' → semicolon.kind = .symbol .semicolon →
      ExpressionStatement (ts ++ [semicolon]) n (.expression e) n'

inductive LoopInitializer : Phrase (Option Stmt) where
  | absent {semicolon : Token} {n : Nat} :
      semicolon.kind = .symbol .semicolon → LoopInitializer [semicolon] n none n
  | variable {ts : List Token} {n n' : Nat} {s : Stmt} :
      VarDeclaration ts n s n' → LoopInitializer ts n (some s) n'
  | expression {ts : List Token} {n n' : Nat} {s : Stmt} :
      ExpressionStatement ts n s n' → LoopInitializer ts n (some s) n'

def withIncrement (body : Stmt) : Option Expr → Stmt
  | none => body
  | some step => .block [body, .expression step]

def withInitializer (loop : Stmt) : Option Stmt → Stmt
  | none => loop
  | some first => .block [first, loop]

def loopTree (initializer : Option Stmt) (condition increment : Option Expr) (body : Stmt) : Stmt :=
  withInitializer
    (.whileLoop (condition.getD (.literal (.boolean true))) (withIncrement body increment)) initializer

inductive Parameters : List Token → List Token → Prop where
  | one {name : Token} : name.kind = .identifier → Parameters [name] [name]
  | more {name comma : Token} {ts : List Token} {params : List Token} :
      name.kind = .identifier → comma.kind = .symbol .comma → Parameters ts params →
      Parameters (name :: comma :: ts) (name :: params)

inductive ParameterList : List Token → List Token → Prop where
  | empty : ParameterList [] []
  | names {ts : List Token} {params : List Token} :
      Parameters ts params → params.length ≤ longestList → ParameterList ts params

inductive Superclass : Phrase Reference where
  -- "<" IDENT
  | mk {name less : Token} {n : Nat} :
      less.kind = .symbol .less → name.kind = .identifier → Superclass [less, name] n ⟨n, name⟩ (n + 1)

mutual

inductive Declaration : Phrase Stmt where
  -- "class" IDENT ( "<" IDENT )? "{" function* "}"
  | classDecl {name opening closing keyword : Token} {ts us : List Token} {n n' n'' : Nat}
      {fs : List FunctionDecl} {superclass : Option Reference} :
      keyword.kind = .symbol .classWord → name.kind = .identifier →
      Optional Superclass ts n superclass n' → opening.kind = .symbol .leftBrace →
        Functions us n' fs n'' →
      closing.kind = .symbol .rightBrace →
      Declaration (keyword :: name :: (ts ++ opening :: (us ++ [closing]))) n
        (.classDecl name superclass fs) n''
  -- "fun" function
  | funDecl {keyword : Token} {ts : List Token} {n n' : Nat} {f : FunctionDecl} :
      keyword.kind = .symbol .funWord → Function ts n f n' →
      Declaration (keyword :: ts) n (.funDecl f) n'
  | varDecl {ts : List Token} {n n' : Nat} {s : Stmt} :
      VarDeclaration ts n s n' → Declaration ts n s n'
  | statement {ts : List Token} {n n' : Nat} {s : Stmt} {d : Bool} :
      Statement d ts n s n' → Declaration ts n s n'

inductive Declarations : Phrase (List Stmt) where
  | nil {n : Nat} : Declarations [] n [] n
  | cons {ts us : List Token} {n n' n'' : Nat} {s : Stmt} {ss : List Stmt} :
      Declaration ts n s n' → Declarations us n' ss n'' → Declarations (ts ++ us) n (s :: ss) n''

inductive Function : Phrase FunctionDecl where
  -- IDENT "(" parameters? ")" "{" declaration* "}"
  | mk {name opening closing brace brace' : Token} {ts us : List Token} {n n' : Nat}
      {params : List Token} {ss : List Stmt} :
      name.kind = .identifier → opening.kind = .symbol .leftParen → ParameterList ts params →
      closing.kind = .symbol .rightParen → brace.kind = .symbol .leftBrace → Declarations us n ss n' →
      brace'.kind = .symbol .rightBrace →
      Function (name :: opening :: (ts ++ closing :: brace :: (us ++ [brace']))) n ⟨name, params, ss⟩ n'

inductive Functions : Phrase (List FunctionDecl) where
  | nil {n : Nat} : Functions [] n [] n
  | cons {ts us : List Token} {n n' n'' : Nat} {f : FunctionDecl} {fs : List FunctionDecl} :
      Function ts n f n' → Functions us n' fs n'' → Functions (ts ++ us) n (f :: fs) n''

/-- The flag says that the statement ends in a conditional without `else`, which would take one. -/
inductive Statement : Bool → Phrase Stmt where
  | expression {ts : List Token} {n n' : Nat} {s : Stmt} :
      ExpressionStatement ts n s n' → Statement false ts n s n'
  -- "print" expression ";"
  | print {keyword semicolon : Token} {ts : List Token} {n n' : Nat} {e : Expr} :
      keyword.kind = .symbol .printWord → Derives .expression ts n e n' →
      semicolon.kind = .symbol .semicolon →
      Statement false (keyword :: (ts ++ [semicolon])) n (.print e) n'
  -- "return" expression? ";"
  | returnStmt {keyword semicolon : Token} {ts : List Token} {n n' : Nat} {value : Option Expr} :
      keyword.kind = .symbol .returnWord → Optional (Derives .expression) ts n value n' →
      semicolon.kind = .symbol .semicolon →
      Statement false (keyword :: (ts ++ [semicolon])) n (.returnStmt keyword value) n'
  -- "{" declaration* "}"
  | block {opening closing : Token} {ts : List Token} {n n' : Nat} {ss : List Stmt} :
      opening.kind = .symbol .leftBrace → Declarations ts n ss n' → closing.kind = .symbol .rightBrace →
      Statement false (opening :: (ts ++ [closing])) n (.block ss) n'
  -- "if" "(" expression ")" statement
  | ifThen {opening closing keyword : Token} {ts us : List Token} {n n' n'' : Nat} {e : Expr}
      {s : Stmt} {d : Bool} :
      keyword.kind = .symbol .ifWord → opening.kind = .symbol .leftParen →
      Derives .expression ts n e n' → closing.kind = .symbol .rightParen → Statement d us n' s n'' →
      Statement true (keyword :: opening :: (ts ++ closing :: us)) n (.ifElse e s none) n''
  -- "if" "(" expression ")" statement "else" statement
  | ifElse {opening closing keyword otherwise : Token} {ts us vs : List Token} {n n' n'' n₃ : Nat}
      {e : Expr} {s s' : Stmt} {d : Bool} :
      keyword.kind = .symbol .ifWord → opening.kind = .symbol .leftParen →
      Derives .expression ts n e n' → closing.kind = .symbol .rightParen → Statement false us n' s n'' →
      otherwise.kind = .symbol .elseWord → Statement d vs n'' s' n₃ →
      Statement d (keyword :: opening :: (ts ++ closing :: (us ++ otherwise :: vs))) n
        (.ifElse e s (some s')) n₃
  -- "while" "(" expression ")" statement
  | whileLoop {opening closing keyword : Token} {ts us : List Token} {n n' n'' : Nat} {e : Expr}
      {s : Stmt} {d : Bool} :
      keyword.kind = .symbol .whileWord → opening.kind = .symbol .leftParen →
      Derives .expression ts n e n' → closing.kind = .symbol .rightParen → Statement d us n' s n'' →
      Statement d (keyword :: opening :: (ts ++ closing :: us)) n (.whileLoop e s) n''
  -- "for" "(" initializer expression? ";" expression? ")" statement
  | forLoop {opening closing keyword semicolon : Token} {ts us vs ws : List Token}
      {n n' n'' n₃ n₄ : Nat}
      {s : Stmt} {d : Bool} {initializer : Option Stmt} {condition : Option Expr}
      {increment : Option Expr} :
      keyword.kind = .symbol .forWord → opening.kind = .symbol .leftParen →
      LoopInitializer ts n initializer n' → Optional (Derives .expression) us n' condition n'' →
      semicolon.kind = .symbol .semicolon → Optional (Derives .expression) vs n'' increment n₃ →
      closing.kind = .symbol .rightParen → Statement d ws n₃ s n₄ →
      Statement d (keyword :: opening :: (ts ++ (us ++ semicolon :: (vs ++ closing :: ws)))) n
        (loopTree initializer condition increment s) n₄

end

inductive Program : List Token → List Stmt → Prop where
  | mk {t : Token} {ts : List Token} {n : Nat} {ss : List Stmt} :
      Declarations ts 0 ss n → t.kind = .endOfInput → Program (ts ++ [t]) ss

inductive Whole : List Token → Expr → Prop where
  | mk {t : Token} {ts : List Token} {n : Nat} {e : Expr} :
      Derives .expression ts 0 e n → t.kind = .endOfInput → Whole (ts ++ [t]) e

/-! ## Trees that are no operations -/

def isOperation : Expr → Bool
  | .unary .. | .binary .. | .logical .. => true
  | _ => false

theorem isOperation_build (p : Precedence) (l : Expr) (operator : Token) (r : Expr) :
    isOperation (p.build l operator r) = true := by
  cases p <;> rfl

theorem Derives.descend {p : Precedence} {ts : List Token} {n n' : Nat} {e : Expr}
    (derived : Derives (.operation p) ts n e n') (simple : isOperation e = false) :
    Derives p.operand ts n e n' := by
  cases derived with
  | operate => simp [isOperation_build] at simple
  | operand derived => exact derived

theorem Derives.call_of_operation {ts : List Token} {n n' : Nat} {e : Expr}
    (derived : Derives (.operation .disjunction) ts n e n') (simple : isOperation e = false) :
    Derives .call ts n e n' := by
  have conjunction := derived.descend simple
  have equality := conjunction.descend (p := .conjunction) simple
  have comparison := equality.descend (p := .equality) simple
  have term := comparison.descend (p := .comparison) simple
  have factor := term.descend (p := .term) simple
  have unary := factor.descend (p := .factor) simple
  cases unary with
  | sign => cases simple
  | unsigned derived => exact derived

theorem Derives.read_inv {ts : List Token} {n n' : Nat} {r : Reference}
    (derived : Derives (.operation .disjunction) ts n (.read r) n') :
    ts = [r.token] ∧ r.token.kind = .identifier ∧ r = ⟨n, r.token⟩ ∧ n' = n + 1 := by
  cases derived.call_of_operation rfl with
  | primary derived =>
      cases derived with
      | name kind => exact ⟨rfl, kind, rfl, rfl⟩

theorem Derives.get_inv {ts : List Token} {n n' : Nat} {o : Expr} {name : Token}
    (derived : Derives (.operation .disjunction) ts n (.get o name) n') :
    ∃ us dot, ts = us ++ [dot, name] ∧ dot.kind = .symbol .dot ∧ name.kind = .identifier ∧
      Derives .call us n o n' := by
  cases derived.call_of_operation rfl with
  | get derived dotKind nameKind => exact ⟨_, _, rfl, dotKind, nameKind, derived⟩
  | primary derived => cases derived

/-! ## First tokens -/

def startsExpression : Kind → Bool
  | .symbol s =>
      s ∈ [Symbol.bang, .minus, .falseWord, .trueWord, .nilWord, .thisWord, .superWord, .leftParen]
  | .identifier | .number _ | .string _ => true
  | .endOfInput => false

def BeginsWith (p : Kind → Prop) (ts : List Token) : Prop := ∃ t rest, ts = t :: rest ∧ p t.kind

theorem BeginsWith.append {p : Kind → Prop} {ts : List Token} (begins : BeginsWith p ts)
    (us : List Token) :
    BeginsWith p (ts ++ us) := by
  obtain ⟨t, rest, rfl, kind⟩ := begins
  exact ⟨t, rest ++ us, rfl, kind⟩

theorem BeginsWith.mono {p q : Kind → Prop} {ts : List Token} (begins : BeginsWith p ts)
    (le : ∀ k, p k → q k) : BeginsWith q ts := by
  obtain ⟨t, rest, rfl, kind⟩ := begins
  exact ⟨t, rest, rfl, le _ kind⟩

theorem BeginsWith.ne_nil {p : Kind → Prop} {ts : List Token} (begins : BeginsWith p ts) :
    ts ≠ [] := by
  obtain ⟨t, rest, rfl, -⟩ := begins
  exact List.cons_ne_nil t rest

theorem Constant.starts {k : Kind} {value : Literal} (constant : Constant k value) :
    startsExpression k = true := by
  cases constant <;> rfl

theorem Derives.begins {nonterminal : Nonterminal} {ts : List Token} {n n' : Nat} {e : Expr} :
    Derives nonterminal ts n e n' → BeginsWith (startsExpression · = true) ts
  | .assignName kind .. => ⟨_, _, rfl, by rw [kind]; rfl⟩
  | .assignField object .. => object.begins.append _
  | .operation derived => derived.begins
  | .operate left .. => left.begins.append _
  | .operand derived => derived.begins
  | .sign kind mem _ => ⟨_, _, rfl, by rw [kind]; simp at mem; rcases mem with rfl | rfl <;> rfl⟩
  | .unsigned derived => derived.begins
  | .callEmpty callee .. => callee.begins.append _
  | .call callee .. => callee.begins.append _
  | .get object .. => object.begins.append _
  | .primary derived => derived.begins
  | .constant kind => ⟨_, _, rfl, kind.starts⟩
  | .name kind => ⟨_, _, rfl, by rw [kind]; rfl⟩
  | .self kind => ⟨_, _, rfl, by rw [kind]; rfl⟩
  | .inherited kind .. => ⟨_, _, rfl, by rw [kind]; rfl⟩
  | .grouping kind .. => ⟨_, _, rfl, by rw [kind]; rfl⟩

def startsOperand (k : Kind) : Prop := k ≠ .symbol .bang ∧ k ≠ .symbol .minus

theorem Constant.startsOperand {k : Kind} {value : Literal} (constant : Constant k value) :
    startsOperand k := by
  cases constant <;> simp [Grammar.startsOperand]

def isOperand : Nonterminal → Bool
  | .call | .primary => true
  | _ => false

theorem Derives.beginsOperand {nonterminal : Nonterminal} {ts : List Token} {n n' : Nat}
    {e : Expr} :
    Derives nonterminal ts n e n' → isOperand nonterminal = true → BeginsWith startsOperand ts
  | .callEmpty callee .., _ => (callee.beginsOperand rfl).append _
  | .call callee .., _ => (callee.beginsOperand rfl).append _
  | .get object .., _ => (object.beginsOperand rfl).append _
  | .primary derived, _ => derived.beginsOperand rfl
  | .constant kind, _ => ⟨_, _, rfl, kind.startsOperand⟩
  | .name kind, _ => ⟨_, _, rfl, by simp [startsOperand, kind]⟩
  | .self kind, _ => ⟨_, _, rfl, by simp [startsOperand, kind]⟩
  | .inherited kind .., _ => ⟨_, _, rfl, by simp [startsOperand, kind]⟩
  | .grouping kind .., _ => ⟨_, _, rfl, by simp [startsOperand, kind]⟩
  | .assignName .., other | .assignField .., other | .operation _, other | .operate .., other
  | .operand _, other
  | .sign .., other | .unsigned _, other => by cases other

theorem ExpressionStatement.begins {ts : List Token} {n n' : Nat} {s : Stmt} :
    ExpressionStatement ts n s n' → BeginsWith (startsExpression · = true) ts
  | .mk derived _ => derived.begins.append _

def startsDeclaration (k : Kind) : Prop := k ≠ .endOfInput ∧ k ≠ .symbol .rightBrace ∧
    k ≠ .symbol .elseWord

theorem startsDeclaration_of_expression {k : Kind} (starts : startsExpression k = true) :
    startsDeclaration k := by
  refine ⟨?_, ?_, ?_⟩ <;> rintro rfl <;> cases starts

theorem Statement.begins {d : Bool} {ts : List Token} {n n' : Nat} {s : Stmt}
    (derived : Statement d ts n s n') :
    BeginsWith startsDeclaration ts := by
  cases derived with
  | expression derived => exact derived.begins.mono fun _ => startsDeclaration_of_expression
  | _ => exact ⟨_, _, rfl, by simp [startsDeclaration, *]⟩

theorem Statement.beginsStatement {d : Bool} {ts : List Token} {n n' : Nat} {s : Stmt}
    (derived : Statement d ts n s n') :
    BeginsWith (fun k => k ≠ .symbol .classWord ∧ k ≠ .symbol .funWord ∧ k ≠ .symbol .varWord) ts := by
  cases derived with
  | expression derived =>
      refine derived.begins.mono fun k starts => ⟨?_, ?_, ?_⟩ <;> rintro rfl <;> cases starts
  | _ => exact ⟨_, _, rfl, by simp [*]⟩

theorem Declaration.begins {ts : List Token} {n n' : Nat} {s : Stmt}
    (derived : Declaration ts n s n') :
    BeginsWith startsDeclaration ts := by
  cases derived with
  | classDecl => exact ⟨_, _, rfl, by simp [startsDeclaration, *]⟩
  | funDecl => exact ⟨_, _, rfl, by simp [startsDeclaration, *]⟩
  | varDecl derived =>
      cases derived
      exact ⟨_, _, rfl, by simp [startsDeclaration, *]⟩
  | statement derived => exact derived.begins

theorem Function.begins {ts : List Token} {n n' : Nat} {f : FunctionDecl}
    (derived : Function ts n f n') :
    BeginsWith startsDeclaration ts := by
  cases derived
  exact ⟨_, _, rfl, by simp [startsDeclaration, *]⟩

/-! ## The end of the input -/

def Endless (ts : List Token) : Prop := ∀ t ∈ ts, t.kind ≠ .endOfInput

theorem endless_nil : Endless [] := nofun

theorem endless_append {ts us : List Token} : Endless (ts ++ us) ↔ Endless ts ∧ Endless us :=
  List.forall_mem_append

theorem endless_cons {t : Token} {ts : List Token} : Endless (t :: ts) ↔ t.kind ≠ .endOfInput ∧
    Endless ts :=
  List.forall_mem_cons

theorem Constant.endless {k : Kind} {value : Literal} (constant : Constant k value) :
    k ≠ .endOfInput := by
  cases constant <;> nofun

mutual

theorem Derives.endless {nonterminal : Nonterminal} {ts : List Token} {n n' : Nat} {e : Expr} :
    Derives nonterminal ts n e n' → Endless ts
  | .assignName _ _ value => by simp [endless_cons, value.endless, *]
  | .assignField object _ _ _ value => by
      simp [endless_append, endless_cons, object.endless, value.endless, *]
  | .operation derived => derived.endless
  | .operate left _ _ right => by simp [endless_append, endless_cons, left.endless, right.endless, *]
  | .operand derived => derived.endless
  | .sign _ _ right => by simp [endless_cons, right.endless, *]
  | .unsigned derived => derived.endless
  | .callEmpty callee .. => by simp [endless_append, endless_cons, endless_nil, callee.endless, *]
  | .call callee _ listed .. => by
      simp [endless_append, endless_cons, endless_nil, callee.endless, listed.endless, *]
  | .get object .. => by simp [endless_append, endless_cons, endless_nil, object.endless, *]
  | .primary derived => derived.endless
  | .constant constant => by simp [endless_cons, endless_nil, constant.endless]
  | .name _ => by simp [endless_cons, endless_nil, *]
  | .self _ => by simp [endless_cons, endless_nil, *]
  | .inherited .. => by simp [endless_cons, endless_nil, *]
  | .grouping _ inner _ => by simp [endless_append, endless_cons, endless_nil, inner.endless, *]

theorem Arguments.endless {ts : List Token} {n n' : Nat} {es : List Expr} : Arguments ts n es n' →
    Endless ts
  | .one derived => derived.endless
  | .more first _ others => by simp [endless_append, endless_cons, first.endless, others.endless, *]

end

theorem Optional.endless {α : Type} {phrase : Phrase α} {ts : List Token} {n n' : Nat}
    {a : Option α} (each : ∀ {ts n a n'}, phrase ts n a n' → Endless ts) :
    Optional phrase ts n a n' → Endless ts
  | .absent => endless_nil
  | .present derived => each derived

theorem Initializer.endless {ts : List Token} {n n' : Nat} {e : Expr} : Initializer ts n e n' →
    Endless ts
  | .mk _ derived => by simp [endless_cons, derived.endless, *]

theorem VarDeclaration.endless {ts : List Token} {n n' : Nat} {s : Stmt} :
    VarDeclaration ts n s n' → Endless ts
  | .mk _ _ value _ => by
      simp [endless_append, endless_cons, endless_nil, value.endless Initializer.endless, *]

theorem ExpressionStatement.endless {ts : List Token} {n n' : Nat} {s : Stmt} :
    ExpressionStatement ts n s n' → Endless ts
  | .mk derived _ => by simp [endless_append, endless_cons, endless_nil, derived.endless, *]

theorem LoopInitializer.endless {ts : List Token} {n n' : Nat} {s : Option Stmt} :
    LoopInitializer ts n s n' → Endless ts
  | .absent _ => by simp [endless_cons, endless_nil, *]
  | .variable derived => derived.endless
  | .expression derived => derived.endless

theorem Parameters.endless {ts params : List Token} : Parameters ts params → Endless ts
  | .one _ => by simp [endless_cons, endless_nil, *]
  | .more _ _ others => by simp [endless_cons, others.endless, *]

theorem ParameterList.endless {ts params : List Token} : ParameterList ts params → Endless ts
  | .empty => endless_nil
  | .names listed _ => listed.endless

theorem Superclass.endless {ts : List Token} {n n' : Nat} {r : Reference} : Superclass ts n r n' →
    Endless ts
  | .mk _ _ => by simp [endless_cons, endless_nil, *]

mutual

theorem Declaration.endless {ts : List Token} {n n' : Nat} {s : Stmt} : Declaration ts n s n' →
    Endless ts
  | .classDecl _ _ parent _ members _ => by
      simp [endless_append, endless_cons, endless_nil, parent.endless Superclass.endless,
        members.endless, *]
  | .funDecl _ derived => by simp [endless_cons, derived.endless, *]
  | .varDecl derived => derived.endless
  | .statement derived => derived.endless

theorem Declarations.endless {ts : List Token} {n n' : Nat} {ss : List Stmt} :
    Declarations ts n ss n' → Endless ts
  | .nil => endless_nil
  | .cons first others => by simp [endless_append, first.endless, others.endless]

theorem Function.endless {ts : List Token} {n n' : Nat} {f : FunctionDecl} : Function ts n f n' →
    Endless ts
  | .mk _ _ params _ _ body _ => by
      simp [endless_append, endless_cons, endless_nil, params.endless, body.endless, *]

theorem Functions.endless {ts : List Token} {n n' : Nat} {fs : List FunctionDecl} :
    Functions ts n fs n' → Endless ts
  | .nil => endless_nil
  | .cons first others => by simp [endless_append, first.endless, others.endless]

theorem Statement.endless {d : Bool} {ts : List Token} {n n' : Nat} {s : Stmt} :
    Statement d ts n s n' → Endless ts
  | .expression derived => derived.endless
  | .print _ derived _ => by simp [endless_append, endless_cons, endless_nil, derived.endless, *]
  | .returnStmt _ value _ => by
      simp [endless_append, endless_cons, endless_nil, value.endless Derives.endless, *]
  | .block _ body _ => by simp [endless_append, endless_cons, endless_nil, body.endless, *]
  | .ifThen _ _ condition _ branch => by
      simp [endless_append, endless_cons, condition.endless, branch.endless, *]
  | .ifElse _ _ condition _ branch _ other => by
      simp [endless_append, endless_cons, condition.endless, branch.endless, other.endless, *]
  | .whileLoop _ _ condition _ body => by
      simp [endless_append, endless_cons, condition.endless, body.endless, *]
  | .forLoop _ _ first second _ third _ body => by
      simp [endless_append, endless_cons, first.endless, second.endless Derives.endless,
        third.endless Derives.endless, body.endless, *]

end

end Lox.Grammar
