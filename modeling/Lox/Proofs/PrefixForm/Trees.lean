import Mathlib
import Lox.Syntax.PrefixForm
import Lox.Proofs.Grammar
import Lox.Proofs.Lines.Trees
import Lox.Proofs.Number.Texts
import Lox.Proofs.PrefixForm.Forms

/-!
# Forms of trees

The prefix form of a tree is the text of a form (`Expr.form`), and the tree can be read back off this form, but for
the numbers of its references and its lines: each word is scanned as a token, and the head of a form tells the kind of
node (`Form.tree?`).
-/

namespace Lox
open Grammar Number

/-! ## Forms -/

mutual

def Expr.form : Expr → Form
  | .literal value => .word value.prefixForm
  | .grouping inner => .node "group" [inner.form]
  | .unary operator right => .node operator.lexeme [right.form]
  | .binary left operator right | .logical left operator right => .node operator.lexeme [left.form, right.form]
  | .read name => .word name.name
  | .assign name value => .node "=" [.word name.name, value.form]
  | .call callee _ arguments => .node "call" (callee.form :: Expr.forms arguments)
  | .get object name => .node "." [object.form, .word name.lexeme]
  | .set object name value => .node "=" [.node "." [object.form, .word name.lexeme], value.form]
  | .self _ => .word "this"
  | .inherited _ method => .node "super" [.word method.lexeme]

def Expr.forms : List Expr → List Form
  | [] => []
  | first :: rest => first.form :: Expr.forms rest

end

mutual

theorem Expr.chars_form : ∀ e : Expr, e.form.chars = e.prefixForm.toList
  | .literal _ | .read _ | .self _ => by simp [form, prefixForm, Form.chars]
  | .grouping inner => by simp [form, prefixForm, Form.chars, Form.charsAll, inner.chars_form]
  | .unary operator right => by simp [form, prefixForm, Form.chars, Form.charsAll, right.chars_form]
  | .binary left operator right | .logical left operator right => by
      simp [form, prefixForm, Form.chars, Form.charsAll, left.chars_form, right.chars_form]
  | .assign name value => by simp [form, prefixForm, Form.chars, Form.charsAll, value.chars_form]
  | .call callee _ arguments => by
      simp [form, prefixForm, Form.chars, Form.charsAll, callee.chars_form, Expr.charsAll_forms arguments]
  | .get object name => by simp [form, prefixForm, Form.chars, Form.charsAll, object.chars_form]
  | .set object name value => by
      simp [form, prefixForm, Form.chars, Form.charsAll, object.chars_form, value.chars_form]
  | .inherited _ method => by simp [form, prefixForm, Form.chars, Form.charsAll]

theorem Expr.charsAll_forms : ∀ es : List Expr, Form.charsAll (Expr.forms es) = (Expr.prefixForms es).toList
  | [] => by simp [Expr.forms, Expr.prefixForms, Form.charsAll]
  | first :: rest => by
      simp [Expr.forms, Expr.prefixForms, Form.charsAll, first.chars_form, Expr.charsAll_forms rest]

end

/-! ## Trees without numbers and lines -/

def Reference.bare (r : Reference) : Reference := ⟨0, unlined r.token⟩

mutual

/-- The tree with every number of a reference and every line set to zero. -/
def Expr.bare : Expr → Expr
  | .literal value => .literal value
  | .grouping inner => .grouping inner.bare
  | .unary operator right => .unary (Lined.unlined operator) right.bare
  | .binary left operator right => .binary left.bare (Lined.unlined operator) right.bare
  | .logical left operator right => .logical left.bare (Lined.unlined operator) right.bare
  | .read name => .read name.bare
  | .assign name value => .assign name.bare value.bare
  | .call callee paren arguments => .call callee.bare (Lined.unlined paren) (Expr.bareAll arguments)
  | .get object name => .get object.bare (Lined.unlined name)
  | .set object name value => .set object.bare (Lined.unlined name) value.bare
  | .self keyword => .self keyword.bare
  | .inherited keyword method => .inherited keyword.bare (Lined.unlined method)

def Expr.bareAll : List Expr → List Expr
  | [] => []
  | first :: rest => first.bare :: Expr.bareAll rest

end

/-! ## Reading a form -/

def symbolToken (symbol : Symbol) : Token := ⟨.symbol symbol, symbol.spelling, 0⟩

def token? (text : String) : Option Token :=
  match pieces text.toList with
  | [.lexeme kind _] => some ⟨kind, text, 0⟩
  | _ => none

def leaf? (t : Token) : Option Expr :=
  match t.kind with
  | .identifier => some (.read ⟨0, t⟩)
  | .symbol .thisWord => some (.self ⟨0, t⟩)
  | .symbol .nilWord => some (.literal .nil)
  | .symbol .trueWord => some (.literal (.boolean true))
  | .symbol .falseWord => some (.literal (.boolean false))
  | .number value => some (.literal (.number value))
  | _ => none

def operation? (operator : Token) : List Expr → Option Expr
  | [right] => some (.unary operator right)
  | [left, right] =>
    if operator.kind.isSymbol .andWord || operator.kind.isSymbol .orWord then some (.logical left operator right)
    else some (.binary left operator right)
  | _ => none

/-- Names that are no operands were read as variables. -/
def join? (head : String) (parts : List Expr) : Option Expr :=
  match head, parts with
  | "group", [inner] => some (.grouping inner)
  | "call", callee :: arguments => some (.call callee (symbolToken .rightParen) arguments)
  | "super", [.read method] => some (.inherited ⟨0, symbolToken .superWord⟩ method.token)
  | ".", [object, .read name] => some (.get object name.token)
  | "=", [.read name, value] => some (.assign name value)
  | "=", [.get object name, value] => some (.set object name value)
  | _, _ => (token? head).bind fun operator => operation? operator parts

mutual

def Form.tree? : Form → Option Expr
  | .word text => (token? text).bind leaf?
  | .node head parts => (Form.trees? parts).bind (join? head)

def Form.trees? : List Form → Option (List Expr)
  | [] => some []
  | first :: rest => first.tree?.bind fun tree => (Form.trees? rest).map (tree :: ·)

end

/-! ## Words -/

section Words

variable {text : String} {v : Float}

theorem isMark_of_wordPart {c : Char} (part : isWordPart c = true) : Form.isMark c = false := by
  rw [Bool.eq_false_iff]
  intro mark
  simp only [Form.isMark, Bool.or_eq_true, decide_eq_true_eq] at mark
  rcases mark with (rfl | rfl) | rfl <;> revert part <;> decide

theorem isMark_of_digits {digits : List Char} (all : ∀ d ∈ digits, d.isDigit = true) :
    ∀ c ∈ digits, Form.isMark c = false :=
  fun c mem => isMark_of_wordPart (wordPart_of_digit (all c mem))

theorem isWord_identifier (spells : Spells .identifier text.toList) : Form.IsWord text := by
  generalize written : text.toList = chars at spells
  cases spells with
  | @identifier first rest start parts other =>
      rw [Form.IsWord, written]
      refine ⟨List.cons_ne_nil _ _, List.forall_mem_cons.mpr ⟨?_, fun c mem => isMark_of_wordPart (parts c mem)⟩⟩
      exact isMark_of_wordPart (wordPart_of_wordStart start)

theorem isWord_number (spells : Spells (.number v) text.toList) : Form.IsWord text := by
  generalize written : text.toList = chars at spells
  rw [Form.IsWord, written]
  cases spells with
  | whole nonempty all => exact ⟨nonempty, isMark_of_digits all⟩
  | decimal _ all _ allMore =>
      refine ⟨by simp, List.forall_mem_append.mpr ⟨isMark_of_digits all, List.forall_mem_cons.mpr ⟨rfl, ?_⟩⟩⟩
      exact isMark_of_digits allMore

theorem isWord_spelling {s : Symbol} (other : s ≠ .leftParen ∧ s ≠ .rightParen) : Form.IsWord s.spelling := by
  cases s <;> simp [Form.IsWord, Form.isMark, Symbol.spelling] at other ⊢

theorem token?_of_spells {kind : Kind} (spells : Spells kind text.toList) : token? text = some ⟨kind, text, 0⟩ := by
  rw [token?, pieces_lexeme spells]

end Words

/-! ## Nodes -/

/-- The form is made of words, and the tree is read back off it. -/
structure Expr.Legible (e : Expr) : Prop where
  wordy : e.form.Wordy
  reads : e.form.tree? = some e.bare

structure Expr.LegibleAll (es : List Expr) : Prop where
  wordy : Form.WordyAll (Expr.forms es)
  reads : Form.trees? (Expr.forms es) = some (Expr.bareAll es)

structure Token.Legible (t : Token) : Prop where
  spells : Spells t.kind t.lexeme.toList
  unquoted : ∀ text, t.kind ≠ .string text
  finite : ∀ v, t.kind = .number v → v.isFinite = true

section Nodes

variable {t : Token} {n : Nat} {e l r o v : Expr} {es : List Expr} {s : Symbol}

theorem Token.Legible.identifier (legible : t.Legible) (kind : t.kind = .identifier) :
    Form.IsWord t.lexeme ∧ (Form.word t.lexeme).tree? = some (.read ⟨0, unlined t⟩) := by
  obtain ⟨k, text, line⟩ := t
  obtain rfl : k = .identifier := kind
  have spells := legible.spells
  refine ⟨isWord_identifier spells, ?_⟩
  rw [Form.tree?, token?_of_spells spells]
  rfl

theorem Token.Legible.symbol (legible : t.Legible) (kind : t.kind = .symbol s) : unlined t = symbolToken s := by
  obtain ⟨k, text, line⟩ := t
  obtain rfl : k = .symbol s := kind
  have spells := legible.spells
  generalize written : text.toList = chars at spells
  cases spells
  rw [String.toList_inj.mp written]
  rfl

theorem token?_spelling (s : Symbol) : token? s.spelling = some (symbolToken s) :=
  token?_of_spells (.symbol s)

/-! ### Operators -/

def Symbol.operators : List Symbol :=
  [.minus, .plus, .slash, .star, .bang, .bangEqual, .equalEqual, .greater, .greaterEqual, .less, .lessEqual, .andWord,
    .orWord]

theorem join?_operator (mem : s ∈ Symbol.operators) (parts : List Expr) :
    join? s.spelling parts = operation? (symbolToken s) parts := by
  have other : s.spelling ≠ "group" ∧ s.spelling ≠ "call" ∧ s.spelling ≠ "super" ∧ s.spelling ≠ "." ∧
      s.spelling ≠ "=" := by
    revert s
    decide
  have token := token?_spelling s
  unfold join?
  split
  all_goals simp_all

theorem isWord_operator (mem : s ∈ Symbol.operators) : Form.IsWord s.spelling :=
  isWord_spelling (by revert s; decide)

theorem mem_operators {p : Precedence} (mem : s ∈ p.operators) : s ∈ Symbol.operators := by
  revert s
  cases p <;> decide

theorem operation?_build {p : Precedence} (mem : s ∈ p.operators) :
    operation? (symbolToken s) [l, r] = some (p.build l (symbolToken s) r) := by
  revert s
  cases p <;> simp [Precedence.operators, Precedence.build, operation?, symbolToken, Kind.isSymbol]

/-! ### One node -/

variable {head : String} {f : Form} {parts : List Form} {trees : List Expr}

theorem trees?_cons (first : f.tree? = some e) (rest : Form.trees? parts = some es) :
    Form.trees? (f :: parts) = some (e :: es) := by
  rw [Form.trees?, first, rest]
  rfl

theorem trees?_one (one : f.tree? = some e) : Form.trees? [f] = some [e] := trees?_cons one rfl

theorem tree?_node (reads : Form.trees? parts = some trees) (joined : join? head trees = some e) :
    (Form.node head parts).tree? = some e := by
  rw [Form.tree?, reads, Option.bind_some, joined]

theorem legible_grouping (inner : e.Legible) : (Expr.grouping e).Legible := by
  constructor
  · exact ⟨by simp [Form.IsWord, Form.isMark], inner.wordy, trivial⟩
  · exact tree?_node (trees?_one inner.reads) rfl

theorem legible_unary (mem : s ∈ Symbol.operators) (legible : t.Legible) (kind : t.kind = .symbol s)
    (right : r.Legible) : (Expr.unary t r).Legible := by
  have token := legible.symbol kind
  have lexeme : t.lexeme = s.spelling := congrArg Token.lexeme token
  constructor
  · exact ⟨lexeme ▸ isWord_operator mem, right.wordy, trivial⟩
  · refine tree?_node (trees?_one right.reads) ?_
    rw [lexeme, join?_operator mem, ← token]
    rfl

theorem legible_build {p : Precedence} (mem : s ∈ p.operators) (legible : t.Legible) (kind : t.kind = .symbol s)
    (left : l.Legible) (right : r.Legible) : (p.build l t r).Legible := by
  have token := legible.symbol kind
  have lexeme : t.lexeme = s.spelling := congrArg Token.lexeme token
  have form : (p.build l t r).form = .node s.spelling [l.form, r.form] := by
    rw [← lexeme]
    cases p <;> rfl
  have bare : (p.build l t r).bare = p.build l.bare (symbolToken s) r.bare := by
    rw [← token]
    cases p <;> rfl
  constructor
  · rw [form]
    exact ⟨isWord_operator (mem_operators mem), left.wordy, right.wordy, trivial⟩
  · rw [form, bare]
    refine tree?_node (trees?_cons left.reads (trees?_one right.reads)) ?_
    rw [join?_operator (mem_operators mem), operation?_build mem]

theorem legible_constant {value : Literal} (constant : Constant t.kind value) (legible : t.Legible) :
    (Expr.literal value).Legible := by
  have word {s : Symbol} (other : s ≠ .leftParen ∧ s ≠ .rightParen) (written : value.prefixForm = s.spelling)
      (leaf : leaf? (symbolToken s) = some (.literal value)) : (Expr.literal value).Legible := by
    constructor
    · rw [Expr.form, Form.Wordy, written]
      exact isWord_spelling other
    · rw [Expr.form, Form.tree?, written, token?_spelling, Option.bind_some, leaf, Expr.bare]
  generalize same : t.kind = kind at constant
  cases constant with
  | no => exact word (s := .falseWord) (by decide) rfl rfl
  | yes => exact word (s := .trueWord) (by decide) rfl rfl
  | nil => exact word (s := .nilWord) (by decide) rfl rfl
  | string text => exact (legible.unquoted text same).elim
  | number v =>
      have spells := spells_prefixForm (same ▸ legible.spells) (legible.finite v same)
      constructor
      · exact isWord_number spells
      · rw [Expr.form, Form.tree?, Literal.prefixForm, token?_of_spells spells]
        rfl

theorem legible_read (legible : t.Legible) (kind : t.kind = .identifier) : (Expr.read ⟨n, t⟩).Legible :=
  ⟨(legible.identifier kind).1, (legible.identifier kind).2⟩

theorem legible_self (legible : t.Legible) (kind : t.kind = .symbol .thisWord) : (Expr.self ⟨n, t⟩).Legible := by
  constructor
  · exact isWord_spelling (s := .thisWord) (by decide)
  · rw [Expr.form, Form.tree?, show "this" = Symbol.thisWord.spelling from rfl, token?_spelling, Expr.bare, Reference.bare,
      legible.symbol kind]
    rfl

theorem legible_assign (legible : t.Legible) (kind : t.kind = .identifier) (value : v.Legible) :
    (Expr.assign ⟨n, t⟩ v).Legible := by
  obtain ⟨isWord, reads⟩ := legible.identifier kind
  constructor
  · exact ⟨isWord_spelling (s := .equal) (by decide), isWord, value.wordy, trivial⟩
  · exact tree?_node (trees?_cons reads (trees?_one value.reads)) rfl

theorem legible_get (object : o.Legible) (legible : t.Legible) (kind : t.kind = .identifier) : (Expr.get o t).Legible := by
  obtain ⟨isWord, reads⟩ := legible.identifier kind
  constructor
  · exact ⟨isWord_spelling (s := .dot) (by decide), object.wordy, isWord, trivial⟩
  · exact tree?_node (trees?_cons object.reads (trees?_one reads)) rfl

theorem legible_set (object : o.Legible) (legible : t.Legible) (kind : t.kind = .identifier) (value : v.Legible) :
    (Expr.set o t v).Legible := by
  have target := legible_get object legible kind
  constructor
  · exact ⟨isWord_spelling (s := .equal) (by decide), target.wordy, value.wordy, trivial⟩
  · exact tree?_node (trees?_cons target.reads (trees?_one value.reads)) rfl

theorem legible_call (callee : e.Legible) (arguments : Expr.LegibleAll es) (legible : t.Legible)
    (kind : t.kind = .symbol .rightParen) : (Expr.call e t es).Legible := by
  constructor
  · exact ⟨by simp [Form.IsWord, Form.isMark], callee.wordy, arguments.wordy⟩
  · rw [Expr.bare, legible.symbol kind]
    exact tree?_node (trees?_cons callee.reads arguments.reads) rfl

theorem legible_inherited {method : Token} (legible : t.Legible) (kind : t.kind = .symbol .superWord)
    (named : method.Legible) (name : method.kind = .identifier) : (Expr.inherited ⟨n, t⟩ method).Legible := by
  obtain ⟨isWord, reads⟩ := named.identifier name
  constructor
  · exact ⟨isWord_spelling (s := .superWord) (by decide), isWord, trivial⟩
  · rw [Expr.bare, Reference.bare, legible.symbol kind]
    exact tree?_node (trees?_one reads) rfl

theorem legibleAll_nil : Expr.LegibleAll [] := ⟨trivial, rfl⟩

theorem legibleAll_cons (first : e.Legible) (rest : Expr.LegibleAll es) : Expr.LegibleAll (e :: es) :=
  ⟨⟨first.wordy, rest.wordy⟩, trees?_cons first.reads rest.reads⟩

end Nodes

/-! ## Trees of the grammar -/

def LegibleTokens (ts : List Token) : Prop := ∀ t ∈ ts, t.Legible

theorem legible_append {ts us : List Token} : LegibleTokens (ts ++ us) ↔ LegibleTokens ts ∧ LegibleTokens us :=
  List.forall_mem_append

theorem legible_cons {t : Token} {ts : List Token} : LegibleTokens (t :: ts) ↔ t.Legible ∧ LegibleTokens ts :=
  List.forall_mem_cons

mutual

theorem Grammar.Derives.legible {nonterminal : Nonterminal} {ts : List Token} {n n' : Nat} {e : Expr} :
    Derives nonterminal ts n e n' → LegibleTokens ts → e.Legible
  | .assignName kind _ value, tokens => by
      simp only [legible_cons] at tokens
      exact legible_assign tokens.1 kind (value.legible tokens.2.2)
  | .assignField object _ kind _ value, tokens => by
      simp only [legible_append, legible_cons] at tokens
      exact legible_set (object.legible tokens.1) tokens.2.2.1 kind (value.legible tokens.2.2.2.2)
  | .operation derived, tokens => derived.legible tokens
  | .operate left kind mem right, tokens => by
      simp only [legible_append, legible_cons] at tokens
      exact legible_build mem tokens.2.1 kind (left.legible tokens.1) (right.legible tokens.2.2)
  | .operand derived, tokens => derived.legible tokens
  | .sign kind mem right, tokens => by
      rw [legible_cons] at tokens
      have signs : [Symbol.bang, .minus] ⊆ Symbol.operators := by decide
      exact legible_unary (signs mem) tokens.1 kind (right.legible tokens.2)
  | .unsigned derived, tokens => derived.legible tokens
  | .callEmpty callee _ kind, tokens => by
      simp only [legible_append, legible_cons] at tokens
      exact legible_call (callee.legible tokens.1) legibleAll_nil tokens.2.2.1 kind
  | .call callee _ arguments _ kind, tokens => by
      simp only [legible_append, legible_cons] at tokens
      exact legible_call (callee.legible tokens.1) (arguments.legible tokens.2.2.1) tokens.2.2.2.1 kind
  | .get object _ kind, tokens => by
      simp only [legible_append, legible_cons] at tokens
      exact legible_get (object.legible tokens.1) tokens.2.2.1 kind
  | .primary derived, tokens => derived.legible tokens
  | .constant constant, tokens => legible_constant constant (legible_cons.mp tokens).1
  | .name kind, tokens => legible_read (legible_cons.mp tokens).1 kind
  | .self kind, tokens => legible_self (legible_cons.mp tokens).1 kind
  | .inherited kind _ name, tokens => by
      simp only [legible_cons] at tokens
      exact legible_inherited tokens.1 kind tokens.2.2.1 name
  | .grouping _ inner _, tokens => by
      simp only [legible_cons, legible_append] at tokens
      exact legible_grouping (inner.legible tokens.2.1)

theorem Grammar.Arguments.legible {ts : List Token} {n n' : Nat} {es : List Expr} :
    Arguments ts n es n' → LegibleTokens ts → Expr.LegibleAll es
  | .one derived, tokens => legibleAll_cons (derived.legible tokens) legibleAll_nil
  | .more first _ others, tokens => by
      simp only [legible_append, legible_cons] at tokens
      exact legibleAll_cons (first.legible tokens.1) (others.legible tokens.2.2)

end

end Lox
