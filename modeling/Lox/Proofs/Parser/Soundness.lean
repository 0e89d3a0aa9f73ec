import Lox.Proofs.Grammar
import Lox.Proofs.Sequence
import Lox.Syntax.Parser

/-!
# What is parsed is a phrase

A parser that succeeds without having reported an error has read a phrase of the grammar
(`expression_reads`, `declaration_statement_read`). Errors are never withdrawn, so it is enough to
look at the errors after a reading: if there are none, there were none before and none on the way.
-/

namespace Lox

namespace Parser
open Grammar

/-! ## Phrases -/

/-- A parser that reads a phrase when it succeeds and no error is known afterwards. -/
def Reads {α : Type} (parser : Parser α) (phrase : Phrase α) : Prop :=
  ∀ s a s', parser s = .ok a s' → s'.errors = #[] →
    s.errors = #[] ∧ ∃ ts, s.rest = ts ++ s'.rest ∧ phrase ts s.nextId a s'.nextId

theorem Reads.mono {α : Type} {parser : Parser α} {phrase wider : Phrase α}
    (reads : Reads parser phrase) (le : ∀ {ts n a n'}, phrase ts n a n' → wider ts n a n') :
    Reads parser wider := by
  intro s a s' h clean
  obtain ⟨before, ts, rest, derived⟩ := reads s a s' h clean
  exact ⟨before, ts, rest, le derived⟩

theorem Reads.withRounds {α : Type} {parser : Nat → Parser α} {phrase : Phrase α}
    (reads : ∀ rounds, Reads (parser rounds) phrase) : Reads (withRounds parser) phrase :=
  fun s => reads s.rest.length s

theorem fail_reads {α : Type} (cause : SyntaxError.Cause) (phrase : Phrase α) :
    Reads (fail cause) phrase := by
  intro s a s' h
  cases h

/-! ## Single tokens -/

theorem isSymbol_iff {s : Symbol} {k : Kind} : k.isSymbol s = true ↔ k = .symbol s := by
  cases k <;> simp [Kind.isSymbol]

theorem isEnd_iff {k : Kind} : k.isEnd = true ↔ k = .endOfInput := by
  cases k <;> simp [Kind.isEnd]

theorem any_isSymbol_iff {symbols : List Symbol} {k : Kind} :
    symbols.any k.isSymbol = true ↔ ∃ s ∈ symbols, k = .symbol s := by
  simp only [List.any_eq_true, isSymbol_iff]

theorem acceptAny_ok {symbols : List Symbol} {r : Option Token} {s s' : State}
    (h : acceptAny symbols s = .ok r s') :
    (∃ t sym rest, r = some t ∧ sym ∈ symbols ∧ t.kind = .symbol sym ∧ s.rest = t :: rest ∧
      s' = { s with rest }) ∨ (r = none ∧ s' = s ∧ ∀ sym ∈ symbols, s.next.kind ≠ .symbol sym) := by
  obtain ⟨rest, nextId, errors⟩ := s
  cases rest with
  | nil =>
      cases h
      exact .inr ⟨rfl, rfl, fun _ _ equal => by cases equal⟩
  | cons t rest =>
      simp only [acceptAny] at h
      split at h
      · rename_i found
        obtain ⟨sym, mem, kind⟩ := any_isSymbol_iff.mp found
        cases h
        exact .inl ⟨t, sym, rest, rfl, mem, kind, rfl, rfl⟩
      · rename_i missing
        cases h
        exact .inr ⟨rfl, rfl, fun sym mem kind => missing (any_isSymbol_iff.mpr ⟨sym, mem, kind⟩)⟩

theorem accept_ok {symbol : Symbol} {r : Option Token} {s s' : State}
    (h : accept symbol s = .ok r s') :
    (∃ t rest, r = some t ∧ t.kind = .symbol symbol ∧ s.rest = t :: rest ∧ s' = { s with rest }) ∨
      (r = none ∧ s' = s ∧ s.next.kind ≠ .symbol symbol) := by
  rcases acceptAny_ok h with ⟨t, sym, rest, rfl, mem, kind, same⟩ | ⟨rfl, rfl, other⟩
  · rw [List.mem_singleton] at mem
    exact .inl ⟨t, rest, rfl, mem ▸ kind, same⟩
  · exact .inr ⟨rfl, rfl, other symbol (List.mem_singleton_self symbol)⟩

theorem expect_ok {symbol : Symbol} {cause : SyntaxError.Cause} {t : Token} {s s' : State}
    (h : expect symbol cause s = .ok t s') :
    t.kind = .symbol symbol ∧ ∃ rest, s.rest = t :: rest ∧ s' = { s with rest } := by
  rw [expect, bind_ok] at h
  obtain ⟨r, s₁, accepted, h⟩ := h
  rcases accept_ok accepted with ⟨t', rest, rfl, kind, found, rfl⟩ | ⟨rfl, rfl, -⟩
  · rw [pure_ok] at h
    obtain ⟨rfl, rfl⟩ := h
    exact ⟨kind, rest, found, rfl⟩
  · cases h

theorem rest_of_next {s : State} (kind : s.next.kind ≠ .endOfInput) :
    s.rest = s.next :: s.rest.tail := by
  obtain ⟨rest, nextId, errors⟩ := s
  cases rest with
  | nil => exact (kind rfl).elim
  | cons t rest => rfl

theorem expectName_ok {cause : SyntaxError.Cause} {t : Token} {s s' : State}
    (h : expectName cause s = .ok t s') :
    t.kind = .identifier ∧ ∃ rest, s.rest = t :: rest ∧ s' = { s with rest } := by
  rw [expectName, bind_ok] at h
  obtain ⟨token, s₁, peeked, h⟩ := h
  cases peeked
  cases kind : s.next.kind <;> rw [kind] at h
  case identifier =>
    rw [bind_ok] at h
    obtain ⟨_, s₂, skipped, h⟩ := h
    cases skipped
    rw [pure_ok] at h
    obtain ⟨rfl, rfl⟩ := h
    exact ⟨kind, _, rest_of_next (by simp [kind]), rfl⟩
  all_goals cases h

/-! ## Expressions -/

theorem primary_reads {inner : Parser Expr} (inner_reads : Reads inner (Derives .expression)) :
    Reads (primary inner) (Derives .primary) := by
  intro s e s' h clean
  rw [primary, bind_ok] at h
  obtain ⟨t, s₁, peeked, h⟩ := h
  cases peeked
  have here : s.next.kind ≠ .endOfInput → s.rest = [s.next] ++ s.rest.tail := rest_of_next
  cases kind : s.next.kind with
  | symbol word =>
      rw [kind] at h here
      cases word
      case falseWord =>
        cases h
        exact ⟨clean, _, here nofun, .constant (kind ▸ .no)⟩
      case trueWord =>
        cases h
        exact ⟨clean, _, here nofun, .constant (kind ▸ .yes)⟩
      case nilWord =>
        cases h
        exact ⟨clean, _, here nofun, .constant (kind ▸ .nil)⟩
      case thisWord =>
        cases h
        exact ⟨clean, _, here nofun, .self kind⟩
      case superWord =>
        simp only [bind_ok, pure_ok] at h
        obtain ⟨_, s₁, skipped, dot, s₂, readDot, method, s₃, readName, r, s₄, numbered, rfl, rfl⟩ := h
        cases skipped
        obtain ⟨dotKind, rest₁, here₁, rfl⟩ := expect_ok readDot
        obtain ⟨nameKind, rest₂, here₂, rfl⟩ := expectName_ok readName
        cases numbered
        refine ⟨clean, [s.next, dot, method], ?_, .inherited kind dotKind nameKind⟩
        simp only at here₁ here₂
        rw [here nofun, here₁, here₂]
        rfl
      case leftParen =>
        simp only [bind_ok, pure_ok] at h
        obtain ⟨_, s₁, skipped, value, s₂, readInner, closing, s₃, readClosing, rfl, rfl⟩ := h
        cases skipped
        obtain ⟨closingKind, rest₂, here₂, rfl⟩ := expect_ok readClosing
        obtain ⟨before, ts, here₁, derived⟩ := inner_reads _ _ _ readInner clean
        refine ⟨before, s.next :: (ts ++ [closing]), ?_, .grouping kind derived closingKind⟩
        simp only at here₁
        rw [here nofun, here₁, here₂]
        simp
      all_goals cases h
  | identifier =>
      rw [kind] at h here
      cases h
      exact ⟨clean, _, here nofun, .name kind⟩
  | number value =>
      rw [kind] at h here
      cases h
      exact ⟨clean, _, here nofun, .constant (kind ▸ .number value)⟩
  | string text =>
      rw [kind] at h here
      cases h
      exact ⟨clean, _, here nofun, .constant (kind ▸ .string text)⟩
  | endOfInput =>
      rw [kind] at h
      cases h

theorem argument_ok {inner : Parser Expr} (inner_reads : Reads inner (Derives .expression))
    {count : Nat} {s s' : State} {e : Expr} (h : argument inner count s = .ok e s')
    (clean : s'.errors = #[]) :
    count < mostParameters ∧ s.errors = #[] ∧
      ∃ ts, s.rest = ts ++ s'.rest ∧ Derives .expression ts s.nextId e s'.nextId := by
  unfold argument at h
  split at h
  · simp only [bind_ok] at h
    obtain ⟨t, s₁, peeked, _, s₂, reported, h⟩ := h
    cases peeked
    cases reported
    have before := (inner_reads _ _ _ h clean).1
    exact (Array.push_ne_empty before).elim
  · rename_i below
    exact ⟨by omega, inner_reads _ _ _ h clean⟩

theorem arguments_reads {inner : Parser Expr} (inner_reads : Reads inner (Derives .expression))
    (rounds : Nat) :
    ∀ count, Reads (arguments inner count rounds)
      fun ts n es n' => Arguments ts n es n' ∧ count + es.length ≤ longestList := by
  induction rounds with
  | zero =>
      intro count s es s' h clean
      simp only [arguments, bind_ok, pure_ok] at h
      obtain ⟨e, s₁, read, rfl, rfl⟩ := h
      obtain ⟨below, before, ts, here, derived⟩ := argument_ok inner_reads read clean
      exact ⟨before, ts, here, .one derived, below⟩
  | succ rounds ih =>
      intro count s es s' h clean
      simp only [arguments, bind_ok] at h
      obtain ⟨e, s₁, read, comma, s₂, accepted, h⟩ := h
      rcases accept_ok accepted with ⟨comma, rest, rfl, kind, found, rfl⟩ | ⟨rfl, rfl, -⟩
      · simp only [bind_ok, pure_ok] at h
        obtain ⟨es, s₃, readMore, rfl, rfl⟩ := h
        obtain ⟨clean₁, us, here₁, more, short⟩ := ih _ _ _ _ readMore clean
        obtain ⟨-, before, ts, here, derived⟩ := argument_ok inner_reads read clean₁
        simp only at here₁
        refine ⟨before, ts ++ comma :: us, by simp [here, found, here₁], .more derived kind more, ?_⟩
        rw [List.length_cons]
        omega
      · rw [pure_ok] at h
        obtain ⟨rfl, rfl⟩ := h
        obtain ⟨below, before, ts, here, derived⟩ := argument_ok inner_reads read clean
        exact ⟨before, ts, here, .one derived, below⟩

def Continues (nonterminal : Nonterminal) (left : Expr) : Phrase Expr := fun ts n e n' =>
  ∀ us m, Derives nonterminal us m left n → Derives nonterminal (us ++ ts) m e n'

theorem continues_nil {nonterminal : Nonterminal} {left : Expr} {n : Nat} :
    Continues nonterminal left [] n left n := by
  intro us m derived
  rwa [List.append_nil]

theorem suffixes_reads {inner : Parser Expr} (inner_reads : Reads inner (Derives .expression))
    (rounds : Nat) :
    ∀ target, Reads (suffixes inner target rounds) (Continues .call target) := by
  induction rounds with
  | zero =>
      intro target s e s' h clean
      cases h
      exact ⟨clean, [], rfl, continues_nil⟩
  | succ rounds ih =>
      intro target s e s' h clean
      simp only [suffixes, bind_ok] at h
      obtain ⟨opening, s₁, accepted, h⟩ := h
      rcases accept_ok accepted with ⟨opening, rest, rfl, openingKind, found, rfl⟩ | ⟨rfl, rfl, -⟩
      · simp only [Option.isSome_some, if_true, bind_ok] at h
        obtain ⟨empty, s₂, looked, h⟩ := h
        cases looked
        split at h
        · simp only [bind_ok, pure_ok] at h
          obtain ⟨_, _, ⟨rfl, rfl⟩, closing, s₃, readClosing, h⟩ := h
          obtain ⟨closingKind, rest₂, here₂, rfl⟩ := expect_ok readClosing
          obtain ⟨before, us, here₃, continued⟩ := ih _ _ _ _ h clean
          refine ⟨before, opening :: closing :: us, by simp_all, ?_⟩
          intro vs m derived
          simpa using continued _ _ (.callEmpty derived openingKind closingKind)
        · simp only [bind_ok] at h
          obtain ⟨es, s₂, readList, closing, s₃, readClosing, h⟩ := h
          obtain ⟨closingKind, rest₂, here₂, rfl⟩ := expect_ok readClosing
          obtain ⟨clean₃, us, here₃, continued⟩ := ih _ _ _ _ h clean
          obtain ⟨before, vs, here₁, listed, short⟩ :=
            Reads.withRounds (fun rounds => arguments_reads inner_reads rounds 0) _ _ _ readList clean₃
          refine ⟨before, opening :: (vs ++ closing :: us), by simp_all, ?_⟩
          intro ws m derived
          rw [Nat.zero_add] at short
          simpa using continued _ _ (.call derived openingKind listed short closingKind)
      · simp only [Option.isSome_none, Bool.false_eq_true, if_false, bind_ok] at h
        obtain ⟨dot, s₁, accepted, h⟩ := h
        rcases accept_ok accepted with ⟨dot, rest, rfl, dotKind, found, rfl⟩ | ⟨rfl, rfl, -⟩
        · simp only [Option.isSome_some, if_true, bind_ok] at h
          obtain ⟨name, s₂, readName, h⟩ := h
          obtain ⟨nameKind, rest₁, here₁, rfl⟩ := expectName_ok readName
          obtain ⟨before, us, here₂, continued⟩ := ih _ _ _ _ h clean
          refine ⟨before, dot :: name :: us, ?_, ?_⟩
          · simp_all
          · intro vs m derived
            simpa using continued _ _ (.get derived dotKind nameKind)
        · simp only [Option.isSome_none, Bool.false_eq_true, if_false, pure_ok] at h
          obtain ⟨rfl, rfl⟩ := h
          exact ⟨clean, [], rfl, continues_nil⟩

theorem calls_reads {inner : Parser Expr} (inner_reads : Reads inner (Derives .expression)) :
    Reads (calls inner) (Derives .call) := by
  intro s e s' h clean
  simp only [calls, bind_ok] at h
  obtain ⟨target, s₁, readTarget, h⟩ := h
  obtain ⟨clean₁, us, here₁, continued⟩ :=
    Reads.withRounds (fun rounds => suffixes_reads inner_reads rounds target) _ _ _ h clean
  obtain ⟨before, ts, here, derived⟩ := primary_reads inner_reads _ _ _ readTarget clean₁
  exact ⟨before, ts ++ us, by simp [here, here₁], continued _ _ (.primary derived)⟩

theorem signs_reads {operand : Parser Expr} (operand_reads : Reads operand (Derives .call))
    (rounds : Nat) :
    Reads (signs operand rounds) (Derives .unary) := by
  induction rounds with
  | zero => exact operand_reads.mono .unsigned
  | succ rounds ih =>
      intro s e s' h clean
      simp only [signs, bind_ok] at h
      obtain ⟨operator, s₁, accepted, h⟩ := h
      rcases acceptAny_ok accepted with ⟨operator, sym, rest, rfl, mem, kind, found, rfl⟩ | ⟨rfl, rfl, -⟩
      · simp only [bind_ok, pure_ok] at h
        obtain ⟨right, s₂, read, rfl, rfl⟩ := h
        obtain ⟨before, ts, here, derived⟩ := ih _ _ _ read clean
        simp only at here
        exact ⟨before, operator :: ts, by simp [found, here], .sign kind mem derived⟩
      · exact operand_reads.mono .unsigned _ _ _ h clean

def levelOf (p : Precedence) : Level := ⟨p.operators, p.build⟩

theorem chain_reads {p : Precedence} {operand : Parser Expr}
    (operand_reads : Reads operand (Derives p.operand)) (rounds : Nat) :
    ∀ left, Reads (chain (levelOf p) operand left rounds) (Continues (.operation p) left) := by
  induction rounds with
  | zero =>
      intro left s e s' h clean
      cases h
      exact ⟨clean, [], rfl, continues_nil⟩
  | succ rounds ih =>
      intro left s e s' h clean
      simp only [chain, bind_ok] at h
      obtain ⟨operator, s₁, accepted, h⟩ := h
      rcases acceptAny_ok accepted with ⟨operator, sym, rest, rfl, mem, kind, found, rfl⟩ | ⟨rfl, rfl, -⟩
      · simp only [bind_ok] at h
        obtain ⟨right, s₂, read, h⟩ := h
        obtain ⟨clean₁, us, here₁, continued⟩ := ih _ _ _ _ h clean
        obtain ⟨before, ts, here, derived⟩ := operand_reads _ _ _ read clean₁
        simp only at here
        refine ⟨before, operator :: (ts ++ us), by simp [found, here, here₁], ?_⟩
        intro vs m first
        simpa using continued _ _ (.operate first kind mem derived)
      · rw [pure_ok] at h
        obtain ⟨rfl, rfl⟩ := h
        exact ⟨clean, [], rfl, continues_nil⟩

theorem operations_reads {p : Precedence} {operand : Parser Expr} {tighter : List Level}
    (tighter_reads : Reads (operations operand tighter) (Derives p.operand)) :
    Reads (operations operand (levelOf p :: tighter)) (Derives (.operation p)) := by
  intro s e s' h clean
  simp only [operations, bind_ok] at h
  obtain ⟨left, s₁, read, h⟩ := h
  obtain ⟨clean₁, us, here₁, continued⟩ :=
    Reads.withRounds (fun rounds => chain_reads tighter_reads rounds left) _ _ _ h clean
  obtain ⟨before, ts, here, derived⟩ := tighter_reads _ _ _ read clean₁
  exact ⟨before, ts ++ us, by simp [here, here₁], continued _ _ (.operand derived)⟩

theorem levels_read {operand : Parser Expr} (operand_reads : Reads operand (Derives .unary)) :
    Reads (operations operand levels) (Derives (.operation .disjunction)) := by
  have factors : Reads (operations operand [levelOf .factor]) (Derives (.operation .factor)) :=
    operations_reads operand_reads
  have terms := operations_reads (p := .term) factors
  have comparisons := operations_reads (p := .comparison) terms
  have equalities := operations_reads (p := .equality) comparisons
  have conjunctions := operations_reads (p := .conjunction) equalities
  exact operations_reads (p := .disjunction) conjunctions

theorem assignTo_ok {target value e : Expr} {equals : Token} {s s' : State}
    (h : assignTo target equals value s = .ok e s') (clean : s'.errors = #[]) :
    s' = s ∧ ((∃ r, target = .read r ∧ e = .assign r value) ∨
      ∃ o name, target = .get o name ∧ e = .set o name value) := by
  unfold assignTo at h
  split at h
  · rw [pure_ok] at h
    obtain ⟨rfl, rfl⟩ := h
    exact ⟨rfl, .inl ⟨_, rfl, rfl⟩⟩
  · rw [pure_ok] at h
    obtain ⟨rfl, rfl⟩ := h
    exact ⟨rfl, .inr ⟨_, _, rfl, rfl⟩⟩
  · simp only [bind_ok, pure_ok] at h
    obtain ⟨_, s₁, reported, rfl, rfl⟩ := h
    cases reported
    exact (Array.push_ne_empty clean).elim

theorem expressionWithin_reads (tokens : Nat) :
    Reads (expressionWithin tokens) (Derives .expression) := by
  induction tokens with
  | zero => exact fail_reads _ _
  | succ tokens ih =>
      have target_reads := levels_read (Reads.withRounds (signs_reads (calls_reads ih)))
      intro s e s' h clean
      simp only [expressionWithin, bind_ok] at h
      obtain ⟨target, s₁, readTarget, equals, s₂, accepted, h⟩ := h
      rcases accept_ok accepted with ⟨equals, rest, rfl, kind, found, rfl⟩ | ⟨rfl, rfl, -⟩
      · simp only [bind_ok] at h
        obtain ⟨value, s₃, readValue, h⟩ := h
        obtain ⟨rfl, assigned⟩ := assignTo_ok h clean
        obtain ⟨clean₂, us, here₂, right⟩ := ih _ _ _ readValue clean
        obtain ⟨before, ts, here, left⟩ := target_reads _ _ _ readTarget clean₂
        simp only at here₂
        refine ⟨before, ts ++ equals :: us, by simp [here, found, here₂], ?_⟩
        rcases assigned with ⟨r, rfl, rfl⟩ | ⟨o, name, rfl, rfl⟩
        · obtain ⟨rfl, nameKind, same, advanced⟩ := left.read_inv
          rw [same]
          exact .assignName nameKind kind (advanced ▸ right)
        · obtain ⟨vs, dot, rfl, dotKind, nameKind, object⟩ := left.get_inv
          rw [List.append_assoc]
          exact .assignField object dotKind nameKind kind right
      · rw [pure_ok] at h
        obtain ⟨rfl, rfl⟩ := h
        exact target_reads.mono .operation _ _ _ readTarget clean

theorem expression_reads : Reads expression (Derives .expression) :=
  Reads.withRounds expressionWithin_reads

/-! ## Parts of statements -/

theorem expressionBefore_reads (symbol : Symbol) :
    Reads (expressionBefore symbol) (Optional (Derives .expression)) := by
  intro s e s' h clean
  simp only [expressionBefore, bind_ok] at h
  obtain ⟨here, s₁, looked, h⟩ := h
  cases looked
  split at h
  · rw [pure_ok] at h
    obtain ⟨rfl, rfl⟩ := h
    exact ⟨clean, [], rfl, .absent⟩
  · simp only [bind_ok, pure_ok] at h
    obtain ⟨e, s₁, read, rfl, rfl⟩ := h
    obtain ⟨before, ts, here, derived⟩ := expression_reads _ _ _ read clean
    exact ⟨before, ts, here, .present derived⟩

theorem expressionStatement_reads : Reads expressionStatement ExpressionStatement := by
  intro s a s' h clean
  simp only [expressionStatement, bind_ok, pure_ok] at h
  obtain ⟨e, s₁, read, semicolon, s₂, readEnd, rfl, rfl⟩ := h
  obtain ⟨kind, rest, found, rfl⟩ := expect_ok readEnd
  obtain ⟨before, ts, here, derived⟩ := expression_reads _ _ _ read clean
  exact ⟨before, ts ++ [semicolon], by simp [here, found], .mk derived kind⟩

theorem loopStatement_eq (initializer : Option Stmt) (condition increment : Option Expr)
    (body : Stmt) :
    loopStatement initializer condition increment body =
      loopTree initializer condition increment body := by
  cases initializer <;> cases increment <;> rfl

theorem varDeclaration_reads : Reads varDeclaration fun ts n s n' =>
    ∀ keyword : Token, keyword.kind = .symbol .varWord → VarDeclaration (keyword :: ts) n s n' := by
  intro s a s' h clean
  simp only [varDeclaration, bind_ok] at h
  obtain ⟨name, s₁, readName, equals, s₂, accepted, h⟩ := h
  obtain ⟨nameKind, rest₁, here₁, rfl⟩ := expectName_ok readName
  rcases accept_ok accepted with ⟨equals, rest, rfl, equalsKind, found, rfl⟩ | ⟨rfl, rfl, -⟩
  · simp only [Option.isSome_some, if_true, bind_ok, pure_ok] at h
    obtain ⟨e, s₂, read, _, _, ⟨rfl, rfl⟩, semicolon, s₃, readEnd, rfl, rfl⟩ := h
    obtain ⟨endKind, rest₂, here₂, rfl⟩ := expect_ok readEnd
    obtain ⟨before, ts, here, derived⟩ := expression_reads _ _ _ read clean
    simp only at found here
    refine ⟨before, name :: (equals :: ts ++ [semicolon]), by simp [here₁, found, here, here₂], ?_⟩
    intro keyword kind
    exact .mk kind nameKind (.present (.mk equalsKind derived)) endKind
  · simp only [Option.isSome_none, Bool.false_eq_true, if_false, bind_ok, pure_ok] at h
    obtain ⟨_, _, ⟨rfl, rfl⟩, semicolon, s₂, readEnd, rfl, rfl⟩ := h
    obtain ⟨endKind, rest₂, here₂, rfl⟩ := expect_ok readEnd
    simp only at here₂
    refine ⟨clean, name :: ([] ++ [semicolon]), by simp [here₁, here₂], ?_⟩
    intro keyword kind
    exact .mk kind nameKind .absent endKind

theorem loopInitializer_reads : Reads loopInitializer LoopInitializer := by
  intro s a s' h clean
  simp only [loopInitializer, bind_ok] at h
  obtain ⟨semicolon, s₁, accepted, h⟩ := h
  rcases accept_ok accepted with ⟨semicolon, rest, rfl, kind, found, rfl⟩ | ⟨rfl, rfl, -⟩
  · simp only [Option.isSome_some, if_true, pure_ok] at h
    obtain ⟨rfl, rfl⟩ := h
    exact ⟨clean, [semicolon], found, .absent kind⟩
  · simp only [Option.isSome_none, Bool.false_eq_true, if_false, bind_ok] at h
    obtain ⟨keyword, s₁, accepted, h⟩ := h
    rcases accept_ok accepted with ⟨keyword, rest, rfl, kind, found, rfl⟩ | ⟨rfl, rfl, -⟩
    · simp only [Option.isSome_some, if_true, bind_ok, pure_ok] at h
      obtain ⟨stmt, s₂, read, rfl, rfl⟩ := h
      obtain ⟨before, ts, here, derived⟩ := varDeclaration_reads _ _ _ read clean
      simp only at here
      exact ⟨before, keyword :: ts, by simp [found, here], .variable (derived keyword kind)⟩
    · simp only [Option.isSome_none, Bool.false_eq_true, if_false, bind_ok, pure_ok] at h
      obtain ⟨stmt, s₂, read, rfl, rfl⟩ := h
      obtain ⟨before, ts, here, derived⟩ := expressionStatement_reads _ _ _ read clean
      exact ⟨before, ts, here, .expression derived⟩

theorem parameter_ok {count : Nat} {s s' : State} {t : Token} (h : parameter count s = .ok t s')
    (clean : s'.errors = #[]) :
    count < mostParameters ∧ t.kind = .identifier ∧ ∃ rest, s.rest = t :: rest ∧
    s' = { s with rest } := by
  unfold parameter at h
  split at h
  · simp only [bind_ok] at h
    obtain ⟨_, s₁, peeked, _, s₂, reported, h⟩ := h
    cases peeked
    cases reported
    obtain ⟨-, rest, -, rfl⟩ := expectName_ok h
    exact (Array.push_ne_empty clean).elim
  · rename_i below
    exact ⟨by omega, expectName_ok h⟩

theorem parameters_reads (rounds : Nat) : ∀ count, Reads (parameters count rounds)
    fun ts n params n' => n' = n ∧ Parameters ts params ∧ count + params.length ≤ longestList := by
  induction rounds with
  | zero =>
      intro count s es s' h clean
      simp only [parameters, bind_ok, pure_ok] at h
      obtain ⟨t, s₁, read, rfl, rfl⟩ := h
      obtain ⟨below, kind, rest, here, rfl⟩ := parameter_ok read clean
      exact ⟨clean, [t], here, rfl, .one kind, below⟩
  | succ rounds ih =>
      intro count s es s' h clean
      simp only [parameters, bind_ok] at h
      obtain ⟨t, s₁, read, comma, s₂, accepted, h⟩ := h
      rcases accept_ok accepted with ⟨comma, rest, rfl, commaKind, found, rfl⟩ | ⟨rfl, rfl, -⟩
      · simp only [bind_ok, pure_ok] at h
        obtain ⟨params, s₃, readMore, rfl, rfl⟩ := h
        obtain ⟨clean₁, us, here₁, same, more, short⟩ := ih _ _ _ _ readMore clean
        obtain ⟨-, kind, rest₂, here₂, rfl⟩ := parameter_ok read clean₁
        simp only at found here₁
        refine ⟨clean₁, t :: comma :: us, by simp [here₂, found, here₁], same,
          .more kind commaKind more, ?_⟩
        rw [List.length_cons]
        omega
      · rw [pure_ok] at h
        obtain ⟨rfl, rfl⟩ := h
        obtain ⟨below, kind, rest, here, rfl⟩ := parameter_ok read clean
        exact ⟨clean, [t], here, rfl, .one kind, below⟩

/-! ## Declarations -/

abbrev ReadsDeclaration (parser : Parser (Option Stmt)) : Prop :=
  Reads parser fun ts n read n' => ∃ s, read = some s ∧ Declaration ts n s n'

/--
A parser that reads a statement and does not leave behind an `else` that the statement could take.
-/
def ReadsStatement (parser : Parser Stmt) : Prop :=
  ∀ s a s', parser s = .ok a s' → s'.errors = #[] →
    s.errors = #[] ∧ ∃ d ts, s.rest = ts ++ s'.rest ∧ Statement d ts s.nextId a s'.nextId ∧
      (d = true → s'.next.kind ≠ .symbol .elseWord)

section Nested

variable {declaration : Parser (Option Stmt)} (declaration_reads : ReadsDeclaration declaration)
include declaration_reads

theorem blockItems_reads (rounds : Nat) : Reads (blockItems declaration rounds) Declarations := by
  induction rounds with
  | zero =>
      intro s a s' h clean
      cases h
      exact ⟨clean, [], rfl, .nil⟩
  | succ rounds ih =>
      intro s a s' h clean
      simp only [blockItems, bind_ok] at h
      obtain ⟨closed, s₁, looked, h⟩ := h
      cases looked
      obtain ⟨ended, s₁, looked, h⟩ := h
      cases looked
      split at h
      · rw [pure_ok] at h
        obtain ⟨rfl, rfl⟩ := h
        exact ⟨clean, [], rfl, .nil⟩
      · simp only [bind_ok, pure_ok] at h
        obtain ⟨first, s₁, readFirst, rest, s₂, readRest, rfl, rfl⟩ := h
        obtain ⟨clean₁, us, here₁, others⟩ := ih _ _ _ readRest clean
        obtain ⟨before, ts, here, stmt, rfl, derived⟩ := declaration_reads _ _ _ readFirst clean₁
        exact ⟨before, ts ++ us, by simp [here, here₁], .cons derived others⟩

theorem block_reads : Reads (block declaration) fun ts n ss n' =>
    ∃ us closing, ts = us ++ [closing] ∧ closing.kind = .symbol .rightBrace ∧
    Declarations us n ss n' := by
  intro s a s' h clean
  simp only [block, bind_ok, pure_ok] at h
  obtain ⟨body, s₁, read, closing, s₂, readEnd, rfl, rfl⟩ := h
  obtain ⟨kind, rest, found, rfl⟩ := expect_ok readEnd
  obtain ⟨before, ts, here, derived⟩ :=
    Reads.withRounds (blockItems_reads declaration_reads) _ _ _ read clean
  exact ⟨before, ts ++ [closing], by simp [here, found], ts, closing, rfl, kind, derived⟩

theorem function_reads (role : FunctionRole) : Reads (function declaration role) Function := by
  intro s a s' h clean
  simp only [function, bind_ok] at h
  obtain ⟨name, s₁, readName, opening, s₂, readOpening, empty, s₃, looked, h⟩ := h
  obtain ⟨nameKind, rest₁, here₁, rfl⟩ := expectName_ok readName
  obtain ⟨openingKind, rest₂, here₂, rfl⟩ := expect_ok readOpening
  cases looked
  simp only at here₂
  split at h
  · simp only [bind_ok, pure_ok] at h
    obtain ⟨_, _, ⟨rfl, rfl⟩, closing, s₄, readClosing, brace, s₅, readBrace, body, s₆, readBody,
      rfl, rfl⟩ := h
    obtain ⟨closingKind, rest₄, here₄, rfl⟩ := expect_ok readClosing
    obtain ⟨braceKind, rest₅, here₅, rfl⟩ := expect_ok readBrace
    obtain ⟨before, _, here₆, us, brace', rfl, braceKind', derived⟩ :=
      block_reads declaration_reads _ _ _ readBody clean
    simp only at here₄ here₅ here₆
    refine ⟨before, name :: opening :: ([] ++ closing :: brace :: (us ++ [brace'])), ?_,
      .mk nameKind openingKind .empty closingKind braceKind derived braceKind'⟩
    simp [here₁, here₂, here₄, here₅, here₆]
  · simp only [bind_ok, pure_ok] at h
    obtain ⟨params, s₃, readList, closing, s₄, readClosing, brace, s₅, readBrace, body, s₆,
      readBody, rfl, rfl⟩ := h
    obtain ⟨closingKind, rest₄, here₄, rfl⟩ := expect_ok readClosing
    obtain ⟨braceKind, rest₅, here₅, rfl⟩ := expect_ok readBrace
    obtain ⟨clean₅, _, here₆, us, brace', rfl, braceKind', derived⟩ :=
      block_reads declaration_reads _ _ _ readBody clean
    obtain ⟨before, ts, here₃, same, listed, short⟩ :=
      Reads.withRounds (fun rounds => parameters_reads rounds 0) _ _ _ readList clean₅
    simp only at here₃ here₄ here₅ here₆ same derived
    rw [Nat.zero_add] at short
    rw [same] at derived
    refine ⟨before, name :: opening :: (ts ++ closing :: brace :: (us ++ [brace'])), ?_,
      .mk nameKind openingKind (.names listed short) closingKind braceKind derived braceKind'⟩
    simp [here₁, here₂, here₃, here₄, here₅, here₆]

theorem methods_reads (rounds : Nat) : Reads (methods declaration rounds) Functions := by
  induction rounds with
  | zero =>
      intro s a s' h clean
      cases h
      exact ⟨clean, [], rfl, .nil⟩
  | succ rounds ih =>
      intro s a s' h clean
      simp only [methods, bind_ok] at h
      obtain ⟨closed, s₁, looked, h⟩ := h
      cases looked
      obtain ⟨ended, s₁, looked, h⟩ := h
      cases looked
      split at h
      · rw [pure_ok] at h
        obtain ⟨rfl, rfl⟩ := h
        exact ⟨clean, [], rfl, .nil⟩
      · simp only [bind_ok, pure_ok] at h
        obtain ⟨first, s₁, readFirst, rest, s₂, readRest, rfl, rfl⟩ := h
        obtain ⟨clean₁, us, here₁, others⟩ := ih _ _ _ readRest clean
        obtain ⟨before, ts, here, derived⟩ := function_reads declaration_reads _ _ _ _ readFirst clean₁
        exact ⟨before, ts ++ us, by simp [here, here₁], .cons derived others⟩

theorem classDeclaration_reads : Reads (classDeclaration declaration) fun ts n s n' =>
    ∀ keyword : Token, keyword.kind = .symbol .classWord → Declaration (keyword :: ts) n s n' := by
  intro s a s' h clean
  simp only [classDeclaration, bind_ok] at h
  obtain ⟨name, s₁, readName, less, s₂, accepted, h⟩ := h
  obtain ⟨nameKind, rest₁, here₁, rfl⟩ := expectName_ok readName
  rcases accept_ok accepted with ⟨less, rest, rfl, lessKind, found, rfl⟩ | ⟨rfl, rfl, -⟩
  · simp only [Option.isSome_some, if_true, bind_ok, pure_ok] at h
    obtain ⟨parent, s₃, readParent, r, s₄, numbered, _, _, ⟨rfl, rfl⟩, opening, s₅, readOpening,
      members, s₆, readMembers, closing, s₇, readClosing, rfl, rfl⟩ := h
    obtain ⟨parentKind, rest₃, here₃, rfl⟩ := expectName_ok readParent
    cases numbered
    obtain ⟨openingKind, rest₅, here₅, rfl⟩ := expect_ok readOpening
    obtain ⟨closingKind, rest₇, here₇, rfl⟩ := expect_ok readClosing
    obtain ⟨before, us, here₆, derived⟩ :=
      Reads.withRounds (methods_reads declaration_reads) _ _ _ readMembers clean
    simp only at found here₃ here₅ here₆
    refine ⟨before, name :: ([less, parent] ++ opening :: (us ++ [closing])), ?_, ?_⟩
    · simp [here₁, found, here₃, here₅, here₆, here₇]
    · intro keyword kind
      exact .classDecl kind nameKind
        (.present (.mk lessKind parentKind)) openingKind derived closingKind
  · simp only [Option.isSome_none, Bool.false_eq_true, if_false, bind_ok, pure_ok] at h
    obtain ⟨_, _, ⟨rfl, rfl⟩, opening, s₅, readOpening, members, s₆, readMembers, closing, s₇,
      readClosing, rfl, rfl⟩ := h
    obtain ⟨openingKind, rest₅, here₅, rfl⟩ := expect_ok readOpening
    obtain ⟨closingKind, rest₇, here₇, rfl⟩ := expect_ok readClosing
    obtain ⟨before, us, here₆, derived⟩ :=
      Reads.withRounds (methods_reads declaration_reads) _ _ _ readMembers clean
    simp only at here₅ here₆
    refine ⟨before, name :: ([] ++ opening :: (us ++ [closing])), ?_, ?_⟩
    · simp [here₁, here₅, here₆, here₇]
    · intro keyword kind
      exact .classDecl kind nameKind .absent openingKind derived closingKind

end Nested

/-! ## Statements -/

def ReadsAfter (word : Symbol) (parser : Token → Parser Stmt) : Prop :=
  ∀ keyword : Token, keyword.kind = .symbol word → ∀ s a s', parser keyword s = .ok a s' →
    s'.errors = #[] →
    s.errors = #[] ∧ ∃ d ts, s.rest = ts ++ s'.rest ∧ Statement d (keyword :: ts) s.nextId a s'.nextId ∧
      (d = true → s'.next.kind ≠ .symbol .elseWord)

theorem printStatement_reads : ReadsAfter .printWord fun _ => printStatement := by
  intro keyword kind s a s' h clean
  simp only [printStatement, bind_ok, pure_ok] at h
  obtain ⟨e, s₁, read, semicolon, s₂, readEnd, rfl, rfl⟩ := h
  obtain ⟨endKind, rest, found, rfl⟩ := expect_ok readEnd
  obtain ⟨before, ts, here, derived⟩ := expression_reads _ _ _ read clean
  exact ⟨before, false, ts ++ [semicolon], by simp [here, found], .print kind derived endKind, nofun⟩

theorem returnStatement_reads : ReadsAfter .returnWord returnStatement := by
  intro keyword kind s a s' h clean
  simp only [returnStatement, bind_ok, pure_ok] at h
  obtain ⟨e, s₁, read, semicolon, s₂, readEnd, rfl, rfl⟩ := h
  obtain ⟨endKind, rest, found, rfl⟩ := expect_ok readEnd
  obtain ⟨before, ts, here, derived⟩ := expressionBefore_reads _ _ _ _ read clean
  exact ⟨before, false, ts ++ [semicolon], by simp [here, found], .returnStmt kind derived endKind,
    nofun⟩

section Nested

variable {statement : Parser Stmt} (statement_reads : ReadsStatement statement)

section
include statement_reads

theorem whileStatement_reads : ReadsAfter .whileWord fun _ => whileStatement statement := by
  intro keyword kind s a s' h clean
  simp only [whileStatement, bind_ok, pure_ok] at h
  obtain ⟨opening, s₁, readOpening, e, s₂, read, closing, s₃, readClosing, body, s₄, readBody,
    rfl, rfl⟩ := h
  obtain ⟨openingKind, rest₁, here₁, rfl⟩ := expect_ok readOpening
  obtain ⟨closingKind, rest₃, here₃, rfl⟩ := expect_ok readClosing
  obtain ⟨clean₃, d, us, here₄, derivedBody, alone⟩ := statement_reads _ _ _ readBody clean
  obtain ⟨before, ts, here₂, derived⟩ := expression_reads _ _ _ read clean₃
  simp only at here₂ here₄
  refine ⟨before, d, opening :: (ts ++ closing :: us), by simp [here₁, here₂, here₃, here₄], ?_, alone⟩
  exact .whileLoop kind openingKind derived closingKind derivedBody

theorem ifStatement_reads : ReadsAfter .ifWord fun _ => ifStatement statement := by
  intro keyword kind s a s' h clean
  simp only [ifStatement, bind_ok] at h
  obtain ⟨opening, s₁, readOpening, e, s₂, read, closing, s₃, readClosing, thenBranch, s₄, readThen,
    otherwise, s₅, accepted, h⟩ := h
  obtain ⟨openingKind, rest₁, here₁, rfl⟩ := expect_ok readOpening
  obtain ⟨closingKind, rest₃, here₃, rfl⟩ := expect_ok readClosing
  rcases accept_ok accepted with ⟨otherwise, rest₅, rfl, elseKind, here₅, rfl⟩ | ⟨rfl, rfl, noElse⟩
  · simp only [Option.isSome_some, if_true, bind_ok, pure_ok] at h
    obtain ⟨elseBranch, s₆, readElse, _, _, ⟨rfl, rfl⟩, rfl, rfl⟩ := h
    obtain ⟨clean₅, d, vs, here₆, derivedElse, alone⟩ := statement_reads _ _ _ readElse clean
    obtain ⟨clean₃, d', us, here₄, derivedThen, taken⟩ := statement_reads _ _ _ readThen clean₅
    obtain ⟨before, ts, here₂, derived⟩ := expression_reads _ _ _ read clean₃
    -- The `else` was not taken by the first branch, so that branch could not take it.
    have closed : d' = false := by
      cases d' with
      | false => rfl
      | true => exact (taken rfl (by simp [State.next, here₅, elseKind])).elim
    subst closed
    simp only at here₂ here₄ here₆
    refine ⟨before, d, opening :: (ts ++ closing :: (us ++ otherwise :: vs)), ?_, ?_, alone⟩
    · simp [here₁, here₂, here₃, here₄, here₅, here₆]
    · exact .ifElse kind openingKind derived closingKind derivedThen elseKind derivedElse
  · simp only [Option.isSome_none, Bool.false_eq_true, if_false, bind_ok, pure_ok] at h
    obtain ⟨_, _, ⟨rfl, rfl⟩, rfl, rfl⟩ := h
    obtain ⟨clean₃, d, us, here₄, derivedThen, -⟩ := statement_reads _ _ _ readThen clean
    obtain ⟨before, ts, here₂, derived⟩ := expression_reads _ _ _ read clean₃
    simp only at here₂ here₄
    refine ⟨before, true, opening :: (ts ++ closing :: us), by simp [here₁, here₂, here₃, here₄], ?_,
      fun _ => noElse⟩
    exact .ifThen kind openingKind derived closingKind derivedThen

theorem forStatement_reads : ReadsAfter .forWord fun _ => forStatement statement := by
  intro keyword kind s a s' h clean
  simp only [forStatement, bind_ok, pure_ok] at h
  obtain ⟨opening, s₁, readOpening, initializer, s₂, readFirst, condition, s₃, readSecond,
    semicolon, s₄, readEnd, increment, s₅, readThird, closing, s₆, readClosing, body, s₇, readBody,
    rfl, rfl⟩ := h
  obtain ⟨openingKind, rest₁, here₁, rfl⟩ := expect_ok readOpening
  obtain ⟨endKind, rest₄, here₄, rfl⟩ := expect_ok readEnd
  obtain ⟨closingKind, rest₆, here₆, rfl⟩ := expect_ok readClosing
  obtain ⟨clean₆, d, ws, here₇, derivedBody, alone⟩ := statement_reads _ _ _ readBody clean
  obtain ⟨clean₄, vs, here₅, third⟩ := expressionBefore_reads _ _ _ _ readThird clean₆
  obtain ⟨clean₂, us, here₃, second⟩ := expressionBefore_reads _ _ _ _ readSecond clean₄
  obtain ⟨before, ts, here₂, first⟩ := loopInitializer_reads _ _ _ readFirst clean₂
  simp only at here₂ here₅ here₇
  refine ⟨before, d, opening :: (ts ++ (us ++ semicolon :: (vs ++ closing :: ws))), ?_, ?_, alone⟩
  · simp [here₁, here₂, here₃, here₄, here₅, here₆, here₇]
  · rw [loopStatement_eq]
    exact .forLoop kind openingKind first second endKind third closingKind derivedBody

end

theorem ReadsStatement.alternative {word : Symbol} {next : Option Token → Parser Stmt}
    (matched : ReadsAfter word fun keyword => next (some keyword))
    (others : ReadsStatement (next none)) :
    ReadsStatement (accept word >>= next) := by
  intro s a s' h clean
  rw [bind_ok] at h
  obtain ⟨keyword, s₁, accepted, h⟩ := h
  rcases accept_ok accepted with ⟨keyword, rest, rfl, kind, found, rfl⟩ | ⟨rfl, rfl, -⟩
  · obtain ⟨before, d, ts, here, derived, alone⟩ := matched keyword kind _ _ _ h clean
    simp only at here
    exact ⟨before, d, keyword :: ts, by simp [found, here], derived, alone⟩
  · exact others _ _ _ h clean

variable {declaration : Parser (Option Stmt)} (declaration_reads : ReadsDeclaration declaration)

include declaration_reads in
theorem blockStatement_reads :
    ReadsAfter .leftBrace fun _ => return .block (← block declaration) := by
  intro keyword kind s a s' h clean
  simp only [bind_ok, pure_ok] at h
  obtain ⟨ss, s₁, read, rfl, rfl⟩ := h
  obtain ⟨before, _, here, us, closing, rfl, closingKind, derived⟩ :=
    block_reads declaration_reads _ _ _ read clean
  exact ⟨before, false, us ++ [closing], here, .block kind derived closingKind, nofun⟩

include statement_reads declaration_reads in
theorem statementWith_reads : ReadsStatement (statementWith declaration statement) := by
  refine .alternative (forStatement_reads statement_reads) ?_
  refine .alternative (ifStatement_reads statement_reads) ?_
  refine .alternative printStatement_reads ?_
  refine .alternative returnStatement_reads ?_
  refine .alternative (whileStatement_reads statement_reads) ?_
  refine .alternative (blockStatement_reads declaration_reads) ?_
  intro s a s' h clean
  obtain ⟨before, ts, here, derived⟩ := expressionStatement_reads _ _ _ h clean
  exact ⟨before, false, ts, here, .expression derived, nofun⟩

include statement_reads declaration_reads in
theorem declarationWith_reads : Reads (declarationWith declaration statement) Declaration := by
  intro s a s' h clean
  simp only [declarationWith, bind_ok] at h
  obtain ⟨keyword, s₁, accepted, h⟩ := h
  rcases accept_ok accepted with ⟨keyword, rest, rfl, kind, found, rfl⟩ | ⟨rfl, rfl, -⟩
  · obtain ⟨before, ts, here, derived⟩ := classDeclaration_reads declaration_reads _ _ _ h clean
    simp only at here
    exact ⟨before, keyword :: ts, by simp [found, here], derived keyword kind⟩
  simp only [Option.isSome_none, Bool.false_eq_true, if_false, bind_ok] at h
  obtain ⟨keyword, s₁, accepted, h⟩ := h
  rcases accept_ok accepted with ⟨keyword, rest, rfl, kind, found, rfl⟩ | ⟨rfl, rfl, -⟩
  · simp only [Option.isSome_some, if_true, bind_ok, pure_ok] at h
    obtain ⟨f, s₁, read, rfl, rfl⟩ := h
    obtain ⟨before, ts, here, derived⟩ := function_reads declaration_reads _ _ _ _ read clean
    simp only at here
    exact ⟨before, keyword :: ts, by simp [found, here], .funDecl kind derived⟩
  simp only [Option.isSome_none, Bool.false_eq_true, if_false, bind_ok] at h
  obtain ⟨keyword, s₁, accepted, h⟩ := h
  rcases accept_ok accepted with ⟨keyword, rest, rfl, kind, found, rfl⟩ | ⟨rfl, rfl, -⟩
  · obtain ⟨before, ts, here, derived⟩ := varDeclaration_reads _ _ _ h clean
    simp only at here
    exact ⟨before, keyword :: ts, by simp [found, here], .varDecl (derived keyword kind)⟩
  · obtain ⟨before, d, ts, here, derived, -⟩ :=
      statementWith_reads statement_reads declaration_reads _ _ _ h clean
    exact ⟨before, ts, here, .statement derived⟩

end Nested

theorem recover_reads {parser : Parser Stmt} (reads : Reads parser Declaration) :
    ReadsDeclaration (recover parser) := by
  intro s a s' h clean
  unfold recover at h
  split at h
  · rename_i stmt s₁ read
    cases h
    obtain ⟨before, ts, here, derived⟩ := reads _ _ _ read clean
    exact ⟨before, ts, here, stmt, rfl, derived⟩
  · cases h
    exact (Array.push_ne_empty clean).elim

theorem declaration_statement_read (tokens : Nat) :
    ReadsDeclaration (declaration tokens) ∧ ReadsStatement (statement tokens) := by
  induction tokens with
  | zero =>
      refine ⟨recover_reads (fail_reads _ _), ?_⟩
      intro s a s' h
      cases h
  | succ tokens ih =>
      obtain ⟨declaration_reads, statement_reads⟩ := ih
      exact ⟨recover_reads (declarationWith_reads statement_reads declaration_reads),
        statementWith_reads statement_reads declaration_reads⟩

/-! ## Whole inputs -/

theorem programItems_reads {declaration : Parser (Option Stmt)}
    (declaration_reads : ReadsDeclaration declaration) (rounds : Nat) :
    ∀ s ss s', programItems declaration rounds s = .ok ss s' → s'.errors = #[] →
      s.errors = #[] ∧ ∃ ts, s.rest = ts ++ s'.rest ∧ Declarations ts s.nextId ss s'.nextId ∧
        (s.rest.length ≤ rounds → s'.next.kind = .endOfInput) := by
  induction rounds with
  | zero =>
      intro s ss s' h clean
      cases h
      refine ⟨clean, [], rfl, .nil, fun short => ?_⟩
      simp [State.next, List.eq_nil_of_length_eq_zero (Nat.le_zero.mp short), missingEnd]
  | succ rounds ih =>
      intro s ss s' h clean
      simp only [programItems, bind_ok] at h
      obtain ⟨ended, s₁, looked, h⟩ := h
      cases looked
      split at h
      · rename_i ended
        rw [pure_ok] at h
        obtain ⟨rfl, rfl⟩ := h
        exact ⟨clean, [], rfl, .nil, fun _ => isEnd_iff.mp ended⟩
      · simp only [bind_ok, pure_ok] at h
        obtain ⟨first, s₁, readFirst, rest, s₂, readRest, rfl, rfl⟩ := h
        obtain ⟨clean₁, us, here₁, others, ended⟩ := ih _ _ _ readRest clean
        obtain ⟨before, ts, here, stmt, rfl, derived⟩ := declaration_reads _ _ _ readFirst clean₁
        refine ⟨before, ts ++ us, by simp [here, here₁], .cons derived others, fun short => ended ?_⟩
        have progress := List.length_pos_iff.mpr derived.begins.ne_nil
        rw [here, List.length_append] at short
        omega

theorem eq_of_read_to_end {body ts rest : List Token} {ending : Token} (endless : Endless body)
    (read : body ++ [ending] = ts ++ rest) (endless' : Endless ts)
    (kind : ending.kind = .endOfInput) (ended : (rest.headD missingEnd).kind = .endOfInput) :
    ts = body := by
  rw [List.append_eq_append_iff] at read
  rcases read with ⟨more, rfl, tail⟩ | ⟨more, rfl, tail⟩
  · cases more with
    | nil => simp
    | cons t more =>
        obtain ⟨rfl, -⟩ := List.cons.inj tail
        exact (endless' ending (by simp) kind).elim
  · cases more with
    | nil => simp
    | cons t more =>
        subst tail
        exact (endless t (by simp) ended).elim

theorem parseProgram_reads {tokens : List Token} {program : List Stmt}
    (parsed : parseProgram tokens = .ok program) :
    ∃ ts rest n, tokens = ts ++ rest ∧ Declarations ts 0 program n ∧
      (rest.headD missingEnd).kind = .endOfInput := by
  unfold parseProgram run at parsed
  split at parsed
  · rename_i ss s read
    split at parsed
    · rename_i clean
      cases parsed
      obtain ⟨declaration_reads, -⟩ := declaration_statement_read tokens.length
      obtain ⟨-, ts, here, derived, ended⟩ :=
        programItems_reads declaration_reads _ _ _ _ read (Array.isEmpty_iff.mp clean)
      exact ⟨ts, s.rest, s.nextId, here, derived, ended Nat.le.refl⟩
    · cases parsed
  · cases parsed

theorem parseProgram_sound {body : List Token} {ending : Token} {program : List Stmt}
    (endless : Endless body) (kind : ending.kind = .endOfInput)
    (parsed : parseProgram (body ++ [ending]) = .ok program) :
    Program (body ++ [ending]) program := by
  obtain ⟨ts, rest, n, here, derived, ended⟩ := parseProgram_reads parsed
  obtain rfl := eq_of_read_to_end endless here derived.endless kind ended
  exact .mk derived kind

theorem parseExpression_reads {tokens : List Token} {e : Expr} (parsed : parseExpression tokens = .ok e) :
    ∃ ts rest n, tokens = ts ++ rest ∧ Derives .expression ts 0 e n ∧
      (rest.headD missingEnd).kind = .endOfInput := by
  unfold parseExpression run at parsed
  split at parsed
  · rename_i e' s read
    split at parsed
    · rename_i clean
      cases parsed
      simp only [wholeExpression, bind_ok] at read
      obtain ⟨_, s₁, read, ended, s₂, looked, rest⟩ := read
      cases looked
      have clean := Array.isEmpty_iff.mp clean
      split at rest
      · rename_i ended
        rw [pure_ok] at rest
        obtain ⟨rfl, rfl⟩ := rest
        obtain ⟨-, ts, here, derived⟩ := expression_reads _ _ _ read clean
        exact ⟨ts, s₁.rest, s₁.nextId, here, derived, isEnd_iff.mp ended⟩
      · simp only [bind_ok, pure_ok] at rest
        obtain ⟨_, _, peeked, _, _, reported, rfl, rfl⟩ := rest
        cases peeked
        cases reported
        exact (Array.push_ne_empty clean).elim
    · cases parsed
  · cases parsed

theorem parseExpression_sound {body : List Token} {ending : Token} {e : Expr}
    (endless : Endless body) (kind : ending.kind = .endOfInput)
    (parsed : parseExpression (body ++ [ending]) = .ok e) :
    Whole (body ++ [ending]) e := by
  obtain ⟨ts, rest, n, here, derived, ended⟩ := parseExpression_reads parsed
  obtain rfl := eq_of_read_to_end endless here derived.endless kind ended
  exact .mk derived kind

end Parser

end Lox
