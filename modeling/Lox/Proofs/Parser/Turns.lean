import Lox.Proofs.Parser.Tracking

/-!
# Rounds of reading

A loop of the parser, or a procedure that calls itself, goes round by a *turn*: what it does in one
round, given what to do in the next one. A turn that goes on only behind a token (`Guarded`) comes to an
end, whatever one may think would happen after more rounds than there are tokens left (`Terminates`).
The loops that count their rounds are the same as those that do not (`Guarded.terminates`).
-/

namespace Lox.Parser
open Grammar

variable {α β : Type}

/-! ## Agreement on short inputs -/

/-- The parsers do the same in this state, and read on from there. -/
structure AgreesAt (s : State) (parser parser' : Parser α) : Prop where
  same : parser s = parser' s
  leads : Leads s.rest (after parser s).rest

def Agrees (n : Nat) (parser parser' : Parser α) : Prop :=
  ∀ s, s.rest.length < n → AgreesAt s parser parser'

theorem AgreesAt.bind {s : State} {parser parser' : Parser α} {next next' : α → Parser β}
    (first : AgreesAt s parser parser') (rest : ∀ a s', parser s = .ok a s' → AgreesAt s' (next a) (next' a)) :
    AgreesAt s (parser >>= next) (parser' >>= next') := by
  obtain ⟨same, leads⟩ := first
  cases read : parser s with
  | ok a s₁ =>
      obtain ⟨same', leads'⟩ := rest a s₁ read
      rw [after_of_ok read] at leads
      constructor
      · rw [bind_of read, bind_of (same ▸ read), same']
      · rw [after, bind_of read]
        exact leads.trans leads'
  | error e s₁ =>
      rw [after_of_error read] at leads
      constructor
      · rw [bind_of_error read, bind_of_error (same ▸ read)]
      · rwa [after_of_error (bind_of_error read)]

theorem AgreesAt.bind_less {n : Nat} {s : State} {parser : Parser α} {next next' : α → Parser β}
    (moves : Moves parser s) (less : ∀ a s', parser s = .ok a s' → s'.rest.length < s.rest.length)
    (short : s.rest.length < n + 1) (rest : ∀ a, Agrees n (next a) (next' a)) :
    AgreesAt s (parser >>= next) (parser >>= next') := by
  apply AgreesAt.bind ⟨rfl, moves.leads⟩
  intro a s' read
  exact rest a s' (Nat.lt_of_lt_of_le (less a s' read) (Nat.le_of_lt_succ short))

theorem Progresses.less {parser : Parser α} (progresses : Progresses parser) {s : State}
    (goes : s.next.kind ≠ .endOfInput) (a : α) (s' : State) (read : parser s = .ok a s') :
    s'.rest.length < s.rest.length := by
  have less := progresses s goes
  rwa [after_of_ok read] at less

namespace Agrees

variable {n m : Nat}

theorem of_moves {parser : Parser α} (moves : ∀ s, Moves parser s) : Agrees n parser parser :=
  fun s _ => ⟨rfl, (moves s).leads⟩

theorem mono {parser parser' : Parser α} (agrees : Agrees n parser parser') (le : m ≤ n) :
    Agrees m parser parser' :=
  fun s short => agrees s (Nat.lt_of_lt_of_le short le)

theorem trans {first second third : Parser α} (agrees : Agrees n first second)
    (agrees' : Agrees n second third) : Agrees n first third :=
  fun s short => ⟨(agrees s short).same.trans (agrees' s short).same, (agrees s short).leads⟩

theorem self {parser parser' : Parser α} (agrees : Agrees n parser parser') : Agrees n parser parser :=
  fun s short => ⟨rfl, (agrees s short).leads⟩

theorem pure (a : α) : Agrees n (Pure.pure a : Parser α) (Pure.pure a) :=
  of_moves fun _ => .of_ok rfl (.refl _)

theorem fail (cause : SyntaxError.Cause) : Agrees n (Parser.fail cause : Parser α) (Parser.fail cause) :=
  of_moves fun s => .fail cause s

theorem bind {parser parser' : Parser α} {next next' : α → Parser β} (first : Agrees n parser parser')
    (rest : ∀ a, Agrees n (next a) (next' a)) : Agrees n (parser >>= next) (parser' >>= next') := by
  intro s short
  obtain ⟨same, leads⟩ := first s short
  apply (first s short).bind
  intro a s' read
  rw [after_of_ok read] at leads
  exact rest a s' (Nat.lt_of_le_of_lt leads.length_le short)

theorem behind {parser : Parser α} {next next' : α → Parser β} (moves : ∀ s, Moves parser s)
    (rest : ∀ a, Agrees n (next a) (next' a)) : Agrees n (parser >>= next) (parser >>= next') :=
  bind (of_moves moves) rest

theorem still [Shiftable α] {parser parser' : Parser α} (tracks : Tracks ⟨[], [], 0, #[]⟩ 0 parser parser') :
    Agrees n parser parser :=
  of_moves tracks.moves

theorem refer (t : Token) : Agrees n (Parser.refer t) (Parser.refer t) :=
  of_moves fun _ => .of_ok rfl (.refl _)

theorem skip_then {parser parser' : Parser α} {s : State} (short : s.rest.length < n + 1)
    (kind : s.next.kind ≠ .endOfInput) (agrees : Agrees n parser parser') :
    AgreesAt s (do skip; parser) (do skip; parser') := by
  rw [rest_of_next kind, List.length_cons] at short
  obtain ⟨same, leads⟩ := agrees { s with rest := s.rest.tail } (Nat.lt_of_succ_lt_succ short)
  have skipped := leads_cons s.rest.tail kind
  rw [← rest_of_next kind] at skipped
  exact ⟨same, skipped.trans leads⟩

theorem acceptAny_leads (symbols : List Symbol) (s : State) :
    Leads s.rest (after (Parser.acceptAny symbols) s).rest := by
  unfold after Parser.acceptAny
  obtain ⟨rest, nextId, errors⟩ := s
  cases rest with
  | nil => exact .refl _
  | cons t ts =>
      by_cases found : symbols.any t.kind.isSymbol
      · have notEnd : t.kind ≠ .endOfInput := by
          intro ended
          simp [ended, Kind.isSymbol] at found
        simpa [found] using leads_cons ts notEnd
      · simpa [found] using Leads.refl (t :: ts)

theorem look {γ : Type} {parser : Parser γ} {next next' : γ → Parser α} (seen : Token → γ)
    (looks : ∀ s, parser s = .ok (seen s.next) s) (rest : ∀ c, Agrees n (next c) (next' c)) :
    Agrees n (parser >>= next) (parser >>= next') :=
  behind (fun s => .of_ok (looks s) (.refl _)) rest

theorem at? {symbol : Symbol} {next next' : Bool → Parser α} (rest : ∀ b, Agrees n (next b) (next' b)) :
    Agrees n (Parser.at? symbol >>= next) (Parser.at? symbol >>= next') :=
  look (fun t => t.kind.isSymbol symbol) (fun _ => rfl) rest

theorem atEnd {next next' : Bool → Parser α} (ended : Agrees n (next true) (next' true))
    (goes : ∀ s, s.rest.length < n → s.next.kind ≠ .endOfInput → AgreesAt s (next false) (next' false)) :
    Agrees n (Parser.atEnd >>= next) (Parser.atEnd >>= next') := by
  intro s short
  apply AgreesAt.bind ⟨rfl, .refl _⟩
  intro b s' read
  cases read
  cases kind : s.next.kind with
  | endOfInput => exact ended s short
  | symbol | identifier | number | string => exact goes s short (by simp [kind])

theorem ite {condition : Prop} [Decidable condition] {yes no yes' no' : Parser α}
    (first : Agrees n yes yes') (second : Agrees n no no') :
    Agrees n (if condition then yes else no) (if condition then yes' else no') := by
  split
  · exact first
  · exact second

theorem weaken {parser parser' : Parser α} (agrees : Agrees n parser parser') :
    Agrees (n - 1) parser parser' :=
  agrees.mono (Nat.sub_le n 1)

theorem acceptAny {symbols : List Symbol} {next next' : Option Token → Parser α}
    (taken : ∀ t, Agrees (n - 1) (next (some t)) (next' (some t)))
    (other : Agrees n (next none) (next' none)) :
    Agrees n (Parser.acceptAny symbols >>= next) (Parser.acceptAny symbols >>= next') := by
  intro s short
  apply AgreesAt.bind ⟨rfl, acceptAny_leads symbols s⟩
  intro a s' read
  rcases acceptAny_ok read with ⟨t, symbol, ts, rfl, -, -, tokens, rfl⟩ | ⟨rfl, rfl, -⟩
  · rw [tokens, List.length_cons] at short
    exact taken t ⟨ts, s.nextId, s.errors⟩ (Nat.lt_sub_of_add_lt short)
  · exact other s' short

theorem looked {γ : Type} {looking : Parser γ} {parser : Parser α} {next : γ → Parser α} (seen : Token → γ)
    (looks : ∀ s, looking s = .ok (seen s.next) s) (rest : ∀ c, Agrees n parser (next c)) :
    Agrees n parser (looking >>= next) := by
  intro s short
  obtain ⟨same, leads⟩ := rest (seen s.next) s short
  exact ⟨by rw [bind_of (looks s), same], leads⟩

theorem ended {parser : Parser α} {next : Bool → Parser α} (other : Agrees 1 parser (next true)) :
    Agrees 1 parser (Parser.atEnd >>= next) := by
  intro s short
  have ends : Parser.atEnd s = .ok true s := by
    rw [Parser.atEnd, State.next, List.eq_nil_of_length_eq_zero (Nat.lt_one_iff.mp short)]
    rfl
  obtain ⟨same, leads⟩ := other s short
  exact ⟨by rw [bind_of ends, same], leads⟩

theorem nothing {symbols : List Symbol} {parser : Parser α} {next : Option Token → Parser α}
    (other : Agrees 1 parser (next none)) : Agrees 1 parser (Parser.acceptAny symbols >>= next) := by
  intro s short
  have passes : Parser.acceptAny symbols s = .ok none s := by
    rw [Parser.acceptAny, List.eq_nil_of_length_eq_zero (Nat.lt_one_iff.mp short)]
  obtain ⟨same, leads⟩ := other s short
  exact ⟨by rw [bind_of passes, same], leads⟩

theorem accept {symbol : Symbol} {next next' : Option Token → Parser α}
    (taken : ∀ t, Agrees (n - 1) (next (some t)) (next' (some t)))
    (other : Agrees n (next none) (next' none)) :
    Agrees n (Parser.accept symbol >>= next) (Parser.accept symbol >>= next') :=
  acceptAny taken other

theorem accepted {symbol : Symbol} {yes no yes' no' : Parser α} (taken : Agrees (n - 1) yes yes')
    (other : Agrees n no no') :
    Agrees n (do if (← Parser.accept symbol).isSome then yes else no)
      (do if (← Parser.accept symbol).isSome then yes' else no') :=
  accept (fun _ => taken) other

theorem withRounds {parser parser' : Nat → Parser α} (each : ∀ k, Agrees n (parser k) (parser' k)) :
    Agrees n (Parser.withRounds parser) (Parser.withRounds parser') := by
  intro s short
  obtain ⟨same, leads⟩ := each s.rest.length s short
  exact ⟨same, leads⟩

theorem recover {parser parser' : Parser Stmt} (agrees : Agrees n parser parser') :
    Agrees n (Parser.recover parser) (Parser.recover parser') := by
  intro s short
  obtain ⟨same, leads⟩ := agrees s short
  constructor
  · rw [Parser.recover, Parser.recover, same]
  cases read : parser s with
  | ok a s₁ =>
      rw [after_of_ok read] at leads
      rwa [after_of_ok (recover_of read)]
  | error e s₁ =>
      rw [after_of_error read] at leads
      rw [after_of_ok (recover_of_error read)]
      exact leads.trans (synchronize_leads s₁.rest)

end Agrees

/-! ## Turns -/

/-- The parser takes tokens from the front and does not pass the end of the input. -/
def Forward (parser : Parser α) : Prop := ∀ s, Leads s.rest (after parser s).rest

section Turns

variable {ι : Type} {α : ι → Type}

/-- One round of a family of parsers, given the next round. -/
abbrev Turn (α : ι → Type) := ((i : ι) → Parser (α i)) → (i : ι) → Parser (α i)

/-- So many rounds, and then whatever comes beyond them. -/
def unrolled (turn : Turn α) (beyond : (i : ι) → Parser (α i)) : Nat → (i : ι) → Parser (α i)
  | 0 => beyond
  | k + 1 => turn (unrolled turn beyond k)

/--
The parsers go round by the turn, without counting, and never go back or pass the end of the input. If
more rounds are written out than there are tokens left, what comes beyond them does not matter.
-/
structure Terminates (turn : Turn α) (parser : (i : ι) → Parser (α i)) : Prop where
  unfolds : turn parser = parser
  ends : ∀ beyond k i s, s.rest.length < k → unrolled turn beyond k i s = parser i s
  forward : ∀ i, Forward (parser i)

/-- The turn goes on to the next round only behind a token. -/
def Guarded (turn : Turn α) : Prop :=
  ∀ n f f', (∀ i, Agrees n (f i) (f' i)) → ∀ i, Agrees (n + 1) (turn f i) (turn f' i)

/-- The parsers go round by the turn so many times, and then answer what is due without any token. -/
structure Counts (turn : Turn α) (counted : Nat → (i : ι) → Parser (α i)) : Prop where
  succ : ∀ k, counted (k + 1) = turn (counted k)
  zero : ∀ i, Agrees 1 (counted 0 i) (counted 1 i)

variable {turn : Turn α} {counted : Nat → (i : ι) → Parser (α i)}

theorem Counts.agrees (counts : Counts turn counted) (guarded : Guarded turn) {k l : Nat} (le : k ≤ l)
    (i : ι) : Agrees (k + 1) (counted k i) (counted l i) := by
  have next (k : Nat) : ∀ i, Agrees (k + 1) (counted k i) (counted (k + 1) i) := by
    induction k with
    | zero => exact counts.zero
    | succ k ih =>
        intro i
        have again := guarded (k + 1) _ _ ih i
        rwa [← counts.succ, ← counts.succ] at again
  induction le with
  | refl => exact (next k i).self
  | step le ih => exact ih.trans ((next _ i).mono (Nat.succ_le_succ le))

/-- Counting as many rounds as there are tokens left is the same as counting more. -/
theorem Counts.enough (counts : Counts turn counted) (guarded : Guarded turn) (k : Nat) (i : ι) :
    Agrees (k + 1) (withRounds fun k => counted k i) (counted k i) := by
  intro s short
  have le := Nat.le_of_lt_succ short
  obtain ⟨same, leads⟩ := counts.agrees guarded le i s (Nat.lt_succ_self _)
  exact ⟨same, leads⟩

theorem Guarded.terminates (counted : Nat → (i : ι) → Parser (α i)) (guarded : Guarded turn)
    (counts : Counts turn counted) :
    Terminates turn fun i => withRounds fun k => counted k i := by
  have beyond_any (beyond : (i : ι) → Parser (α i)) (k : Nat) :
      ∀ i, Agrees k (unrolled turn beyond k i) (counted k i) := by
    induction k with
    | zero => exact fun _ => nofun
    | succ k ih =>
        rw [counts.succ]
        exact guarded k _ _ ih
  constructor
  · funext i s
    have again := guarded _ _ _ (counts.enough guarded s.rest.length) i s (by omega)
    rw [← counts.succ] at again
    have more := counts.agrees guarded (Nat.le_succ s.rest.length) i s (Nat.lt_succ_self _)
    exact again.same.trans more.same.symm
  · intro beyond k i s short
    have here := beyond_any beyond k i s short
    exact here.same.trans (counts.enough guarded k i s (Nat.lt_succ_of_lt short)).same.symm
  · intro i s
    exact (counts.enough guarded s.rest.length i s (Nat.lt_succ_self _)).leads

end Turns

/-! ## Expressions -/

section Expressions

variable {n : Nat} {inner inner' operand operand' : Parser Expr}

namespace Agrees

theorem primary (within : Agrees n inner inner') :
    Agrees (n + 1) (Parser.primary inner) (Parser.primary inner') := by
  intro s short
  apply AgreesAt.bind ⟨rfl, .refl _⟩
  intro t s' read
  cases read
  cases kind : s.next.kind with
  | symbol word =>
      have notEnd : s.next.kind ≠ .endOfInput := by rw [kind]; nofun
      cases word
      case falseWord | trueWord | nilWord => exact skip_then short notEnd (pure _)
      case thisWord => exact skip_then short notEnd ((refer _).bind fun _ => pure _)
      case superWord =>
        apply skip_then short notEnd
        apply (still (.expect _ _)).bind
        intro _
        apply (still (.expectName _)).bind
        intro method
        exact (refer _).bind fun _ => pure _
      case leftParen =>
        apply skip_then short notEnd
        apply within.bind
        intro value
        exact (still (.expect _ _)).bind fun _ => pure _
      all_goals exact fail _ s short
  | identifier => exact skip_then short (by rw [kind]; nofun) ((refer _).bind fun _ => pure _)
  | number | string => exact skip_then short (by rw [kind]; nofun) (pure _)
  | endOfInput => exact fail _ s short

theorem argument (within : Agrees n inner inner') (count : Nat) :
    Agrees n (Parser.argument inner count) (Parser.argument inner' count) := by
  apply ite
  · apply look (fun t => t) (fun _ => rfl)
    intro t
    exact behind (fun _ => .of_ok rfl (.refl _)) fun _ => within
  · exact within

theorem arguments (within : Agrees n inner inner') (count k : Nat) :
    Agrees n (Parser.arguments inner count k) (Parser.arguments inner' count k) := by
  induction k generalizing count with
  | zero => exact (argument within count).bind fun _ => pure _
  | succ k ih =>
      apply (argument within count).bind
      intro first
      apply accept
      · intro _
        exact (ih (count + 1)).weaken.bind fun _ => pure _
      · exact pure _

theorem closing (within : Agrees n inner inner') {next next' : List Expr → Token → Parser Expr}
    (rest : ∀ values paren, Agrees n (next values paren) (next' values paren)) :
    Agrees n
      (do
        let values ← if ← Parser.at? .rightParen then Pure.pure [] else Parser.withRounds (Parser.arguments inner 0)
        let paren ← Parser.expect .rightParen .argumentsEnd
        next values paren)
      (do
        let values ← if ← Parser.at? .rightParen then Pure.pure [] else Parser.withRounds (Parser.arguments inner' 0)
        let paren ← Parser.expect .rightParen .argumentsEnd
        next' values paren) := by
  have behind_all (values : List Expr) : Agrees n
      (Parser.expect .rightParen .argumentsEnd >>= next values)
      (Parser.expect .rightParen .argumentsEnd >>= next' values) :=
    (still (.expect _ _)).bind (rest values)
  apply at?
  intro empty
  apply ite
  · exact (pure []).bind behind_all
  · exact (withRounds (arguments within 0)).bind behind_all

theorem suffixes (within : Agrees (n - 1) inner inner') (target : Expr) (k : Nat) :
    Agrees n (Parser.suffixes inner target k) (Parser.suffixes inner' target k) := by
  induction k generalizing target with
  | zero => exact pure target
  | succ k ih =>
      apply accepted
      · apply closing within
        intro values paren
        exact (ih (.call target paren values)).weaken
      · apply accepted
        · apply (still (.expectName _)).bind
          intro name
          exact (ih (.get target name)).weaken
        · exact pure target

theorem calls (within : Agrees n inner inner') :
    Agrees (n + 1) (Parser.calls inner) (Parser.calls inner') := by
  apply (primary within).bind
  intro target
  exact withRounds (suffixes (n := n + 1) within target)

theorem signs (agrees : Agrees n operand operand') (k : Nat) :
    Agrees n (Parser.signs operand k) (Parser.signs operand' k) := by
  induction k with
  | zero => exact agrees
  | succ k ih =>
      apply acceptAny
      · intro _
        exact ih.weaken.bind fun _ => pure _
      · exact agrees

theorem chain (agrees : Agrees n operand operand') (level : Level) (left : Expr) (k : Nat) :
    Agrees n (Parser.chain level operand left k) (Parser.chain level operand' left k) := by
  induction k generalizing left with
  | zero => exact pure left
  | succ k ih =>
      apply acceptAny
      · intro _
        exact agrees.weaken.bind fun _ => (ih _).weaken
      · exact pure left

theorem operations (agrees : Agrees n operand operand') (levels : List Level) :
    Agrees n (Parser.operations operand levels) (Parser.operations operand' levels) := by
  induction levels with
  | nil => exact agrees
  | cons level tighter ih =>
      apply ih.bind
      intro left
      exact withRounds (chain ih level left)

theorem assignTo (target : Expr) (equals : Token) (value : Expr) :
    Agrees n (Parser.assignTo target equals value) (Parser.assignTo target equals value) :=
  still (Tracks.assignTo target equals value)

end Agrees

def argumentsTurn (inner : Parser Expr) : Turn fun _ : Nat => List Expr := fun next count => do
  let first ← argument inner count
  match ← accept .comma with
  | some _ => return first :: (← next (count + 1))
  | none => pure [first]

def suffixesTurn (inner : Parser Expr) : Turn fun _ : Expr => Expr := fun next target => do
  if (← accept .leftParen).isSome then
    let values ← if ← at? .rightParen then pure [] else withRounds (arguments inner 0)
    let paren ← expect .rightParen .argumentsEnd
    next (.call target paren values)
  else if (← accept .dot).isSome then
    let name ← expectName .propertyName
    next (.get target name)
  else pure target

def signsTurn (operand : Parser Expr) : Turn fun _ : Unit => Expr := fun next _ => do
  match ← acceptAny [.bang, .minus] with
  | some operator => return .unary operator (← next ())
  | none => operand

def chainTurn (level : Level) (operand : Parser Expr) : Turn fun _ : Expr => Expr := fun next left => do
  match ← acceptAny level.operators with
  | some operator => next (level.build left operator (← operand))
  | none => pure left

def expressionTurn : Turn fun _ : Unit => Expr := fun next _ => do
  let target ← operations (withRounds (signs (calls (next ())))) levels
  match ← accept .equal with
  | some equals => assignTo target equals (← next ())
  | none => pure target

theorem arguments_terminate (within : ∀ n, Agrees n inner inner) :
    Terminates (argumentsTurn inner) fun count => withRounds (arguments inner count) := by
  apply Guarded.terminates _
  · intro n next next' agrees count
    apply ((within _).argument count).bind
    intro first
    apply Agrees.accept
    · intro _
      exact (agrees _).bind fun _ => .pure _
    · exact .pure _
  · constructor
    · exact fun _ => rfl
    · intro count
      apply ((within _).argument count).bind
      intro first
      exact .nothing (.pure _)

theorem suffixes_terminate (within : ∀ n, Agrees n inner inner) :
    Terminates (suffixesTurn inner) fun target => withRounds (suffixes inner target) := by
  apply Guarded.terminates _
  · intro n next next' agrees target
    apply Agrees.accepted
    · apply (within n).closing
      intro values paren
      exact agrees _
    · apply Agrees.accepted
      · apply (Agrees.still (.expectName _)).bind
        intro name
        exact agrees _
      · exact .pure _
  · constructor
    · exact fun _ => rfl
    · intro target
      exact .nothing (.nothing (.pure _))

theorem signs_terminate (within : ∀ n, Agrees n operand operand) :
    Terminates (signsTurn operand) fun _ => withRounds (signs operand) := by
  apply Guarded.terminates (fun k _ => signs operand k)
  · intro n next next' agrees _
    apply Agrees.acceptAny
    · intro _
      exact (agrees ()).bind fun _ => .pure _
    · exact within _
  · constructor
    · exact fun _ => rfl
    · intro _
      exact .nothing (within 1)

theorem chain_terminates (level : Level) (within : ∀ n, Agrees n operand operand) :
    Terminates (chainTurn level operand) fun left => withRounds (chain level operand left) := by
  apply Guarded.terminates _
  · intro n next next' agrees left
    apply Agrees.acceptAny
    · intro _
      exact (within n).bind fun _ => agrees _
    · exact .pure _
  · constructor
    · exact fun _ => rfl
    · intro left
      exact .nothing (.pure _)

theorem expression_terminates : Terminates expressionTurn fun _ => expression := by
  apply Guarded.terminates (fun k _ => expressionWithin k)
  · intro n next next' agrees _
    have operand := Agrees.withRounds (agrees ()).calls.signs
    apply (operand.operations levels).bind
    intro target
    apply Agrees.accept
    · intro equals
      exact (agrees ()).bind fun value => .assignTo target equals value
    · exact .pure _
  · constructor
    · exact fun _ => rfl
    · intro _ s short
      obtain ⟨rest, nextId, errors⟩ := s
      obtain rfl : rest = [] := by simpa using short
      exact ⟨rfl, .refl _⟩

end Expressions

/-! ## Statements -/

section Statements

variable {n : Nat} {declaration declaration' : Parser (Option Stmt)} {statement statement' : Parser Stmt}

namespace Agrees

theorem blockItems (within : Agrees n declaration declaration') (k : Nat) :
    Agrees n (Parser.blockItems declaration k) (Parser.blockItems declaration' k) := by
  induction k with
  | zero => exact pure []
  | succ k ih =>
      apply at?
      intro _
      apply look (fun t => t.kind.isEnd) (fun _ => rfl)
      intro _
      apply ite (pure [])
      apply within.bind
      intro first
      exact ih.bind fun _ => pure _

theorem block (within : Agrees n declaration declaration') :
    Agrees n (Parser.block declaration) (Parser.block declaration') := by
  apply (withRounds (blockItems within)).bind
  intro body
  exact (still (.expect _ _)).bind fun _ => pure body

theorem function (within : Agrees n declaration declaration') (role : FunctionRole) :
    Agrees n (Parser.function declaration role) (Parser.function declaration' role) := by
  apply (still (.expectName _)).bind
  intro name
  apply (still (.expect _ _)).bind
  intro _
  have body (params : List Token) : Agrees n
      (do
        let _ ← Parser.expect .rightParen .parametersEnd
        let _ ← Parser.expect .leftBrace (.functionBody role)
        let body ← Parser.block declaration
        Pure.pure (FunctionDecl.mk name params body))
      (do
        let _ ← Parser.expect .rightParen .parametersEnd
        let _ ← Parser.expect .leftBrace (.functionBody role)
        let body ← Parser.block declaration'
        Pure.pure (FunctionDecl.mk name params body)) := by
    apply (still (.expect _ _)).bind
    intro _
    apply (still (.expect _ _)).bind
    intro _
    exact (block within).bind fun _ => pure _
  apply at?
  intro empty
  apply ite
  · exact (pure []).bind body
  · exact (still .parameters).bind body

theorem methods (within : Agrees n declaration declaration') (k : Nat) :
    Agrees n (Parser.methods declaration k) (Parser.methods declaration' k) := by
  induction k with
  | zero => exact pure []
  | succ k ih =>
      apply at?
      intro _
      apply look (fun t => t.kind.isEnd) (fun _ => rfl)
      intro _
      apply ite (pure [])
      apply (function within .method).bind
      intro first
      exact ih.bind fun _ => pure _

theorem classDeclaration (within : Agrees n declaration declaration') :
    Agrees n (Parser.classDeclaration declaration) (Parser.classDeclaration declaration') := by
  apply (still (.expectName _)).bind
  intro name
  have body {m : Nat} (le : m ≤ n) (superclass : Option Reference) : Agrees m
      (do
        let _ ← Parser.expect .leftBrace .classBody
        let members ← Parser.withRounds (Parser.methods declaration)
        let _ ← Parser.expect .rightBrace .classEnd
        Pure.pure (Stmt.classDecl name superclass members))
      (do
        let _ ← Parser.expect .leftBrace .classBody
        let members ← Parser.withRounds (Parser.methods declaration')
        let _ ← Parser.expect .rightBrace .classEnd
        Pure.pure (Stmt.classDecl name superclass members)) := by
    apply (still (.expect _ _)).bind
    intro _
    apply (withRounds (methods (within.mono le))).bind
    intro members
    exact (still (.expect _ _)).bind fun _ => pure _
  apply accepted
  · apply (still (.expectName _)).bind
    intro parent
    apply (refer parent).bind
    intro r
    exact (pure (some r)).bind (body (Nat.sub_le n 1))
  · exact (pure none).bind (body Nat.le.refl)

theorem whileStatement (within : Agrees n statement statement') :
    Agrees n (Parser.whileStatement statement) (Parser.whileStatement statement') := by
  apply (still (.expect _ _)).bind
  intro _
  apply (still .expression).bind
  intro condition
  apply (still (.expect _ _)).bind
  intro _
  exact within.bind fun _ => pure _

theorem ifStatement (within : Agrees n statement statement') :
    Agrees n (Parser.ifStatement statement) (Parser.ifStatement statement') := by
  apply (still (.expect _ _)).bind
  intro _
  apply (still .expression).bind
  intro condition
  apply (still (.expect _ _)).bind
  intro _
  apply within.bind
  intro thenBranch
  apply accepted
  · apply within.weaken.bind
    intro other
    exact (pure (some other)).bind fun _ => pure _
  · exact (pure none).bind fun _ => pure _

theorem forStatement (within : Agrees n statement statement') :
    Agrees n (Parser.forStatement statement) (Parser.forStatement statement') := by
  apply (still (.expect _ _)).bind
  intro _
  apply (still .loopInitializer).bind
  intro initializer
  apply (still (.expressionBefore _)).bind
  intro condition
  apply (still (.expect _ _)).bind
  intro _
  apply (still (.expressionBefore _)).bind
  intro increment
  apply (still (.expect _ _)).bind
  intro _
  exact within.bind fun _ => pure _

theorem statementWith (within : Agrees n declaration declaration') (inside : Agrees n statement statement') :
    Agrees (n + 1) (Parser.statementWith declaration statement)
      (Parser.statementWith declaration' statement') := by
  apply accepted
  · exact forStatement inside
  apply accepted
  · exact ifStatement inside
  apply accepted (still .printStatement)
  apply accept
  · exact fun keyword => still (.returnStatement keyword)
  apply accepted
  · exact whileStatement inside
  apply accepted
  · exact (block within).bind fun _ => pure _
  · exact still .expressionStatement

theorem declarationWith (within : Agrees n declaration declaration') (inside : Agrees n statement statement') :
    Agrees (n + 1) (Parser.declarationWith declaration statement)
      (Parser.declarationWith declaration' statement') := by
  apply accepted
  · exact classDeclaration within
  apply accepted
  · exact (function within .function).bind fun _ => pure _
  apply accepted (still .varDeclaration)
  exact statementWith within inside

theorem programItems (within : Agrees n declaration declaration') (k : Nat) :
    Agrees n (Parser.programItems declaration k) (Parser.programItems declaration' k) := by
  induction k with
  | zero => exact pure []
  | succ k ih =>
      apply look (fun t => t.kind.isEnd) (fun _ => rfl)
      intro _
      apply ite (pure [])
      apply within.bind
      intro first
      exact ih.bind fun _ => pure _

end Agrees

inductive Clause
  | declaration
  | statement

abbrev Clause.Tree : Clause → Type
  | .declaration => Option Stmt
  | .statement => Stmt

def Clause.within (tokens : Nat) : (clause : Clause) → Parser clause.Tree
  | .declaration => Parser.declaration tokens
  | .statement => Parser.statement tokens

def Clause.read (clause : Clause) : Parser clause.Tree :=
  Parser.withRounds fun tokens => clause.within tokens

def clauseTurn : Turn Clause.Tree := fun next clause =>
  match clause with
  | .declaration => recover (declarationWith (next .declaration) (next .statement))
  | .statement => statementWith (next .declaration) (next .statement)

def parametersTurn : Turn fun _ : Nat => List Token := fun next count => do
  let first ← parameter count
  match ← accept .comma with
  | some _ => return first :: (← next (count + 1))
  | none => pure [first]

def blockTurn (declaration : Parser (Option Stmt)) : Turn fun _ : Unit => List Stmt := fun next _ => do
  if (← at? .rightBrace) || (← atEnd) then pure []
  else
    let first ← declaration
    return first.toList ++ (← next ())

def methodsTurn (declaration : Parser (Option Stmt)) : Turn fun _ : Unit => List FunctionDecl := fun next _ => do
  if (← at? .rightBrace) || (← atEnd) then pure []
  else
    let first ← function declaration .method
    return first :: (← next ())

def programTurn (declaration : Parser (Option Stmt)) : Turn fun _ : Unit => List Stmt := fun next _ => do
  if ← atEnd then pure []
  else
    let first ← declaration
    return first.toList ++ (← next ())

theorem parameters_terminate : Terminates parametersTurn fun count => withRounds (parameters count) := by
  apply Guarded.terminates _
  · intro n next next' agrees count
    apply (Agrees.still (.parameter count)).bind
    intro first
    apply Agrees.accept
    · intro _
      exact (agrees _).bind fun _ => .pure _
    · exact .pure _
  · constructor
    · exact fun _ => rfl
    · intro count
      apply (Agrees.still (.parameter count)).bind
      intro first
      exact .nothing (.pure _)

theorem clauses_guarded : Guarded clauseTurn := by
  intro n next next' agrees clause
  have both := And.intro (agrees .declaration) (agrees .statement)
  cases clause with
  | declaration => exact (both.1.declarationWith both.2).recover
  | statement => exact both.1.statementWith both.2

theorem clauses_count : Counts clauseTurn Clause.within := by
  constructor
  · intro k
    funext clause
    cases clause with
    | declaration | statement => rfl
  · intro clause s short
    obtain ⟨rest, nextId, errors⟩ := s
    obtain rfl : rest = [] := by simpa using short
    cases clause with
    | declaration | statement => exact ⟨rfl, .refl _⟩

theorem clauses_terminate : Terminates clauseTurn Clause.read :=
  clauses_guarded.terminates Clause.within clauses_count

theorem agrees_braced {parser : Parser α} {none : β} {next next' : α → Parser β} (moves : ∀ s, Moves parser s)
    (less : ∀ s, s.next.kind ≠ .endOfInput → ∀ a s', parser s = .ok a s' → s'.rest.length < s.rest.length)
    (rest : ∀ a, Agrees n (next a) (next' a)) :
    Agrees (n + 1) (do if (← at? .rightBrace) || (← atEnd) then pure none else parser >>= next)
      (do if (← at? .rightBrace) || (← atEnd) then pure none else parser >>= next') := by
  apply Agrees.at?
  intro closes
  apply Agrees.atEnd
  · cases closes with
    | false | true => exact .pure none
  · intro s short goes
    cases closes with
    | true => exact Agrees.pure none s short
    | false => exact AgreesAt.bind_less (moves s) (less s goes) short rest

theorem agrees_unbraced {none : α} {parser : Parser α} :
    Agrees 1 (pure none) (do if (← at? .rightBrace) || (← atEnd) then pure none else parser) := by
  apply Agrees.looked (fun t => t.kind.isSymbol .rightBrace) (fun _ => rfl)
  intro closes
  apply Agrees.ended
  cases closes with
  | false | true => exact .pure none

theorem block_terminates (moves : ∀ s, Moves declaration s) (progresses : Progresses declaration) :
    Terminates (blockTurn declaration) fun _ => withRounds (blockItems declaration) := by
  apply Guarded.terminates (fun k _ => blockItems declaration k)
  · intro n next next' agrees _
    apply agrees_braced moves (fun s goes => progresses.less goes)
    intro first
    exact (agrees ()).bind fun _ => .pure _
  · constructor
    · exact fun _ => rfl
    · exact fun _ => agrees_unbraced

theorem methods_terminate (moves : ∀ s, Moves declaration s) (progresses : Progresses declaration) :
    Terminates (methodsTurn declaration) fun _ => withRounds (methods declaration) := by
  have within : Tracks ⟨[], [], 0, #[]⟩ 0 declaration declaration := .of_moves moves
  have consumes := Tracks.consumes_function within progresses .method
  apply Guarded.terminates (fun k _ => methods declaration k)
  · intro n next next' agrees _
    apply agrees_braced (within.function progresses .method).moves (fun s _ => consumes s)
    intro first
    exact (agrees ()).bind fun _ => .pure _
  · constructor
    · exact fun _ => rfl
    · exact fun _ => agrees_unbraced

theorem programItems_terminate (moves : ∀ s, Moves declaration s) (progresses : Progresses declaration) :
    Terminates (programTurn declaration) fun _ => withRounds (programItems declaration) := by
  apply Guarded.terminates (fun k _ => programItems declaration k)
  · intro n next next' agrees _
    apply Agrees.atEnd
    · exact .pure []
    · intro s short goes
      apply AgreesAt.bind_less (moves s) (progresses.less goes) short
      intro first
      exact (agrees ()).bind fun _ => .pure _
  · constructor
    · exact fun _ => rfl
    · exact fun _ => .ended (.pure [])

end Statements

end Lox.Parser
