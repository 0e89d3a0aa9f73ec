import Lox.Proofs.Parser.Acceptance

/-!
# Where reading has got to

A parser takes tokens from the front of the list, never goes back and never passes the end of the
input. If it fails, its error points to the token in front of which it stopped. `Moves` says so of a
parser in a state, whether it succeeds or fails there; `Progresses` and `Consumes` say that it takes a
token at all.
-/

namespace Lox.Parser
open Grammar

variable {α β : Type}

def after (parser : Parser α) (s : State) : State :=
  match parser s with
  | .ok _ s' | .error _ s' => s'

theorem after_of_ok {parser : Parser α} {s s' : State} {a : α} (read : parser s = .ok a s') :
    after parser s = s' := by
  rw [after, read]

theorem after_of_error {parser : Parser α} {s s' : State} {e : SyntaxError}
    (failed : parser s = .error e s') : after parser s = s' := by
  rw [after, failed]

/-- From one list of tokens to another by taking tokens, not past the end of the input. -/
def Leads (ts us : List Token) : Prop := ∃ taken, Endless taken ∧ ts = taken ++ us

theorem Leads.refl (ts : List Token) : Leads ts ts := ⟨[], endless_nil, rfl⟩

theorem Leads.trans {ts us vs : List Token} : Leads ts us → Leads us vs → Leads ts vs
  | ⟨first, endless, read⟩, ⟨second, endless', read'⟩ =>
      ⟨first ++ second, endless_append.mpr ⟨endless, endless'⟩, by rw [read, read', List.append_assoc]⟩

theorem leads_cons {t : Token} (ts : List Token) (kind : t.kind ≠ .endOfInput) : Leads (t :: ts) ts :=
  ⟨[t], endless_cons.mpr ⟨kind, endless_nil⟩, rfl⟩

theorem Leads.length_le {ts us : List Token} : Leads ts us → us.length ≤ ts.length
  | ⟨taken, _, read⟩ => by
      rw [read, List.length_append]
      omega

theorem rest_of_split {ts taken : List Token} {ending : Token} {s : State}
    (ended : ending.kind = .endOfInput) (notEnd : s.next.kind ≠ .endOfInput)
    (read : ts ++ [ending] = taken ++ s.rest) :
    ∃ us, s.rest = s.next :: (us ++ [ending]) ∧ ts = taken ++ s.next :: us := by
  have rest := rest_of_next notEnd
  rcases List.eq_nil_or_concat s.rest.tail with none | ⟨us, last, more⟩
  · rw [rest, none] at read
    obtain ⟨-, same⟩ := List.append_singleton_inj.mp read
    exact (notEnd (same ▸ ended)).elim
  · rw [List.concat_eq_append] at more
    rw [rest, more, ← List.cons_append, ← List.append_assoc] at read
    obtain ⟨split, rfl⟩ := List.append_singleton_inj.mp read
    exact ⟨us, by rw [← more, ← rest], split⟩

structure Moves (parser : Parser α) (s : State) : Prop where
  leads : Leads s.rest (after parser s).rest
  blames : ∀ {e s'}, parser s = .error e s' → e.token = s'.next

namespace Moves

theorem of_ok {parser : Parser α} {s s' : State} {a : α} (read : parser s = .ok a s')
    (leads : Leads s.rest s'.rest) : Moves parser s := by
  refine ⟨by rwa [after_of_ok read], fun failed => ?_⟩
  rw [read] at failed
  cases failed

theorem fail (cause : SyntaxError.Cause) (s : State) : Moves (Parser.fail cause : Parser α) s :=
  ⟨.refl _, fun failed => by cases failed; rfl⟩

theorem bind {parser : Parser α} {next : α → Parser β} {s : State} (first : Moves parser s)
    (rest : ∀ a s', parser s = .ok a s' → Moves (next a) s') : Moves (parser >>= next) s := by
  cases read : parser s with
  | ok a s₁ =>
      have here := first.leads
      rw [after_of_ok read] at here
      refine ⟨?_, fun failed => ?_⟩
      · rw [after, bind_of read]
        exact here.trans (rest a s₁ read).leads
      · rw [bind_of read] at failed
        exact (rest a s₁ read).blames failed
  | error e s₁ =>
      have same := bind_of_error read (f := next)
      refine ⟨?_, fun failed => ?_⟩
      · rw [after_of_error same, ← after_of_error read]
        exact first.leads
      · rw [same] at failed
        cases failed
        exact first.blames read

end Moves

/-! ## Skipping to the next statement -/

theorem resume_leads (last : Token) (ts : List Token) : Leads ts (resume last ts) := by
  induction ts generalizing last with
  | nil => exact .refl _
  | cons t ts ih =>
      rw [resume]
      split
      · exact .refl _
      · rename_i goes
        have kind : t.kind ≠ .endOfInput := by
          intro kind
          simp [kind, Kind.isEnd] at goes
        exact (leads_cons ts kind).trans (ih t)

theorem synchronize_leads (ts : List Token) : Leads ts (synchronize ts) := by
  cases ts with
  | nil => exact .refl _
  | cons t ts =>
      rw [synchronize]
      split
      · exact .refl _
      · rename_i goes
        exact (leads_cons ts (mt isEnd_iff.mpr goes)).trans (resume_leads t ts)

theorem synchronize_length_lt {s : State} (kind : s.next.kind ≠ .endOfInput) :
    (synchronize s.rest).length < s.rest.length := by
  rw [rest_of_next kind, synchronize, if_neg (mt isEnd_iff.mp kind), List.length_cons]
  exact Nat.lt_succ_of_le (resume_leads _ _).length_le

/-- What stands in front of the place where skipping stops does not depend on what stands behind. -/
theorem resume_append {tail : List Token} (last : Token) (ts : List Token)
    (stops : tail.length < (resume last (ts ++ tail)).length) :
    ∃ t us, ∀ tail', resume last (ts ++ tail') = t :: (us ++ tail') := by
  induction ts generalizing last with
  | nil =>
      have le := (resume_leads last ([] ++ tail)).length_le
      rw [List.nil_append] at le stops
      omega
  | cons t ts ih =>
      simp only [List.cons_append, resume] at stops ⊢
      split
      · exact ⟨t, ts, fun _ => rfl⟩
      · rename_i goes
        rw [if_neg goes] at stops
        exact ih t stops

theorem synchronize_append {tail : List Token} (t : Token) (ts : List Token)
    (stops : tail.length < (synchronize (t :: (ts ++ tail))).length) :
    ∃ u us, ∀ tail', synchronize (t :: (ts ++ tail')) = u :: (us ++ tail') := by
  simp only [synchronize] at stops ⊢
  split
  · exact ⟨t, ts, fun _ => rfl⟩
  · rename_i goes
    rw [if_neg goes] at stops
    exact resume_append t ts stops

theorem resume_behind {last : Token} (kind : last.kind = .symbol .semicolon) (tail : List Token) :
    resume last tail = tail := by
  cases tail with
  | nil => rfl
  | cons t tail => rw [resume, kind, if_pos (by simp [Kind.isSymbol])]

theorem resume_semicolon {last semicolon : Token} {ts tail : List Token}
    (kind : semicolon.kind = .symbol .semicolon) (lastKind : last.kind ≠ .symbol .semicolon)
    (plain : ∀ t ∈ ts, t.kind ≠ .endOfInput ∧ t.kind ≠ .symbol .semicolon ∧
      statementWords.any t.kind.isSymbol = false) :
    resume last (ts ++ semicolon :: tail) = tail := by
  have other {t : Token} (differs : t.kind ≠ .symbol .semicolon) : t.kind.isSymbol .semicolon = false := by
    simpa [← isSymbol_iff] using differs
  induction ts generalizing last with
  | nil =>
      have here : statementWords.any (Kind.symbol .semicolon).isSymbol = false := by decide
      rw [List.nil_append, resume, other lastKind, kind, here, if_neg (by simp [Kind.isEnd])]
      exact resume_behind kind tail
  | cons t ts ih =>
      obtain ⟨notEnd, differs, noWord⟩ := plain t List.mem_cons_self
      have goes : t.kind.isEnd = false := by simpa [← isEnd_iff] using notEnd
      rw [List.cons_append, resume, goes, other lastKind, noWord, if_neg (by simp)]
      exact ih differs fun u mem => plain u (List.mem_cons_of_mem t mem)

/-- If the last token is a semicolon and the only one, skipping passes all tokens up to it. -/
theorem synchronize_semicolon {t semicolon : Token} {ts before body : List Token}
    (split : before ++ t :: ts = body ++ [semicolon]) (kind : semicolon.kind = .symbol .semicolon)
    (plain : ∀ u ∈ body, u.kind ≠ .symbol .semicolon) (endless : Endless (t :: ts))
    (noWord : ∀ u ∈ ts, statementWords.any u.kind.isSymbol = false) (tail : List Token) :
    synchronize (t :: (ts ++ tail)) = tail := by
  rw [endless_cons] at endless
  rw [synchronize, if_neg (mt isEnd_iff.mp endless.1)]
  rcases List.eq_nil_or_concat ts with rfl | ⟨middle, last, rfl⟩
  · obtain ⟨-, rfl⟩ := List.concat_inj.mp (by simpa using split)
    exact resume_behind kind tail
  · rw [List.concat_eq_append, ← List.cons_append, ← List.append_assoc] at split
    obtain ⟨rfl, rfl⟩ := List.append_singleton_inj.mp split
    simp only [List.concat_eq_append, List.append_assoc, List.cons_append, List.nil_append] at endless noWord ⊢
    refine resume_semicolon kind (plain t (by simp)) fun u mem => ⟨?_, plain u (by simp [mem]), ?_⟩
    · exact endless.2 u (by simp [mem])
    · exact noWord u (by simp [mem])

theorem recover_of_error {parser : Parser Stmt} {s s' : State} {e : SyntaxError}
    (failed : parser s = .error e s') :
    recover parser s = .ok none { s' with rest := synchronize s'.rest, errors := s'.errors.push e } := by
  rw [recover, failed]

theorem Moves.recover {parser : Parser Stmt} {s : State} (moves : Moves parser s) :
    Moves (recover parser) s := by
  have here := moves.leads
  cases read : parser s with
  | ok a s₁ =>
      rw [after_of_ok read] at here
      exact .of_ok (recover_of read) here
  | error e s₁ =>
      rw [after_of_error read] at here
      exact .of_ok (recover_of_error read) (here.trans (synchronize_leads s₁.rest))

/-! ## Taking a token -/

def Consumes (parser : Parser α) : Prop :=
  ∀ s a s', parser s = .ok a s' → s'.rest.length < s.rest.length

/-- A parser that takes a token, even if it fails, unless the input ends. -/
def Progresses (parser : Parser α) : Prop :=
  ∀ s, s.next.kind ≠ .endOfInput → (after parser s).rest.length < s.rest.length

namespace Consumes

theorem first {parser : Parser α} {next : α → Parser β} (consumes : Consumes parser)
    (moves : ∀ a s, Moves (next a) s) : Consumes (parser >>= next) := by
  intro s b s' read
  obtain ⟨a, s₁, read₁, read₂⟩ := bind_ok.mp read
  have le := (moves a s₁).leads.length_le
  rw [after_of_ok read₂] at le
  exact Nat.lt_of_le_of_lt le (consumes s a s₁ read₁)

theorem later {parser : Parser α} {next : α → Parser β} (moves : ∀ s, Moves parser s)
    (consumes : ∀ a, Consumes (next a)) : Consumes (parser >>= next) := by
  intro s b s' read
  obtain ⟨a, s₁, read₁, read₂⟩ := bind_ok.mp read
  have le := (moves s).leads.length_le
  rw [after_of_ok read₁] at le
  exact Nat.lt_of_lt_of_le (consumes a s₁ b s' read₂) le

theorem expect (symbol : Symbol) (cause : SyntaxError.Cause) : Consumes (Parser.expect symbol cause) := by
  intro s t s' read
  obtain ⟨-, rest, here, rfl⟩ := expect_ok read
  simp [here]

theorem accept {symbol : Symbol} {next : Option Token → Parser α} (moves : ∀ t s, Moves (next (some t)) s)
    (other : Consumes (next none)) : Consumes (Parser.accept symbol >>= next) := by
  intro s b s' read
  obtain ⟨found, s₁, accepted, goes⟩ := bind_ok.mp read
  rcases accept_ok accepted with ⟨t, rest, rfl, -, here, rfl⟩ | ⟨rfl, rfl, -⟩
  · have le := (moves t { s with rest }).leads.length_le
    rw [after_of_ok goes] at le
    rw [here, List.length_cons]
    exact Nat.lt_succ_of_le le
  · exact other s₁ b s' goes

end Consumes

theorem Progresses.recover {parser : Parser Stmt} (moves : ∀ s, Moves parser s)
    (consumes : Consumes parser) : Progresses (recover parser) := by
  intro s kind
  have here := (moves s).leads
  cases read : parser s with
  | ok a s₁ =>
      rw [after_of_ok (recover_of read)]
      exact consumes s a s₁ read
  | error e s₁ =>
      rw [after_of_error read] at here
      rw [after_of_ok (recover_of_error read)]
      by_cases stays : s₁.next.kind = .endOfInput
      · -- the parser has passed the token that was next, since that was not the end
        obtain ⟨taken, -, passed⟩ := here
        cases taken with
        | nil =>
            rw [List.nil_append] at passed
            rw [State.next, passed] at kind
            exact (kind stays).elim
        | cons t taken =>
            have le := (synchronize_leads s₁.rest).length_le
            simp only [passed, List.cons_append, List.length_cons, List.length_append]
            omega
      · exact Nat.lt_of_lt_of_le (synchronize_length_lt stays) here.length_le

end Lox.Parser
