import Mathlib
import Lox.Proofs.Grammar.Shift
import Lox.Proofs.Parser.Cursor

/-!
# Reading the same tokens twice

Two lists of tokens that agree up to a seam are read in the same way as long as reading stays in front
of the seam: the results and the errors that are added are the same, up to the numbers of references
(`Tracks`). Every parser looks at one token only, so it is enough that a token is left in front of the
seam where it stops. The numbers of rounds may differ on the two sides; both allow for the tokens up to
the seam.
-/

namespace Lox.Parser
open Grammar

/-- What stands behind the tokens that two readings share, and where the second one started. -/
structure Seam where
  tail : List Token
  tail' : List Token
  shift : Nat
  earlier : Array SyntaxError

/-- A place in front of a seam, with the tokens from there to the seam. -/
structure Place where
  next : Token
  more : List Token
  nextId : Nat
  errors : Array SyntaxError

namespace Seam

def left (seam : Seam) (place : Place) : State :=
  ⟨place.next :: (place.more ++ seam.tail), place.nextId, place.errors⟩

def right (seam : Seam) (place : Place) : State :=
  ⟨place.next :: (place.more ++ seam.tail'), place.nextId + seam.shift, seam.earlier ++ place.errors⟩

end Seam

variable {α β : Type} [Shiftable α] [Shiftable β]

inductive Same (seam : Seam) :
    EStateM.Result SyntaxError State α → EStateM.Result SyntaxError State α → Prop where
  | ok (a : α) (place : Place) : Same seam (.ok a (seam.left place)) (.ok (shift seam.shift a) (seam.right place))
  | error (e : SyntaxError) (place : Place) : Same seam (.error e (seam.left place)) (.error e (seam.right place))

theorem Same.of_ok {seam : Seam} {a : α} {s : State} {result : EStateM.Result SyntaxError State α}
    (same : Same seam (.ok a s) result) :
    ∃ place, s = seam.left place ∧ result = .ok (shift seam.shift a) (seam.right place) := by
  cases same with
  | ok a place => exact ⟨place, rfl, rfl⟩

theorem Same.of_error {seam : Seam} {e : SyntaxError} {s : State}
    {result : EStateM.Result SyntaxError State α} (same : Same seam (.error e s) result) :
    ∃ place, s = seam.left place ∧ result = .error e (seam.right place) := by
  cases same with
  | error e place => exact ⟨place, rfl, rfl⟩

/--
Two parsers agree at every place with less than `n` tokens between the token `t` and the seam, unless
the first one takes the last token in front of the seam.
-/
structure TracksFrom (seam : Seam) (n : Nat) (t : Token) (parser parser' : Parser α) : Prop where
  moves : ∀ s, s.next = t → Moves parser s
  same : ∀ place, place.next = t → place.more.length < n →
    seam.tail.length < (after parser (seam.left place)).rest.length →
      Same seam (parser (seam.left place)) (parser' (seam.right place))

def Tracks (seam : Seam) (n : Nat) (parser parser' : Parser α) : Prop :=
  ∀ t, TracksFrom seam n t parser parser'

variable {seam : Seam} {n m : Nat} {t : Token}

theorem Tracks.moves {parser parser' : Parser α} (tracks : Tracks seam n parser parser') (s : State) :
    Moves parser s :=
  (tracks s.next).moves s rfl

theorem Tracks.mono {parser parser' : Parser α} (tracks : Tracks seam n parser parser') (le : m ≤ n) :
    Tracks seam m parser parser' :=
  fun t => ⟨(tracks t).moves, fun place here short => (tracks t).same place here (by omega)⟩

/-- In front of the seam there is at least one token, so nothing is asked for `0`. -/
theorem Tracks.of_moves {parser parser' : Parser α} (moves : ∀ s, Moves parser s) :
    Tracks seam 0 parser parser' :=
  fun _ => ⟨fun s _ => moves s, fun _ _ short => by omega⟩

namespace TracksFrom

/-! ## Single steps -/

theorem congr {first first' second second' : Parser α} (left : ∀ s, s.next = t → first s = second s)
    (right : ∀ s, s.next = t → first' s = second' s) (tracks : TracksFrom seam n t second second') :
    TracksFrom seam n t first first' := by
  refine ⟨fun s next => ?_, fun place here short stays => ?_⟩
  · obtain ⟨leads, blames⟩ := tracks.moves s next
    refine ⟨?_, fun failed => blames (by rw [← left s next, failed])⟩
    rwa [after, left s next]
  · rw [after, left (seam.left place) here] at stays
    rw [left (seam.left place) here, right (seam.right place) here]
    exact tracks.same place here short stays

theorem look {γ : Type} {parser : Parser γ} {next next' : γ → Parser α} (seen : Token → γ)
    (looks : ∀ s, parser s = .ok (seen s.next) s)
    (rest : TracksFrom seam n t (next (seen t)) (next' (seen t))) :
    TracksFrom seam n t (parser >>= next) (parser >>= next') :=
  congr (fun s here => by rw [bind_of (looks s), here]) (fun s here => by rw [bind_of (looks s), here]) rest

theorem take {first first' second second' : Parser α} (kind : t.kind ≠ .endOfInput)
    (left : ∀ s, s.next = t → first s = second { s with rest := s.rest.tail })
    (right : ∀ s, s.next = t → first' s = second' { s with rest := s.rest.tail })
    (rest : Tracks seam (n - 1) second second') : TracksFrom seam n t first first' := by
  refine ⟨fun s next => ?_, fun place here short stays => ?_⟩
  · obtain ⟨leads, blames⟩ := rest.moves { s with rest := s.rest.tail }
    refine ⟨?_, fun failed => blames (by rw [← left s next, failed])⟩
    rw [after, left s next, rest_of_next (next ▸ kind)]
    exact (leads_cons _ (next ▸ kind)).trans leads
  · rw [after, left (seam.left place) here] at stays
    rw [left (seam.left place) here, right (seam.right place) here]
    obtain ⟨next, more, nextId, errors⟩ := place
    cases more with
    | nil =>
        have le := (rest.moves ⟨seam.tail, nextId, errors⟩).leads.length_le
        exact (Nat.not_lt.mpr le stays).elim
    | cons u us =>
        rw [List.length_cons] at short
        exact (rest u).same ⟨u, us, nextId, errors⟩ rfl (by simp only; omega) stays

theorem skip_then {next next' : Parser α} (kind : t.kind ≠ .endOfInput)
    (rest : Tracks seam (n - 1) next next') :
    TracksFrom seam n t (do skip; next) (do skip; next') :=
  take kind (fun _ _ => rfl) (fun _ _ => rfl) rest

/-! ## Sequences -/

theorem sequence {parser parser' : Parser α} {next next' : α → Parser β}
    (first : TracksFrom seam n t parser parser')
    (rest : ∀ a, Tracks seam m (next a) (next' (shift seam.shift a)))
    (shortens : ∀ s a s', s.next = t → parser s = .ok a s' → s'.rest.length + n ≤ s.rest.length + m) :
    TracksFrom seam n t (parser >>= next) (parser' >>= next') := by
  refine ⟨fun s here => (first.moves s here).bind fun a s' _ => (rest a).moves s', ?_⟩
  intro place here short stays
  cases read : parser (seam.left place) with
  | ok a s₁ =>
      rw [after, bind_of read] at stays
      have le := ((rest a).moves s₁).leads.length_le
      have same := first.same place here short (by rw [after_of_ok read]; exact Nat.lt_of_lt_of_le stays le)
      rw [read] at same
      obtain ⟨place₁, rfl, read'⟩ := same.of_ok
      rw [bind_of read, bind_of read']
      have shorter := shortens (seam.left place) a _ here read
      simp only [Seam.left, List.length_cons, List.length_append] at shorter
      exact (rest a _).same place₁ rfl (by omega) stays
  | error e s₁ =>
      rw [after_of_error (bind_of_error read)] at stays
      have same := first.same place here short (by rwa [after_of_error read])
      rw [read] at same
      obtain ⟨place₁, rfl, read'⟩ := same.of_error
      rw [bind_of_error read, bind_of_error read']
      exact .error e place₁

theorem bind {parser parser' : Parser α} {next next' : α → Parser β}
    (first : TracksFrom seam n t parser parser')
    (rest : ∀ a, Tracks seam n (next a) (next' (shift seam.shift a))) :
    TracksFrom seam n t (parser >>= next) (parser' >>= next') := by
  refine first.sequence rest fun s a s' here read => ?_
  have le := (first.moves s here).leads.length_le
  rw [after_of_ok read] at le
  omega

theorem bind_less {parser parser' : Parser α} {next next' : α → Parser β}
    (first : TracksFrom seam n t parser parser')
    (consumes : ∀ s a s', s.next = t → parser s = .ok a s' → s'.rest.length < s.rest.length)
    (rest : ∀ a, Tracks seam (n - 1) (next a) (next' (shift seam.shift a))) :
    TracksFrom seam n t (parser >>= next) (parser' >>= next') := by
  refine first.sequence rest fun s a s' here read => ?_
  have lt := consumes s a s' here read
  omega

end TracksFrom

namespace Tracks

theorem pure {a a' : α} (same : a' = shift seam.shift a) :
    Tracks seam n (Pure.pure a : Parser α) (Pure.pure a') := by
  subst same
  exact fun _ => ⟨fun s _ => .of_ok rfl (.refl _), fun place _ _ _ => .ok a place⟩

theorem fail (cause : SyntaxError.Cause) : Tracks seam n (Parser.fail cause : Parser α) (Parser.fail cause) :=
  fun _ => ⟨fun s _ => .fail cause s, fun place _ _ _ => .error _ place⟩

theorem refer (token : Token) : Tracks seam n (Parser.refer token) (Parser.refer token) := by
  refine fun t => ⟨fun s _ => .of_ok rfl (.refl _), fun place _ _ _ => ?_⟩
  have number : place.nextId + seam.shift + 1 = place.nextId + 1 + seam.shift := by omega
  have same : Same seam (.ok (⟨place.nextId, token⟩ : Reference) _) _ :=
    .ok _ { place with nextId := place.nextId + 1 }
  rw [Seam.right, ← number] at same
  exact same

theorem report (cause : SyntaxError.Cause) (token : Token) :
    Tracks seam n (Parser.report cause token) (Parser.report cause token) := by
  refine fun t => ⟨fun s _ => .of_ok rfl (.refl _), fun place _ _ _ => ?_⟩
  have same : Same seam (.ok () _) _ := .ok () { place with errors := place.errors.push ⟨cause, token⟩ }
  rw [Seam.right, Array.append_push] at same
  exact same

theorem bind {parser parser' : Parser α} {next next' : α → Parser β}
    (first : Tracks seam n parser parser')
    (rest : ∀ a, Tracks seam n (next a) (next' (shift seam.shift a))) :
    Tracks seam n (parser >>= next) (parser' >>= next') :=
  fun t => (first t).bind rest

theorem look {γ : Type} {parser : Parser γ} {next next' : γ → Parser α} (seen : Token → γ)
    (looks : ∀ s, parser s = .ok (seen s.next) s) (rest : ∀ c, Tracks seam n (next c) (next' c)) :
    Tracks seam n (parser >>= next) (parser >>= next') :=
  fun t => .look seen looks (rest (seen t) t)

theorem at? {symbol : Symbol} {next next' : Bool → Parser α} (rest : ∀ b, Tracks seam n (next b) (next' b)) :
    Tracks seam n (Parser.at? symbol >>= next) (Parser.at? symbol >>= next') :=
  look (fun t => t.kind.isSymbol symbol) (fun _ => rfl) rest

theorem acceptAny {symbols : List Symbol} {next next' : Option Token → Parser α}
    (taken : ∀ t, Tracks seam (n - 1) (next (some t)) (next' (some t)))
    (other : Tracks seam n (next none) (next' none)) :
    Tracks seam n (Parser.acceptAny symbols >>= next) (Parser.acceptAny symbols >>= next') := by
  intro t
  by_cases found : symbols.any t.kind.isSymbol = true
  · obtain ⟨symbol, -, kind⟩ := any_isSymbol_iff.mp found
    have read {s : State} (here : s.next = t) :
        Parser.acceptAny symbols s = .ok (some t) { s with rest := s.rest.tail } := by
      have rest := rest_of_next (s := s) (by rw [here, kind]; nofun)
      rw [here] at rest
      unfold Parser.acceptAny
      rw [rest]
      simp only [found, if_true, List.tail_cons]
    exact .take (by rw [kind]; nofun) (fun s here => bind_of (read here)) (fun s here => bind_of (read here))
      (taken t)
  · have read {s : State} (here : s.next = t) : Parser.acceptAny symbols s = .ok none s := by
      obtain ⟨rest, nextId, errors⟩ := s
      cases rest with
      | nil => rfl
      | cons u us =>
          subst here
          exact if_neg found
    exact .congr (fun s here => bind_of (read here)) (fun s here => bind_of (read here)) (other t)

theorem accept {symbol : Symbol} {next next' : Option Token → Parser α}
    (taken : ∀ t, Tracks seam (n - 1) (next (some t)) (next' (some t)))
    (other : Tracks seam n (next none) (next' none)) :
    Tracks seam n (Parser.accept symbol >>= next) (Parser.accept symbol >>= next') :=
  acceptAny taken other

theorem expect (symbol : Symbol) (cause : SyntaxError.Cause) :
    Tracks seam n (Parser.expect symbol cause) (Parser.expect symbol cause) :=
  accept (fun _ => pure rfl) (fail cause)

theorem expectName (cause : SyntaxError.Cause) :
    Tracks seam n (Parser.expectName cause) (Parser.expectName cause) := by
  refine fun t => .look (fun t => t) (fun _ => rfl) ?_
  split
  · rename_i kind
    exact .skip_then (by rw [kind]; nofun) (pure rfl)
  · exact fail cause t

/-! ## Recovery -/

theorem recover {parser parser' : Parser Stmt} (tracks : Tracks seam n parser parser') :
    Tracks seam n (Parser.recover parser) (Parser.recover parser') := by
  refine fun t => ⟨fun s _ => (tracks.moves s).recover, fun place here short stays => ?_⟩
  have same := (tracks t).same place here short
  cases read : parser (seam.left place) with
  | ok a s₁ =>
      rw [after_of_ok (recover_of read)] at stays
      rw [after_of_ok read, read] at same
      obtain ⟨place₁, rfl, read'⟩ := (same stays).of_ok
      rw [recover_of read, recover_of read']
      exact .ok (some a) place₁
  | error e s₁ =>
      rw [after_of_ok (recover_of_error read)] at stays
      rw [after_of_error read, read] at same
      have le := (synchronize_leads s₁.rest).length_le
      obtain ⟨place₁, rfl, read'⟩ := (same (Nat.lt_of_lt_of_le stays le)).of_error
      obtain ⟨u, us, skips⟩ := synchronize_append place₁.next place₁.more stays
      have same : Same seam (.ok (none : Option Stmt) _) _ :=
        .ok none ⟨u, us, place₁.nextId, place₁.errors.push e⟩
      rw [Seam.right, Array.append_push, Seam.left] at same
      rw [recover_of_error read, recover_of_error read']
      simp only [Seam.left, Seam.right, skips]
      exact same

/-! ## Loops -/

theorem withRounds {parser parser' : Nat → Parser α}
    (each : ∀ k k' m, m ≤ n → m ≤ k → m ≤ k' → Tracks seam m (parser k) (parser' k')) :
    Tracks seam n (Parser.withRounds parser) (Parser.withRounds parser') := by
  refine fun t => ⟨fun s _ => ?_, fun place here short stays => ?_⟩
  · obtain ⟨leads, blames⟩ :=
      (each s.rest.length 0 0 (Nat.zero_le n) (Nat.zero_le _) Nat.le.refl).moves s
    exact ⟨leads, blames⟩
  · have enough (us : List Token) : place.more.length + 1 ≤ (place.next :: (place.more ++ us)).length := by
      rw [List.length_cons, List.length_append]
      omega
    exact (each _ _ (place.more.length + 1) short (enough seam.tail) (enough seam.tail') place.next).same
      place rfl Nat.le.refl stays

/--
A loop whose rounds take a token each. With no token in front of the seam only the left side counts, so
the right side may be out of rounds.
-/
theorem loop {ι : Type} (parser parser' : ι → Nat → Parser α) (zero : ∀ i s, Moves (parser i 0) s)
    (step : ∀ k k' m, m ≤ n → (∀ i, Tracks seam (m - 1) (parser i k) (parser' i k')) →
      ∀ i, Tracks seam m (parser i (k + 1)) (parser' i (k' + 1))) :
    ∀ k k' m, m ≤ n → m ≤ k → m ≤ k' → ∀ i, Tracks seam m (parser i k) (parser' i k') := by
  intro k
  induction k with
  | zero =>
      intro k' m _ short _ i
      obtain rfl : m = 0 := by omega
      exact of_moves (zero i)
  | succ k ih =>
      intro k' m le short short' i
      cases m with
      | zero =>
          exact of_moves (step k 0 0 le (ih 0 0 le (Nat.zero_le k) Nat.le.refl) i).moves
      | succ m =>
          cases k' with
          | zero => omega
          | succ k' => exact step k k' (m + 1) le (ih k' m (by omega) (by omega) (by omega)) i

theorem rounds {ι : Type} (parser parser' : ι → Nat → Parser α) (zero : ∀ i s, Moves (parser i 0) s)
    (step : ∀ k k' m, m ≤ n → (∀ i, Tracks seam (m - 1) (parser i k) (parser' i k')) →
      ∀ i, Tracks seam m (parser i (k + 1)) (parser' i (k' + 1))) (i : ι) :
    Tracks seam n (Parser.withRounds (parser i)) (Parser.withRounds (parser' i)) :=
  withRounds fun k k' m le short short' => loop parser parser' zero step k k' m le short short' i

end Tracks

end Lox.Parser
