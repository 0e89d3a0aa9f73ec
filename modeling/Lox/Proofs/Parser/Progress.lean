import Lox.Proofs.Parser.Turns

/-!
# Reading comes to an end

Every reading goes forward in the list of tokens, and a declaration that begins before the end of the
input gets further, whether it succeeds or is skipped. Therefore every loop of the parser and every
procedure that calls itself terminates: going round as long as its condition holds is the same as going
round once for each token that is left, wherever in the list the input ends.
-/

namespace Lox.Parser
open Grammar

theorem moves_within (clause : Clause) (tokens : Nat) (s : State) : Moves (clause.within tokens) s := by
  have both := (Tracks.declaration_statement ⟨[], [], 0, #[]⟩ tokens).2 0 0 (Nat.zero_le _) (Nat.zero_le _)
  cases clause with
  | declaration => exact both.1.moves s
  | statement => exact both.2.moves s

theorem moves_read (clause : Clause) (s : State) : Moves clause.read s := by
  obtain ⟨leads, blames⟩ := moves_within clause s.rest.length s
  exact ⟨leads, blames⟩

theorem progresses_within (tokens : Nat) : Progresses (declaration tokens) :=
  (Tracks.declaration_statement ⟨[], [], 0, #[]⟩ tokens).1

theorem progresses_read : Progresses (Clause.read .declaration) :=
  fun s goes => progresses_within s.rest.length s goes

theorem moves_expression (s : State) : Moves expression s :=
  (Tracks.expression : Tracks ⟨[], [], 0, #[]⟩ 0 _ _).moves s

theorem moves_wholeExpression (s : State) : Moves wholeExpression s := by
  apply (moves_expression s).bind
  intro value s' _
  have looks : Moves atEnd s' := .of_ok rfl (.refl _)
  apply looks.bind
  intro ended s'' _
  cases ended with
  | false | true => exact .of_ok rfl (.refl _)

/-- A program is a loop over declarations, each of which is read without counting. -/
theorem program_eq : program = withRounds (programItems (Clause.read .declaration)) := by
  funext s
  have enough := clauses_count.enough clauses_guarded s.rest.length .declaration
  exact ((enough.programItems s.rest.length) s (Nat.lt_succ_self _)).same.symm

theorem program_terminates : Terminates (programTurn (Clause.read .declaration)) fun _ => program := by
  rw [program_eq]
  exact programItems_terminate (moves_read .declaration) progresses_read

/--
No reading goes back in the list or passes the end of the input; a declaration gets further wherever it
begins, and so does the skipping behind one that fails; and all loops and procedures end. Nothing is
asked of the list: its end may stand anywhere in it or be missing.
-/
theorem reading_terminates :
    (Forward program ∧ Forward wholeExpression ∧ ∀ (clause : Clause) tokens, Forward (clause.within tokens)) ∧
    (Progresses (Clause.read .declaration) ∧ (∀ tokens, Progresses (declaration tokens)) ∧
      ∀ s : State, Leads s.rest (synchronize s.rest) ∧
        (s.next.kind ≠ .endOfInput → (synchronize s.rest).length < s.rest.length)) ∧
    (Terminates (programTurn (Clause.read .declaration)) (fun _ => program) ∧
      Terminates clauseTurn Clause.read ∧
      Terminates (blockTurn (Clause.read .declaration))
        (fun _ => withRounds (blockItems (Clause.read .declaration))) ∧
      Terminates (methodsTurn (Clause.read .declaration))
        (fun _ => withRounds (methods (Clause.read .declaration))) ∧
      Terminates parametersTurn fun count => withRounds (parameters count)) ∧
    (Terminates expressionTurn (fun _ => expression) ∧
      Terminates (argumentsTurn expression) (fun count => withRounds (arguments expression count)) ∧
      Terminates (suffixesTurn expression) (fun target => withRounds (suffixes expression target)) ∧
      Terminates (signsTurn (calls expression)) (fun _ => withRounds (signs (calls expression))) ∧
      ∀ level tighter, Terminates
        (chainTurn level (operations (withRounds (signs (calls expression))) tighter))
        fun left => withRounds (chain level (operations (withRounds (signs (calls expression))) tighter) left)) := by
  have within (n : Nat) : Agrees n expression expression := .of_moves moves_expression
  have operand (n : Nat) : Agrees n (calls expression) (calls expression) := (within n).calls.mono (Nat.le_succ n)
  refine ⟨⟨?_, ?_, ?_⟩, ⟨?_, ?_, ?_⟩, ⟨?_, ?_, ?_, ?_, ?_⟩, ?_, ?_, ?_, ?_, ?_⟩
  · exact program_terminates.forward ()
  · exact fun s => (moves_wholeExpression s).leads
  · exact fun clause tokens s => (moves_within clause tokens s).leads
  · exact progresses_read
  · exact progresses_within
  · exact fun s => ⟨synchronize_leads s.rest, synchronize_length_lt⟩
  · exact program_terminates
  · exact clauses_terminate
  · exact block_terminates (moves_read _) progresses_read
  · exact methods_terminate (moves_read _) progresses_read
  · exact parameters_terminate
  · exact expression_terminates
  · exact arguments_terminate within
  · exact suffixes_terminate within
  · exact signs_terminate operand
  · intro level tighter
    exact chain_terminates level fun n => (Agrees.withRounds (operand n).signs).operations tighter

end Lox.Parser
