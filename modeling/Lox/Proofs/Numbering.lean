import Mathlib.Data.List.NodupEquivFin
import Lox.Proofs.LineIndependence
import Lox.Proofs.Parser.Soundness

/-!
# References are numbered in turn

The references of a tree that was parsed have the numbers from zero on, each once, in the order in which
their tokens stand in the list (`references_numbered`). Tokens may be equal, so that their places are not
seen in the tree; with its place as its line each token is told apart, and the tree is the same but for
lines.
-/

namespace Lox
open Grammar Lox.Parser

/--
The references have the numbers below their count, each once; and places can be found for them in the
list, further back for larger numbers, that hold their tokens.
-/
structure Gapless (tokens : List Token) (references : List Reference) : Prop where
  distinct : (references.map Reference.id).Nodup
  gapless : ∀ id, id ∈ references.map Reference.id ↔ id < references.length
  ordered : ∃ place : Nat → Nat, (∀ i j, i < j → place i < place j) ∧
    ∀ r ∈ references, tokens[place r.id]? = some r.token

/-- The tokens with their places as their lines. -/
def placed (tokens : List Token) : List Token := tokens.zipIdx.map fun (t, i) => { t with line := i }

theorem faces_placed (tokens : List Token) : (placed tokens).map Token.face = tokens.map Token.face := by
  have own := congrArg (List.map Token.face) (List.zipIdx_map_fst 0 tokens)
  rw [List.map_map] at own
  rw [placed, List.map_map, ← own]
  rfl

theorem lines_placed (tokens : List Token) : ((placed tokens).map Token.line).Pairwise (· < ·) := by
  have lines : (placed tokens).map Token.line = List.range tokens.length := by
    rw [placed, List.map_map, List.range_eq_range', ← List.zipIdx_map_snd 0 tokens]
    rfl
  rw [lines]
  exact List.pairwise_lt_range

namespace Grammar

variable {ts : List Token} {n : Nat} {rs : List Reference}

theorem Listed.getElem? (listed : Listed ts 0 rs n) {r : Reference} (mem : r ∈ rs) : rs[r.id]? = some r := by
  obtain ⟨i, bound, rfl⟩ := List.getElem_of_mem mem
  have own : (rs.map Reference.id)[i]? = some rs[i].id := by simp [bound]
  rw [listed.ids, List.getElem?_range' bound] at own
  have same : rs[i].id = i := by simpa using own.symm
  rw [same, List.getElem?_eq_getElem bound]

theorem InOrder.gapless (inOrder : InOrder ts 0 rs n) : Gapless ts rs := by
  obtain ⟨sorted, perm, listed⟩ := inOrder
  have same := perm.map Reference.id
  rw [listed.ids] at same
  constructor
  · exact same.nodup_iff.mp List.nodup_range'
  · intro id
    rw [← same.mem_iff, List.mem_range'_1, perm.length_eq]
    omega
  · obtain ⟨place, found⟩ := List.sublist_iff_exists_orderEmbedding_getElem?_eq.mp listed.tokens
    refine ⟨place, fun i j less => place.lt_iff_lt.mpr less, fun r mem => ?_⟩
    rw [← found, List.getElem?_map, listed.getElem? (perm.mem_iff.mpr mem), Option.map_some]

theorem InOrder.lines (inOrder : InOrder ts 0 rs n) (increasing : (ts.map Token.line).Pairwise (· < ·)) :
    ∀ r ∈ rs, ∀ r' ∈ rs, r.id < r'.id → r.line < r'.line := by
  obtain ⟨sorted, perm, listed⟩ := inOrder
  have lines : (sorted.map Reference.line).Pairwise (· < ·) := by
    have stands := listed.tokens.map Token.line
    rw [List.map_map] at stands
    exact increasing.sublist stands
  intro r mem r' mem' less
  have here := listed.getElem? (perm.mem_iff.mpr mem)
  have there := listed.getElem? (perm.mem_iff.mpr mem')
  obtain ⟨bound, here⟩ := List.getElem?_eq_some_iff.mp here
  obtain ⟨bound', there⟩ := List.getElem?_eq_some_iff.mp there
  have further := List.pairwise_iff_getElem.mp lines r.id r'.id (by simpa using bound) (by simpa using bound') less
  simpa [here, there] using further

end Grammar

theorem exists_placed {ε α : Type} [Lined ε] [Lined α] {parse : List Token → Except ε α}
    (ignores : ∀ tokens, parse (unlined tokens) = unlined (parse tokens)) {tokens : List Token} {a : α}
    (parsed : parse tokens = .ok a) : ∃ same, parse (placed tokens) = .ok same ∧ SameButLines a same := by
  have alike := (sameButLines_of_faces (faces_placed tokens)).image ignores
  rw [parsed] at alike
  cases again : parse (placed tokens) with
  | ok same =>
      rw [again] at alike
      exact ⟨same, rfl, (Except.ok.inj alike).symm⟩
  | error errors =>
      rw [again] at alike
      cases alike

/--
Of every list of tokens that is parsed, to a program or to an expression, the references have the numbers
from zero on, each once, in the order of their tokens. That is so of the places themselves, which are the
lines of a list that is parsed to the same tree but for lines.
-/
theorem references_numbered (tokens : List Token) :
    (∀ program, parseProgram tokens = .ok program →
      Gapless tokens (Stmt.referencesAll program) ∧
        ∃ same, parseProgram (placed tokens) = .ok same ∧ SameButLines program same ∧
          ∀ r ∈ Stmt.referencesAll same, ∀ r' ∈ Stmt.referencesAll same, r.id < r'.id → r.line < r'.line) ∧
    ∀ e, parseExpression tokens = .ok e →
      Gapless tokens e.references ∧
        ∃ same, parseExpression (placed tokens) = .ok same ∧ SameButLines e same ∧
          ∀ r ∈ same.references, ∀ r' ∈ same.references, r.id < r'.id → r.line < r'.line := by
  constructor
  · have inOrder {tokens : List Token} {program : List Stmt} (parsed : parseProgram tokens = .ok program) :
        ∃ n, InOrder tokens 0 (Stmt.referencesAll program) n := by
      obtain ⟨ts, rest, n, rfl, derived, -⟩ := parseProgram_reads parsed
      exact ⟨n, derived.inOrder.before rest⟩
    intro program parsed
    obtain ⟨n, here⟩ := inOrder parsed
    obtain ⟨same, again, alike⟩ := exists_placed parseProgram_unlined parsed
    obtain ⟨n', there⟩ := inOrder again
    exact ⟨here.gapless, same, again, alike, there.lines (lines_placed tokens)⟩
  · have inOrder {tokens : List Token} {e : Expr} (parsed : parseExpression tokens = .ok e) :
        ∃ n, InOrder tokens 0 e.references n := by
      obtain ⟨ts, rest, n, rfl, derived, -⟩ := parseExpression_reads parsed
      exact ⟨n, derived.inOrder.before rest⟩
    intro e parsed
    obtain ⟨n, here⟩ := inOrder parsed
    obtain ⟨same, again, alike⟩ := exists_placed parseExpression_unlined parsed
    obtain ⟨n', there⟩ := inOrder again
    exact ⟨here.gapless, same, again, alike, there.lines (lines_placed tokens)⟩

/-- In an assignment the name comes first, though the tree is walked from the value. -/
theorem numbered_assignment :
    let x : Token := ⟨.identifier, "x", 1⟩
    let tokens := [x, ⟨.symbol .equal, "=", 1⟩, x, ⟨.symbol .semicolon, ";", 1⟩, ⟨.endOfInput, "", 1⟩]
    parseProgram tokens = .ok [.expression (.assign ⟨0, x⟩ (.read ⟨1, x⟩))] ∧ Gapless tokens [⟨1, x⟩, ⟨0, x⟩] := by
  intro x tokens
  have parsed : parseProgram tokens = .ok [.expression (.assign ⟨0, x⟩ (.read ⟨1, x⟩))] := rfl
  exact ⟨parsed, ((references_numbered tokens).1 _ parsed).1⟩

end Lox
