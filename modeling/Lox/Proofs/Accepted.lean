import Lox.Program
import Lox.Proofs.Grammar.Trees
import Lox.Proofs.Parser.Soundness

/-!
# Accepted programs

What is known of a program before it runs: its source was scanned and parsed, and the walk over its
scopes found no misuse (`accepted_of_check`). Scanning spells every token as its kind demands and
puts the end of the input at the end only, so trees of programs are trees of the grammar over such
tokens.
-/

namespace Lox
open Grammar

/-! ## Scanned tokens -/

def Piece.Spelled : Piece → Prop
  | .lexeme kind text => kind ≠ .endOfInput ∧ ∀ line, Token.Spelled ⟨kind, .ofList text, line⟩
  | _ => True

theorem spelled_symbol {symbol : Symbol} {text : List Char}
    (same : String.ofList text = symbol.spelling) :
    Piece.Spelled (.lexeme (.symbol symbol) text) :=
  ⟨nofun, fun _ => same⟩

theorem mark?_spelling {c : Char} {mark : Symbol} (found : mark? c = some mark) :
    String.ofList [c] = mark.spelling := by
  unfold mark? at found
  split at found <;> cases found <;> rfl

theorem comparison?_spelling {c : Char} {alone joined : Symbol}
    (found : comparison? c = some (alone, joined)) :
    String.ofList [c] = alone.spelling ∧ String.ofList [c, '='] = joined.spelling := by
  unfold comparison? at found
  split at found <;> cases found <;> exact ⟨rfl, rfl⟩

theorem spelled_word (text : List Char) : Piece.Spelled (.lexeme (wordKind text) text) := by
  unfold wordKind
  split
  · rename_i word found
    have same := List.find?_some found
    exact spelled_symbol (of_decide_eq_true same).symm
  · rename_i missing
    exact ⟨nofun, fun _ => missing⟩

theorem spelled_number (first : Char) (rest : List Char) : (cutNumber first rest).1.Spelled := by
  unfold cutNumber numberKind
  split
  · split <;> exact ⟨nofun, fun _ => trivial⟩
  · exact ⟨nofun, fun _ => trivial⟩

theorem spelled_string (rest : List Char) : (cutString rest).1.Spelled := by
  unfold cutString
  split
  · trivial
  · exact ⟨fun same => (by cases same), fun _ => trivial⟩

theorem spelled_cut (first : Char) (rest : List Char) : (cut first rest).1.Spelled := by
  unfold cut
  split
  · trivial
  split
  · rename_i mark found
    exact spelled_symbol (mark?_spelling found)
  split
  · rename_i alone joined found
    obtain ⟨sameAlone, sameJoined⟩ := comparison?_spelling found
    split
    · exact spelled_symbol sameJoined
    · exact spelled_symbol sameAlone
  split
  · rename_i slash
    split
    · trivial
    · exact spelled_symbol (by rw [slash]; rfl)
  split
  · exact spelled_string rest
  split
  · exact spelled_number first rest
  split
  · exact spelled_word _
  · trivial

theorem spelled_pieces (source : List Char) : ∀ piece ∈ pieces source, piece.Spelled := by
  fun_induction pieces source with
  | case1 => exact List.forall_mem_nil _
  | case2 first rest ih =>
      rw [List.forall_mem_cons]
      exact ⟨spelled_cut first rest, ih⟩

theorem tokens_itemsFrom {ps : List Piece} (spelled : ∀ piece ∈ ps, piece.Spelled) :
    ∀ line, ∃ body ending, (itemsFrom line ps).filterMap Item.token? = body ++ [ending] ∧
    Spelled (body ++ [ending]) ∧
      Endless body ∧ ending.kind = .endOfInput := by
  induction ps with
  | nil =>
      intro line
      refine ⟨[], ⟨.endOfInput, "", line⟩, rfl, ?_, endless_nil, rfl⟩
      rintro _ (_ | ⟨_, ⟨⟩⟩)
      trivial
  | cons piece rest ih =>
      intro line
      rw [List.forall_mem_cons] at spelled
      obtain ⟨body, ending, same, spelledRest, endless, kind⟩ :=
        ih spelled.2 (line + piece.text.count '\n')
      rw [itemsFrom, List.filterMap_append, same]
      cases piece with
      | lexeme k text =>
          obtain ⟨notEnd, spelledHere⟩ := spelled.1
          refine ⟨⟨k, .ofList text, line + text.count '\n'⟩ :: body, ending, rfl, ?_, ?_, kind⟩
          · exact spelled_cons.mpr ⟨spelledHere _, spelledRest⟩
          · exact endless_cons.mpr ⟨notEnd, endless⟩
      | _ => exact ⟨body, ending, rfl, spelledRest, endless, kind⟩

theorem scan_tokens (source : String) : ∃ body ending, (scan source).1 = body ++ [ending] ∧
    Spelled (body ++ [ending]) ∧ Endless body ∧ ending.kind = .endOfInput :=
  tokens_itemsFrom (spelled_pieces _) 1

/-! ## Programs -/

/-- A tree of the grammar in which the walk over the scopes finds these distances and no misuse. -/
structure Accepted (program : List Stmt) (distances : Distances) : Prop where
  wellFormed : Stmt.WellFormedAll program
  distinct : ((Stmt.referencesAll program).map Reference.id).Nodup
  clean : (Scoping.stmts .topLevel program .start).errors = #[]
  found : (Scoping.stmts .topLevel program .start).distances = distances

theorem resolved_inv {program : List Stmt} {distances : Distances}
    (resolved : Distances.ofProgram program = .ok distances) :
    (Scoping.stmts .topLevel program .start).errors = #[] ∧
      (Scoping.stmts .topLevel program .start).distances = distances := by
  rw [Distances.ofProgram] at resolved
  split at resolved
  · rename_i clean
    cases resolved
    exact ⟨Array.isEmpty_iff.mp clean, rfl⟩
  · cases resolved

theorem check_inv {source : String} {program : List Stmt} {distances : Distances}
    (checked : check source = .ok (program, distances)) :
    parseProgram (scan source).1 = .ok program ∧ Distances.ofProgram program = .ok distances := by
  unfold check at checked
  simp only at checked
  split at checked
  · cases checked
  · rename_i tree parsed
    split at checked
    · split at checked
      · cases checked
      · rename_i found resolved
        cases checked
        exact ⟨parsed, resolved⟩
    · cases checked

theorem accepted_of_check {source : String} {program : List Stmt} {distances : Distances}
    (checked : check source = .ok (program, distances)) : Accepted program distances := by
  obtain ⟨parsed, resolved⟩ := check_inv checked
  obtain ⟨body, ending, tokens, spelled, endless, kind⟩ := scan_tokens source
  rw [tokens] at parsed
  have derived := Parser.parseProgram_sound endless kind parsed
  obtain ⟨n, numbered⟩ := derived.numbered
  obtain ⟨clean, found⟩ := resolved_inv resolved
  exact ⟨derived.wellFormed spelled, numbered.distinct, clean, found⟩

end Lox
