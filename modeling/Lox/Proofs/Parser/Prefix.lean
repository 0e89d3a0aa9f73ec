import Mathlib
import Lox.Proofs.Parser.Acceptance

/-!
# Declarations in front of other tokens

Declarations that the grammar derives are read in the same way whatever comes after them, as long as
that is no `else` (`Declarations.goOn`). So a program that begins with the tokens of another one
begins with its statements (`parseProgram_append`).
-/

namespace Lox.Grammar
open Lox.Parser

theorem Declarations.goOn {ts rest : List Token} {n n' k rounds : Nat} {ss : List Stmt}
    (errors : Array SyntaxError) (derived : Declarations ts n ss n')
    (noElse : nextKind rest ≠ .symbol .elseWord) (enough : (ts ++ rest).length ≤ k)
    (more : (ts ++ rest).length ≤ rounds) :
    ∃ rounds', rest.length ≤ rounds' ∧
      programItems (declaration k) rounds ⟨ts ++ rest, n, errors⟩ =
        (do return ss ++ (← programItems (declaration k) rounds')) ⟨rest, n', errors⟩ := by
  induction ss generalizing ts n rounds with
  | nil =>
      cases derived
      refine ⟨rounds, more, ?_⟩
      simp only [List.nil_append, bind_pure]
  | cons s ss ih =>
      cases derived with
      | @cons us vs _ n₁ _ _ _ first others =>
          have progress := List.length_pos_iff.mpr first.begins.ne_nil
          rw [List.append_assoc] at enough more ⊢
          rw [List.length_append] at enough more
          cases rounds with
          | zero => omega
          | succ rounds =>
              have shorter : (vs ++ rest).length ≤ rounds := by omega
              obtain ⟨rounds', left, readMore⟩ := ih others (by omega) shorter
              refine ⟨rounds', left, ?_⟩
              have read := first.completes k (vs ++ rest) errors (by simpa using enough)
                (noElse_of_declarations others noElse)
              obtain ⟨t, tail, same, notEnd, -⟩ := first.begins.append (vs ++ rest)
              rw [same] at read ⊢
              rw [programItems, bind_of (atEnd_of_ne (by exact notEnd))]
              refine (bind_of read).trans ((bind_of_eq readMore).trans ?_)
              simp only [bind_assoc, pure_bind, Option.toList_some, List.cons_append, List.nil_append]

end Lox.Grammar

namespace Lox
open Grammar Lox.Parser

theorem nextKind_append {ts rest : List Token} {kind : Kind} (first : ts ≠ [] → nextKind ts ≠ kind)
    (second : nextKind rest ≠ kind) : nextKind (ts ++ rest) ≠ kind := by
  cases ts with
  | nil => exact second
  | cons t ts => exact first (List.cons_ne_nil t ts)

theorem parseProgram_inv {tokens : List Token} {program : List Stmt}
    (parsed : parseProgram tokens = .ok program) :
    ∃ s, programItems (declaration tokens.length) tokens.length ⟨tokens, 0, #[]⟩ = .ok program s := by
  unfold parseProgram run at parsed
  split at parsed
  · rename_i ss s read
    split at parsed <;> cases parsed
    exact ⟨s, read⟩
  · cases parsed

theorem declarations_of_parsed {tokens ending : List Token} {program : List Stmt}
    (ended : nextKind ending = .endOfInput) (parsed : parseProgram (tokens ++ ending) = .ok program) :
    ∃ ts more n, tokens = ts ++ more ∧ Declarations ts 0 program n ∧
      (more = [] ∨ nextKind more = .endOfInput) := by
  obtain ⟨ts, rest, n, read, derived, kind⟩ := parseProgram_reads parsed
  rcases List.append_eq_append_iff.mp read with ⟨more, rfl, tail⟩ | ⟨more, rfl, tail⟩
  · cases more with
    | nil => exact ⟨tokens, [], n, by simp, by simpa using derived, .inl rfl⟩
    | cons t more =>
        -- the declarations would reach into the ending, which begins with the end of the input
        rw [tail] at ended
        exact (derived.endless t (by simp) ended).elim
  · refine ⟨ts, more, n, rfl, derived, ?_⟩
    cases more with
    | nil => exact .inl rfl
    | cons t more => exact .inr (by rwa [tail] at kind)

theorem parseProgram_append {tokens ending others : List Token} {program both : List Stmt}
    (ended : nextKind ending = .endOfInput) (separate : nextKind others ≠ .symbol .elseWord)
    (parsed : parseProgram (tokens ++ ending) = .ok program)
    (parsedBoth : parseProgram (tokens ++ others) = .ok both) : ∃ more, both = program ++ more := by
  obtain ⟨ts, rest, n, rfl, derived, atEnd⟩ := declarations_of_parsed ended parsed
  have noElse : nextKind (rest ++ others) ≠ .symbol .elseWord := by
    refine nextKind_append (fun nonempty => ?_) separate
    rw [atEnd.resolve_left nonempty]
    nofun
  obtain ⟨s, read⟩ := parseProgram_inv parsedBoth
  rw [List.append_assoc] at read
  obtain ⟨rounds, -, goesOn⟩ := derived.goOn #[] noElse Nat.le.refl Nat.le.refl
  rw [goesOn, bind_ok] at read
  obtain ⟨more, s', -, same⟩ := read
  exact ⟨more, (pure_ok.mp same).1.symm⟩

end Lox
