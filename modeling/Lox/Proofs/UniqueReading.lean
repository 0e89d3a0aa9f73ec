import Mathlib
import Lox.Proofs.Accepted
import Lox.Proofs.Parser.Soundness
import Lox.Proofs.PrefixForm.Trees

/-!
# The prefix form determines the tree

The texts of words do not run into each other, so the prefix form of a tree gives its form, and the form gives the
tree but for numbers and lines (`prefixForm_determines_tree`). A string is printed as it is and an infinite number as
a name is, so sources with these are left out.
-/

namespace Lox
open Grammar

variable {source source' : String} {e e' : Expr}

/-- There are no strings and no numbers that are too large for a double. -/
structure PlainSource (source : String) : Prop where
  unquoted : ∀ t ∈ (scan source).1, ∀ text, t.kind ≠ .string text
  finite : ∀ t ∈ (scan source).1, ∀ v, t.kind = .number v → v.isFinite = true

theorem spells_of_mem_scan {t : Token} (mem : t ∈ (scan source).1) (other : t.kind ≠ .endOfInput) :
    Spells t.kind t.lexeme.toList := by
  obtain ⟨lexemes, -, faces⟩ := faces_of_scan source
  have face := List.mem_map_of_mem (f := Token.face) mem
  rw [faces, List.mem_append, List.mem_map, List.mem_singleton] at face
  rcases face with ⟨lexeme, -, same⟩ | same
  · obtain ⟨kind, text⟩ := Prod.mk.inj same
    rw [← kind, ← text, String.toList_ofList]
    exact lexeme.spells
  · exact (other (Prod.mk.inj same).1).elim

theorem PlainSource.legible (plain : PlainSource source) (parsed : parseExpression (scan source).1 = .ok e) :
    e.Legible := by
  obtain ⟨ts, rest, n, tokens, derived, -⟩ := Parser.parseExpression_reads parsed
  have legible : LegibleTokens ts := by
    intro t mem
    have scanned : t ∈ (scan source).1 := by simp [tokens, mem]
    exact ⟨spells_of_mem_scan scanned (derived.endless t mem), plain.unquoted t scanned, plain.finite t scanned⟩
  exact derived.legible legible

theorem prefixForm_determines_tree (plain : PlainSource source) (plain' : PlainSource source')
    (parsed : parseExpression (scan source).1 = .ok e) (parsed' : parseExpression (scan source').1 = .ok e')
    (same : e.prefixForm = e'.prefixForm) : e.bare = e'.bare := by
  have legible := plain.legible parsed
  have legible' := plain'.legible parsed'
  have chars : e.form.chars = e'.form.chars := by rw [e.chars_form, e'.chars_form, same]
  have form := Form.chars_injective legible.wordy legible'.wordy chars
  have reads := legible.reads
  rw [form, legible'.reads] at reads
  exact (Option.some.inj reads).symm

theorem layouts_read_alike :
    let source := "a.b = -1"
    let source' := "a . b\n= - 1.0 // one"
    PlainSource source ∧ PlainSource source' ∧ ∃ e e', parseExpression (scan source).1 = .ok e ∧
      parseExpression (scan source').1 = .ok e' ∧ e.prefixForm = e'.prefixForm ∧ e.bare = e'.bare := by
  intro source source'
  let tokens (line : Nat) (one : String) : List Token :=
    [⟨.identifier, "a", 1⟩, ⟨.symbol .dot, ".", 1⟩, ⟨.identifier, "b", 1⟩, ⟨.symbol .equal, "=", line⟩,
      ⟨.symbol .minus, "-", line⟩, ⟨.number (Number.ofDecimal 1 0), one, line⟩, ⟨.endOfInput, "", line⟩]
  let tree (line : Nat) : Expr :=
    .set (.read ⟨0, ⟨.identifier, "a", 1⟩⟩) ⟨.identifier, "b", 1⟩
      (.unary ⟨.symbol .minus, "-", line⟩ (.literal (.number (Number.ofDecimal 1 0))))
  have scanned : (scan source).1 = tokens 1 "1" := by
    have cuts : pieces source.toList = [.lexeme .identifier ['a'], .lexeme (.symbol .dot) ['.'], .lexeme .identifier ['b'],
        .blank ' ', .lexeme (.symbol .equal) ['='], .blank ' ', .lexeme (.symbol .minus) ['-'],
        .lexeme (.number (Number.ofDecimal 1 0)) ['1']] := by
      simp [source, pieces, cut, isSeparator, mark?, comparison?, isWordStart, isWordPart, wordKind, cutNumber, numberKind,
        Symbol.ofWord?, Symbol.words, Symbol.spelling, Nat.ofDigitChars]
    rw [scan, items, cuts]
    rfl
  have scanned' : (scan source').1 = tokens 2 "1.0" := by
    have same : Number.ofDecimal 10 (-1) = Number.ofDecimal 1 0 := by decide
    have cuts : pieces source'.toList = [.lexeme .identifier ['a'], .blank ' ', .lexeme (.symbol .dot) ['.'], .blank ' ',
        .lexeme .identifier ['b'], .blank '\n', .lexeme (.symbol .equal) ['='], .blank ' ', .lexeme (.symbol .minus) ['-'],
        .blank ' ', .lexeme (.number (Number.ofDecimal 1 0)) ['1', '.', '0'], .blank ' ', .comment "// one".toList] := by
      simp [source', pieces, cut, isSeparator, mark?, comparison?, isWordStart, isWordPart, wordKind, cutNumber, numberKind,
        Symbol.ofWord?, Symbol.words, Symbol.spelling, Nat.ofDigitChars, same]
    rw [scan, items, cuts]
    rfl
  have finite : (Number.ofDecimal 1 0).isFinite = true := by decide
  have plain : PlainSource source := by
    constructor <;> simp [scanned, tokens, finite]
  have plain' : PlainSource source' := by
    constructor <;> simp [scanned', tokens, finite]
  have parsed : parseExpression (scan source).1 = .ok (tree 1) := by
    rw [scanned]
    rfl
  have parsed' : parseExpression (scan source').1 = .ok (tree 2) := by
    rw [scanned']
    rfl
  exact ⟨plain, plain', tree 1, tree 2, parsed, parsed', rfl, prefixForm_determines_tree plain plain' parsed parsed' rfl⟩

end Lox
