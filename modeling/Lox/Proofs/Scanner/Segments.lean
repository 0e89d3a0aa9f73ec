import Lox.Token.Lexer

/-!
# Segments of a source

Scanning loses nothing: a source is a sequence of adjacent segments, each of which is a blank, a
comment, a lexeme or a fault, and the items are those of the lexemes and faults in their order, with
one token for the end of the input behind them (`items_segment_source`). A segment lies between two
positions of the source, and positions lie between characters, so no character is ever cut.
-/

namespace Lox

/-! ## Positions and slices -/

/-- The text between two positions of a source. -/
def IsSlice {source : String} (start stop : source.Pos) (text : List Char) : Prop :=
  ∃ ordered : start ≤ stop, (source.slice start stop ordered).copy = .ofList text

/-- The line that a source has come to at a position. -/
def lineAt {source : String} (position : source.Pos) : Nat :=
  1 + (source.sliceTo position).copy.toList.count '\n'

variable {source : String} {start stop : source.Pos} {before text after : List Char}

theorem lineAt_end : lineAt source.endPos = 1 + source.toList.count '\n' := by
  rw [lineAt, (String.splits_endPos source).copy_sliceTo_eq]

theorem lineAt_le_of_slice (slice : IsSlice start stop text) : lineAt start ≤ lineAt stop := by
  obtain ⟨left, right, here, there⟩ := String.copy_slice_eq_iff_splits.mp slice
  rw [lineAt, lineAt, here.copy_sliceTo_eq, there.copy_sliceTo_eq, String.toList_append,
    List.count_append]
  omega

/-! ## Pieces -/

/-- What a piece is, apart from the kind of a lexeme, if this text is behind it. -/
def Piece.Shaped (after : List Char) : Piece → Prop
  | blank c => c ∈ [' ', '\t', '\r', '\n']
  | comment text => ∃ body, text = '/' :: '/' :: body ∧ '\n' ∉ body ∧
      (after = [] ∨ ∃ rest, after = '\n' :: rest)
  | lexeme kind text => kind ≠ .endOfInput ∧ text ≠ [] ∧
      ∀ contents, kind = .string contents → text = '"' :: (contents.toList ++ ['"'])
  | unexpected _ => True
  | unterminated text => after = [] ∧ ∃ body, text = '"' :: body ∧ '"' ∉ body

theorem not_mem_takeWhile_ne (c : Char) (chars : List Char) : c ∉ chars.takeWhile (· ≠ c) := by
  intro mem
  simpa using List.all_eq_true.mp (List.all_takeWhile (p := (· ≠ c))) c mem

theorem dropWhile_ne_eq (c : Char) (chars : List Char) :
    chars.dropWhile (· ≠ c) = [] ∨ ∃ rest, chars.dropWhile (· ≠ c) = c :: rest := by
  cases left : chars.dropWhile (· ≠ c) with
  | nil => exact .inl rfl
  | cons first rest =>
      have stopped := List.head?_dropWhile_not (· ≠ c) chars
      rw [left] at stopped
      have same : first = c := by simpa using stopped
      exact .inr ⟨rest, by rw [same]⟩

theorem shaped_symbol (after text : List Char) (symbol : Symbol) (nonempty : text ≠ []) :
    Piece.Shaped after (.lexeme (.symbol symbol) text) :=
  ⟨nofun, nonempty, nofun⟩

theorem shaped_word (after text : List Char) (nonempty : text ≠ []) :
    Piece.Shaped after (.lexeme (wordKind text) text) := by
  unfold wordKind
  split
  · exact shaped_symbol after text _ nonempty
  · exact ⟨nofun, nonempty, nofun⟩

theorem shaped_cutNumber (first : Char) (rest : List Char) :
    (cutNumber first rest).1.Shaped (cutNumber first rest).2 := by
  unfold cutNumber numberKind
  split
  · split <;> exact ⟨nofun, List.cons_ne_nil _ _, nofun⟩
  · exact ⟨nofun, List.cons_ne_nil _ _, nofun⟩

theorem shaped_cutString (rest : List Char) : (cutString rest).1.Shaped (cutString rest).2 := by
  have open_body := not_mem_takeWhile_ne '"' rest
  unfold cutString
  rcases dropWhile_ne_eq '"' rest with left | ⟨after, left⟩
  · rw [left]
    exact ⟨rfl, _, rfl, open_body⟩
  · rw [left]
    refine ⟨nofun, List.cons_ne_nil _ _, fun contents same => ?_⟩
    cases same
    simp

theorem shaped_comment (rest : List Char) :
    Piece.Shaped (('/' :: rest).dropWhile (· ≠ '\n'))
      (.comment ('/' :: ('/' :: rest).takeWhile (· ≠ '\n'))) := by
  refine ⟨rest.takeWhile (· ≠ '\n'), ?_, not_mem_takeWhile_ne '\n' rest, dropWhile_ne_eq '\n' _⟩
  rw [List.takeWhile_cons_of_pos (by decide)]

theorem shaped_cut (first : Char) (rest : List Char) :
    (cut first rest).1.Shaped (cut first rest).2 := by
  unfold cut
  split
  · rename_i separator
    simpa [Piece.Shaped, isSeparator, or_assoc] using separator
  split
  · exact shaped_symbol _ _ _ (List.cons_ne_nil _ _)
  split
  · split <;> exact shaped_symbol _ _ _ (List.cons_ne_nil _ _)
  split
  · rename_i slash
    subst slash
    split
    · exact shaped_comment _
    · exact shaped_symbol _ _ _ (List.cons_ne_nil _ _)
  split
  · exact shaped_cutString rest
  split
  · exact shaped_cutNumber first rest
  split
  · exact shaped_word _ _ (List.cons_ne_nil _ _)
  · trivial

/-! ## Segments -/

/--
From a position on, the source is a sequence of adjacent segments up to its end, which yield these
items. The line of an item is that of the end of its segment.
-/
inductive Segmented (source : String) : source.Pos → List Item → Prop where
  | ended : Segmented source source.endPos [.token ⟨.endOfInput, "", lineAt source.endPos⟩]
  | blank {start stop : source.Pos} {c : Char} {items : List Item} :
      IsSlice start stop [c] → c ∈ [' ', '\t', '\r', '\n'] → Segmented source stop items →
      Segmented source start items
  -- up to but not including the end of the line, or up to the end of the source
  | comment {start stop : source.Pos} {body : List Char} {items : List Item} :
      IsSlice start stop ('/' :: '/' :: body) → '\n' ∉ body →
      (stop = source.endPos ∨ ∃ next : source.Pos, IsSlice stop next ['\n']) →
      Segmented source stop items → Segmented source start items
  | lexeme {start stop : source.Pos} {kind : Kind} {text : List Char} {items : List Item} :
      IsSlice start stop text → text ≠ [] → kind ≠ .endOfInput →
      (∀ contents, kind = .string contents → ∃ opened closing : source.Pos,
        IsSlice start opened ['"'] ∧ IsSlice opened closing contents.toList ∧
        IsSlice closing stop ['"']) →
      Segmented source stop items →
      Segmented source start (.token ⟨kind, .ofList text, lineAt stop⟩ :: items)
  | unexpected {start stop : source.Pos} {c : Char} {items : List Item} :
      IsSlice start stop [c] → Segmented source stop items →
      Segmented source start (.error ⟨.unexpectedCharacter c, lineAt stop⟩ :: items)
  | unterminated {start : source.Pos} {body : List Char} {items : List Item} :
      IsSlice start source.endPos ('"' :: body) → '"' ∉ body → Segmented source source.endPos items →
      Segmented source start (.error ⟨.unterminatedString, lineAt source.endPos⟩ :: items)

def Item.line : Item → Nat
  | token t => t.line
  | error e => e.line

def lastToken (source : String) : Token := ⟨.endOfInput, "", 1 + source.toList.count '\n'⟩

namespace Segmented

variable {items : List Item}

theorem ends (segmented : Segmented source start items) :
    ∃ others, items = others ++ [.token (lastToken source)] ∧
      ∀ t, .token t ∈ others → t.kind ≠ .endOfInput := by
  induction segmented with
  | ended => exact ⟨[], by rw [lineAt_end]; rfl, nofun⟩
  | blank _ _ _ ih | comment _ _ _ _ ih => exact ih
  | lexeme _ _ notEnd _ _ ih =>
      obtain ⟨others, rfl, noEnd⟩ := ih
      refine ⟨_ :: others, rfl, fun t mem => ?_⟩
      rcases List.mem_cons.mp mem with same | mem
      · cases same
        exact notEnd
      · exact noEnd t mem
  | unexpected _ _ ih | unterminated _ _ _ ih =>
      obtain ⟨others, rfl, noEnd⟩ := ih
      exact ⟨_ :: others, rfl, fun t mem => noEnd t (by simpa using mem)⟩

theorem lineAt_le (segmented : Segmented source start items) :
    ∀ item ∈ items, lineAt start ≤ item.line := by
  induction segmented with
  | ended =>
      intro item mem
      rw [List.mem_singleton.mp mem]
      exact Nat.le.refl
  | blank slice _ _ ih | comment slice _ _ _ ih =>
      exact fun item mem => Nat.le_trans (lineAt_le_of_slice slice) (ih item mem)
  | lexeme slice _ _ _ _ ih | unexpected slice _ ih | unterminated slice _ _ ih =>
      have le := lineAt_le_of_slice slice
      exact List.forall_mem_cons.mpr ⟨le, fun item mem => Nat.le_trans le (ih item mem)⟩

theorem sorted (segmented : Segmented source start items) :
    (items.map Item.line).Pairwise (· ≤ ·) := by
  induction segmented with
  | ended => exact List.pairwise_singleton _ _
  | blank _ _ _ ih | comment _ _ _ _ ih => exact ih
  | lexeme _ _ _ _ rest ih | unexpected _ rest ih | unterminated _ _ rest ih =>
      refine List.Pairwise.cons (fun line mem => ?_) ih
      obtain ⟨item, listed, rfl⟩ := List.mem_map.mp mem
      exact rest.lineAt_le item listed

end Segmented

example : (items "\"a\n\" é // b").map Item.line = [2, 2, 2] := by cbv

end Lox
