import Mathlib
import Lox.Proofs.Accepted
import Lox.Proofs.Scanner.Seams
import Lox.Proofs.Scanner.Segments

/-!
# Layouts of tokens

A token may be written as any of its lexemes, and what stands between two lexemes is free, as long as it
starts with a blank and is made of blanks and of comments with the line break that ends them. Scanning
such a text gives the tokens that were written (`items_written`). Lexemes are read off a source, so its
tokens can be written again, with other gaps, and are read as the same tokens.
-/

namespace Lox

/-! ## Lexemes, gaps and layouts -/

/-- The lexical grammar: the texts of each kind of token. The end of the input has none. -/
inductive Spells : Kind → List Char → Prop where
  | symbol (symbol : Symbol) : Spells (.symbol symbol) symbol.spelling.toList
  | identifier {first : Char} {rest : List Char} (start : isWordStart first = true)
      (parts : ∀ c ∈ rest, isWordPart c = true)
      (other : ∀ symbol : Symbol, symbol.spelling ≠ .ofList (first :: rest)) :
      Spells .identifier (first :: rest)
  | whole {digits : List Char} (nonempty : digits ≠ []) (all : ∀ d ∈ digits, d.isDigit = true) :
      Spells (.number (Number.ofDecimal (Nat.ofDigitChars 10 digits 0) 0)) digits
  | decimal {digits fraction : List Char} (nonempty : digits ≠ []) (all : ∀ d ∈ digits, d.isDigit = true)
      (more : fraction ≠ []) (allMore : ∀ d ∈ fraction, d.isDigit = true) :
      Spells
        (.number (Number.ofDecimal (Nat.ofDigitChars 10 (digits ++ fraction) 0) (-(fraction.length : Int))))
        (digits ++ '.' :: fraction)
  | string {body : List Char} (unquoted : '"' ∉ body) :
      Spells (.string (.ofList body)) ('"' :: (body ++ ['"']))

structure Lexeme where
  kind : Kind
  text : List Char
  spells : Spells kind text

/-- What may follow the blank that a gap starts with. -/
inductive Filler where
  | blank (c : Char) (separates : c ∈ [' ', '\t', '\r', '\n'])
  | comment (body : List Char) (short : '\n' ∉ body)

def Filler.text : Filler → List Char
  | blank c _ => [c]
  | comment body _ => '/' :: '/' :: (body ++ ['\n'])

structure Gap where
  first : Char
  separates : first ∈ [' ', '\t', '\r', '\n']
  rest : List Filler

def Gap.text (gap : Gap) : List Char := gap.first :: gap.rest.flatMap Filler.text

/-- Lexemes, each with the gap behind it. -/
abbrev Layout := List (Lexeme × Gap)

namespace Layout

def text (layout : Layout) : List Char := layout.flatMap fun (lexeme, gap) => lexeme.text ++ gap.text

/-- The tokens of a layout and the end of the input. Each is on the line that the text ends on up to there. -/
def tokensFrom (before : List Char) : Layout → List Token
  | [] => [⟨.endOfInput, "", 1 + before.count '\n'⟩]
  | (lexeme, gap) :: rest =>
      ⟨lexeme.kind, .ofList lexeme.text, 1 + (before ++ lexeme.text).count '\n'⟩ ::
        tokensFrom (before ++ lexeme.text ++ gap.text) rest

def tokens (layout : Layout) : List Token := layout.tokensFrom []

end Layout

/-! ## A lexeme alone is one piece -/

variable {first c : Char} {rest text : List Char} {kind : Kind}

theorem plain_of_wordPart (part : isWordPart c = true) :
    isSeparator c = false ∧ mark? c = none ∧ comparison? c = none ∧ c ≠ '/' ∧ c ≠ '"' := by
  refine ⟨?_, ?_, ?_, ?_, ?_⟩
  · rw [Bool.eq_false_iff]
    intro blank
    rcases blank_cases blank with rfl | rfl | rfl | rfl <;> revert part <;> decide
  · unfold mark?
    split <;> first | rfl | (revert part; decide)
  · unfold comparison?
    split <;> first | rfl | (revert part; decide)
  · rintro rfl
    revert part
    decide
  · rintro rfl
    revert part
    decide

theorem wordPart_of_digit (digit : c.isDigit = true) : isWordPart c = true := by
  simp [isWordPart, Char.isAlphanum, digit]

theorem wordPart_of_wordStart (start : isWordStart c = true) : isWordPart c = true := by
  rw [isWordStart, Bool.or_eq_true] at start
  rw [isWordPart, Char.isAlphanum, Bool.or_eq_true, Bool.or_eq_true]
  exact start.imp_left .inl

theorem not_digit_of_wordStart (start : isWordStart c = true) : c.isDigit = false := by
  rw [Bool.eq_false_iff]
  intro digit
  simp only [isWordStart, Char.isAlpha, Char.isUpper, Char.isLower, Char.isDigit, Bool.or_eq_true,
    Bool.and_eq_true, decide_eq_true_eq, UInt32.le_iff_toNat_le, ge_iff_le] at start digit
  rcases start with (upper | lower) | rfl
  · have high := upper.1
    have low := digit.2
    simp at high low
    omega
  · have high := lower.1
    have low := digit.2
    simp at high low
    omega
  · revert digit
    decide

theorem cut_digit (digit : first.isDigit = true) : cut first rest = cutNumber first rest := by
  obtain ⟨separator, mark, comparison, slash, quote⟩ := plain_of_wordPart (wordPart_of_digit digit)
  simp [cut, separator, mark, comparison, slash, quote, digit]

theorem cut_word (start : isWordStart first = true) :
    cut first rest =
      (.lexeme (wordKind (first :: rest.takeWhile isWordPart)) (first :: rest.takeWhile isWordPart),
        rest.dropWhile isWordPart) := by
  obtain ⟨separator, mark, comparison, slash, quote⟩ := plain_of_wordPart (wordPart_of_wordStart start)
  simp [cut, separator, mark, comparison, slash, quote, not_digit_of_wordStart start, start]

theorem cut_symbol (symbol : Symbol) : ∃ first rest, symbol.spelling.toList = first :: rest ∧
    cut first rest = (.lexeme (.symbol symbol) (first :: rest), []) := by
  cases symbol <;> exact ⟨_, _, rfl, rfl⟩

theorem wordKind_identifier (other : ∀ symbol : Symbol, symbol.spelling ≠ .ofList text) :
    wordKind text = .identifier := by
  have missing : Symbol.ofWord? (.ofList text) = none :=
    List.find?_eq_none.mpr fun word _ => by simpa using other word
  rw [wordKind, missing]

theorem cut_lexeme (spells : Spells kind text) :
    ∃ first rest, text = first :: rest ∧ cut first rest = (.lexeme kind text, []) := by
  cases spells with
  | symbol symbol =>
      obtain ⟨first, rest, spelling, whole⟩ := cut_symbol symbol
      rw [spelling]
      exact ⟨first, rest, rfl, whole⟩
  | @identifier first rest start parts other =>
      refine ⟨first, rest, rfl, ?_⟩
      rw [cut_word start, List.takeWhile_eq_self_iff.mpr parts, List.dropWhile_eq_nil_iff.mpr parts,
        wordKind_identifier other]
  | whole nonempty all =>
      obtain ⟨first, rest, rfl⟩ := List.exists_cons_of_ne_nil nonempty
      rw [List.forall_mem_cons] at all
      refine ⟨first, rest, rfl, ?_⟩
      rw [cut_digit all.1, cutNumber, List.takeWhile_eq_self_iff.mpr all.2, List.dropWhile_eq_nil_iff.mpr all.2]
      simp [numberKind]
  | decimal nonempty all more allMore =>
      obtain ⟨first, rest, rfl⟩ := List.exists_cons_of_ne_nil nonempty
      obtain ⟨digit, fraction, rfl⟩ := List.exists_cons_of_ne_nil more
      rw [List.forall_mem_cons] at all allMore
      have notPoint : Char.isDigit '.' = false := rfl
      refine ⟨first, rest ++ '.' :: digit :: fraction, rfl, ?_⟩
      rw [cut_digit all.1, cutNumber, takeWhile_seam notPoint, dropWhile_seam notPoint,
        List.takeWhile_eq_self_iff.mpr all.2, List.dropWhile_eq_nil_iff.mpr all.2]
      simp [numberKind, allMore.1, List.takeWhile_eq_self_iff.mpr allMore.2,
        List.dropWhile_eq_nil_iff.mpr allMore.2]
  | @string body unquoted =>
      have inside : ∀ c ∈ body, decide (c ≠ '"') = true := by
        intro c mem
        rw [decide_eq_true_eq]
        rintro rfl
        exact unquoted mem
      have stop : decide ('"' ≠ '"') = false := rfl
      refine ⟨'"', body ++ ['"'], rfl, ?_⟩
      change cutString (body ++ ['"']) = _
      rw [cutString, takeWhile_seam (p := (· ≠ '"')) stop, dropWhile_seam (p := (· ≠ '"')) stop,
        List.takeWhile_eq_self_iff.mpr inside, List.dropWhile_eq_nil_iff.mpr inside]
      rfl

theorem pieces_lexeme (spells : Spells kind text) : pieces text = [.lexeme kind text] := by
  obtain ⟨first, rest, rfl, whole⟩ := cut_lexeme spells
  rw [pieces, whole, pieces]

/-! ## Gaps -/

theorem isSeparator_of_mem (mem : c ∈ [' ', '\t', '\r', '\n']) : isSeparator c = true := by
  simpa [isSeparator, or_assoc] using mem

theorem cut_comment {body : List Char} (short : '\n' ∉ body) (after : List Char) :
    cut '/' ('/' :: (body ++ '\n' :: after)) = (.comment ('/' :: '/' :: body), '\n' :: after) := by
  have inside : ∀ c ∈ '/' :: body, decide (c ≠ '\n') = true := by
    intro c mem
    rw [decide_eq_true_eq]
    rintro rfl
    exact short (List.mem_of_ne_of_mem (by decide) mem)
  have stop : decide ('\n' ≠ '\n') = false := rfl
  rw [← List.cons_append]
  change (Piece.comment ('/' :: ('/' :: body ++ '\n' :: after).takeWhile _),
    ('/' :: body ++ '\n' :: after).dropWhile _) = _
  rw [takeWhile_seam (p := (· ≠ '\n')) stop, dropWhile_seam (p := (· ≠ '\n')) stop,
    List.takeWhile_eq_self_iff.mpr inside, List.dropWhile_eq_nil_iff.mpr inside]
  rfl

theorem itemsFrom_blank (separates : c ∈ [' ', '\t', '\r', '\n']) (line : Nat) (after : List Char) :
    itemsFrom line (pieces (c :: after)) = itemsFrom (line + [c].count '\n') (pieces after) := by
  rw [pieces_blank (isSeparator_of_mem separates)]
  rfl

/-- A gap has no items, and only its line breaks count. -/
theorem itemsFrom_filler (filler : Filler) (line : Nat) (after : List Char) :
    itemsFrom line (pieces (filler.text ++ after)) =
      itemsFrom (line + filler.text.count '\n') (pieces after) := by
  cases filler with
  | blank c separates => exact itemsFrom_blank separates line after
  | comment body short =>
      rw [Filler.text, List.cons_append, List.cons_append, List.append_assoc, List.singleton_append, pieces,
        cut_comment short]
      change itemsFrom (line + ('/' :: '/' :: body).count '\n') _ = _
      rw [itemsFrom_blank (by decide), Nat.add_assoc, ← List.count_append]
      rfl

theorem itemsFrom_gap (gap : Gap) (line : Nat) (after : List Char) :
    itemsFrom line (pieces (gap.text ++ after)) = itemsFrom (line + gap.text.count '\n') (pieces after) := by
  obtain ⟨first, separates, fillers⟩ := gap
  have rest : ∀ line, itemsFrom line (pieces (fillers.flatMap Filler.text ++ after)) =
      itemsFrom (line + (fillers.flatMap Filler.text).count '\n') (pieces after) := by
    induction fillers with
    | nil => exact fun _ => rfl
    | cons filler fillers ih =>
        intro line
        rw [List.flatMap_cons, List.append_assoc, itemsFrom_filler, ih, List.count_append, Nat.add_assoc]
  rw [Gap.text, List.cons_append, itemsFrom_blank separates, rest, Nat.add_assoc, ← List.count_append]
  rfl

/-! ## Layouts -/

theorem items_written (layout : Layout) (before : List Char) :
    itemsFrom (1 + before.count '\n') (pieces layout.text) = (layout.tokensFrom before).map .token := by
  induction layout generalizing before with
  | nil => rw [Layout.text, List.flatMap_nil, pieces]; rfl
  | cons cell rest ih =>
      obtain ⟨lexeme, gap⟩ := cell
      have closed : ∀ piece ∈ pieces lexeme.text, piece.ClosedBy gap.first := by
        rw [pieces_lexeme lexeme.spells, List.forall_mem_singleton]
        trivial
      have split : pieces (Layout.text ((lexeme, gap) :: rest)) =
          .lexeme lexeme.kind lexeme.text :: pieces (gap.text ++ Layout.text rest) := by
        have seam := pieces_seam (isSeparator_of_mem gap.separates) lexeme.text
          (gap.rest.flatMap Filler.text ++ Layout.text rest) closed
        rw [pieces_lexeme lexeme.spells] at seam
        rw [Layout.text, List.flatMap_cons, List.append_assoc]
        exact seam
      have goesOn := ih (before ++ lexeme.text ++ gap.text)
      rw [List.count_append, List.count_append, ← Nat.add_assoc, ← Nat.add_assoc] at goesOn
      rw [split, itemsFrom, Piece.text, itemsFrom_gap, goesOn, Layout.tokensFrom, List.map_cons, List.count_append,
        ← Nat.add_assoc]
      rfl

/-! ## Writing scanned tokens again -/

/-- A token without its line. -/
def Token.face (t : Token) : Kind × String := (t.kind, t.lexeme)

/-- Tokens written one after the other, with a gap behind each. -/
def spread (gap : Nat → Gap) (tokens : List Token) : List Char :=
  tokens.zipIdx.flatMap fun (token, i) => token.lexeme.toList ++ (gap i).text

theorem spells_symbol {symbol : Symbol} (same : String.ofList text = symbol.spelling) :
    Spells (.symbol symbol) text := by
  have spells := Spells.symbol symbol
  rwa [← same, String.toList_ofList] at spells

theorem mem_words {symbol : Symbol} (same : symbol.spelling = .ofList (first :: rest))
    (start : isWordStart first = true) : symbol ∈ Symbol.words := by
  have spelling : symbol.spelling.toList = first :: rest := by rw [same, String.toList_ofList]
  cases symbol <;> first | decide | (cases spelling; cases start)

theorem spells_word (start : isWordStart first = true) (parts : ∀ c ∈ rest, isWordPart c = true) :
    Spells (wordKind (first :: rest)) (first :: rest) := by
  unfold wordKind
  split
  · rename_i word found
    have same := List.find?_some found
    exact spells_symbol (of_decide_eq_true same).symm
  · rename_i missing
    refine .identifier start parts fun symbol same => ?_
    have other := List.find?_eq_none.mp missing symbol (mem_words same start)
    exact other (decide_eq_true same)

theorem all_takeWhile (p : Char → Bool) (text : List Char) : ∀ c ∈ text.takeWhile p, p c = true :=
  fun _ => List.mem_takeWhile_imp

theorem spells_cutNumber (digit : first.isDigit = true)
    (lexeme : (cutNumber first rest).1 = .lexeme kind text) : Spells kind text := by
  have digits : ∀ d ∈ first :: rest.takeWhile Char.isDigit, d.isDigit = true :=
    List.forall_mem_cons.mpr ⟨digit, all_takeWhile _ _⟩
  have whole : Spells (numberKind (first :: rest.takeWhile Char.isDigit) [])
      (first :: rest.takeWhile Char.isDigit) := by
    have spells := Spells.whole (List.cons_ne_nil _ _) digits
    simpa [numberKind] using spells
  unfold cutNumber at lexeme
  split at lexeme
  · rename_i next after point
    split at lexeme
    · rename_i nextDigit
      cases lexeme
      exact .decimal (List.cons_ne_nil _ _) digits (List.cons_ne_nil _ _)
        (List.forall_mem_cons.mpr ⟨nextDigit, all_takeWhile _ _⟩)
    · cases lexeme
      exact whole
  · cases lexeme
    exact whole

theorem spells_cutString (lexeme : (cutString rest).1 = .lexeme kind text) : Spells kind text := by
  have unquoted := not_mem_takeWhile_ne '"' rest
  unfold cutString at lexeme
  rcases dropWhile_ne_eq '"' rest with left | ⟨after, left⟩
  · rw [left] at lexeme
    cases lexeme
  · rw [left] at lexeme
    cases lexeme
    exact .string unquoted

theorem spells_cut (lexeme : (cut first rest).1 = .lexeme kind text) : Spells kind text := by
  unfold cut at lexeme
  split at lexeme
  · cases lexeme
  split at lexeme
  · rename_i mark found
    cases lexeme
    exact spells_symbol (mark?_spelling found)
  split at lexeme
  · rename_i alone joined found
    obtain ⟨sameAlone, sameJoined⟩ := comparison?_spelling found
    split at lexeme
    · cases lexeme
      exact spells_symbol sameJoined
    · cases lexeme
      exact spells_symbol sameAlone
  split at lexeme
  · rename_i slash
    split at lexeme
    · cases lexeme
    · cases lexeme
      exact spells_symbol (by rw [slash]; rfl)
  split at lexeme
  · exact spells_cutString lexeme
  split at lexeme
  · rename_i digit
    exact spells_cutNumber digit lexeme
  split at lexeme
  · rename_i start
    cases lexeme
    exact spells_word start (all_takeWhile _ _)
  · cases lexeme

theorem spells_pieces (source : List Char) : ∀ kind text, .lexeme kind text ∈ pieces source → Spells kind text := by
  fun_induction pieces source with
  | case1 =>
      intro kind text mem
      cases mem
  | case2 first rest ih =>
      intro kind text mem
      rcases List.mem_cons.mp mem with here | later
      · exact spells_cut here.symm
      · exact ih kind text later

theorem faces_of_items {ps : List Piece} (spells : ∀ kind text, .lexeme kind text ∈ ps → Spells kind text)
    (line : Nat) : ∃ lexemes : List Lexeme, ((itemsFrom line ps).filterMap Item.token?).map Token.face =
      lexemes.map (fun l => (l.kind, .ofList l.text)) ++ [(.endOfInput, "")] := by
  induction ps generalizing line with
  | nil => exact ⟨[], rfl⟩
  | cons piece rest ih =>
      obtain ⟨lexemes, same⟩ :=
        ih (fun kind text mem => spells kind text (List.mem_cons_of_mem _ mem)) (line + piece.text.count '\n')
      rw [itemsFrom, List.filterMap_append, List.map_append, same]
      cases piece with
      | lexeme kind text => exact ⟨⟨kind, text, spells kind text List.mem_cons_self⟩ :: lexemes, rfl⟩
      | _ => exact ⟨lexemes, rfl⟩

theorem Layout.faces (layout : Layout) (before : List Char) :
    (layout.tokensFrom before).map Token.face =
      (layout.map Prod.fst).map (fun l => (l.kind, .ofList l.text)) ++ [(.endOfInput, "")] := by
  induction layout generalizing before with
  | nil => rfl
  | cons cell rest ih => rw [tokensFrom, List.map_cons, ih]; rfl

theorem spread_eq (gap : Nat → Gap) {tokens : List Token} {lexemes : List Lexeme}
    (same : tokens.map Token.face = lexemes.map fun lexeme => (lexeme.kind, .ofList lexeme.text)) :
    spread gap tokens = Layout.text (lexemes.zipIdx.map fun (lexeme, i) => (lexeme, gap i)) := by
  have texts : tokens.map (fun t => t.lexeme.toList) = lexemes.map Lexeme.text := by
    have snd := congrArg (List.map fun face : Kind × String => face.2.toList) same
    simpa [Token.face, Function.comp_def] using snd
  have numbered := congrArg (fun texts => texts.zipIdx.flatMap fun (text, i) => text ++ (gap i).text) texts
  simpa [List.zipIdx_map, List.flatMap_map, spread, Layout.text] using numbered

/-! ## Scanning -/

theorem scan_written (layout : Layout) : scan (.ofList layout.text) = (layout.tokens, []) := by
  have written : items (.ofList layout.text) = layout.tokens.map .token := by
    rw [items, String.toList_ofList]
    exact items_written layout []
  rw [scan, written]
  simp [List.filterMap_map, Function.comp_def, Item.token?, Item.error?]

theorem faces_of_scan (source : String) : ∃ lexemes : List Lexeme,
    (scan source).1.dropLast.map Token.face = lexemes.map (fun l => (l.kind, .ofList l.text)) ∧
      (scan source).1.map Token.face = lexemes.map (fun l => (l.kind, .ofList l.text)) ++ [(.endOfInput, "")] := by
  obtain ⟨lexemes, faces⟩ := faces_of_items (spells_pieces source.toList) 1
  refine ⟨lexemes, ?_, faces⟩
  have shorter := congrArg List.dropLast faces
  rwa [List.dropLast_concat, ← List.map_dropLast] at shorter

/--
Any layout of lexemes is scanned as its tokens, without an error. So the tokens of a source are read again,
in the same order, from a text in which they are written with other gaps.
-/
theorem scan_layout :
    (∀ layout : Layout, scan (.ofList layout.text) = (layout.tokens, [])) ∧
      ∀ (source : String) (gap : Nat → Gap),
        let again := scan (.ofList (spread gap (scan source).1.dropLast))
        again.1.map Token.face = (scan source).1.map Token.face ∧ again.2 = [] := by
  refine ⟨scan_written, fun source gap => ?_⟩
  obtain ⟨lexemes, body, faces⟩ := faces_of_scan source
  rw [spread_eq gap body, scan_written, faces]
  refine ⟨?_, rfl⟩
  have own : (lexemes.zipIdx.map fun (lexeme, i) => (lexeme, gap i)).map Prod.fst = lexemes := by
    rw [List.map_map]
    exact List.zipIdx_map_fst 0 lexemes
  rw [Layout.tokens, Layout.faces, own]

end Lox
