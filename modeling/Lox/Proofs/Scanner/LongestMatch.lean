import Mathlib
import Lox.Proofs.Scanner.Layout

/-!
# Longest match

A scanner looks one or two characters ahead and never at a grammar. Here the lexical grammar decides
instead: at each place the longest text of the grammar is the next token, and where no text of the grammar
begins there is an error (`Munch`, for one segment). Both find the same segments (`munch_iff`), so both
find the same items in every source (`longest_match`).
-/

namespace Lox

/-! ## The lexical grammar -/

/-- The texts of the tokens, whatever their kinds. -/
inductive TokenText : List Char → Prop where
  | operator {mark : Symbol} (isMark : mark ∈ Symbol.marks) : TokenText mark.spelling.toList
  | word {first : Char} {rest : List Char} (start : isWordStart first = true)
      (parts : ∀ c ∈ rest, isWordPart c = true) : TokenText (first :: rest)
  | whole {digits : List Char} (nonempty : digits ≠ []) (all : ∀ d ∈ digits, d.isDigit = true) :
      TokenText digits
  | decimal {digits fraction : List Char} (nonempty : digits ≠ []) (all : ∀ d ∈ digits, d.isDigit = true)
      (more : fraction ≠ []) (allMore : ∀ d ∈ fraction, d.isDigit = true) :
      TokenText (digits ++ '.' :: fraction)
  | string {body : List Char} (unquoted : '"' ∉ body) : TokenText ('"' :: (body ++ ['"']))

/-- The text begins what is left of the source, and no longer text of the grammar does. -/
structure Longest (text remaining : List Char) : Prop where
  lexical : TokenText text
  leads : text <+: remaining
  longest : ∀ other, TokenText other → other <+: remaining → other.length ≤ text.length

/-- No text of the grammar begins here. -/
def Foreign (remaining : List Char) : Prop := ∀ text, TokenText text → ¬ text <+: remaining

/-- Neither a blank nor a comment begins here. -/
def Inked (remaining : List Char) : Prop :=
  (∀ c ∈ remaining.head?, c ∉ [' ', '\t', '\r', '\n']) ∧ ¬ ['/', '/'] <+: remaining

/-- The piece that the grammar cuts off, and what it leaves behind. -/
inductive Munch : List Char → Piece → List Char → Prop where
  | blank {c : Char} {rest : List Char} (separates : c ∈ [' ', '\t', '\r', '\n']) :
      Munch (c :: rest) (.blank c) rest
  | comment {body rest : List Char} (short : '\n' ∉ body) (ends : rest = [] ∨ ∃ after, rest = '\n' :: after) :
      Munch ('/' :: '/' :: (body ++ rest)) (.comment ('/' :: '/' :: body)) rest
  | lexeme {kind : Kind} {text rest : List Char} (inked : Inked (text ++ rest))
      (longest : Longest text (text ++ rest)) (spells : Spells kind text) :
      Munch (text ++ rest) (.lexeme kind text) rest
  | unterminated {body : List Char} (foreign : Foreign ('"' :: body)) :
      Munch ('"' :: body) (.unterminated ('"' :: body)) []
  | unexpected {c : Char} {rest : List Char} (inked : Inked (c :: rest)) (foreign : Foreign (c :: rest))
      (other : c ≠ '"') : Munch (c :: rest) (.unexpected c) rest

/-- The items of a text that begins on the given line, segment by segment. -/
inductive Munched : Nat → List Char → List Item → Prop where
  | ended {line : Nat} : Munched line [] [.token ⟨.endOfInput, "", line⟩]
  | munch {line : Nat} {remaining rest : List Char} {piece : Piece} {its : List Item}
      (first : Munch remaining piece rest) (later : Munched (line + piece.text.count '\n') rest its) :
      Munched line remaining ((piece.item? (line + piece.text.count '\n')).toList ++ its)

/-! ## Kinds -/

variable {first c : Char} {rest text other after : List Char} {kind : Kind} {piece : Piece}

theorem mem_marks_or_words (symbol : Symbol) : symbol ∈ Symbol.marks ∨ symbol ∈ Symbol.words := by
  cases symbol <;> decide

theorem tokenText_of_spells (spells : Spells kind text) : TokenText text := by
  cases spells with
  | symbol symbol =>
      rcases mem_marks_or_words symbol with mark | word
      · exact .operator mark
      · have letters : symbol.spelling.toList.all isWordStart = true := by
          revert word symbol
          decide
        obtain ⟨first, rest, spelling, -⟩ := cut_symbol symbol
        rw [spelling] at letters ⊢
        rw [List.all_cons, Bool.and_eq_true, List.all_eq_true] at letters
        exact .word letters.1 fun c mem => wordPart_of_wordStart (letters.2 c mem)
  | identifier start parts => exact .word start parts
  | whole nonempty all => exact .whole nonempty all
  | decimal nonempty all more allMore => exact .decimal nonempty all more allMore
  | string unquoted => exact .string unquoted

theorem spells_unique {kind' : Kind} (spells : Spells kind text) (again : Spells kind' text) : kind = kind' := by
  obtain ⟨first, rest, rfl, cuts⟩ := cut_lexeme spells
  obtain ⟨_, _, same, cuts'⟩ := cut_lexeme again
  cases same
  rw [cuts] at cuts'
  cases cuts'
  rfl

theorem spells_keyword_iff (spells : Spells kind text) :
    (∃ word ∈ Symbol.words, kind = .symbol word) ↔ .ofList text ∈ Symbol.words.map Symbol.spelling := by
  rw [List.mem_map]
  refine exists_congr fun word => and_congr_right fun _ => ⟨?_, fun same => ?_⟩
  · rintro rfl
    cases spells
    exact String.ofList_toList.symm
  · exact spells_unique spells (spells_symbol same.symm)

theorem spells_string_iff (spells : Spells kind text) (contents : String) :
    kind = .string contents ↔ text = '"' :: (contents.toList ++ ['"']) ∧ '"' ∉ contents.toList := by
  constructor
  · rintro rfl
    cases spells with
    | string unquoted =>
        rw [String.toList_ofList]
        exact ⟨rfl, unquoted⟩
  · rintro ⟨rfl, unquoted⟩
    rw [spells_unique spells (.string unquoted), String.ofList_toList]

/-! ## Cutting reaches as far as the grammar -/

theorem length_le_takeWhile {p : Char → Bool} (all : ∀ c ∈ text, p c = true) (leads : text <+: rest) :
    text.length ≤ (rest.takeWhile p).length := by
  obtain ⟨after, rfl⟩ := leads
  rw [List.takeWhile_append_of_pos all, List.length_append]
  omega

def Piece.Covers (text : List Char) (piece : Piece) : Prop :=
  ∃ kind lexeme, piece = .lexeme kind lexeme ∧ text.length ≤ lexeme.length

theorem Piece.covers_of_le {lexeme : List Char} (le : text.length ≤ lexeme.length) :
    (Piece.lexeme kind lexeme).Covers text :=
  ⟨kind, lexeme, rfl, le⟩

theorem plain_of_comparison {marks : Symbol × Symbol} (found : comparison? c = some marks) :
    isSeparator c = false ∧ mark? c = none := by
  constructor
  · rw [Bool.eq_false_iff]
    intro blank
    rcases blank_cases blank with rfl | rfl | rfl | rfl <;> cases found
  · revert found
    unfold comparison?
    split <;> first | exact fun _ => rfl | nofun

theorem cut_covers_mark {mark : Symbol} (found : mark? first = some mark) : (cut first rest).1.Covers [first] := by
  have separator : isSeparator first = false := by
    rw [Bool.eq_false_iff]
    intro blank
    rcases blank_cases blank with rfl | rfl | rfl | rfl <;> cases found
  simp only [cut, separator, found]
  exact Piece.covers_of_le (Nat.le_refl _)

theorem cut_covers_comparison {marks : Symbol × Symbol} (found : comparison? first = some marks) :
    (cut first rest).1.Covers [first] ∧ (cut first ('=' :: rest)).1.Covers [first, '='] := by
  obtain ⟨separator, mark⟩ := plain_of_comparison found
  obtain ⟨alone, joined⟩ := marks
  constructor
  · simp only [cut, separator, mark, found, Bool.false_eq_true, if_false]
    split
    · exact Piece.covers_of_le (Nat.le_succ _)
    · exact Piece.covers_of_le (Nat.le_refl _)
  · simp only [cut, separator, mark, found]
    exact Piece.covers_of_le (Nat.le_refl _)

theorem cut_covers_slash (noComment : ¬ ['/'] <+: rest) : (cut '/' rest).1.Covers ['/'] := by
  cases rest with
  | nil => exact Piece.covers_of_le (Nat.le_refl _)
  | cons next others =>
      have other : next ≠ '/' := by
        rintro rfl
        exact noComment ⟨others, rfl⟩
      have found : cut '/' (next :: others) = (.lexeme (.symbol .slash) ['/'], next :: others) := by
        have separator : isSeparator '/' = false := rfl
        have mark : mark? '/' = none := rfl
        have comparison : comparison? '/' = none := rfl
        simp only [cut, separator, mark, comparison, Bool.false_eq_true, if_false, if_true]
        split
        · rename_i same
          exact absurd (List.cons.inj same).1 other
        · rfl
      rw [found]
      exact Piece.covers_of_le (Nat.le_refl _)

/-- A mark is made of one character, of one that an equals sign may go on with, or of both. -/
theorem mark_cases {mark : Symbol} (isMark : mark ∈ Symbol.marks) :
    (∃ c, mark.spelling.toList = [c] ∧ (mark? c = some mark ∨ c = '/')) ∨
    ∃ c marks, comparison? c = some marks ∧
      (mark.spelling.toList = [c] ∨ mark.spelling.toList = [c, '=']) := by
  cases mark <;> first
    | exact absurd isMark (by decide)
    | exact .inl ⟨_, rfl, .inl rfl⟩
    | exact .inl ⟨_, rfl, .inr rfl⟩
    | exact .inr ⟨_, _, rfl, .inl rfl⟩
    | exact .inr ⟨_, _, rfl, .inr rfl⟩

theorem cut_covers_operator {mark : Symbol} (isMark : mark ∈ Symbol.marks)
    (leads : mark.spelling.toList <+: first :: rest) (noComment : ¬ ['/', '/'] <+: first :: rest) :
    (cut first rest).1.Covers mark.spelling.toList := by
  rcases mark_cases isMark with ⟨c, spelling, single⟩ | ⟨c, marks, found, spelling⟩
  · rw [spelling, List.cons_prefix_cons] at leads
    rw [spelling]
    obtain ⟨rfl, -⟩ := leads
    rcases single with found | rfl
    · exact cut_covers_mark found
    · exact cut_covers_slash fun again => noComment (List.cons_prefix_cons.mpr ⟨rfl, again⟩)
  · rcases spelling with spelling | spelling
    · rw [spelling, List.cons_prefix_cons] at leads
      rw [spelling]
      obtain ⟨rfl, -⟩ := leads
      exact (cut_covers_comparison found).1
    · rw [spelling, List.cons_prefix_cons] at leads
      rw [spelling]
      obtain ⟨rfl, after, rfl⟩ := leads
      exact (cut_covers_comparison found).2

theorem cut_covers_word {parts : List Char} (start : isWordStart first = true)
    (all : ∀ c ∈ parts, isWordPart c = true) (leads : parts <+: rest) :
    (cut first rest).1.Covers (first :: parts) := by
  rw [cut_word start]
  exact Piece.covers_of_le (Nat.succ_le_succ (length_le_takeWhile all leads))

theorem cut_covers_whole {digits : List Char} (digit : first.isDigit = true)
    (all : ∀ d ∈ digits, d.isDigit = true) (leads : digits <+: rest) :
    (cut first rest).1.Covers (first :: digits) := by
  have reaches := Nat.succ_le_succ (length_le_takeWhile all leads)
  rw [cut_digit digit, cutNumber]
  split
  · split
    · refine Piece.covers_of_le ?_
      rw [List.length_append]
      exact Nat.le_add_right_of_le reaches
    · exact Piece.covers_of_le reaches
  · exact Piece.covers_of_le reaches

theorem cut_covers_decimal {digits fraction : List Char} (digit : first.isDigit = true)
    (all : ∀ d ∈ digits, d.isDigit = true) (more : fraction ≠ []) (allMore : ∀ d ∈ fraction, d.isDigit = true)
    (leads : digits ++ '.' :: fraction <+: rest) :
    (cut first rest).1.Covers (first :: (digits ++ '.' :: fraction)) := by
  obtain ⟨next, fraction, rfl⟩ := List.exists_cons_of_ne_nil more
  obtain ⟨after, rfl⟩ := leads
  rw [List.forall_mem_cons] at allMore
  have notPoint : Char.isDigit '.' = false := rfl
  have reaches := length_le_takeWhile allMore.2 (List.prefix_append fraction after)
  rw [cut_digit digit, cutNumber, List.append_assoc, List.cons_append, takeWhile_seam notPoint,
    dropWhile_seam notPoint, List.takeWhile_eq_self_iff.mpr all, List.dropWhile_eq_nil_iff.mpr all]
  simp only [List.nil_append, List.cons_append, allMore.1, if_true]
  refine Piece.covers_of_le ?_
  simp only [List.length_cons, List.length_append]
  omega

theorem cut_covers_string {body : List Char} (unquoted : '"' ∉ body) (leads : body ++ ['"'] <+: rest) :
    (cut '"' rest).1.Covers ('"' :: (body ++ ['"'])) := by
  obtain ⟨after, rfl⟩ := leads
  have inside : ∀ c ∈ body, decide (c ≠ '"') = true := fun c mem =>
    decide_eq_true (ne_of_mem_of_not_mem mem unquoted)
  have stop : decide ('"' ≠ '"') = false := rfl
  rw [List.append_assoc, List.singleton_append]
  change (cutString (body ++ '"' :: after)).1.Covers _
  rw [cutString, takeWhile_seam (p := (· ≠ '"')) stop, dropWhile_seam (p := (· ≠ '"')) stop,
    List.takeWhile_eq_self_iff.mpr inside, List.dropWhile_eq_nil_iff.mpr inside]
  exact Piece.covers_of_le (Nat.le_refl _)

theorem cut_covers (lexical : TokenText text) (leads : text <+: first :: rest)
    (noComment : ¬ ['/', '/'] <+: first :: rest) : (cut first rest).1.Covers text := by
  cases lexical with
  | operator isMark => exact cut_covers_operator isMark leads noComment
  | word start parts =>
      rw [List.cons_prefix_cons] at leads
      obtain ⟨rfl, leads⟩ := leads
      exact cut_covers_word start parts leads
  | whole nonempty all =>
      obtain ⟨digit, digits, rfl⟩ := List.exists_cons_of_ne_nil nonempty
      rw [List.cons_prefix_cons] at leads
      rw [List.forall_mem_cons] at all
      obtain ⟨rfl, leads⟩ := leads
      exact cut_covers_whole all.1 all.2 leads
  | decimal nonempty all more allMore =>
      obtain ⟨digit, digits, rfl⟩ := List.exists_cons_of_ne_nil nonempty
      rw [List.cons_append, List.cons_prefix_cons] at leads
      rw [List.forall_mem_cons] at all
      obtain ⟨rfl, leads⟩ := leads
      exact cut_covers_decimal all.1 all.2 more allMore leads
  | string unquoted =>
      rw [List.cons_prefix_cons] at leads
      obtain ⟨rfl, leads⟩ := leads
      exact cut_covers_string unquoted leads

/-! ## One segment -/

theorem cut_separator (blank : isSeparator first = true) : cut first rest = (.blank first, rest) := by
  simp [cut, blank]

def Piece.Solid : Piece → Prop
  | blank _ | comment _ => False
  | _ => True

theorem inked_of_cut (cuts : cut first rest = (piece, after)) (solid : piece.Solid) : Inked (first :: rest) := by
  constructor
  · rintro c ⟨⟩ separates
    rw [cut_separator (isSeparator_of_mem separates)] at cuts
    cases cuts
    exact solid
  · rintro ⟨others, same⟩
    cases same
    cases cuts
    exact solid

theorem lexeme_of_tokenText (lexical : TokenText text) (leads : text <+: first :: rest)
    (noComment : ¬ ['/', '/'] <+: first :: rest) :
    ∃ kind lexeme, (cut first rest).1 = .lexeme kind lexeme :=
  have ⟨kind, lexeme, cuts, _⟩ := cut_covers lexical leads noComment
  ⟨kind, lexeme, cuts⟩

theorem longest_cut (noComment : ¬ ['/', '/'] <+: first :: rest)
    (cuts : cut first rest = (.lexeme kind text, after)) :
    text ++ after = first :: rest ∧ Spells kind text ∧ Longest text (first :: rest) := by
  have whole := text_cut first rest
  have spells : Spells kind text := spells_cut (congrArg Prod.fst cuts)
  rw [cuts] at whole
  refine ⟨whole, spells, tokenText_of_spells spells, ⟨after, whole⟩, fun other lexical leads => ?_⟩
  obtain ⟨kind', lexeme, again, covers⟩ := cut_covers lexical leads noComment
  rw [cuts] at again
  cases again
  exact covers

theorem munch_cut (first : Char) (rest : List Char) :
    Munch (first :: rest) (cut first rest).1 (cut first rest).2 := by
  have whole := text_cut first rest
  have shaped := shaped_cut first rest
  rcases cuts : cut first rest with ⟨piece, after⟩
  rw [cuts] at whole shaped
  cases piece with
  | blank c =>
      cases whole
      exact .blank shaped
  | comment text =>
      obtain ⟨body, rfl, short, ends⟩ := shaped
      rw [← whole]
      exact .comment short ends
  | lexeme kind text =>
      have inked : Inked (first :: rest) := inked_of_cut cuts trivial
      obtain ⟨whole, spells, longest⟩ := longest_cut inked.2 cuts
      rw [← whole] at inked longest ⊢
      exact .lexeme inked longest spells
  | unexpected c =>
      have same : c :: after = first :: rest := whole
      obtain ⟨rfl, rfl⟩ := List.cons.inj same
      have inked : Inked (c :: after) := inked_of_cut cuts trivial
      refine .unexpected inked (fun text lexical leads => ?_) ?_
      · obtain ⟨kind, lexeme, again⟩ := lexeme_of_tokenText lexical leads inked.2
        rw [cuts] at again
        cases again
      · rintro rfl
        change cutString after = _ at cuts
        unfold cutString at cuts
        split at cuts <;> cases cuts
  | unterminated text =>
      obtain ⟨rfl, body, rfl, unquoted⟩ := shaped
      have inked : Inked (first :: rest) := inked_of_cut cuts trivial
      rw [Piece.text, List.append_nil] at whole
      obtain ⟨rfl, rfl⟩ := List.cons.inj whole
      refine .unterminated fun text lexical leads => ?_
      obtain ⟨kind, lexeme, again⟩ := lexeme_of_tokenText lexical leads inked.2
      rw [cuts] at again
      cases again

theorem cut_open {body : List Char} (unclosed : '"' ∉ body) : cut '"' body = (.unterminated ('"' :: body), []) := by
  have inside : ∀ c ∈ body, decide (c ≠ '"') = true := fun c mem =>
    decide_eq_true (ne_of_mem_of_not_mem mem unclosed)
  change cutString body = _
  rw [cutString, List.takeWhile_eq_self_iff.mpr inside, List.dropWhile_eq_nil_iff.mpr inside]

theorem foreign_quote_iff (body : List Char) : Foreign ('"' :: body) ↔ '"' ∉ body := by
  constructor
  · intro foreign
    have parts := List.takeWhile_append_dropWhile (p := (· ≠ '"')) (l := body)
    have unquoted := not_mem_takeWhile_ne '"' body
    rcases dropWhile_ne_eq '"' body with closed | ⟨after, closed⟩
    · rw [closed, List.append_nil] at parts
      rwa [parts] at unquoted
    · refine absurd ?_ (foreign _ (.string unquoted))
      rw [closed] at parts
      rw [List.cons_prefix_cons]
      exact ⟨rfl, after, by rw [List.append_assoc, List.singleton_append, parts]⟩
  · intro unclosed text lexical leads
    obtain ⟨kind, lexeme, cuts⟩ := lexeme_of_tokenText lexical leads (by simp)
    rw [cut_open unclosed] at cuts
    cases cuts

theorem cut_comment_end {body : List Char} (short : '\n' ∉ body) :
    cut '/' ('/' :: body) = (.comment ('/' :: '/' :: body), []) := by
  have inside : ∀ c ∈ '/' :: body, decide (c ≠ '\n') = true := fun c mem =>
    decide_eq_true (ne_of_mem_of_not_mem mem (List.not_mem_cons_of_ne_of_not_mem (by decide) short))
  change (Piece.comment ('/' :: ('/' :: body).takeWhile _), ('/' :: body).dropWhile _) = _
  rw [List.takeWhile_eq_self_iff.mpr inside, List.dropWhile_eq_nil_iff.mpr inside]

theorem Longest.unique {remaining : List Char} (longest : Longest text remaining)
    (again : Longest other remaining) : text = other := by
  have same := Nat.le_antisymm (again.longest _ longest.lexical longest.leads)
    (longest.longest _ again.lexical again.leads)
  exact (List.prefix_of_prefix_length_le longest.leads again.leads same.le).eq_of_length same

theorem cut_of_munch {remaining : List Char} (munch : Munch remaining piece after) :
    ∃ first rest, remaining = first :: rest ∧ cut first rest = (piece, after) := by
  cases munch with
  | blank separates => exact ⟨_, _, rfl, cut_separator (isSeparator_of_mem separates)⟩
  | comment short ends =>
      refine ⟨_, _, rfl, ?_⟩
      rcases ends with rfl | ⟨after, rfl⟩
      · rw [List.append_nil]
        exact cut_comment_end short
      · exact cut_comment short after
  | lexeme inked longest spells =>
      obtain ⟨first, more, rfl, -⟩ := cut_lexeme spells
      refine ⟨first, more ++ after, rfl, ?_⟩
      -- what is cut is a longest text as well, and there is only one
      obtain ⟨kind', lexeme, found, -⟩ := cut_covers longest.lexical longest.leads inked.2
      have cuts : cut first (more ++ after) = (.lexeme kind' lexeme, (cut first (more ++ after)).2) :=
        Prod.ext found rfl
      obtain ⟨whole, spells', longest'⟩ := longest_cut inked.2 cuts
      have same := longest'.unique longest
      subst same
      rw [cuts, spells_unique spells' spells, List.append_cancel_left whole]
  | unterminated foreign => exact ⟨_, _, rfl, cut_open ((foreign_quote_iff _).mp foreign)⟩
  | @unexpected c _ inked foreign other =>
      refine ⟨c, after, rfl, ?_⟩
      have munch := munch_cut c after
      rcases cuts : cut c after with ⟨piece, rest⟩
      rw [cuts] at munch
      generalize remains : c :: after = remaining at munch
      cases munch with
      | blank separates =>
          obtain ⟨rfl, rfl⟩ := List.cons.inj remains
          exact absurd separates (inked.1 c rfl)
      | comment _ _ => exact absurd ⟨_, remains.symm⟩ inked.2
      | lexeme _ longest _ =>
          rw [remains] at foreign
          exact absurd longest.leads (foreign _ longest.lexical)
      | unterminated _ => exact absurd (List.cons.inj remains).1 other
      | unexpected _ _ _ =>
          obtain ⟨rfl, rfl⟩ := List.cons.inj remains
          rfl

theorem munch_iff (remaining : List Char) (piece : Piece) (after : List Char) :
    Munch remaining piece after ↔ ∃ first rest, remaining = first :: rest ∧ cut first rest = (piece, after) := by
  refine ⟨cut_of_munch, ?_⟩
  rintro ⟨first, rest, rfl, cuts⟩
  have munch := munch_cut first rest
  rwa [cuts] at munch

/-! ## All segments -/

theorem munched_itemsFrom (line : Nat) (text : List Char) : Munched line text (itemsFrom line (pieces text)) := by
  fun_induction pieces text generalizing line with
  | case1 => exact .ended
  | case2 first rest ih => exact .munch ((munch_iff _ _ _).mpr ⟨first, rest, rfl, rfl⟩) (ih _)

theorem itemsFrom_of_munched {line : Nat} {text : List Char} {its : List Item} (munched : Munched line text its) :
    its = itemsFrom line (pieces text) := by
  induction munched with
  | ended => rw [pieces]; rfl
  | munch first _ ih =>
      obtain ⟨c, rest, rfl, cuts⟩ := (munch_iff _ _ _).mp first
      rw [pieces, cuts, ih]
      rfl

/-- What the kind of a token says about how it is written. -/
def Token.Typed (t : Token) : Prop :=
  ((∃ word ∈ Symbol.words, t.kind = .symbol word) ↔ t.lexeme ∈ Symbol.words.map Symbol.spelling) ∧
  ∀ contents, t.kind = .string contents ↔
    t.lexeme.toList = '"' :: (contents.toList ++ ['"']) ∧ '"' ∉ contents.toList

theorem typed_of_face {t : Token} {lexeme : Lexeme} (same : (lexeme.kind, .ofList lexeme.text) = t.face) :
    t.Typed := by
  obtain ⟨kind, written, line⟩ := t
  obtain ⟨rfl, rfl⟩ := Prod.mk.inj same
  refine ⟨spells_keyword_iff lexeme.spells, fun contents => ?_⟩
  rw [String.toList_ofList]
  exact spells_string_iff lexeme.spells contents

theorem typed_of_end {t : Token} (same : t.face = (.endOfInput, "")) : t.Typed := by
  obtain ⟨kind, written, line⟩ := t
  obtain ⟨rfl, rfl⟩ := Prod.mk.inj same
  have noWord : "" ∉ Symbol.words.map Symbol.spelling := by decide
  refine ⟨iff_of_false ?_ noWord, fun contents => iff_of_false nofun ?_⟩
  · rintro ⟨_, _, ⟨⟩⟩
  · rintro ⟨⟨⟩, _⟩

theorem typed_of_mem_scan {source : String} {t : Token} (mem : t ∈ (scan source).1) : t.Typed := by
  obtain ⟨lexemes, -, faces⟩ := faces_of_scan source
  have face := List.mem_map_of_mem (f := Token.face) mem
  rw [faces, List.mem_append, List.mem_map, List.mem_singleton] at face
  rcases face with ⟨lexeme, -, same⟩ | same
  · exact typed_of_face same
  · exact typed_of_end same

/--
The items of a source are those that the grammar gives it: at each segment the longest text of the grammar,
and an error only where no text of the grammar begins. The tokens have the kinds of their texts, and an open
string is a quote without a second one.
-/
theorem longest_match (source : String) :
    (∀ its, Munched 1 source.toList its ↔ its = items source) ∧
      (∀ t ∈ (scan source).1, t.Typed) ∧ ∀ rest, Foreign ('"' :: rest) ↔ '"' ∉ rest := by
  refine ⟨fun its => ⟨itemsFrom_of_munched, ?_⟩, fun t => typed_of_mem_scan, foreign_quote_iff⟩
  rintro rfl
  exact munched_itemsFrom 1 source.toList

end Lox
