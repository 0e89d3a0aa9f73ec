import Lox.Token.Lexer

/-!
# Texts put together at a blank

A piece of a source does not change if a blank and any text are written behind the source, unless the
blank goes on with the piece: a comment ends at the end of its line only, and an open string not at all.
So the pieces of two texts with a blank between them are those of both texts (`pieces_seam`).
-/

namespace Lox

variable {b first : Char} {rest after : List Char}

/-- The blank ends the piece, if it is the last one before it. -/
def Piece.ClosedBy (b : Char) : Piece → Prop
  | comment _ => b = '\n'
  | unterminated _ => False
  | _ => True

theorem takeWhile_seam {p : Char → Bool} (stop : p b = false) (text after : List Char) :
    (text ++ b :: after).takeWhile p = text.takeWhile p := by
  induction text with
  | nil => simp [stop]
  | cons first rest ih => cases here : p first <;> simp [here, ih]

theorem dropWhile_seam {p : Char → Bool} (stop : p b = false) (text after : List Char) :
    (text ++ b :: after).dropWhile p = text.dropWhile p ++ b :: after := by
  induction text with
  | nil => simp [stop]
  | cons first rest ih => cases here : p first <;> simp [here, ih]

theorem blank_cases (blank : isSeparator b = true) : b = ' ' ∨ b = '\t' ∨ b = '\r' ∨ b = '\n' := by
  simpa [isSeparator, or_assoc] using blank

/-! ## One piece -/

theorem cutNumber_seam (blank : isSeparator b = true) :
    cutNumber first (rest ++ b :: after) =
      ((cutNumber first rest).1, (cutNumber first rest).2 ++ b :: after) := by
  have notDigit : b.isDigit = false := by rcases blank_cases blank with rfl | rfl | rfl | rfl <;> rfl
  have notPoint : b ≠ '.' := by rcases blank_cases blank with rfl | rfl | rfl | rfl <;> decide
  unfold cutNumber
  rw [takeWhile_seam notDigit, dropWhile_seam notDigit]
  cases rest.dropWhile Char.isDigit with
  | nil => simp [notPoint]
  | cons point others =>
      by_cases same : point = '.'
      · subst same
        cases others with
        | nil => simp [notDigit]
        | cons digit others =>
            cases here : digit.isDigit with
            | true => simp [here, takeWhile_seam notDigit, dropWhile_seam notDigit]
            | false => simp [here]
      · simp [same]

theorem cutString_append (closed : (cutString rest).1.ClosedBy b) (after : List Char) :
    cutString (rest ++ after) = ((cutString rest).1, (cutString rest).2 ++ after) := by
  have parts := congrArg List.length (List.takeWhile_append_dropWhile (p := (· ≠ '"')) (l := rest))
  unfold cutString at closed ⊢
  rw [List.takeWhile_append, List.dropWhile_append]
  cases left : rest.dropWhile (· ≠ '"') with
  | nil =>
      rw [left] at closed
      exact closed.elim
  | cons quote others =>
      rw [List.length_append, left, List.length_cons] at parts
      have shorter : (rest.takeWhile (· ≠ '"')).length ≠ rest.length := by omega
      rw [if_neg shorter]
      simp

theorem cut_seam (blank : isSeparator b = true) (closed : (cut first rest).1.ClosedBy b) :
    cut first (rest ++ b :: after) = ((cut first rest).1, (cut first rest).2 ++ b :: after) := by
  -- a blank goes on with no comparison, comment or word
  have notEqual : b ≠ '=' := by rcases blank_cases blank with rfl | rfl | rfl | rfl <;> decide
  have notSlash : b ≠ '/' := by rcases blank_cases blank with rfl | rfl | rfl | rfl <;> decide
  have notWord : isWordPart b = false := by rcases blank_cases blank with rfl | rfl | rfl | rfl <;> rfl
  unfold cut at closed ⊢
  by_cases separator : isSeparator first = true
  · simp [separator]
  cases mark : mark? first with
  | some symbol => simp [separator]
  | none =>
  cases comparison : comparison? first with
  | some pair =>
      cases rest with
      | nil => simp [separator, notEqual]
      | cons second others =>
          by_cases same : second = '='
          · simp [separator, same]
          · simp [separator, same]
  | none =>
  by_cases slash : first = '/'
  · subst slash
    cases rest with
    | nil => simp [isSeparator, notSlash]
    | cons second others =>
        by_cases same : second = '/'
        · subst same
          -- only a line break closes a comment
          have ends : b = '\n' := closed
          have stop : decide (b ≠ '\n') = false := by simp [ends]
          have text := takeWhile_seam (p := (· ≠ '\n')) stop ('/' :: others) after
          have left := dropWhile_seam (p := (· ≠ '\n')) stop ('/' :: others) after
          rw [List.cons_append] at text left ⊢
          simp only [isSeparator]
          rw [text, left]
          rfl
        · simp [isSeparator, same]
  by_cases quote : first = '"'
  · subst quote
    exact cutString_append closed (b :: after)
  by_cases digit : first.isDigit = true
  · simp [separator, slash, quote, digit, cutNumber_seam blank]
  by_cases word : isWordStart first = true
  · simp [separator, slash, quote, digit, word, takeWhile_seam notWord, dropWhile_seam notWord]
  · simp [separator, slash, quote, digit, word]

/-! ## All pieces -/

theorem pieces_seam (blank : isSeparator b = true) (text after : List Char)
    (closed : ∀ piece ∈ pieces text, piece.ClosedBy b) :
    pieces (text ++ b :: after) = pieces text ++ pieces (b :: after) := by
  fun_induction pieces text with
  | case1 => rfl
  | case2 first rest ih =>
      rw [List.forall_mem_cons] at closed
      rw [List.cons_append, pieces, cut_seam blank closed.1, ih closed.2]
      rfl

theorem pieces_blank (blank : isSeparator b = true) (after : List Char) :
    pieces (b :: after) = .blank b :: pieces after := by
  rw [pieces, show cut b after = (.blank b, after) from if_pos blank]

/-! ## Items -/

theorem itemsFrom_append (ps : List Piece) (line : Nat) :
    ∃ own last, itemsFrom line ps = own ++ [.token ⟨.endOfInput, "", last⟩] ∧
      ∀ qs, itemsFrom line (ps ++ qs) = own ++ itemsFrom last qs := by
  induction ps generalizing line with
  | nil => exact ⟨[], line, rfl, fun _ => rfl⟩
  | cons piece rest ih =>
      obtain ⟨own, last, ends, goesOn⟩ := ih (line + piece.text.count '\n')
      refine ⟨(piece.item? (line + piece.text.count '\n')).toList ++ own, last, ?_, fun qs => ?_⟩
      · rw [itemsFrom, ends, List.append_assoc]
      · rw [List.cons_append, itemsFrom, goesOn, List.append_assoc]

theorem closed_of_items {ps : List Piece} (line : Nat) (clean : (itemsFrom line ps).filterMap Item.error? = []) :
    ∀ piece ∈ ps, piece.ClosedBy '\n' := by
  induction ps generalizing line with
  | nil => exact nofun
  | cons piece rest ih =>
      rw [itemsFrom, List.filterMap_append, List.append_eq_nil_iff] at clean
      rw [List.forall_mem_cons]
      refine ⟨?_, ih _ clean.2⟩
      cases piece with
      | unterminated text => cases clean.1
      | comment text => rfl
      | _ => trivial

end Lox
