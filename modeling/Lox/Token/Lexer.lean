import Lox.Token
import Lox.Number.Nearest

/-!
# From source text to tokens

A source is cut into pieces from left to right: blanks, comments, lexemes, and two kinds of faults.
The pieces are adjacent and nothing is left out, so their texts make up the source again
(`flatMap_text_pieces`). Each lexeme and each fault becomes an item with the line of its last
character, and one token for the end of the input closes the list.

Contents: `Piece`, `cut`, `pieces`; `LexicalError`, `Item`, `items`; `scan`, which splits the items.
-/

namespace Lox

/-! ## Pieces of source -/

inductive Piece where
  | blank (c : Char)
  | comment (text : List Char)
  | lexeme (kind : Kind) (text : List Char)
  | unexpected (c : Char)
  | unterminated (text : List Char)

namespace Piece

def text : Piece → List Char
  | blank c | unexpected c => [c]
  | comment text | lexeme _ text | unterminated text => text

end Piece

def isSeparator (c : Char) : Bool := c = ' ' || c = '\t' || c = '\r' || c = '\n'

def isWordStart (c : Char) : Bool := c.isAlpha || c = '_'

def isWordPart (c : Char) : Bool := c.isAlphanum || c = '_'

def mark? : Char → Option Symbol
  | '(' => some .leftParen
  | ')' => some .rightParen
  | '{' => some .leftBrace
  | '}' => some .rightBrace
  | ',' => some .comma
  | '.' => some .dot
  | '-' => some .minus
  | '+' => some .plus
  | ';' => some .semicolon
  | '*' => some .star
  | _ => none

/-- The mark that the character makes alone, and the one that it makes with an equals sign. -/
def comparison? : Char → Option (Symbol × Symbol)
  | '!' => some (.bang, .bangEqual)
  | '=' => some (.equal, .equalEqual)
  | '<' => some (.less, .lessEqual)
  | '>' => some (.greater, .greaterEqual)
  | _ => none

def wordKind (text : List Char) : Kind :=
  match Symbol.ofWord? (.ofList text) with
  | some word => .symbol word
  | none => .identifier

def numberKind (whole fraction : List Char) : Kind :=
  .number (Number.ofDecimal (Nat.ofDigitChars 10 (whole ++ fraction) 0) (-(fraction.length : Int)))

/-- Reads a number after its first digit. A point counts only between digits. -/
def cutNumber (first : Char) (rest : List Char) : Piece × List Char :=
  let whole := first :: rest.takeWhile Char.isDigit
  match rest.dropWhile Char.isDigit with
  | '.' :: digit :: after =>
    if digit.isDigit then
      let fraction := digit :: after.takeWhile Char.isDigit
      (.lexeme (numberKind whole fraction) (whole ++ '.' :: fraction), after.dropWhile Char.isDigit)
    else (.lexeme (numberKind whole []) whole, '.' :: digit :: after)
  | after => (.lexeme (numberKind whole []) whole, after)

def cutString (rest : List Char) : Piece × List Char :=
  let body := rest.takeWhile (· ≠ '"')
  match rest.dropWhile (· ≠ '"') with
  | [] => (.unterminated ('"' :: body), [])
  | quote :: after => (.lexeme (.string (.ofList body)) ('"' :: body ++ [quote]), after)

def cut (first : Char) (rest : List Char) : Piece × List Char :=
  if isSeparator first then (.blank first, rest)
  else if let some mark := mark? first then (.lexeme (.symbol mark) [first], rest)
  else if let some (alone, joined) := comparison? first then
    match rest with
    | '=' :: after => (.lexeme (.symbol joined) [first, '='], after)
    | _ => (.lexeme (.symbol alone) [first], rest)
  else if first = '/' then
    match rest with
    | '/' :: _ => (.comment (first :: rest.takeWhile (· ≠ '\n')), rest.dropWhile (· ≠ '\n'))
    | _ => (.lexeme (.symbol .slash) [first], rest)
  else if first = '"' then cutString rest
  else if first.isDigit then cutNumber first rest
  else if isWordStart first then
    let text := first :: rest.takeWhile isWordPart
    (.lexeme (wordKind text) text, rest.dropWhile isWordPart)
  else (.unexpected first, rest)

theorem text_cutNumber (first : Char) (rest : List Char) :
    (cutNumber first rest).1.text ++ (cutNumber first rest).2 = first :: rest := by
  have parts := List.takeWhile_append_dropWhile (p := Char.isDigit) (l := rest)
  unfold cutNumber
  split
  · rename_i digit after point
    have more := List.takeWhile_append_dropWhile (p := Char.isDigit) (l := after)
    rw [point] at parts
    split <;> simp [Piece.text, more, parts]
  · simp [Piece.text, parts]

theorem text_cutString (rest : List Char) :
    (cutString rest).1.text ++ (cutString rest).2 = '"' :: rest := by
  have parts := List.takeWhile_append_dropWhile (p := (· ≠ '"')) (l := rest)
  unfold cutString
  split
  · rename_i none
    rw [none] at parts
    simpa [Piece.text] using parts
  · rename_i quote after closing
    rw [closing] at parts
    simpa [Piece.text] using parts

theorem text_cut (first : Char) (rest : List Char) :
    (cut first rest).1.text ++ (cut first rest).2 = first :: rest := by
  unfold cut
  split
  · rfl
  · split
    · rfl
    · split
      · split <;> rfl
      · split
        · split
          · rename_i after
            simp [Piece.text]
          · rfl
        · split
          · rename_i quote
            rw [quote]
            exact text_cutString rest
          · split
            · exact text_cutNumber first rest
            · split
              · simp [Piece.text]
              · rfl

theorem text_cut_ne_nil (first : Char) (rest : List Char) : (cut first rest).1.text ≠ [] := by
  unfold cut cutString cutNumber
  repeat' split
  all_goals simp [Piece.text]

theorem length_cut_lt (first : Char) (rest : List Char) :
    (cut first rest).2.length < (first :: rest).length := by
  have whole := congrArg List.length (text_cut first rest)
  have nonempty := List.length_pos_iff.mpr (text_cut_ne_nil first rest)
  simp only [List.length_append] at whole
  omega

def pieces : List Char → List Piece
  | [] => []
  | first :: rest => (cut first rest).1 :: pieces (cut first rest).2
termination_by source => source.length
decreasing_by exact length_cut_lt first rest

theorem flatMap_text_pieces (source : List Char) : (pieces source).flatMap Piece.text = source := by
  fun_induction pieces source with
  | case1 => rfl
  | case2 first rest ih => rw [List.flatMap_cons, ih, text_cut]

/-! ## Items -/

inductive LexicalError.Cause where
  | unexpectedCharacter (c : Char)
  | unterminatedString
  deriving DecidableEq, Repr

structure LexicalError where
  cause : LexicalError.Cause
  line : Nat
  deriving DecidableEq, Repr

def LexicalError.message (error : LexicalError) : String :=
  match error.cause with
  | .unexpectedCharacter c => "Unexpected character: " ++ String.singleton c
  | .unterminatedString => "Unterminated string."

inductive Item where
  | token (t : Token)
  | error (e : LexicalError)

def Piece.item? (line : Nat) : Piece → Option Item
  | .blank _ | .comment _ => none
  | .lexeme kind text => some (.token ⟨kind, .ofList text, line⟩)
  | .unexpected c => some (.error ⟨.unexpectedCharacter c, line⟩)
  | .unterminated _ => some (.error ⟨.unterminatedString, line⟩)

/--
The items of adjacent pieces, the first of which begins on the given line, and the end of the input.
-/
def itemsFrom (line : Nat) : List Piece → List Item
  | [] => [.token ⟨.endOfInput, "", line⟩]
  | piece :: rest =>
    let last := line + piece.text.count '\n'
    (piece.item? last).toList ++ itemsFrom last rest

def items (source : String) : List Item :=
  itemsFrom 1 (pieces source.toList)

def Item.token? : Item → Option Token
  | .token t => some t
  | .error _ => none

def Item.error? : Item → Option LexicalError
  | .token _ => none
  | .error e => some e

/-- The tokens of a source, with the end of the input last, and all its lexical errors. -/
def scan (source : String) : List Token × List LexicalError :=
  ((items source).filterMap Item.token?, (items source).filterMap Item.error?)

end Lox
