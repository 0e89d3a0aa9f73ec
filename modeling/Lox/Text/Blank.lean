/-!
# Blank text

The characters with the Unicode property `White_Space`, and lines that hold nothing else.

Contents: `isBlankChar`, `isBlank`.
-/

namespace Lox.Text

/-- First and last code point of each range of `White_Space`. -/
def blankRanges : List (Nat × Nat) :=
  [(0x09, 0x0d), (0x20, 0x20), (0x85, 0x85), (0xa0, 0xa0), (0x1680, 0x1680), (0x2000, 0x200a),
   (0x2028, 0x2029), (0x202f, 0x202f), (0x205f, 0x205f), (0x3000, 0x3000)]

def isBlankChar (c : Char) : Bool :=
  blankRanges.any fun (low, high) => low ≤ c.toNat && c.toNat ≤ high

def isBlank (text : String) : Bool :=
  text.toList.all isBlankChar

theorem isBlankChar_of_isWhitespace {c : Char} (blank : c.isWhitespace = true) : isBlankChar c = true := by
  simp only [Char.isWhitespace, Bool.or_eq_true, decide_eq_true_eq] at blank
  rcases blank with ((blank | blank) | blank) | blank <;> subst blank <;> decide

end Lox.Text
