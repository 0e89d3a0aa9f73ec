import Lox.Text.Printable

/-!
# Quoted text

Text between double quotes, written so that it can be read off a terminal: quotes and backslashes
carry a backslash, and hidden characters are spelled out by name or by code point.

Contents: `escape` for a character, `quote` for a text.
-/

namespace Lox.Text

def escape (c : Char) : List Char :=
  match c with
  | '"' => ['\\', '"']
  | '\\' => ['\\', '\\']
  | '\n' => ['\\', 'n']
  | '\t' => ['\\', 't']
  | '\r' => ['\\', 'r']
  | '\x00' => ['\\', '0']
  | _ => if isHidden c then '\\' :: 'u' :: '{' :: (Nat.toDigits 16 c.toNat ++ ['}']) else [c]

def quote (text : String) : String :=
  .ofList ('"' :: (text.toList.flatMap escape ++ ['"']))

end Lox.Text
