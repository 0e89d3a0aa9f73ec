import Lox.Token
import Lox.Number.Text

/-!
# Listings of tokens

Tokens are listed one per line, by name, lexeme and value, or as a JSON array of objects.

Contents: `Token.text`; `Json.quote`, `Token.listJson`.
-/

namespace Lox

def Token.valueText (token : Token) : String :=
  match token.kind with
  | .number value => Number.literal value
  | .string text => text
  | _ => "null"

def Token.text (token : Token) : String :=
  token.kind.name ++ " " ++ token.lexeme ++ " " ++ token.valueText

namespace Json

/--
How a character is written inside a JSON string: only quotes, backslashes and control characters are
escaped.
-/
def escape (c : Char) : List Char :=
  match c with
  | '"' => ['\\', '"']
  | '\\' => ['\\', '\\']
  | '\x08' => ['\\', 'b']
  | '\t' => ['\\', 't']
  | '\n' => ['\\', 'n']
  | '\x0c' => ['\\', 'f']
  | '\r' => ['\\', 'r']
  | _ =>
    if c.toNat < 0x20 then ['\\', 'u', '0', '0', Nat.digitChar (c.toNat / 16), Nat.digitChar (c.toNat % 16)]
    else [c]

def quote (text : String) : String :=
  .ofList ('"' :: (text.toList.flatMap escape ++ ['"']))

end Json

def Token.taggedJson (tag value : String) : List String :=
  ["    \"token_type\": \x7b", "      " ++ Json.quote tag ++ ": " ++ value, "    \x7d,"]

def Token.kindJson (token : Token) : List String :=
  match token.kind with
  | .number value => Token.taggedJson token.kind.name (Number.json value)
  | .string text => Token.taggedJson token.kind.name (Json.quote text)
  | kind => ["    \"token_type\": " ++ Json.quote kind.name ++ ","]

def Token.json (token : Token) : String :=
  "\n".intercalate <|
    ["  \x7b"] ++ token.kindJson ++
      ["    \"lexeme\": " ++ Json.quote token.lexeme ++ ",",
       "    \"line\": " ++ toString token.line,
       "  \x7d"]

def Token.listJson (tokens : List Token) : String :=
  if tokens.isEmpty then "[]" else "[\n" ++ ",\n".intercalate (tokens.map Token.json) ++ "\n]"

end Lox
