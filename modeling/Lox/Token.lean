/-!
# Tokens

A token is a piece of source text with its kind and the line on which it ends. Marks and words have
one spelling each and are `Symbol`s; identifiers, numbers and strings are open classes, and the last
two carry their value.

Contents: `Symbol` with `Symbol.spelling`, `Symbol.name` and `Symbol.ofWord?`; `Kind`; `Token`.
-/

namespace Lox

inductive Symbol where
  | leftParen | rightParen | leftBrace | rightBrace
  | comma | dot | minus | plus | semicolon | slash | star
  | bang | bangEqual | equal | equalEqual | greater | greaterEqual | less | lessEqual
  | andWord | classWord | elseWord | falseWord | funWord | forWord | ifWord | nilWord
  | orWord | printWord | returnWord | superWord | thisWord | trueWord | varWord | whileWord
  deriving DecidableEq, Repr

namespace Symbol

def spelling : Symbol → String
  | leftParen => "(" | rightParen => ")" | leftBrace => "\x7b" | rightBrace => "\x7d"
  | comma => "," | dot => "." | minus => "-" | plus => "+" | semicolon => ";" | slash => "/" | star => "*"
  | bang => "!" | bangEqual => "!=" | equal => "=" | equalEqual => "=="
  | greater => ">" | greaterEqual => ">=" | less => "<" | lessEqual => "<="
  | andWord => "and" | classWord => "class" | elseWord => "else" | falseWord => "false"
  | funWord => "fun" | forWord => "for" | ifWord => "if" | nilWord => "nil"
  | orWord => "or" | printWord => "print" | returnWord => "return" | superWord => "super"
  | thisWord => "this" | trueWord => "true" | varWord => "var" | whileWord => "while"

def name : Symbol → String
  | leftParen => "LEFT_PAREN" | rightParen => "RIGHT_PAREN"
  | leftBrace => "LEFT_BRACE" | rightBrace => "RIGHT_BRACE"
  | comma => "COMMA" | dot => "DOT" | minus => "MINUS" | plus => "PLUS" | semicolon => "SEMICOLON"
  | slash => "SLASH" | star => "STAR"
  | bang => "BANG" | bangEqual => "BANG_EQUAL" | equal => "EQUAL" | equalEqual => "EQUAL_EQUAL"
  | greater => "GREATER" | greaterEqual => "GREATER_EQUAL" | less => "LESS" | lessEqual => "LESS_EQUAL"
  | andWord => "AND" | classWord => "CLASS" | elseWord => "ELSE" | falseWord => "FALSE"
  | funWord => "FUN" | forWord => "FOR" | ifWord => "IF" | nilWord => "NIL"
  | orWord => "OR" | printWord => "PRINT" | returnWord => "RETURN" | superWord => "SUPER"
  | thisWord => "THIS" | trueWord => "TRUE" | varWord => "VAR" | whileWord => "WHILE"

def marks : List Symbol :=
  [leftParen, rightParen, leftBrace, rightBrace, comma, dot, minus, plus, semicolon, slash, star,
   bang, bangEqual, equal, equalEqual, greater, greaterEqual, less, lessEqual]

def words : List Symbol :=
  [andWord, classWord, elseWord, falseWord, funWord, forWord, ifWord, nilWord,
   orWord, printWord, returnWord, superWord, thisWord, trueWord, varWord, whileWord]

def ofWord? (text : String) : Option Symbol :=
  words.find? fun word => word.spelling = text

end Symbol

inductive Kind where
  | symbol (symbol : Symbol)
  | identifier
  | number (value : Float)
  | string (text : String)
  | endOfInput

namespace Kind

def name : Kind → String
  | symbol s => s.name
  | identifier => "IDENTIFIER"
  | number _ => "NUMBER"
  | string _ => "STRING"
  | endOfInput => "EOF"

def isSymbol (s : Symbol) : Kind → Bool
  | symbol t => t = s
  | _ => false

def isEnd : Kind → Bool
  | endOfInput => true
  | _ => false

end Kind

/-- A token; `line` is the line of its last character, counted from one. -/
structure Token where
  kind : Kind
  lexeme : String
  line : Nat

end Lox
