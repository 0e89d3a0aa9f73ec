import Lox.Syntax
import Lox.Number.Text

/-!
# Expressions in prefix form

Each operation stands in parentheses with its operator first: `1 + 2 * 3` is `(+ 1.0 (* 2.0 3.0))`.

Contents: `Literal.prefixForm`, `Expr.prefixForm`.
-/

namespace Lox

def Literal.prefixForm : Literal → String
  | .nil => "nil"
  | .boolean true => "true"
  | .boolean false => "false"
  | .number value => Number.prefixForm value
  | .string text => text

mutual

def Expr.prefixForm : Expr → String
  | .literal value => value.prefixForm
  | .grouping inner => "(group " ++ inner.prefixForm ++ ")"
  | .unary operator right => "(" ++ operator.lexeme ++ " " ++ right.prefixForm ++ ")"
  | .binary left operator right | .logical left operator right =>
    "(" ++ operator.lexeme ++ " " ++ left.prefixForm ++ " " ++ right.prefixForm ++ ")"
  | .read name => name.name
  | .assign name value => "(= " ++ name.name ++ " " ++ value.prefixForm ++ ")"
  | .call callee _ arguments => "(call " ++ callee.prefixForm ++ Expr.prefixForms arguments ++ ")"
  | .get object name => "(. " ++ object.prefixForm ++ " " ++ name.lexeme ++ ")"
  | .set object name value =>
    "(= (. " ++ object.prefixForm ++ " " ++ name.lexeme ++ ") " ++ value.prefixForm ++ ")"
  | .self _ => "this"
  | .inherited _ method => "(super " ++ method.lexeme ++ ")"

def Expr.prefixForms : List Expr → String
  | [] => ""
  | first :: rest => " " ++ first.prefixForm ++ Expr.prefixForms rest

end

end Lox
