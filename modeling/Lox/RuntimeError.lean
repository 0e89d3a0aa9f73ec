import Lox.Token

/-!
# Errors of a running program

Contents: `RuntimeError` with its causes, `RuntimeError.message` and `RuntimeError.text`.
-/

namespace Lox

inductive RuntimeError.Cause where
  | operandNotNumber
  | operandsNotNumbers
  | operandsNotAddable
  | notUnary
  | notBinary
  | notCallable
  | wrongArity (expected given : Nat)
  | noProperties
  | noFields
  | undefinedProperty (name : String)
  | undefinedVariable (name : String)
  | superclassNotClass
  | initializerWithoutInstance
  deriving DecidableEq, Repr

def RuntimeError.Cause.message : RuntimeError.Cause → String
  | operandNotNumber => "Operand must be a number."
  | operandsNotNumbers => "Operands must be numbers."
  | operandsNotAddable => "Operands must be two numbers or two strings."
  | notUnary => "Invalid unary operator."
  | notBinary => "Invalid binary operator."
  | notCallable => "Can only call functions and classes."
  | wrongArity expected given =>
    "Expected " ++ toString expected ++ " arguments but got " ++ toString given ++ "."
  | noProperties => "Only instances have properties."
  | noFields => "Only instances have fields."
  | undefinedProperty name => "Undefined property '" ++ name ++ "'."
  | undefinedVariable name => "Undefined variable '" ++ name ++ "'."
  | superclassNotClass => "Superclass must be a class."
  | initializerWithoutInstance => "Initializer called without an instance."

structure RuntimeError where
  cause : RuntimeError.Cause
  line : Nat
  deriving DecidableEq, Repr

namespace RuntimeError

def message (error : RuntimeError) : String := error.cause.message

def text (error : RuntimeError) : String :=
  error.message ++ "\n[line " ++ toString error.line ++ "]"

end RuntimeError

end Lox
