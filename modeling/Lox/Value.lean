import Lox.Bindings
import Lox.Syntax
import Lox.Number.Text
import Lox.Text.Quoted

/-!
# Values

Functions and classes never change once they are made, so they are part of the value. What changes,
the variables that functions close over and the fields of instances, lives in the state of the
running program. What a function keeps of the place where it was declared is a parameter; a running
program keeps the number of a frame. Functions, classes and instances also carry a number that tells
them apart from others of the same make.

Contents: `ClosureOver`, `ClassOver`, `InstanceOver`, `Native`, `ValueOver`, with `Closure`,
`Class`, `Instance` and `Value` over frames; `ClassOver.findMethod?`; the truth, type, arity, text
and equality of values.
-/

namespace Lox

abbrev FrameId := Nat

variable {κ : Type}

/-- A function declaration with what it captured of the place where it was declared. -/
structure ClosureOver (κ : Type) where
  declaration : FunctionDecl
  captured : κ
  isInitializer : Bool

namespace ClosureOver

def name (closure : ClosureOver κ) : String := closure.declaration.name.lexeme

def arity (closure : ClosureOver κ) : Nat := closure.declaration.params.length

end ClosureOver

structure ClassOver (κ : Type) where
  identity : Nat
  name : String
  superclass : Option (ClassOver κ)
  methods : Bindings String (ClosureOver κ)

namespace ClassOver

/-- The method of the class or of its nearest ancestor that has one of that name. -/
def findMethod? (name : String) : ClassOver κ → Option (ClosureOver κ)
  | ⟨_, _, superclass, methods⟩ =>
    match methods.find? name with
    | some method => some method
    | none =>
      match superclass with
      | some parent => parent.findMethod? name
      | none => none

def initializer? (c : ClassOver κ) : Option (ClosureOver κ) := c.findMethod? initializerName

def arity (c : ClassOver κ) : Nat :=
  match c.initializer? with
  | some method => method.arity
  | none => 0

end ClassOver

structure InstanceOver (κ : Type) where
  id : Nat
  type : ClassOver κ

inductive Native where
  | clock
  deriving DecidableEq, Repr

namespace Native

def name : Native → String
  | clock => "clock"

def arity : Native → Nat
  | clock => 0

end Native

inductive ValueOver (κ : Type) where
  | nil
  | boolean (value : Bool)
  | number (value : Float)
  | string (text : String)
  | native (function : Native)
  | function (identity : Nat) (closure : ClosureOver κ)
  | ofClass (c : ClassOver κ)
  | ofInstance (i : InstanceOver κ)

abbrev Closure := ClosureOver FrameId

abbrev Class := ClassOver FrameId

abbrev Instance := InstanceOver FrameId

abbrev Value := ValueOver FrameId

def Literal.value : Literal → ValueOver κ
  | .nil => .nil
  | .boolean b => .boolean b
  | .number n => .number n
  | .string text => .string text

namespace ValueOver

def isTruthy : ValueOver κ → Bool
  | nil | boolean false => false
  | _ => true

def typeName : ValueOver κ → String
  | nil => "nil"
  | boolean _ => "boolean"
  | number _ => "number"
  | string _ => "string"
  | native _ | function _ _ => "function"
  | ofClass _ => "class"
  | ofInstance _ => "instance"

def arity? : ValueOver κ → Option Nat
  | native n => some n.arity
  | function _ closure => some closure.arity
  | ofClass c => some c.arity
  | _ => none

def text : ValueOver κ → String
  | nil => "nil"
  | boolean true => "true"
  | boolean false => "false"
  | number n => Number.display n
  | string s => s
  | native _ => "<native fn>"
  | function _ closure => "<fn " ++ closure.name ++ ">"
  | ofClass c => c.name
  | ofInstance i => i.type.name ++ " instance"

def inspect : ValueOver κ → String
  | string s => Text.quote s
  | value => value.text

/--
Values are equal if they have the same type and content. Numbers compare as doubles, so that a NaN
differs from itself; functions, classes and instances are equal to themselves only.
-/
def equals : ValueOver κ → ValueOver κ → Bool
  | nil, nil => true
  | boolean a, boolean b => a = b
  | number a, number b => a == b
  | string a, string b => a = b
  | native a, native b => a = b
  | function a _, function b _ => a = b
  | ofClass a, ofClass b => a.identity = b.identity
  | ofInstance a, ofInstance b => a.id = b.id
  | _, _ => false

end ValueOver

end Lox
