import Lox.Evaluation
import Lox.StaticError
import Lox.Syntax.Parser

/-!
# Programs from source text

A source is scanned, parsed and checked before its first statement runs. Lexical errors do not keep
the tokens that were read from being parsed, so both kinds of errors are reported together; misuse
of names is looked for only in programs without any of them.

Contents: `Failure`; `check`; `ampleFuel`; `run`, `evaluateSource`.
-/

namespace Lox

inductive Failure where
  | static (errors : List StaticError)
  | stopped (stop : Stop)

namespace Failure

def exitCode : Failure → Nat
  | static _ => 65
  | stopped (.defect _) => 101
  | stopped _ => 70

end Failure

def Stop.text : Stop → String
  | runtime error => error.text
  | output error => error.message
  | defect d => d.message
  | outOfFuel => "out of fuel"

namespace Failure

def texts : Failure → List String
  | static errors => errors.map StaticError.text
  | stopped stop => [stop.text]

def text (failure : Failure) : String := "\n".intercalate failure.texts

end Failure

def check (source : String) : Except (List StaticError) (List Stmt × Distances) :=
  let (tokens, lexical) := scan source
  match parseProgram tokens with
  | .error errors => .error (lexical.map .lexical ++ errors.map .grammar)
  | .ok program =>
    if lexical.isEmpty then
      match Distances.ofProgram program with
      | .error errors => .error (errors.map .scope)
      | .ok distances => .ok (program, distances)
    else .error (lexical.map .lexical)

/-- More fuel than a run can use up in any time. -/
def ampleFuel : Nat := 0x3fff_ffff_ffff_ffff

def run (fuel : Nat) (source : String) (m : Machine) : Except Failure Unit × Machine :=
  match check source with
  | .error errors => (.error (.static errors), m)
  | .ok (program, distances) =>
    match interpret fuel program distances m with
    | .ok () m => (.ok (), m)
    | .error stop m => (.error (.stopped stop), m)

def checkExpression (source : String) : Except (List StaticError) Expr :=
  let (tokens, lexical) := scan source
  if lexical.isEmpty then
    match parseExpression tokens with
    | .error errors => .error (errors.map .grammar)
    | .ok expression => .ok expression
  else .error (lexical.map .lexical)

/-- The text of the value of the expression that a source holds. All its names are globals. -/
def evaluateSource (fuel : Nat) (source : String) (clock : Float) : Except Failure String :=
  match checkExpression source with
  | .error errors => .error (.static errors)
  | .ok expression =>
    match evaluate fuel expression (.initial .unlimited clock) with
    | .ok value _ => .ok value.text
    | .error stop _ => .error (.stopped stop)

end Lox
