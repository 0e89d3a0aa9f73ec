import Lox.Program
import Lox.Syntax.PrefixForm
import Lox.Text.Blank
import Lox.Text.Quoted
import Lox.Text.Utf8
import Lox.Token.Listing

/-!
# The command line

Four commands read a source from a file and show its tokens, its tree, its value or its output. A
fifth reads lines from standard input and runs each as a program of its own. What a command answers
depends only on the bytes that it reads: it is a text for each of the two outputs and an exit
status.

Contents: `Command`, `Request` and `Request.ofArguments?`; `Answer`; `answerSource` and
`answerFile`; `ReplStep`, `replStep` and `answerRepl`.
-/

namespace Lox.CommandLine

/-! ## Requests -/

inductive Command where
  | tokenize (json : Bool)
  | parse
  | evaluate
  | run
  deriving DecidableEq, Repr

inductive Request where
  | file (command : Command) (name : String)
  | repl
  deriving DecidableEq, Repr

namespace Request

/--
The request in a list of arguments. The option `--log` may stand anywhere and changes no answer.
-/
def ofArguments? (arguments : List String) : Option Request :=
  match arguments.filter (· ≠ "--log") with
  | ["tokenize", "--json", name] | ["tokenize", name, "--json"] => some (.file (.tokenize true) name)
  | ["tokenize", name] => some (.file (.tokenize false) name)
  | ["parse", name] => some (.file .parse name)
  | ["evaluate", name] => some (.file .evaluate name)
  | ["run", name] => some (.file .run name)
  | ["repl"] => some .repl
  | _ => none

end Request

/-! ## Answers -/

structure Answer where
  exit : Nat
  stdout : String
  stderr : String
  deriving DecidableEq, Repr

def lines (texts : List String) : String := String.join (texts.map (· ++ "\n"))

def problem (what why : String) : Answer :=
  ⟨1, "", "Error: " ++ what ++ "\n\nCaused by:\n    " ++ why ++ "\n"⟩

def rejected (errors : List StaticError) : Answer :=
  ⟨(Failure.static errors).exitCode, "", lines (errors.map StaticError.text)⟩

def answerSource (fuel : Nat) (clock : Float) (command : Command) (source : String) : Answer :=
  match command with
  | .tokenize json =>
    let (tokens, errors) := scan source
    let listing := if json then lines [Token.listJson tokens] else lines (tokens.map Token.text)
    if errors.isEmpty then ⟨0, listing, ""⟩
    else { rejected (errors.map .lexical) with stdout := listing }
  | .parse =>
    match checkExpression source with
    | .ok expression => ⟨0, lines [expression.prefixForm], ""⟩
    | .error errors => rejected errors
  | .evaluate =>
    match evaluateSource fuel source clock with
    | .ok text => ⟨0, lines [text], ""⟩
    | .error failure => ⟨failure.exitCode, "", lines failure.texts⟩
  | .run =>
    let (result, m) := Lox.run fuel source (.initial .unlimited clock)
    let output := Text.Utf8.lossy m.sink.held.toList
    match result with
    | .ok () => ⟨0, output, ""⟩
    | .error failure => ⟨failure.exitCode, output, lines failure.texts⟩

def answerFile (fuel : Nat) (clock : Float) (command : Command) (name : String)
    (content : Except String (List UInt8)) : Answer :=
  match content with
  | .error reason => problem ("Failed to open file " ++ Text.quote name) reason
  | .ok bytes =>
    match Text.Utf8.decode bytes with
    | .error fault => problem ("File " ++ Text.quote name ++ " is not valid UTF-8") fault.message
    | .ok source => answerSource fuel clock command source

/-! ## Lines from standard input -/

inductive ReplStep where
  | proceed (stdout stderr : String)
  | finish (answer : Answer)
  deriving DecidableEq, Repr

def prompt : String := "> "

def stripLineEnd (line : List UInt8) : List UInt8 :=
  match line.reverse with
  | 0x0a :: 0x0d :: rest => rest.reverse
  | 0x0a :: rest => rest.reverse
  | _ => line

/--
Runs one line as a program. A session ends at the end of the input, at a blank line and at bytes
that are no text.
-/
def replStep (fuel : Nat) (clock : Float) (line : List UInt8) : ReplStep :=
  if line.isEmpty then .finish ⟨0, "", ""⟩
  else
    match Text.Utf8.decode (stripLineEnd line) with
    | .error _ => .finish (problem "Failed to read from stdin" "stream did not contain valid UTF-8")
    | .ok source =>
      if Text.isBlank source then .finish ⟨0, "", ""⟩
      else
        let answer := answerSource fuel clock .run source
        .proceed answer.stdout answer.stderr

def consLine (byte : UInt8) (lines : List (List UInt8)) : List (List UInt8) :=
  if byte = 0x0a then [byte] :: lines
  else
    match lines with
    | line :: rest => (byte :: line) :: rest
    | [] => [[byte]]

/--
The bytes cut behind every newline, with what is left at the end as the last line, which may be
empty.
-/
def splitLines (bytes : List UInt8) : List (List UInt8) := bytes.foldr consLine [[]]

def answerLines (fuel : Nat) (clock : Float) : List (List UInt8) → Answer
  | [] => ⟨0, prompt, ""⟩
  | line :: rest =>
    match replStep fuel clock line with
    | .finish answer => { answer with stdout := prompt ++ answer.stdout }
    | .proceed stdout stderr =>
      let later := answerLines fuel clock rest
      ⟨later.exit, prompt ++ stdout ++ later.stdout, stderr ++ later.stderr⟩

def answerRepl (fuel : Nat) (clock : Float) (input : List UInt8) : Answer :=
  answerLines fuel clock (splitLines input)

end Lox.CommandLine
