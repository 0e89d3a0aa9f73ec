import Std.Time.DateTime.Timestamp
import Lox.CommandLine

/-!
# The program

Reads arguments, files and standard input, and hands on what the command line answers.
-/

namespace Lox.Main

/-- The seconds since the start of 1970, to the millisecond. -/
def readClock : IO Float := do
  let now ← Std.Time.Timestamp.now
  return Float.ofInt now.toMillisecondsSinceUnixEpoch.val / 1000

def reason : IO.Error → String
  | .noFileOrDirectory .. => "No such file or directory (os error 2)"
  | .permissionDenied .. => "Permission denied (os error 13)"
  | error => toString error

def readFile (name : String) : IO (Except String (List UInt8)) := do
  try
    let bytes ← IO.FS.readBinFile name
    return .ok bytes.toList
  catch error => return .error (reason error)

partial def readLine (input : IO.FS.Stream) (line : Array UInt8) : IO (List UInt8) := do
  let byte ← input.read 1
  match byte.toList with
  | [] => return line.toList
  | next :: _ => if next = 0x0a then return (line.push next).toList else readLine input (line.push next)

def deliver (answer : CommandLine.Answer) : IO UInt32 := do
  (← IO.getStderr).putStr answer.stderr
  let output ← IO.getStdout
  output.putStr answer.stdout
  output.flush
  return answer.exit.toUInt32

partial def session (input output : IO.FS.Stream) : IO UInt32 := do
  output.putStr CommandLine.prompt
  output.flush
  match CommandLine.replStep ampleFuel (← readClock) (← readLine input #[]) with
  | .finish answer => deliver answer
  | .proceed stdout stderr =>
    output.putStr stdout
    (← IO.getStderr).putStr stderr
    session input output

def answer : CommandLine.Request → IO UInt32
  | .repl => do session (← IO.getStdin) (← IO.getStdout)
  | .file command name => do
    deliver (CommandLine.answerFile ampleFuel (← readClock) command name (← readFile name))

def usage : String :=
  "usage: lox [--log] tokenize [--json] FILE | parse FILE | evaluate FILE | run FILE | repl\n"

end Lox.Main

def main (arguments : List String) : IO UInt32 := do
  match Lox.CommandLine.Request.ofArguments? arguments with
  | some request => Lox.Main.answer request
  | none =>
    (← IO.getStderr).putStr Lox.Main.usage
    return 2
