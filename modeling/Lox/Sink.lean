/-!
# Where output goes

A sink holds the bytes that were written to it. It may take only so many, and flushing it may fail.

Contents: `OutputError`; `Sink` with `Sink.write` and `Sink.flush`.
-/

namespace Lox

inductive OutputError where
  | sinkFull
  | flushFailed
  deriving DecidableEq, Repr

def OutputError.message : OutputError → String
  | sinkFull => "sink full"
  | flushFailed => "flush failed"

/-- The bytes held, the number of bytes that can be held, and whether flushing fails. -/
structure Sink where
  held : ByteArray
  limit : Option Nat
  flushFails : Bool

namespace Sink

def unlimited : Sink := ⟨.empty, none, false⟩

def fitting (s : Sink) (bytes : ByteArray) : ByteArray :=
  match s.limit with
  | some limit => bytes.extract 0 (limit - s.held.size)
  | none => bytes

/-- Writes a text. If it does not fit, its first bytes are kept and writing fails. -/
def write (text : String) (s : Sink) : Option OutputError × Sink :=
  let bytes := text.toUTF8
  let kept := s.fitting bytes
  (if kept.size < bytes.size then some .sinkFull else none, { s with held := s.held ++ kept })

def flush (s : Sink) : Option OutputError :=
  if s.flushFails then some .flushFailed else none

def drained (s : Sink) : Sink := { s with held := .empty }

end Sink

end Lox
