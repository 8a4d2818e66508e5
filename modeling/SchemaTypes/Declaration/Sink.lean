/-!
Destinations of limited patience.

* `Sink`: the bytes that a destination holds, and how many bytes and flushes it
  takes;
* `Sink.write`, `Sink.flush`: a write is cut to what fits, and both fail from
  the moment a limit is passed;
* `LineSink`: a sink that is written line by line, each line ended by CR LF and
  flushed before the next.
-/

namespace SchemaTypes

/-- Why a destination refuses. -/
inductive WriteFault where
  | storageFull
  | brokenPipe
deriving DecidableEq

def WriteFault.message : WriteFault → String
  | storageFull => "write limit reached"
  | brokenPipe => "flush limit reached"

/-- A destination for bytes. -/
structure Sink where
  held : ByteArray := .empty
  /-- The flushes that succeeded. -/
  flushes : Nat := 0
  byteLimit : Option Nat := none
  flushLimit : Option Nat := none

namespace Sink

/-- Whether `size` more bytes fit. -/
def hasRoom (s : Sink) (size : Nat) : Bool :=
  s.byteLimit.all fun limit => s.held.size + size ≤ limit

/-- The bytes held after as many of `bytes` as fit are taken. -/
def taking (s : Sink) (bytes : ByteArray) : ByteArray :=
  match s.byteLimit with
  | none => s.held ++ bytes
  | some limit => s.held ++ bytes.extract 0 (limit - s.held.size)

/-- Takes what fits of `bytes`, and fails if that is not all. -/
def write (bytes : ByteArray) : EStateM WriteFault Sink Unit := fun s =>
  if s.hasRoom bytes.size then .ok () { s with held := s.taking bytes }
  else .error .storageFull { s with held := s.taking bytes }

/-- Flushes, if another flush is allowed. -/
def flush : EStateM WriteFault Sink Unit := fun s =>
  if s.flushLimit.all (s.flushes < ·) then .ok () { s with flushes := s.flushes + 1 }
  else .error .brokenPipe s

end Sink

/-- The end of every line. -/
def lineEnd : String := "\r\n"

/-- A sink for lines, and the number of lines that were written and flushed. -/
structure LineSink where
  sink : Sink
  lines : Nat := 0

namespace LineSink

/-- Writes a line and its end, flushes, and counts the line. -/
def writeLine (text : String) : EStateM WriteFault LineSink Unit := fun s =>
  match (do Sink.write (text ++ lineEnd).toUTF8; Sink.flush : EStateM _ _ _) s.sink with
  | .ok _ sink => .ok () ⟨sink, s.lines + 1⟩
  | .error fault sink => .error fault { s with sink }

/-- Writes an empty line. -/
def blankLine : EStateM WriteFault LineSink Unit := writeLine ""

/-- Gives the sink back after a last flush. -/
def close (s : LineSink) : EStateM.Result WriteFault Sink Unit := Sink.flush s.sink

end LineSink

end SchemaTypes
