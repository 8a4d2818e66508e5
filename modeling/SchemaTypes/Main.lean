import SchemaTypes.Generation.Program
import Std.Time.Zoned

/-!
The command line program: `Host` for the files, the clock and the console of the
machine it runs on, and `main`. The web is out of its reach.
-/

namespace SchemaTypes

/-- The number of an error of the operating system. Some operations tell it
negated, as an unsigned word. -/
def systemCode (code : UInt32) : Nat :=
  if code.toNat < Nat.pow 2 31 then code.toNat else Nat.pow 2 32 - code.toNat

/-- The fault that an error of the operating system tells of. -/
def FileFault.ofError : IO.Error → FileFault
  | .alreadyExists _ code text | .otherError code text | .resourceBusy code text
  | .resourceVanished code text | .unsupportedOperation code text | .hardwareFault code text
  | .unsatisfiedConstraints code text | .illegalOperation code text | .protocolError code text
  | .timeExpired code text | .interrupted _ code text | .noFileOrDirectory _ code text
  | .invalidArgument _ code text | .permissionDenied _ code text
  | .resourceExhausted _ code text | .inappropriateType _ code text
  | .noSuchThing _ code text => .ofCode (systemCode code) text
  | .unexpectedEof => .ofCode 5 "Input/output error"
  | .userError text => .ofCode 5 text

/-- The result of an action on files, or the fault that refuses it. -/
def faultOr {α ε : Type} (wrap : FileFault → ε) (action : IO α) : IO (Except ε α) := do
  match ← action.toBaseIO with
  | .ok value => return .ok value
  | .error e => return .error (wrap (.ofError e))

/-- Whether a directory is at a path. -/
def directoryAt (path : String) : IO Bool := do
  match ← (IO.FS.realPath path).toBaseIO with
  | .ok place => place.isDir
  | .error _ => return false

/-- The time of day where the machine is, else that of Greenwich. -/
def clock : IO String := do
  match ← Std.Time.PlainTime.now.toBaseIO with
  | .ok time => return timestampText time.hour.toNat time.minute.toNat time.second.toNat
  | .error _ => do
    let seconds := (← Std.Time.Timestamp.now).toSecondsSinceUnixEpoch.val.toNat
    return timestampText (seconds / 3600 % 24) (seconds / 60 % 60) (seconds % 60)

instance : Host IO where
  readFile path := do
    if ← directoryAt path then return .error (.unmapped .noDevice)
    faultOr ReadFault.unopened (IO.FS.readBinFile path)
  removeFile path := do
    if ← directoryAt path then return .error .isADirectory
    faultOr id (IO.FS.removeFile path)
  makeDirectory path := faultOr id (IO.FS.createDir path)
  isDirectory := directoryAt
  appendFile path bytes := do
    match ← faultOr AppendFault.unopened (IO.FS.Handle.mk path .append) with
    | .error fault => return .error fault
    | .ok file => faultOr AppendFault.unwritten do
        file.write bytes
        file.flush
  fetch _ := return none
  timestamp := clock
  print := IO.print
  printError := IO.eprint

end SchemaTypes

def main (arguments : List String) : IO UInt32 := do
  let onTerminal ← (← IO.getStdout).isTty
  let status ← SchemaTypes.program arguments ⟨← IO.getEnv "COLORFGBG", onTerminal⟩
  return status.toUInt32
