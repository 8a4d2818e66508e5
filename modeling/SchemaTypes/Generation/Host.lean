import SchemaTypes.Files.Tree
import SchemaTypes.Files.Volume
import SchemaTypes.Text.Join
import SchemaTypes.Url.Basic

/-!
What a run needs of its surroundings.

* `Host`: files, the web, a clock and a console;
* `timestampText`: the time of day as it is shown;
* `FileSystem`: the operations on files, which trees and volumes have;
* `MachineOf`: a host with files of a kind, on which runs can be followed; `Machine`
  has a tree of files, and `Online` a web of given documents besides;
* `Guarded`: a machine whose files may refuse any operation, and may be full.
-/

namespace SchemaTypes

/-- Why bytes cannot be appended to a file: it does not open, or it refuses
them. -/
inductive AppendFault where
  | unopened (fault : FileFault)
  | unwritten (fault : FileFault)
deriving DecidableEq

/-- Files, the web, a clock and a console. -/
class Host (m : Type → Type) where
  readFile : String → m (Except ReadFault ByteArray)
  removeFile : String → m (Except FileFault Unit)
  makeDirectory : String → m (Except FileFault Unit)
  isDirectory : String → m Bool
  /-- Appends to a file, which is made if it is not there. -/
  appendFile : String → ByteArray → m (Except AppendFault Unit)
  /-- The bytes at a web address, if they can be had. -/
  fetch : Url → m (Option ByteArray)
  /-- The time of day in brackets. -/
  timestamp : m String
  /-- Writes to the standard output. -/
  print : String → m Unit
  /-- Writes to the standard error. -/
  printError : String → m Unit

/-- The time of day in brackets, two digits to a number. -/
def timestampText (hour minute second : Nat) : String :=
  let digits (n : Nat) : String := (if n < 10 then "0" else "") ++ toString n
  "[" ++ joinWith ":" [digits hour, digits minute, digits second] ++ "]"

/-! ### Machines -/

/-- Operations on files, and when they are refused. -/
class FileSystem (φ : Type) where
  read : φ → String → Except ReadFault ByteArray
  remove : φ → String → Except FileFault φ
  makeDirectory : φ → String → Except FileFault φ
  isDirectory : φ → String → Bool
  append : φ → String → ByteArray → Except FileFault φ

instance : FileSystem FileTree where
  read := FileTree.read
  remove := FileTree.remove
  makeDirectory := FileTree.makeDirectory
  isDirectory := FileTree.isDirectory
  append := FileTree.append

instance : FileSystem Volume where
  read := Volume.read
  remove := Volume.remove
  makeDirectory := Volume.makeDirectory
  isDirectory := Volume.isDirectory
  append := Volume.append

/-- A host whose files, time and console are values. -/
structure MachineOf (φ : Type) where
  files : φ
  time : String
  output : String := ""
  errors : String := ""

/-- A machine with a tree of files. -/
abbrev Machine := MachineOf FileTree

namespace Machine

/-- Changes the files, unless that is refused. -/
def change {φ ε : Type} (f : φ → Except ε φ) : StateM (MachineOf φ) (Except ε Unit) :=
  fun s =>
    match f s.files with
    | .ok files => (.ok (), { s with files })
    | .error fault => (.error fault, s)

instance {φ : Type} [FileSystem φ] : Host (StateM (MachineOf φ)) where
  readFile path := fun s => (FileSystem.read s.files path, s)
  removeFile path := change (FileSystem.remove · path)
  makeDirectory path := change (FileSystem.makeDirectory · path)
  isDirectory path := fun s => (FileSystem.isDirectory s.files path, s)
  appendFile path bytes := change fun t => (FileSystem.append t path bytes).mapError .unopened
  fetch _ := fun s => (none, s)
  timestamp := fun s => (s.time, s)
  print text := fun s => ((), { s with output := s.output ++ text })
  printError text := fun s => ((), { s with errors := s.errors ++ text })

end Machine

/-! ### The web -/

/-- The bytes at each web address; none where they cannot be had. -/
abbrev Web := Url → Option ByteArray

/-- A machine that can reach the web. -/
abbrev Online := ReaderT Web (StateM Machine)

instance : Host Online where
  readFile path := fun _ => Host.readFile path
  removeFile path := fun _ => Host.removeFile path
  makeDirectory path := fun _ => Host.makeDirectory path
  isDirectory path := fun _ => Host.isDirectory path
  appendFile path bytes := fun _ => Host.appendFile path bytes
  fetch address := fun web s => (web address, s)
  timestamp := fun _ => Host.timestamp
  print text := fun _ => Host.print text
  printError text := fun _ => Host.printError text

/-! ### Refusals -/

/-- The operations on files that may be refused. -/
inductive FileRequest where
  | read
  | remove
  | makeDirectory
  | inspect
  | append
deriving DecidableEq

/-- The web around a machine, and what its files refuse. -/
structure Surroundings (φ : Type) where
  web : Web
  /-- Why the operation on a path is refused, if it is. -/
  refusal : φ → FileRequest → String → Option FileFault
  /-- How many of the bytes the file at a path takes, and why it takes no more; none
  if it takes all of them. -/
  capacity : φ → String → ByteArray → Option (Nat × FileFault)

/-- A machine whose files may refuse what is asked of them. -/
abbrev Guarded (φ : Type) := ReaderT (Surroundings φ) (StateM (MachineOf φ))

namespace Guarded

variable {φ : Type} [FileSystem φ]

/-- Does what is asked, unless that is refused. -/
def unlessRefused {α : Type} (request : FileRequest) (path : String) (refused : FileFault → α)
    (action : StateM (MachineOf φ) α) : Guarded φ α := fun around s =>
  match around.refusal s.files request path with
  | some fault => (refused fault, s)
  | none => action s

/-- Appends as many of the bytes as the file takes. -/
def appendWithin (around : Surroundings φ) (path : String) (bytes : ByteArray) :
    StateM (MachineOf φ) (Except AppendFault Unit) := do
  let limit := around.capacity (← get).files path bytes
  let taken := limit.elim bytes fun (size, _) => bytes.extract 0 size
  return (← Host.appendFile path taken).bind fun _ =>
    limit.elim (.ok ()) fun (_, fault) => .error (.unwritten fault)

instance : Host (Guarded φ) where
  readFile path := unlessRefused .read path (.error ∘ .unopened) (Host.readFile path)
  removeFile path := unlessRefused .remove path .error (Host.removeFile path)
  makeDirectory path := unlessRefused .makeDirectory path .error (Host.makeDirectory path)
  isDirectory path := unlessRefused .inspect path (fun _ => false) (Host.isDirectory path)
  appendFile path bytes := fun around =>
    unlessRefused .append path (.error ∘ .unopened) (appendWithin around path bytes) around
  fetch address := fun around s => (around.web address, s)
  timestamp := fun _ => Host.timestamp
  print text := fun _ => Host.print text
  printError text := fun _ => Host.printError text

end Guarded

end SchemaTypes
