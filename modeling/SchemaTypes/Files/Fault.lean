/-!
Faults of the file system.

* `FileFault`: why an operation on files is refused;
* `FileFault.message`: its text and number.
-/

namespace SchemaTypes

/-- Why an operation on files is refused. -/
inductive FileFault where
  | notFound
  | permissionDenied
  | alreadyExists
  | noDevice
  | notADirectory
  | isADirectory
  | nameTooLong
  /-- Any other refusal, by its number and text. -/
  | other (code : Nat) (text : String)
deriving DecidableEq

namespace FileFault

def code : FileFault → Nat
  | notFound => 2
  | permissionDenied => 13
  | alreadyExists => 17
  | noDevice => 19
  | notADirectory => 20
  | isADirectory => 21
  | nameTooLong => 36
  | other code _ => code

def text : FileFault → String
  | notFound => "No such file or directory"
  | permissionDenied => "Permission denied"
  | alreadyExists => "File exists"
  | noDevice => "No such device"
  | notADirectory => "Not a directory"
  | isADirectory => "Is a directory"
  | nameTooLong => "File name too long"
  | other _ text => text

def message (f : FileFault) : String := s!"{f.text} (os error {f.code})"

/-- The faults that have a name. -/
def named : List FileFault :=
  [notFound, permissionDenied, alreadyExists, noDevice, notADirectory, isADirectory, nameTooLong]

/-- The fault of the given number; the text counts for faults without a
name. -/
def ofCode (code : Nat) (text : String) : FileFault :=
  (named.find? (·.code = code)).getD (other code text)

end FileFault

/-- Why the bytes of a file cannot be had: it does not open, or what opens has
no bytes. -/
inductive ReadFault where
  | unopened (fault : FileFault)
  | unmapped (fault : FileFault)
deriving DecidableEq

end SchemaTypes
