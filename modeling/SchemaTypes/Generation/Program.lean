import SchemaTypes.Generation.Run

/-!
The program as a command.

* `Environment`: what the surroundings tell about colours;
* `runArguments`: a run as the arguments ask for it;
* `errorReport`: an error with its causes, as it is shown;
* `program`: everything that a call prints, and its exit status.
-/

namespace SchemaTypes

/-- What the surroundings tell about colours: the text of `COLORFGBG`, and
whether the output is a terminal. -/
structure Environment where
  background : Option String := none
  onTerminal : Bool := false

/-- Why a call ends without statistics. -/
inductive Failure where
  | stopped (stop : Stop)
  | failed (error : RunError)
deriving DecidableEq

/-- The colours that options ask for. -/
def Options.colors (o : Options) (e : Environment) : Colors :=
  ⟨o.color.isEnabled e.onTerminal, .detect o.theme e.background⟩

variable {m : Type → Type} [Monad m] [Host m]

/-- A run as the arguments ask for it. -/
def runArguments (arguments : List String) (e : Environment) : m (Except Failure Statistics) :=
  match Options.parse arguments with
  | .error stop => return .error (.stopped stop)
  | .ok options => return (← run (.ofOptions options) (options.colors e)).mapError .failed

/-! ### Reports -/

/-- A text whose further lines are moved in. -/
def hanging (start indent : String) (text : String) : String :=
  start ++ joinWith ("\n" ++ indent) ((splitAt (· = '\n') text.toList).map String.ofList)

/-- The causes of an error, numbered if there are several. -/
def causeLines : List String → List String
  | [] => []
  | [cause] => [hanging "    " "    " cause]
  | causes => causes.zipIdx.map fun (cause, n) => hanging s!"    {n}: " "       " cause

/-- An error with its causes. -/
def errorReport (message : String) (causes : List String) : String :=
  "Error: " ++ message ++ "\n" ++
    (if causes.isEmpty then "" else "\nCaused by:\n")
    ++ String.join ((causeLines causes).map (· ++ "\n"))

/-- Runs the program; gives its exit status. -/
def program (arguments : List String) (e : Environment) : m Nat := do
  match ← runArguments arguments e with
  | .ok _ => return 0
  | .error (.stopped .help) => do
    Host.print (helpText e.onTerminal)
    return 0
  | .error (.stopped .version) => do
    Host.print versionText
    return 0
  | .error (.stopped (.misuse error)) => do
    Host.printError (error.message e.onTerminal ++ "\n")
    return 2
  | .error (.failed error) => do
    Host.printError (errorReport error.message error.causes)
    return 1

end SchemaTypes
