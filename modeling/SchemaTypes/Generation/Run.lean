import SchemaTypes.Declaration.Emitter
import SchemaTypes.Document.Loading
import SchemaTypes.Generation.Journal

/-!
One generation of declarations.

* `RunError`: why a run fails, with the causes behind it;
* `loadSchemas`: the mapping of schemas at the source;
* `createDirectories`: a directory and those above it;
* `run`: removes the output file if asked to, loads the schemas, and appends
  their declarations to the output file. A run that finds no schemas makes no
  file.
-/

namespace SchemaTypes

/-- Why a run fails. -/
inductive RunError where
  | load (error : LoadError)
  | directory (fault : FileFault)
  | unopened (path : String) (fault : FileFault)
  | unwritten (fault : FileFault)
  | refused (fault : WriteFault)
deriving DecidableEq

namespace RunError

/-- The text of an error. -/
def message : RunError → String
  | load error => error.message
  | directory fault => fault.message
  | unopened path _ => s!"failed to open {path}"
  | unwritten fault => fault.message
  | refused fault => fault.message

/-- The causes behind an error, the nearest first. -/
def causes : RunError → List String
  | load error => error.causes
  | unopened _ fault => [fault.message]
  | _ => []

end RunError

variable {m : Type → Type} [Monad m] [Host m]

/-! ### Loading -/

/-- The document at a source. -/
def loadDocument (source : Source) : m (Except LoadError Json) :=
  match source with
  | .remote address => do
    match ← Host.fetch address with
    | none => return .error (.fetch address)
    | some bytes => return parseDocument source.format bytes.toList
  | .file path => do
    match ← Host.readFile path with
    | .error fault => return .error (.unreadable path fault)
    | .ok bytes => return parseDocument source.format bytes.toList

/-- The mapping of schemas at a source. -/
def loadSchemas (source : Source) : m (Except LoadError Fields) := do
  return (← loadDocument source).bind componentSchemas

/-! ### Directories -/

/-- Makes the directories that are missing, given the innermost first. -/
def createMissing : List Path → m (Except FileFault Unit)
  | [] => return .ok ()
  | path :: rest => do
    match ← Host.makeDirectory path.toString with
    | .ok _ => return .ok ()
    | .error .notFound => do
      match ← createMissing rest with
      | .error fault => return .error fault
      | .ok _ => do
        match ← Host.makeDirectory path.toString with
        | .ok _ => return .ok ()
        | .error fault =>
          return if ← Host.isDirectory path.toString then .ok () else .error fault
    | .error fault =>
      return if ← Host.isDirectory path.toString then .ok () else .error fault

/-- A path and those above it, up to where a path has no name. -/
def Path.withParents (p : Path) : List Path :=
  (List.range p.parts.length).map fun n => { p with parts := p.parts.take (p.parts.length - n) }

/-- Makes a directory and those above it, unless they are there. -/
def createDirectories (p : Path) : m (Except FileFault Unit) := createMissing p.withParents

/-! ### Runs -/

/-- Appends bytes to the output file, in a directory that is made if it is not
there. -/
def writeOutput (path : String) (bytes : ByteArray) : m (Except RunError Unit) := do
  match ← createDirectories (((Path.ofString path).parent?).getD ⟨false, []⟩) with
  | .error fault => return .error (.directory fault)
  | .ok _ => do
    match ← Host.appendFile path bytes with
    | .ok _ => return .ok ()
    | .error (.unopened fault) => return .error (.unopened path fault)
    | .error (.unwritten fault) => return .error (.unwritten fault)

/-- Generates declarations as the configuration asks for. -/
def run (config : Config) (colors : Colors) : m (Except RunError Statistics) := do
  let journal : Journal := ⟨config, colors.palette⟩
  if config.removeExisting then
    journal.removal (← Host.removeFile config.output)
  journal.loading
  match ← loadSchemas config.source with
  | .error error => return .error (.load error)
  | .ok mapping => do
    let (collection, warnings) := Collection.ofFields mapping
    journal.generating collection
    journal.writing
    match generate collection warnings config.documentation {} with
    | .error fault _ => return .error (.refused fault)
    | .ok statistics sink => do
      match ← writeOutput config.output sink.held with
      | .error error => return .error error
      | .ok _ => do
        journal.report statistics
        journal.success
        return .ok statistics

end SchemaTypes
