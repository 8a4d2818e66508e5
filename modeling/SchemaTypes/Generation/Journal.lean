import SchemaTypes.Declaration.Statistics
import SchemaTypes.Generation.Config
import SchemaTypes.Generation.Host

/-!
What a run says.

* `Journal`: who is told, and in which colours;
* `info`, `detail`, `statistic`: lines on the standard output, none of them if
  the run is quiet, details only if it is verbose;
* `loading`, `generating`, `writing`, `report`, `success`: what is said at each
  stage; `report` also writes the warnings to the standard error.
-/

namespace SchemaTypes

/-- What is asked of a run, and the colours of what it says. -/
structure Journal where
  config : Config
  palette : Palette

namespace Journal

variable {m : Type → Type} [Monad m] [Host m]

/-! ### Lines -/

/-- A line behind the time of day. -/
def info (j : Journal) (message : String) : m Unit := do
  if !j.config.quiet then
    let time ← Host.timestamp
    Host.print (j.palette.timestamp.paint time ++ " " ++ message ++ "\n")

/-- A line for verbose runs. -/
def detail (j : Journal) (message : String) : m Unit := do
  if j.config.verbose then
    info j message

/-- The text of a statistic. -/
def statisticLine (palette : Palette) (label value : String) : String :=
  "            " ++ palette.label.paint label ++ " " ++ palette.value.paint value ++ "\n"

/-- A line of the statistics. -/
def statistic (j : Journal) (label value : String) : m Unit := do
  if !j.config.quiet then
    Host.print (statisticLine j.palette label value)

/-! ### Stages -/

def loading (j : Journal) : m Unit :=
  j.info (j.palette.primary.paint s!"Loading OpenAPI spec from: {j.config.source.text}")

def generating (j : Journal) (c : Collection) : m Unit := do
  if c.isEmpty then
    j.info (j.palette.accent.paint "No schemas found in components.schemas")
  j.info (j.palette.primary.paint s!"Generating TypeScript types for {c.size} schemas...")
  if j.config.typesOnly then
    j.detail "Types-only mode: type declarations are the only output"
  if !j.config.documentation then
    j.detail "Documentation blocks disabled"

def writing (j : Journal) : m Unit :=
  j.info (j.palette.primary.paint s!"Writing to: {j.config.output}")

/-- The text of a warning. -/
def warningLine (palette : Palette) (w : Warning) : String :=
  palette.accent.paint "Warning:" ++ " " ++ palette.primary.paint w.message ++ "\n"

/-- The warnings, for verbose runs. -/
def warnings (j : Journal) (found : List Warning) : m Unit := do
  if !found.isEmpty && j.config.verbose then
    Host.print "\n"
    found.forM fun w => Host.printError (warningLine j.palette w)

/-- The statistics of a run and its warnings. -/
def report (j : Journal) (s : Statistics) : m Unit := do
  if !j.config.quiet then
    j.statistic "Types generated:" (toString s.types)
    j.statistic "" s!"{s.records} object types"
    j.statistic "" s!"{s.unions} unions"
    j.statistic "" s!"{s.aliases} aliases"
    j.statistic "Properties:" (toString s.properties)
    if j.config.documentation then
      j.statistic "Documentation blocks:" (toString s.documentation)
    j.statistic "Lines written:" (toString s.lines)
    if !s.warnings.isEmpty then
      j.statistic "Warnings:" (toString s.warnings.length)
    j.warnings s.warnings

def success (j : Journal) : m Unit := do
  if !j.config.quiet then
    Host.print "\n"
    let time ← Host.timestamp
    Host.print (j.palette.timestamp.paint time ++ " "
      ++ j.palette.success.paint "Successfully generated TypeScript types" ++ "\n")

/-! ### Removal -/

/-- What became of the output file that was there before. -/
def removal (j : Journal) : Except FileFault Unit → m Unit
  | .ok _ => j.detail s!"Removed existing output: {j.config.output}"
  | .error .notFound => pure ()
  | .error fault =>
    j.detail s!"Could not remove existing output {j.config.output}: {fault.message}"

end Journal

end SchemaTypes
