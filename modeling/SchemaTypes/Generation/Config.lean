import SchemaTypes.CommandLine.Options
import SchemaTypes.Document.Location

/-!
What a run is asked to do.

* `Config`: the source, the output file, and what to do and say on the way;
* `Config.ofOptions`: as the command line asks for it.
-/

namespace SchemaTypes

/-- What a run is asked to do. -/
structure Config where
  source : Source
  output : String
  typesOnly : Bool
  documentation : Bool
  removeExisting : Bool
  verbose : Bool
  quiet : Bool
deriving DecidableEq

def Config.ofOptions (o : Options) : Config where
  source := .parse o.location
  output := o.output
  typesOnly := o.typesOnly
  documentation := !o.withoutDocumentation
  removeExisting := o.removeExisting
  verbose := o.verbose
  quiet := o.quiet

end SchemaTypes
