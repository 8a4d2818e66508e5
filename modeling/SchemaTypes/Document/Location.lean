import SchemaTypes.Files.Path
import SchemaTypes.Url.Basic

/-!
Where documents come from.

* `Format`: JSON or YAML, by the extension of a path;
* `Source`: a web address, or the path of a file;
* `Source.parse`: `http` and `https` addresses are remote, all else names a file.
-/

namespace SchemaTypes

/-- The formats of documents. -/
inductive Format where
  | json
  | yaml
deriving DecidableEq

namespace Format

/-- Documents are JSON unless the extension says YAML. -/
def ofExtension (extension : String) : Format :=
  if extension = "yaml" ∨ extension = "yml" then yaml else json

def ofPath (path : String) : Format :=
  ((Path.ofString path).extension?.map ofExtension).getD json

end Format

/-- Where a document comes from. -/
inductive Source where
  | remote (address : Url)
  | file (path : String)
deriving DecidableEq

namespace Source

/-- The source that a location names. -/
def parse (location : String) : Source :=
  match Url.parse? location with
  | some address => remote address
  | none => file location

/-- The format of the document at a source. -/
def format : Source → Format
  | remote address => .ofPath (String.ofList address.path)
  | file path => .ofPath path

def text : Source → String
  | remote address => address.text
  | file path => path

end Source

end SchemaTypes
