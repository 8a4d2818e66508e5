import SchemaTypes.Document.Location
import SchemaTypes.Files.Fault
import SchemaTypes.Json.Reader
import SchemaTypes.Yaml.Document

/-!
Reading documents.

* `LoadError`: why there are no schemas to be had from a source, with the
  causes behind it;
* `parseDocument`: the value of a document of either format;
* `componentSchemas`: the mapping of schemas in a document; nothing else of it
  counts.
-/

namespace SchemaTypes

/-- Why there are no schemas to be had from a source. -/
inductive LoadError where
  | fetch (address : Url)
  | unreadable (path : String) (fault : ReadFault)
  | notUtf8 (fault : Utf8.Fault)
  | json (error : Json.ReadError)
  | yaml (fault : Yaml.Fault)
  | missingSchemas
deriving DecidableEq

namespace LoadError

/-- The causes behind an error, the nearest first. -/
def causes : LoadError → List String
  | fetch _ => ["error sending request"]
  | unreadable path (.unopened fault) =>
    [s!"{path}: unable to open file: {fault.message}: IO error",
      s!"{fault.message}: IO error", fault.message]
  | unreadable _ (.unmapped fault) => [s!"{fault.message}: mmap failed", fault.message]
  | notUtf8 fault => [fault.message]
  | json error => [error.message]
  | yaml fault => [fault.message]
  | missingSchemas => []

/-- The text of an error; all but the last kind end with the nearest cause. -/
def message (e : LoadError) : String :=
  let cause := e.causes.headD ""
  match e with
  | fetch address => s!"failed to fetch {address.text}: {cause}"
  | unreadable path _ => s!"failed to read {path}: {cause}"
  | notUtf8 _ => s!"document is not valid UTF-8: {cause}"
  | json _ => s!"failed to parse JSON document: {cause}"
  | yaml _ => s!"failed to parse YAML document: {cause}"
  | missingSchemas => "document has no `components.schemas` mapping"

end LoadError

/-- The value of a document. Only YAML has to be UTF-8 throughout. -/
def parseDocument (format : Format) (bytes : List UInt8) : Except LoadError Json :=
  match format with
  | .json => (Json.read bytes).mapError .json
  | .yaml =>
    match Utf8.decode bytes with
    | .error fault => .error (.notUtf8 fault)
    | .ok text => (Yaml.read text).mapError .yaml

/-- The mapping at `components.schemas`. -/
def componentSchemas (document : Json) : Except LoadError Fields :=
  let schemas := do
    let components ← (← document.fields?).get? "components"
    (← components.fields?).get? "schemas"
  match schemas with
  | some (.obj mapping) => .ok mapping
  | _ => .error .missingSchemas

end SchemaTypes
