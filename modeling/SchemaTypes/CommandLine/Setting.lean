import SchemaTypes.Console.Color

/-!
The settings of the command line.

* `Setting`: what an argument may set, with its names and its help;
* `Setting.accepts`: the values that it takes.
-/

namespace SchemaTypes

/-- What an argument may set or ask for. -/
inductive Setting where
  | url
  | output
  | typesOnly
  | withoutDocumentation
  | removeExisting
  | verbose
  | quiet
  | color
  | theme
  | help
  | version
deriving DecidableEq

namespace Setting

/-- All settings in the order of the help. -/
def all : List Setting :=
  [url, output, typesOnly, withoutDocumentation, removeExisting, verbose, quiet, color, theme, help,
    version]

def long : Setting → String
  | url => "url"
  | output => "output"
  | typesOnly => "types-only"
  | withoutDocumentation => "without-documentation"
  | removeExisting => "remove-existing"
  | verbose => "verbose"
  | quiet => "quiet"
  | color => "color"
  | theme => "theme"
  | help => "help"
  | version => "version"

def short? : Setting → Option Char
  | url => some 'u'
  | output => some 'o'
  | typesOnly => some 't'
  | withoutDocumentation => some 'd'
  | removeExisting => some 'r'
  | verbose => some 'v'
  | quiet => some 'q'
  | color => none
  | theme => none
  | help => some 'h'
  | version => some 'V'

/-- The name of the value, for settings that take one. -/
def valueName? : Setting → Option String
  | url => some "LOCATION"
  | output => some "FILE"
  | removeExisting => some "BOOL"
  | color => some "COLOR"
  | theme => some "THEME"
  | _ => none

def takesValue (s : Setting) : Bool := s.valueName?.isSome

/-- The values that a setting may have, where they are few. -/
def choices? : Setting → Option (List String)
  | removeExisting => some ["true", "false"]
  | color => some (ColorMode.all.map ColorMode.text)
  | theme => some (ThemeMode.all.map ThemeMode.text)
  | _ => none

/-- The value of a setting that is not given. -/
def default? : Setting → Option String
  | output => some "output.ts"
  | removeExisting => some "true"
  | color => some ColorMode.auto.text
  | theme => some ThemeMode.auto.text
  | _ => none

/-- Whether a setting takes a value. A file has a name. -/
def accepts (s : Setting) (value : String) : Bool :=
  match s.choices? with
  | some choices => choices.contains value
  | none => s ≠ output || value ≠ ""

/-- The setting as it is written: its long name and the name of its value. -/
def text (s : Setting) : String :=
  "--" ++ s.long ++ (s.valueName?.map fun name => s!" <{name}>").getD ""

def ofLong? (name : String) : Option Setting := all.find? (·.long = name)

def ofShort? (c : Char) : Option Setting := all.find? (·.short? = some c)

/-- What a setting does. -/
def description : Setting → String
  | url => "Location of the OpenAPI document: an http(s) URL or a local JSON/YAML file"
  | output => "Path the generated TypeScript declarations are appended to"
  | typesOnly => "Generate type declarations only (currently the only kind of output)"
  | withoutDocumentation => "Omit all documentation comment blocks"
  | removeExisting => "Delete an existing output file before generating"
  | verbose => "Enable verbose output, including warnings about malformed schemas"
  | quiet => "Suppress non-essential output (errors only)"
  | color => "Control color output"
  | theme => "Terminal theme (dark or light background)"
  | help => "Print help"
  | version => "Print version"

end Setting

end SchemaTypes
