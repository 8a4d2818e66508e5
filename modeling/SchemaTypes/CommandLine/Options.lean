import SchemaTypes.CommandLine.Usage

/-!
Arguments of the command line.

* `Options`: the values of all settings;
* `Stop`: what ends the reading of arguments early;
* `Parsing`: reading arguments one by one. The value of a setting is checked
  when the next setting begins, so that an unknown argument in between is
  refused first;
* `Options.parse`: the options that arguments spell.
-/

namespace SchemaTypes

/-- The values of all settings. -/
structure Options where
  location : String
  output : String
  typesOnly : Bool
  withoutDocumentation : Bool
  removeExisting : Bool
  verbose : Bool
  quiet : Bool
  color : ColorMode
  theme : ThemeMode
deriving DecidableEq

/-- Why there are no options. -/
inductive Stop where
  | help
  | version
  | misuse (error : UsageError)
deriving DecidableEq

/-- The settings given so far with their values, and the setting whose value is
not checked yet or still to come. -/
structure Progress where
  given : List (Setting × String) := []
  pending : Option (Setting × Option String) := none

/-- A step of reading arguments. -/
abbrev Parsing := StateT Progress (Except Stop)

namespace Parsing

def refuse {α : Type} (e : UsageError) : Parsing α := throw (.misuse e)

/-- Gives a setting its value, for the first time and if it takes that
value. -/
def give (s : Setting) (value : String) : Parsing Unit := do
  let progress ← get
  if (progress.given.lookup s).isSome then
    refuse (.repeatedArgument s)
  if !s.accepts value then
    refuse (if value = "" then .valueRequired s else .invalidValue s value)
  set { progress with given := progress.given ++ [(s, value)] }

/-- Checks the value that has been taken last. -/
def settle : Parsing Unit := do
  let progress ← get
  set { progress with pending := none }
  match progress.pending with
  | none => pure ()
  | some (s, none) => refuse (.valueRequired s)
  | some (s, some value) => give s value

/-- Takes a setting without value. -/
def takeFlag (s : Setting) : Parsing Unit := do
  settle
  match s with
  | .help => throw .help
  | .version => throw .version
  | _ => give s "true"

/-- Takes a setting with the value that is attached to it, or with the next
argument as its value. -/
def takeValue (s : Setting) (attached : Option String) : Parsing Unit := do
  settle
  match attached with
  | some value => give s value
  | none => modify fun progress => { progress with pending := some (s, none) }

/-- Takes an argument by its long name, without the dashes. -/
def takeLong (text : List Char) : Parsing Unit := do
  let name := String.ofList (text.takeWhile (· ≠ '='))
  let attached := (text.dropWhile (· ≠ '=')).tail?.map String.ofList
  match Setting.ofLong? name with
  | none => refuse (.unknownArgument ("--" ++ name))
  | some s =>
    if s.takesValue then takeValue s attached
    else
      match attached with
      | some value => refuse (.unexpectedValue s value)
      | none => takeFlag s

/-- Takes short names that are written together; the text behind the first one
that takes a value is its value. -/
def takeShort : List Char → Parsing Unit
  | [] => pure ()
  | c :: rest => do
    match Setting.ofShort? c with
    | none => refuse (.unknownArgument (String.ofList ['-', c]))
    | some s =>
      if s.takesValue then
        let attached :=
          match rest with
          | [] => none
          | '=' :: value => some (String.ofList value)
          | value => some (String.ofList value)
        takeValue s attached
      else do
        takeFlag s
        takeShort rest

/-- Takes an argument without dashes, which can only be the value of the setting
before it. -/
def takeWord (text : String) : Parsing Unit := do
  match (← get).pending with
  | some (s, none) => modify fun progress => { progress with pending := some (s, some text) }
  | _ => refuse (.unknownArgument text)

/-- Takes arguments in order. Behind `--` no settings follow. -/
def takeAll : List String → Parsing Unit
  | [] => settle
  | text :: rest => do
    match text.toList with
    | ['-', '-'] =>
      match rest with
      | [] => settle
      | word :: _ => refuse (.unknownArgument word)
    | '-' :: '-' :: name => do
      takeLong name
      takeAll rest
    | '-' :: c :: names => do
      takeShort (c :: names)
      takeAll rest
    | _ => do
      takeWord text
      takeAll rest

end Parsing

namespace Options

/-- The first of the given settings that excludes another one, with that
one. -/
def conflict? (given : List (Setting × String)) : Option (Setting × Setting) :=
  match (given.map (·.1)).filter fun s => s = .verbose || s = .quiet with
  | first :: second :: _ => some (first, second)
  | _ => none

/-- The options with the given settings; the others take the values that go
without saying. -/
def ofGiven (location : String) (given : List (Setting × String)) : Options :=
  let value (s : Setting) : String := ((given.lookup s).or s.default?).getD ""
  { location
    output := value .output
    typesOnly := value .typesOnly = "true"
    withoutDocumentation := value .withoutDocumentation = "true"
    removeExisting := value .removeExisting = "true"
    verbose := value .verbose = "true"
    quiet := value .quiet = "true"
    color := (ColorMode.all.find? (·.text = value .color)).getD .auto
    theme := (ThemeMode.all.find? (·.text = value .theme)).getD .auto }

/-- The options that arguments spell. -/
def parse (arguments : List String) : Except Stop Options := do
  let (_, progress) ← (Parsing.takeAll arguments).run {}
  match conflict? progress.given with
  | some (first, second) => throw (.misuse (.conflict first second))
  | none =>
    match progress.given.lookup .url with
    | some location => return ofGiven location progress.given
    | none => throw (.misuse .missingUrl)

end Options

end SchemaTypes
