import SchemaTypes.CommandLine.Setting
import SchemaTypes.Text.Join

/-!
What the command line answers by itself.

* `UsageError`: why arguments are refused, and the first line of the text;
* `helpText`, `versionText`: the answers to `--help` and `--version`;
* `Style`: the styles of these texts, in the colours of a dark terminal.
-/

namespace SchemaTypes

/-- The name of the program. -/
def programName : String := "swagger-ts-gen"

/-! ### Styles -/

/-- A style of text: whether it is bold or underlined, and its colour. -/
structure Style where
  bold : Bool := false
  underline : Bool := false
  color : Color
deriving DecidableEq

namespace Style

def header : Style := { bold := true, underline := true, color := Palette.dark.label }

def usage : Style := { bold := true, color := Palette.dark.label }

def literal : Style := { color := Palette.dark.success }

def placeholder : Style := { color := Palette.dark.primary }

def error : Style := { bold := true, color := Palette.dark.accent }

def invalid : Style := error

/-- A text in a style, if styles are wanted. -/
def apply (styled : Bool) (style : Style) (text : String) : String :=
  if styled then
    (if style.bold then "\x1b[1m" else "") ++ (if style.underline then "\x1b[4m" else "")
      ++ style.color.code ++ text ++ "\x1b[0m"
  else text

end Style

/-! ### Errors -/

/-- Why arguments are refused. -/
inductive UsageError where
  | missingUrl
  | unknownArgument (text : String)
  | valueRequired (setting : Setting)
  | invalidValue (setting : Setting) (value : String)
  | repeatedArgument (setting : Setting)
  | conflict (first second : Setting)
  | unexpectedValue (setting : Setting) (value : String)
deriving DecidableEq

/-- The first line of the text of an error. -/
def UsageError.message (styled : Bool) (e : UsageError) : String :=
  let invalid := Style.invalid.apply styled
  let literal := Style.literal.apply styled
  Style.error.apply styled "error:" ++ " " ++
    match e with
    | missingUrl => "the following required arguments were not provided:"
    | unknownArgument text => s!"unexpected argument '{invalid text}' found"
    | valueRequired setting =>
      s!"a value is required for '{invalid setting.text}' but none was supplied"
    | invalidValue setting value =>
      s!"invalid value '{invalid value}' for '{literal setting.text}'"
    | repeatedArgument setting =>
      s!"the argument '{invalid setting.text}' cannot be used multiple times"
    | conflict first second =>
      s!"the argument '{invalid first.text}' cannot be used with '{invalid second.text}'"
    | unexpectedValue setting value =>
      s!"unexpected value '{invalid value}' for '{literal setting.text}' found; " ++
        "no more were expected"

/-! ### Help -/

/-- The name of a value behind its setting. -/
def valueHelp (styled : Bool) (s : Setting) : String :=
  match s.valueName? with
  | some name =>
    Style.placeholder.apply styled " " ++ Style.placeholder.apply styled s!"<{name}>"
  | none => ""

/-- The names of a setting; `styled` or as they are counted for alignment. -/
def namesHelp (styled : Bool) (s : Setting) : String :=
  (match s.short? with
    | some c => Style.literal.apply styled ("-" ++ String.singleton c) ++ ", "
    | none => "    ")
    ++ Style.literal.apply styled ("--" ++ s.long) ++ valueHelp styled s

/-- The width of the column of names. -/
def namesWidth : Nat := (Setting.all.map fun s => (namesHelp false s).length).foldl max 0

/-- What a setting does, its value if it is not given, and its values. -/
def descriptionHelp (s : Setting) : String :=
  s.description
    ++ (s.default?.map fun value => s!" [default: {value}]").getD ""
    ++ (s.choices?.map fun choices =>
      " [possible values: " ++ joinWith ", " choices ++ "]").getD ""

/-- One line of the help. -/
def settingHelp (styled : Bool) (s : Setting) : String :=
  let padding := namesWidth - (namesHelp false s).length + 2
  "  " ++ namesHelp styled s ++ String.ofList (List.replicate padding ' ') ++ descriptionHelp s
    ++ "\n"

/-- The answer to `--help`. -/
def helpText (styled : Bool) : String :=
  "Swagger model generator for TypeScript\n\n"
    ++ Style.usage.apply styled "Usage:" ++ " " ++ Style.literal.apply styled programName ++ " "
    ++ Style.placeholder.apply styled "[OPTIONS]" ++ " "
    ++ Style.literal.apply styled ("--" ++ Setting.url.long) ++ valueHelp styled .url ++ "\n\n"
    ++ Style.header.apply styled "Options:" ++ "\n"
    ++ String.join (Setting.all.map (settingHelp styled))

/-- The answer to `--version`. -/
def versionText : String := programName ++ " 0.1.0\n"

end SchemaTypes
