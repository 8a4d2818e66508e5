import SchemaTypes.Number.Digits
import SchemaTypes.Text.Split

/-!
Colours of console output.

* `ColorMode`, `ThemeMode`: what the user asks for;
* `Theme.detect`: the theme of a terminal, by the background that `COLORFGBG`
  tells;
* `Palette`: the colours of a theme, `Colors`: those in use;
* `Color.paint`: a text in a colour.
-/

namespace SchemaTypes

/-- When output is coloured. -/
inductive ColorMode where
  | always
  | auto
  | never
deriving DecidableEq

namespace ColorMode

def text : ColorMode → String
  | always => "always"
  | auto => "auto"
  | never => "never"

def all : List ColorMode := [always, auto, never]

/-- Whether output is coloured; by itself on a terminal only. -/
def isEnabled (mode : ColorMode) (onTerminal : Bool) : Bool :=
  match mode with
  | always => true
  | auto => onTerminal
  | never => false

end ColorMode

/-- The background of a terminal. -/
inductive Theme where
  | dark
  | light
deriving DecidableEq

/-- The theme that the user asks for. -/
inductive ThemeMode where
  | dark
  | light
  | auto
deriving DecidableEq

namespace ThemeMode

def text : ThemeMode → String
  | dark => "dark"
  | light => "light"
  | auto => "auto"

def all : List ThemeMode := [dark, light, auto]

end ThemeMode

namespace Theme

/-- The octet spelled by decimal digits behind an optional plus sign. -/
def octet? (cs : List Char) : Option Nat :=
  let digits :=
    match cs with
    | '+' :: rest => rest
    | _ => cs
  if digits.isEmpty then none else (natural? 10 digits).filter (· < 256)

/-- The theme of a palette index behind the last semicolon: from eight on the
background is light. -/
def ofBackground? (text : String) : Option Theme :=
  (octet? (afterLast ';' text.toList)).map fun n =>
    if 8 ≤ n then light else dark

/-- The theme asked for, or else that of the background; dark if unknown. -/
def detect (mode : ThemeMode) (background : Option String) : Theme :=
  match mode with
  | .dark => dark
  | .light => light
  | .auto => (background.bind ofBackground?).getD dark

end Theme

/-- A colour of text. -/
inductive Color where
  | rgb (red green blue : Nat)
  | reset
deriving DecidableEq

namespace Color

/-- The escape that sets a colour. -/
def code : Color → String
  | rgb red green blue => s!"\x1b[38;2;{red};{green};{blue}m"
  | reset => "\x1b[39m"

/-- A text in a colour, and the usual colour behind it. -/
def paint (color : Color) (text : String) : String := color.code ++ text ++ reset.code

end Color

/-- The colours of a theme. -/
structure Palette where
  timestamp : Color
  primary : Color
  accent : Color
  success : Color
  label : Color
  value : Color
deriving DecidableEq

namespace Palette

def dark : Palette where
  timestamp := .rgb 118 166 166
  primary := .rgb 191 126 4
  accent := .rgb 166 84 55
  success := .rgb 118 166 166
  label := .rgb 217 164 4
  value := .rgb 242 211 56

def light : Palette where
  timestamp := .rgb 92 62 38
  primary := .rgb 70 42 25
  accent := .rgb 211 99 70
  success := .rgb 34 142 90
  label := .rgb 176 103 66
  value := .rgb 199 146 76

/-- The palette that changes nothing. -/
def plain : Palette := ⟨.reset, .reset, .reset, .reset, .reset, .reset⟩

end Palette

/-- The colours in use. -/
structure Colors where
  enabled : Bool
  theme : Theme
deriving DecidableEq

/-- The palette in use. -/
def Colors.palette (c : Colors) : Palette :=
  if !c.enabled then .plain
  else
    match c.theme with
    | .dark => .dark
    | .light => .light

end SchemaTypes
