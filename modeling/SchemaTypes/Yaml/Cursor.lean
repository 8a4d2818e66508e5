/-!
Places in YAML text.

* `Yaml.Fault`: why a text is no YAML document;
* `Yaml.isBreak`, `Yaml.isGap`: line breaks, and what may stand between words;
* `Yaml.Cursor`: what is left of the text, and where that is;
* `Yaml.Gap`: the blanks and line breaks between two words of a scalar, and the
  text that they fold into.
-/

namespace SchemaTypes.Yaml

/-- Why a text is no YAML document. -/
inductive Fault where
  | character
  | token
  | simpleKey
  | directive
  | tag
  | scalar
  | node
  | document
  | unknownAnchor
  | severalDocuments
  | localTag
  | scalarType
  | integerRange
  | keyNotScalar
  | recursionLimit
  | repetitionLimit
deriving DecidableEq

def Fault.message : Fault → String
  | character => "control characters are not allowed"
  | token => "found character that cannot start any token"
  | simpleKey => "could not find expected ':'"
  | directive => "found malformed directive"
  | tag => "found malformed tag"
  | scalar => "found malformed scalar"
  | node => "did not find expected node content"
  | document => "did not find expected <document start>"
  | unknownAnchor => "unknown anchor"
  | severalDocuments => "more than one document is not supported"
  | localTag => "local tags are not supported"
  | scalarType => "value does not fit its tag"
  | integerRange => "integer is out of range"
  | keyNotScalar => "key is not a scalar"
  | recursionLimit => "recursion limit exceeded"
  | repetitionLimit => "repetition limit exceeded"

/-! ### Characters -/

/-- Whether a character may stand in a document. -/
def isAllowed (c : Char) : Bool :=
  let n := c.toNat
  n = 0x09 || n = 0x0A || n = 0x0D || (0x20 ≤ n && n ≤ 0x7E) || n = 0x85 ||
    (0xA0 ≤ n && n ≤ 0xD7FF) || (0xE000 ≤ n && n ≤ 0xFFFD && n ≠ 0xFEFF) || 0x10000 ≤ n

def isBlankChar (c : Char) : Bool := c = ' ' || c = '\t'

/-- Line feed, carriage return, next line, line separator and paragraph
separator. -/
def isBreak (c : Char) : Bool :=
  c = '\n' || c = '\r' || c.toNat = 0x85 || c.toNat = 0x2028 || c.toNat = 0x2029

/-- A blank or a line break. -/
def isGap (c : Char) : Bool := isBlankChar c || isBreak c

def isWordChar (c : Char) : Bool := c.isAlphanum || c = '_' || c = '-'

/-! ### Cursors -/

/-- A place in a text. Line, column and index count from zero. -/
structure Cursor where
  rest : List Char
  index : Nat := 0
  line : Nat := 0
  column : Nat := 0

namespace Cursor

/-- The character `n` places ahead. -/
def ahead (c : Cursor) (n : Nat) : Option Char := c.rest[n]?

def isAt (c : Cursor) (x : Char) : Bool := c.rest.head? = some x

/-- Whether the text ends `n` places ahead, or has a character with the given
property there. -/
def endsOr (c : Cursor) (n : Nat) (p : Char → Bool) : Bool := (c.ahead n).all p

/-- Passes `n` characters of the same line. -/
def skip (c : Cursor) (n : Nat) : Cursor :=
  { c with rest := c.rest.drop n, index := c.index + n, column := c.column + n }

/-- The longest run of characters with a property that no line break has, and
the place behind it. -/
def span (c : Cursor) (p : Char → Bool) : List Char × Cursor :=
  let run := c.rest.takeWhile p
  (run, c.skip run.length)

/-- Passes the longest run of characters with a property. -/
def skipWhile (c : Cursor) (p : Char → Bool) : Cursor := (c.span p).2

/-- A line break as text, and the place behind it. A carriage return and a
line feed are one break; the breaks of ASCII and next line are read as a line
feed. -/
def lineBreak (c : Cursor) : List Char × Cursor :=
  match c.rest with
  | '\r' :: '\n' :: rest => (['\n'], ⟨rest, c.index + 2, c.line + 1, 0⟩)
  | x :: rest =>
    if isBreak x then
      ([if x.toNat = 0x2028 ∨ x.toNat = 0x2029 then x else '\n'],
        ⟨rest, c.index + 1, c.line + 1, 0⟩)
    else ([], c)
  | [] => ([], c)

/-- Passes blanks and a comment behind them. -/
def skipComment (c : Cursor) : Cursor :=
  let c := c.skipWhile isBlankChar
  if c.isAt '#' then c.skipWhile (!isBreak ·) else c

/-- Whether a line begins here with the given mark three times and nothing
right behind it. -/
def isAtMark (c : Cursor) (x : Char) : Bool :=
  c.column = 0 && c.rest.take 3 = [x, x, x] && c.endsOr 3 isGap

/-- Whether a line begins here with the mark of a document's start or end. -/
def isAtDocumentMark (c : Cursor) : Bool := c.isAtMark '-' || c.isAtMark '.'

end Cursor

/-! ### Gaps -/

/-- What stands between two words of a scalar. -/
inductive Gap where
  | blanks (text : List Char)
  /-- The first line break, and the ones after it. -/
  | breaks (first : List Char) (others : List Char)

namespace Gap

/-- A gap as text. One line break folds into a space, several ones lose the
first; the breaks beyond ASCII are kept. -/
def fold : Gap → List Char
  | blanks text => text
  | breaks ['\n'] [] => [' ']
  | breaks ['\n'] others => others
  | breaks first others => first ++ others

def hasBreak : Gap → Bool
  | blanks _ => false
  | breaks _ _ => true

/-- Takes blanks and line breaks as far as they go. Behind a line break, no
tab may stand in a column below `indent`. Every step takes a character, so
that `fuel` can be the length of the text. -/
def read (indent : Int) : Nat → Gap → Cursor → Except Fault (Gap × Cursor)
  | 0, gap, c => .ok (gap, c)
  | fuel + 1, gap, c =>
    match c.rest with
    | [] => .ok (gap, c)
    | x :: _ =>
      if isBlankChar x then
        match gap with
        | blanks text => read indent fuel (blanks (text ++ [x])) (c.skip 1)
        | breaks first others =>
          if x = '\t' ∧ (c.column : Int) < indent then .error .scalar
          else read indent fuel (breaks first others) (c.skip 1)
      else if isBreak x then
        let (text, behind) := c.lineBreak
        match gap with
        | blanks _ => read indent fuel (breaks text []) behind
        | breaks first others => read indent fuel (breaks first (others ++ text)) behind
      else .ok (gap, c)

end Gap

end SchemaTypes.Yaml
