import SchemaTypes.Number.Digits
import SchemaTypes.Yaml.Cursor

/-!
Tokens of YAML text, one by one.

* `Yaml.Token`: scalars, marks and indicators;
* `readPlain`, `readQuoted`, `readBlockScalar`: the texts of scalars;
* `readTag`, `readAnchor`, `readDirective`: the properties of nodes and the
  directives of documents.
-/

namespace SchemaTypes.Yaml

/-- A token. The tokens of a block collection without any indicator of their
own stand where its indentation begins and ends. -/
inductive Token where
  | version (major minor : Nat)
  | tagHandle (handle : List Char) (stem : List Char)
  | documentStart
  | documentEnd
  | blockSequenceStart
  | blockMappingStart
  | blockEnd
  | flowSequenceStart
  | flowSequenceEnd
  | flowMappingStart
  | flowMappingEnd
  | blockEntry
  | flowEntry
  | key
  | value
  | alias (name : List Char)
  | anchor (name : List Char)
  | tag (handle : List Char) (suffix : List Char)
  | scalar (isPlain : Bool) (text : List Char)
deriving DecidableEq

/-! ### Plain scalars -/

def isFlowIndicator (c : Char) : Bool := [',', '[', ']', '\x7b', '\x7d'].contains c

/-- Takes one word of a plain scalar; `fuel` bounds the number of its
characters. -/
def plainWord (inFlow : Bool) : Nat → Cursor → Except Fault (List Char × Cursor)
  | 0, c => .ok ([], c)
  | fuel + 1, c =>
    match c.rest with
    | [] => .ok ([], c)
    | x :: _ =>
      if isGap x then .ok ([], c)
      else if inFlow && x = ':' && (c.ahead 1).any (fun y => isFlowIndicator y || y = '?') then
        .error .scalar
      else if (x = ':' && c.endsOr 1 isGap) || (inFlow && isFlowIndicator x) then .ok ([], c)
      else (plainWord inFlow fuel (c.skip 1)).map fun (cs, behind) => (x :: cs, behind)

/-- Takes words of a plain scalar whose lines are indented by `indent` at
least; `gap` stands before the next word and belongs to the scalar only if
there is one. Also tells whether a line break was passed behind the last
word. -/
def plainWords (inFlow : Bool) (indent : Int) :
    Nat → Gap → Cursor → Except Fault (List Char × Bool × Cursor)
  | 0, gap, c => .ok ([], gap.hasBreak, c)
  | fuel + 1, gap, c => do
    if c.isAtDocumentMark || c.isAt '#' then
      return ([], gap.hasBreak, c)
    let (word, c) ← plainWord inFlow c.rest.length c
    let start := if word.isEmpty then [] else gap.fold ++ word
    let gap := if word.isEmpty then gap else .blanks []
    if c.endsOr 0 (!isGap ·) then
      return (start, gap.hasBreak, c)
    let (gap, c) ← Gap.read indent c.rest.length gap c
    if !inFlow && (c.column : Int) < indent then
      return (start, gap.hasBreak, c)
    let (others, broken, c) ← plainWords inFlow indent fuel gap c
    return (start ++ others, broken, c)

/-- A plain scalar inside of a block of the given indentation. -/
def readPlain (inFlow : Bool) (indent : Int) (c : Cursor) :
    Except Fault (List Char × Bool × Cursor) :=
  plainWords inFlow (indent + 1) (c.rest.length + 1) (.blanks []) c

/-! ### Quoted scalars -/

/-- The number spelled by exactly `count` hexadecimal digits. -/
def hexNumber? (count : Nat) (cs : List Char) : Option Nat :=
  if count ≤ cs.length then natural? 16 (cs.take count) else none

/-- What a backslash and a character stand for. -/
inductive Escape where
  | char (c : Char)
  /-- So many hexadecimal digits follow. -/
  | digits (count : Nat)

def escape? : Char → Option Escape
  | '0' => some (.char '\x00')
  | 'a' => some (.char '\x07')
  | 'b' => some (.char '\x08')
  | 't' => some (.char '\t')
  | '\t' => some (.char '\t')
  | 'n' => some (.char '\n')
  | 'v' => some (.char '\x0b')
  | 'f' => some (.char '\x0c')
  | 'r' => some (.char '\r')
  | 'e' => some (.char '\x1b')
  | ' ' => some (.char ' ')
  | '"' => some (.char '"')
  | '/' => some (.char '/')
  | '\\' => some (.char '\\')
  | 'N' => some (.char '\u0085')
  | '_' => some (.char '\u00a0')
  | 'L' => some (.char '\u2028')
  | 'P' => some (.char '\u2029')
  | 'x' => some (.digits 2)
  | 'u' => some (.digits 4)
  | 'U' => some (.digits 8)
  | _ => none

/-- The character of an escape, and the place behind it. -/
def readEscape (c : Cursor) : Except Fault (Char × Cursor) :=
  match (c.ahead 1).bind escape? with
  | none => .error .scalar
  | some (.char x) => .ok (x, c.skip 2)
  | some (.digits count) =>
    match hexNumber? count (c.rest.drop 2) with
    | none => .error .scalar
    | some n =>
      if (0xD800 ≤ n ∧ n ≤ 0xDFFF) ∨ 0x10FFFF < n then .error .scalar
      else .ok (Char.ofNat n, c.skip (2 + count))

/-- Takes one word of a quoted scalar. Also tells whether an escaped line break
ended it. -/
def quotedWord (isSingle : Bool) : Nat → Cursor → Except Fault (List Char × Bool × Cursor)
  | 0, c => .ok ([], false, c)
  | fuel + 1, c =>
    let more (x : Char) (c : Cursor) : Except Fault (List Char × Bool × Cursor) :=
      (quotedWord isSingle fuel c).map fun (cs, broken, behind) => (x :: cs, broken, behind)
    match c.rest with
    | [] => .ok ([], false, c)
    | x :: _ =>
      if isGap x then .ok ([], false, c)
      else if isSingle then
        if x = '\'' then
          if c.ahead 1 = some '\'' then more '\'' (c.skip 2) else .ok ([], false, c)
        else more x (c.skip 1)
      else if x = '"' then .ok ([], false, c)
      else if x = '\\' then
        if (c.ahead 1).any isBreak then .ok ([], true, (c.skip 1).lineBreak.2)
        else
          match readEscape c with
          | .error fault => .error fault
          | .ok (y, behind) => more y behind
      else more x (c.skip 1)

/-- Takes the words of a quoted scalar up to and with its closing quote. -/
def quotedWords (isSingle : Bool) : Nat → Cursor → Except Fault (List Char × Cursor)
  | 0, _ => .error .scalar
  | fuel + 1, c => do
    if c.isAtDocumentMark || c.rest.isEmpty then
      throw .scalar
    let (word, broken, c) ← quotedWord isSingle c.rest.length c
    if c.isAt (if isSingle then '\'' else '"') then
      return (word, c.skip 1)
    let (gap, c) ← Gap.read 0 c.rest.length (if broken then .breaks [] [] else .blanks []) c
    let (others, c) ← quotedWords isSingle fuel c
    return (word ++ gap.fold ++ others, c)

/-- A quoted scalar from its opening quote on. -/
def readQuoted (isSingle : Bool) (c : Cursor) : Except Fault (List Char × Cursor) :=
  quotedWords isSingle (c.rest.length + 1) (c.skip 1)

/-! ### Block scalars -/

/-- What becomes of the line breaks at the end of a block scalar. -/
inductive Chomping where
  | strip
  | clip
  | keep
deriving DecidableEq

def chomping? : Option Char → Option Chomping
  | some '-' => some .strip
  | some '+' => some .keep
  | _ => none

/-- An explicit indentation, which is not zero. -/
def indentation? (c : Option Char) : Except Fault (Option Nat) :=
  match c with
  | some '0' => .error .scalar
  | some x => .ok (if x.isDigit then some (x.toNat - 0x30) else none)
  | none => .ok none

/-- The chomping and indentation indicators, in any order. -/
def readBlockHeader (c : Cursor) : Except Fault (Chomping × Option Nat × Cursor) :=
  match chomping? (c.ahead 0) with
  | some chomping => do
    let indentation ← indentation? (c.ahead 1)
    return (chomping, indentation, c.skip (if indentation.isSome then 2 else 1))
  | none => do
    match ← indentation? (c.ahead 0) with
    | none => return (.clip, none, c)
    | some n =>
      match chomping? (c.ahead 1) with
      | some chomping => return (chomping, some n, c.skip 2)
      | none => return (.clip, some n, c.skip 1)

/-- Takes empty lines and the indentation of the next line. While the
indentation is open (`none`) all spaces count as indentation; also gives the
greatest column reached. -/
def blockBreaks (indent : Option Nat) :
    Nat → Nat → Cursor → Except Fault (List Char × Nat × Cursor)
  | 0, widest, c => .ok ([], widest, c)
  | fuel + 1, widest, c =>
    let inside (c : Cursor) : Bool := indent.all (c.column < ·)
    let room := (indent.map (· - c.column)).getD c.rest.length
    let c := c.skip ((c.rest.takeWhile (· = ' ')).take room).length
    let widest := max widest c.column
    if inside c && c.isAt '\t' then .error .scalar
    else if c.rest.head?.any isBreak then
      let (text, behind) := c.lineBreak
      (blockBreaks indent fuel widest behind).map fun (others, result) => (text ++ others, result)
    else .ok ([], widest, c)

/-- Takes the lines of a block scalar. `newline` is the break before the next
line and `blank` the empty lines after it; `wasBlank` tells that the line
before began with a blank. Gives the text, and the breaks at its end. -/
def blockLines (isLiteral : Bool) (indent : Nat) :
    Nat → List Char → List Char → Bool → Cursor →
      Except Fault (List Char × List Char × List Char × Cursor)
  | 0, newline, blank, _, c => .ok ([], newline, blank, c)
  | fuel + 1, newline, blank, wasBlank, c => do
    if c.column ≠ indent || c.rest.isEmpty then
      return ([], newline, blank, c)
    let isBlank := c.rest.head?.any isBlankChar
    let gap : List Char :=
      if !isLiteral && newline = ['\n'] && !wasBlank && !isBlank then
        Gap.fold (.breaks newline blank)
      else newline ++ blank
    let (line, c) := c.span (!isBreak ·)
    let (newline, c) := c.lineBreak
    let (blank, _, c) ← blockBreaks (some indent) (c.rest.length + 1) 0 c
    let (others, newline, blank, c) ← blockLines isLiteral indent fuel newline blank isBlank c
    return (gap ++ line ++ others, newline, blank, c)

/-- A block scalar from its indicator on, inside of a block of the given
indentation. -/
def readBlockScalar (isLiteral : Bool) (parent : Int) (c : Cursor) :
    Except Fault (List Char × Cursor) := do
  let (chomping, indentation, c) ← readBlockHeader (c.skip 1)
  let c := c.skipComment
  if !c.endsOr 0 isBreak then
    throw .scalar
  let (_, c) := c.lineBreak
  let indent? := indentation.map fun n => (max parent 0).toNat + n
  let (blank, widest, c) ← blockBreaks indent? (c.rest.length + 1) 0 c
  let indent := indent?.getD (max widest (max (parent + 1).toNat 1))
  let (text, newline, blank, c) ← blockLines isLiteral indent (c.rest.length + 1) [] blank false c
  match chomping with
  | .strip => return (text, c)
  | .clip => return (text ++ newline, c)
  | .keep => return (text ++ newline ++ blank, c)

/-! ### Node properties and directives -/

/-- The name of an anchor or alias, from its indicator on. -/
def readAnchor (c : Cursor) : Except Fault (List Char × Cursor) :=
  let (name, c) := (c.skip 1).span isWordChar
  let ends (x : Char) : Bool := isGap x || ['?', ':', ',', ']', '\x7d', '%', '@', '`'].contains x
  if name.isEmpty || !c.endsOr 0 ends then .error .node else .ok (name, c)

/-- The characters of a tag; the last three only between angle brackets. -/
def isTagChar (isVerbatim : Bool) (c : Char) : Bool :=
  isWordChar c || [';', '/', '?', ':', '@', '&', '=', '+', '$', '.', '!', '~', '*', '\'', '(',
    ')'].contains c || (isVerbatim && [',', '[', ']'].contains c)

/-- The number of octets of the UTF-8 character with the given first octet. -/
def tagOctets? (n : Nat) : Option Nat :=
  if n < 0x80 then some 1
  else if 0xC0 ≤ n ∧ n < 0xE0 then some 2
  else if 0xE0 ≤ n ∧ n < 0xF0 then some 3
  else if 0xF0 ≤ n ∧ n < 0xF8 then some 4
  else none

/-- So many escaped octets that continue a character. -/
def continuationOctets : Nat → Cursor → Except Fault (List Char × Cursor)
  | 0, c => .ok ([], c)
  | count + 1, c =>
    match c.isAt '%', hexNumber? 2 (c.rest.drop 1) with
    | true, some n =>
      if 0x80 ≤ n ∧ n < 0xC0 then
        (continuationOctets count (c.skip 3)).map fun (cs, behind) => (Char.ofNat n :: cs, behind)
      else .error .tag
    | _, _ => .error .tag

/-- The text of a tag, each escaped octet as the character of that number. -/
def tagText (isVerbatim : Bool) : Nat → Cursor → Except Fault (List Char × Cursor)
  | 0, c => .ok ([], c)
  | fuel + 1, c =>
    match c.rest with
    | [] => .ok ([], c)
    | x :: _ =>
      if x = '%' then
        match hexNumber? 2 (c.rest.drop 1) with
        | none => .error .tag
        | some n =>
          match tagOctets? n with
          | none => .error .tag
          | some count => do
            let (others, c) ← continuationOctets (count - 1) (c.skip 3)
            let (rest, c) ← tagText isVerbatim fuel c
            return (Char.ofNat n :: others ++ rest, c)
      else if isTagChar isVerbatim x then
        (tagText isVerbatim fuel (c.skip 1)).map fun (cs, behind) => (x :: cs, behind)
      else .ok ([], c)

/-- A tag handle: `!`, or a word between two of them. Without the second one
it is the beginning of a local tag. -/
def readHandle (c : Cursor) : List Char × Cursor :=
  let (word, c) := (c.skip 1).span isWordChar
  if c.isAt '!' then ('!' :: word ++ ['!'], c.skip 1) else ('!' :: word, c)

/-- A tag as its handle and suffix. Verbatim tags, and the bare `!`, have an
empty handle. -/
def readTag (inFlow : Bool) (c : Cursor) : Except Fault (List Char × List Char × Cursor) := do
  let (handle, suffix, c) ←
    if c.ahead 1 = some '<' then do
      let (suffix, c) ← tagText true c.rest.length (c.skip 2)
      if suffix.isEmpty || !c.isAt '>' then
        throw .tag
      pure ([], suffix, c.skip 1)
    else do
      let (handle, c) := readHandle c
      let (text, c) ← tagText false c.rest.length c
      if 1 < handle.length ∧ handle.getLast? = some '!' then
        if text.isEmpty then
          throw .tag
        pure (handle, text, c)
      else
        let suffix := handle.drop 1 ++ text
        pure (if suffix.isEmpty then ([], ['!'], c) else (['!'], suffix, c))
  if !c.endsOr 0 isGap && !(inFlow && c.isAt ',') then
    throw .tag
  return (handle, suffix, c)

/-- A decimal number of up to nine digits. -/
def readVersionNumber (c : Cursor) : Except Fault (Nat × Cursor) :=
  let (digits, c) := c.span Char.isDigit
  match natural? 10 digits with
  | some n => if digits.isEmpty || 9 < digits.length then .error .directive else .ok (n, c)
  | none => .error .directive

/-- A directive from its `%` to the end of its line. -/
def readDirective (c : Cursor) : Except Fault (Token × Cursor) := do
  let (name, c) := (c.skip 1).span isWordChar
  if name.isEmpty || !c.endsOr 0 isGap then
    throw .directive
  let (token, c) ←
    if name = "YAML".toList then do
      let (major, c) ← readVersionNumber (c.skipWhile isBlankChar)
      if !c.isAt '.' then
        throw .directive
      let (minor, c) ← readVersionNumber (c.skip 1)
      pure (Token.version major minor, c)
    else if name = "TAG".toList then do
      let c := c.skipWhile isBlankChar
      if !c.isAt '!' then
        throw .directive
      let (handle, c) := readHandle c
      if (1 < handle.length ∧ handle.getLast? ≠ some '!') || !(c.ahead 0).any isBlankChar then
        throw .directive
      let c := c.skipWhile isBlankChar
      let (stem, c) ← tagText true c.rest.length c
      if stem.isEmpty || !c.endsOr 0 isGap then
        throw .directive
      pure (Token.tagHandle handle stem, c)
    else throw .directive
  let c := c.skipComment
  if !c.endsOr 0 isBreak then
    throw .directive
  return (token, c.lineBreak.2)

end SchemaTypes.Yaml
