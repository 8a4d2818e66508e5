import SchemaTypes.Yaml.Token

/-!
The tokens of a YAML text.

* `Yaml.Layout`: the tokens so far, the open blocks with their indentation, and
  the places at which a key without indicator may have begun;
* `Layout.openBlock`, `Layout.closeBlocks`: tokens for the beginning and the
  end of indentation;
* `Layout.step`: one more token. A `:` behind a possible key puts the key's
  token, and that of its block, in front of the key;
* `Yaml.tokens`: all of them.
-/

namespace SchemaTypes.Yaml

/-- A place at which a key may have begun: the number of tokens before it, and
where it is. A key that begins where its block is indented is required: no
other kind of node may begin there. -/
structure KeyPlace where
  tokens : Nat
  index : Nat
  line : Nat
  column : Nat
  isRequired : Bool

/-- The tokens so far and what is open. Outside of all blocks the indentation
is `-1`; the possible keys are those of the open flow collections, the
innermost first, and of the block around them. -/
structure Layout where
  cursor : Cursor
  tokens : Array Token := #[]
  indent : Int := -1
  outer : List Int := []
  depth : Nat := 0
  keyAllowed : Bool := true
  keys : List (Option KeyPlace) := [none]

namespace Layout

def inFlow (s : Layout) : Bool := s.depth ≠ 0

def push (s : Layout) (token : Token) : Layout := { s with tokens := s.tokens.push token }

/-! ### Blocks -/

/-- Ends the blocks that are indented further than `column`. -/
def closeFrom (column : Int) : List Int → Int → Array Token → List Int × Int × Array Token
  | outer, indent, tokens =>
    if indent ≤ column then (outer, indent, tokens)
    else
      match outer with
      | [] => ([], -1, tokens.push .blockEnd)
      | before :: rest => closeFrom column rest before (tokens.push .blockEnd)

/-- Ends the blocks that are indented further than `column`; in flow
collections indentation does not count. -/
def closeBlocks (s : Layout) (column : Int) : Layout :=
  if s.inFlow then s
  else
    let (outer, indent, tokens) := closeFrom column s.outer s.indent s.tokens
    { s with outer, indent, tokens }

/-- Begins a block at `column` in front of the token number `place`, unless a
block is indented as far. -/
def openBlock (s : Layout) (column : Nat) (place : Nat) (token : Token) : Layout :=
  if s.inFlow || (column : Int) ≤ s.indent then s
  else
    { s with
      outer := s.indent :: s.outer
      indent := column
      tokens := s.tokens.insertIdxIfInBounds place token }

/-! ### Keys -/

/-- Gives up the innermost possible key. -/
def dropKey (s : Layout) : Except Fault Layout :=
  match s.keys with
  | some key :: rest =>
    if key.isRequired then .error .simpleKey else .ok { s with keys := none :: rest }
  | _ => .ok s

/-- Notes that a key may begin here. -/
def noteKey (s : Layout) : Except Fault Layout :=
  if s.keyAllowed then do
    let c := s.cursor
    let key : KeyPlace :=
      ⟨s.tokens.size, c.index, c.line, c.column, !s.inFlow && s.indent = c.column⟩
    let s ← s.dropKey
    return { s with keys := some key :: s.keys.drop 1 }
  else .ok s

/-- A key lies on one line and is not longer than 1024 characters. -/
def KeyPlace.isStale (key : KeyPlace) (c : Cursor) : Bool :=
  key.line < c.line || key.index + 1024 < c.index

/-- Gives up the possible keys that have become too long. -/
def dropStaleKeys (s : Layout) : Except Fault Layout := do
  let keys ← s.keys.mapM fun key? =>
    match key? with
    | some key =>
      if KeyPlace.isStale key s.cursor then
        if key.isRequired then throw Fault.simpleKey else pure none
      else pure (some key)
    | none => pure none
  return { s with keys }

/-! ### Steps -/

/-- Passes blanks, comments and line breaks up to the next token. Tabs count as
blanks where no key may begin. -/
def skipToToken : Nat → Layout → Layout
  | 0, s => s
  | fuel + 1, s =>
    let blank (x : Char) : Bool := x = ' ' || ((s.inFlow || !s.keyAllowed) && x = '\t')
    let c := s.cursor.skipWhile blank
    let c := if c.isAt '#' then c.skipWhile (!isBreak ·) else c
    if c.rest.head?.any isBreak then
      skipToToken fuel
        { s with cursor := c.lineBreak.2, keyAllowed := s.keyAllowed || !s.inFlow }
    else { s with cursor := c }

/-- Takes an indicator of the given length. -/
def indicator (s : Layout) (token : Token) (length : Nat) (keyAllowed : Bool) : Layout :=
  { s.push token with cursor := s.cursor.skip length, keyAllowed }

/-- A directive or the mark of a document's start or end, which ends all
blocks. -/
def outermost (s : Layout) : Except Fault Layout := do
  let s ← (s.closeBlocks (-1)).dropKey
  return { s with keyAllowed := false }

/-- The beginning of a flow collection, which may itself be a key. -/
def openFlow (s : Layout) (token : Token) : Except Fault Layout := do
  let s ← s.noteKey
  return { s.indicator token 1 true with keys := none :: s.keys, depth := s.depth + 1 }

/-- The end of a flow collection. -/
def closeFlow (s : Layout) (token : Token) : Except Fault Layout := do
  let s ← s.dropKey
  let s := s.indicator token 1 false
  if s.inFlow then return { s with keys := s.keys.drop 1, depth := s.depth - 1 } else return s

/-- The indicator of an entry, or of a key, that begins at the start of a
line. -/
def openEntry (s : Layout) (block token : Token) (keyAllowed : Bool) : Except Fault Layout := do
  if !s.inFlow && !s.keyAllowed then
    throw .token
  let s ← (s.openBlock s.cursor.column s.tokens.size block).dropKey
  return s.indicator token 1 keyAllowed

/-- The indicator of a value. -/
def value (s : Layout) : Except Fault Layout :=
  match s.keys with
  | some key :: rest =>
    let s := { s with tokens := s.tokens.insertIdxIfInBounds key.tokens .key, keys := none :: rest }
    .ok ((s.openBlock key.column key.tokens .blockMappingStart).indicator .value 1 false)
  | _ => do
    if !s.inFlow && !s.keyAllowed then
      throw .token
    let s := s.openBlock s.cursor.column s.tokens.size .blockMappingStart
    return s.indicator .value 1 (!s.inFlow)

/-- A token with a text, which may be a key or the property of one. -/
def word (s : Layout) (read : Cursor → Except Fault (Token × Cursor)) : Except Fault Layout := do
  let s ← s.noteKey
  let (token, cursor) ← read s.cursor
  return { s.push token with cursor, keyAllowed := false }

/-- A quoted scalar. -/
def quoted (s : Layout) (isSingle : Bool) : Except Fault Layout :=
  s.word fun c => (readQuoted isSingle c).map fun (text, c) => (.scalar false text, c)

/-- A plain scalar. Behind a line break a key may begin. -/
def plain (s : Layout) : Except Fault Layout := do
  let s ← s.noteKey
  let (text, broken, cursor) ← readPlain s.inFlow s.indent s.cursor
  return { s.push (.scalar true text) with cursor, keyAllowed := broken }

/-- A block scalar, which is no key. -/
def blockScalar (s : Layout) (isLiteral : Bool) : Except Fault Layout := do
  let s ← s.dropKey
  let (text, cursor) ← readBlockScalar isLiteral s.indent s.cursor
  return { s.push (.scalar false text) with cursor, keyAllowed := true }

/-- The characters that no plain scalar begins with. -/
def isIndicator (x : Char) : Bool :=
  ['-', '?', ':', ',', '[', ']', '\x7b', '\x7d', '#', '&', '*', '!', '|', '>', '\'', '"', '%', '@',
    '`'].contains x

/-- Whether a plain scalar begins here: with no indicator, or with one that is
not followed by a blank. -/
def beginsPlain (s : Layout) (x : Char) : Bool :=
  !(isGap x || isIndicator x) ||
    (x = '-' && !(s.cursor.ahead 1).any isBlankChar) ||
    (!s.inFlow && (x = '?' || x = ':') && !s.cursor.endsOr 1 isGap)

/-- The token at the cursor, whose first character is `x`. -/
def token (s : Layout) (x : Char) : Except Fault Layout :=
  let c := s.cursor
  let apart := s.inFlow || c.endsOr 1 isGap
  if c.column = 0 ∧ x = '%' then do
    let s ← s.outermost
    let (token, cursor) ← readDirective s.cursor
    return { s.push token with cursor }
  else if c.isAtMark '-' then do return (← s.outermost).indicator .documentStart 3 false
  else if c.isAtMark '.' then do return (← s.outermost).indicator .documentEnd 3 false
  else if x = '[' then s.openFlow .flowSequenceStart
  else if x = '\x7b' then s.openFlow .flowMappingStart
  else if x = ']' then s.closeFlow .flowSequenceEnd
  else if x = '\x7d' then s.closeFlow .flowMappingEnd
  else if x = ',' then do return (← s.dropKey).indicator .flowEntry 1 true
  else if x = '-' ∧ c.endsOr 1 isGap then s.openEntry .blockSequenceStart .blockEntry true
  else if x = '?' ∧ apart then s.openEntry .blockMappingStart .key (!s.inFlow)
  else if x = ':' ∧ apart then s.value
  else if x = '*' then
    s.word fun c => (readAnchor c).map fun (name, c) => (.alias name, c)
  else if x = '&' then
    s.word fun c => (readAnchor c).map fun (name, c) => (.anchor name, c)
  else if x = '!' then
    s.word fun c => (readTag s.inFlow c).map fun (handle, suffix, c) => (.tag handle suffix, c)
  else if x = '|' ∧ !s.inFlow then s.blockScalar true
  else if x = '>' ∧ !s.inFlow then s.blockScalar false
  else if x = '\'' then s.quoted true
  else if x = '"' then s.quoted false
  else if s.beginsPlain x then s.plain
  else .error .token

/-- The end of the text, which ends all blocks. -/
def finish (s : Layout) : Except Fault Layout := do
  return ← (s.closeBlocks (-1)).dropKey

/-- Takes the tokens that are left; every one takes a character at least. -/
def run : Nat → Layout → Except Fault (Array Token)
  | 0, s => .ok s.tokens
  | fuel + 1, s => do
    let s := s.skipToToken (s.cursor.rest.length + 1)
    let s ← s.dropStaleKeys
    let s := s.closeBlocks s.cursor.column
    match s.cursor.rest with
    | [] => return (← s.finish).tokens
    | x :: _ => run fuel (← s.token x)

end Layout

/-- The tokens of a text. A byte order mark in front of it does not count. -/
def tokens (text : List Char) : Except Fault (List Token) :=
  let text :=
    match text with
    | '\uFEFF' :: rest => rest
    | _ => text
  if text.all isAllowed then
    (Layout.run (text.length + 1) { cursor := { rest := text } }).map Array.toList
  else .error .character

end SchemaTypes.Yaml
