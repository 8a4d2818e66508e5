import SchemaTypes.Json.Value
import SchemaTypes.Number.Digits
import SchemaTypes.Text.Utf8

/-!
Reading JSON text from bytes.

* `Json.Cause`, `Json.ReadError`: why a text is refused, and the line and
  column of the place;
* `Json.realOfParts`: the number `digits * 10 ^ exponent` as one product or
  quotient of rounded factors, which need not be the nearest number;
* `Json.read`: the value of a whole text. A key that is repeated keeps its
  first place and takes its last value.
-/

namespace SchemaTypes.Json

/-- Why a text is no JSON value. -/
inductive Cause where
  | endInValue
  | endInList
  | endInObject
  | endInString
  | expectedValue
  | expectedIdentifier
  | expectedColon
  | expectedCommaOrBracket
  | expectedCommaOrBrace
  | trailingComma
  | trailingCharacters
  | keyNotString
  | invalidNumber
  | numberOutOfRange
  | invalidEscape
  | controlCharacter
  | loneSurrogate
  | endOfHexEscape
  | invalidCodePoint
  | recursionLimit
deriving DecidableEq

namespace Cause

def text : Cause → String
  | endInValue => "EOF while parsing a value"
  | endInList => "EOF while parsing a list"
  | endInObject => "EOF while parsing an object"
  | endInString => "EOF while parsing a string"
  | expectedValue => "expected value"
  | expectedIdentifier => "expected ident"
  | expectedColon => "expected `:`"
  | expectedCommaOrBracket => "expected `,` or `]`"
  | expectedCommaOrBrace => "expected `,` or `\x7d`"
  | trailingComma => "trailing comma"
  | trailingCharacters => "trailing characters"
  | keyNotString => "key must be a string"
  | invalidNumber => "invalid number"
  | numberOutOfRange => "number out of range"
  | invalidEscape => "invalid escape"
  | controlCharacter => "control character (\\u0000-\\u001F) found while parsing a string"
  | loneSurrogate => "lone leading surrogate in hex escape"
  | endOfHexEscape => "unexpected end of hex escape"
  | invalidCodePoint => "invalid unicode code point"
  | recursionLimit => "recursion limit exceeded"

end Cause

/-- A refused text: lines count from one, columns are octets of the line up to
and including the offending one. -/
structure ReadError where
  cause : Cause
  line : Nat
  column : Nat
deriving DecidableEq

def ReadError.message (e : ReadError) : String :=
  s!"{e.cause.text} at line {e.line} column {e.column}"

/-- A place of refusal, as the number of octets after it. -/
structure Stop where
  cause : Cause
  left : Nat
deriving DecidableEq

/-- A reader takes octets off the front of the text. -/
abbrev Reading := StateT (List UInt8) (Except Stop)

namespace Reading

/-- Refuses at the octet last taken. -/
def stop {α : Type} (cause : Cause) : Reading α :=
  fun rest => .error ⟨cause, rest.length⟩

/-- Refuses at the next octet, or at the end of the text. -/
def stopAhead {α : Type} (cause : Cause) : Reading α :=
  fun rest => .error ⟨cause, rest.length - 1⟩

/-- The next octet, which stays. -/
def peek : Reading (Option UInt8) := fun rest => .ok (rest.head?, rest)

/-- Takes one octet off. -/
def skip : Reading Unit := fun rest => .ok ((), rest.tail)

/-- Takes the next octet. -/
def next : Reading (Option UInt8) := fun rest => .ok (rest.head?, rest.tail)

/-- Takes the longest run of octets with a property. -/
def span (p : UInt8 → Bool) : Reading (List UInt8) :=
  fun rest => .ok (rest.takeWhile p, rest.dropWhile p)

end Reading

open Reading

def isSpace (b : UInt8) : Bool := b = 0x20 || b = 0x09 || b = 0x0A || b = 0x0D

def isDigit (b : UInt8) : Bool := 0x30 ≤ b && b ≤ 0x39

/-- The next octet after blanks, which stays. -/
def peekToken : Reading (Option UInt8) := do
  let _ ← span isSpace
  peek

/-! ### Numbers -/

/-- Appends decimal digits to `value` as long as it stays at or below `limit`;
also the number of digits that are dropped from the first one on that would
pass it. -/
def gather (limit : Nat) : Nat → List UInt8 → Nat × Nat
  | value, [] => (value, 0)
  | value, d :: ds =>
    let more := value * 10 + (d.toNat - 0x30)
    if more ≤ limit then gather limit more ds else (value, (d :: ds).length)

/-- Significands are gathered in sixty-four bits. -/
def significandLimit : Nat := Nat.pow 2 64 - 1

/-- Explicit exponents are gathered in thirty-one bits. -/
def exponentLimit : Nat := Nat.pow 2 31 - 1

/-- The power `10 ^ k` for `k ≤ 308`, rounded. -/
def powerOfTen (k : Nat) : Binary64 :=
  (Binary64.ofDecimal? false 1 k).getD (.zero false)

/-- Multiplies or divides by a power of ten, in steps of `10 ^ 308` while the
exponent lies beyond the powers that are numbers. -/
def scaleByPower : Nat → Binary64 → Int → Option Binary64
  | 0, f, _ => some f
  | steps + 1, f, exponent =>
    if exponent.natAbs ≤ 308 then
      if 0 ≤ exponent then f.mul? (powerOfTen exponent.natAbs)
      else f.div? (powerOfTen exponent.natAbs)
    else if f.isZero then some f
    else if 0 ≤ exponent then none
    else (f.div? (powerOfTen 308)).bind fun f => scaleByPower steps f (exponent + 308)

/-- The number `digits * 10 ^ exponent` by rounding the digits, then each
product or quotient; `none` where that overflows. -/
def realOfParts (digits : Nat) (exponent : Int) : Option Binary64 :=
  (Binary64.ofRatio? false digits 1).bind fun f =>
    scaleByPower (exponent.natAbs / 308 + 1) f exponent

def signed (negative : Bool) (f : Binary64) : Number :=
  .real (if negative then f.neg else f)

/-- The number made of gathered digits and an exponent. -/
def readReal (negative : Bool) (digits : Nat) (exponent : Int) : Reading Number :=
  match realOfParts digits exponent with
  | some f => pure (signed negative f)
  | none => stop .numberOutOfRange

/-- The sign of an exponent: whether it is a minus. -/
def readExponentSign : Reading Bool := do
  match ← peek with
  | some 0x2B => do skip; pure false
  | some 0x2D => do skip; pure true
  | _ => pure false

/-- The rest of a number from the digits of its exponent on. -/
def readPower (negative : Bool) (digits : Nat) (exponent : Int) (down : Bool) : Reading Number := do
  match ← peek with
  | none => stop .endInValue
  | some b =>
    if !isDigit b then do
      skip
      stop .invalidNumber
    else do
      let ds ← span isDigit
      let (value, dropped) := gather exponentLimit 0 ds
      if dropped = 0 then
        readReal negative digits (if down then exponent - value else exponent + value)
      else if digits ≠ 0 ∧ !down then
        fun rest => .error ⟨.numberOutOfRange, rest.length + (dropped - 1)⟩
      else
        pure (signed negative (.zero false))

/-- The rest of a number from its exponent mark on. -/
def readExponent (negative : Bool) (digits : Nat) (exponent : Int) : Reading Number := do
  skip
  let down ← readExponentSign
  readPower negative digits exponent down

/-- The rest of a number from its point on. -/
def readFraction (negative : Bool) (digits : Nat) (exponent : Int) : Reading Number := do
  skip
  let ds ← span isDigit
  if ds.isEmpty then
    match ← peek with
    | some _ => stopAhead .invalidNumber
    | none => stopAhead .endInValue
  else
    let (digits, dropped) := gather significandLimit digits ds
    let exponent := exponent - (ds.length - dropped : Nat)
    match ← peek with
    | some 0x65 | some 0x45 => readExponent negative digits exponent
    | _ => readReal negative digits exponent

/-- The integer with the given digits; outside of sixty-four bits, and for
minus zero, a binary64 number. -/
def wholeNumber (negative : Bool) (digits : Nat) : Number :=
  if !negative then .integer digits
  else if digits = 0 ∨ Nat.pow 2 63 < digits then
    signed true ((Binary64.ofRatio? false digits 1).getD (.zero false))
  else .integer (-digits)

/-- The digits in front of a point or exponent, given the first one, behind which none
may follow if it is a zero. -/
def readLead (b : UInt8) : Reading (List UInt8) :=
  if b = 0x30 then do
    skip
    if (← peek).any isDigit then stopAhead .invalidNumber else pure [b]
  else span isDigit

/-- The rest of a number after its leading digits, of which so many are dropped. -/
def readTail (negative : Bool) (digits dropped : Nat) : Reading Number := do
  match ← peek with
  | some 0x2E => readFraction negative digits dropped
  | some 0x65 | some 0x45 => readExponent negative digits dropped
  | _ =>
    if dropped = 0 then pure (wholeNumber negative digits)
    else readReal negative digits dropped

/-- The rest of a number after its sign. -/
def readNumber (negative : Bool) : Reading Number := do
  match ← peek with
  | none => stop .endInValue
  | some b =>
    if !isDigit b then do
      skip
      stop .invalidNumber
    else do
      let lead ← readLead b
      let (digits, dropped) := gather significandLimit 0 lead
      readTail negative digits dropped

/-! ### Strings -/

def hexValue? (b : UInt8) : Option Nat := digit? 16 (Char.ofNat b.toNat)

/-- The four hexadecimal digits of an escape, taken together. -/
def readHex : Reading Nat
  | a :: b :: c :: d :: rest =>
    match hexValue? a, hexValue? b, hexValue? c, hexValue? d with
    | some a, some b, some c, some d => .ok (((a * 16 + b) * 16 + c) * 16 + d, rest)
    | _, _, _, _ => .error ⟨.invalidEscape, rest.length⟩
  | _ => .error ⟨.endInString, 0⟩

/-- Takes the next octet, which has to be the given one. -/
def expectInEscape (b : UInt8) : Reading Unit := do
  match ← next with
  | none => stop .endInString
  | some c => if c = b then pure () else stop .endOfHexEscape

def octetsOf (code : Nat) : List UInt8 := String.utf8EncodeChar (Char.ofNat code)

/-- The octets of an escape by hexadecimal digits. Code points beyond U+FFFF
are spelled as two surrogates. -/
def readUnicode : Reading (List UInt8) := do
  let n ← readHex
  if 0xDC00 ≤ n ∧ n ≤ 0xDFFF then
    stop .loneSurrogate
  else if n < 0xD800 ∨ 0xDBFF < n then
    pure (octetsOf n)
  else
    expectInEscape 0x5C
    expectInEscape 0x75
    let m ← readHex
    if m < 0xDC00 ∨ 0xDFFF < m then
      stop .loneSurrogate
    else
      pure (octetsOf ((n - 0xD800) * 0x400 + (m - 0xDC00) + 0x10000))

/-- The octets of an escape, after its backslash. -/
def readEscape : Reading (List UInt8) := do
  match ← next with
  | none => stop .endInString
  | some 0x22 => pure [0x22]
  | some 0x5C => pure [0x5C]
  | some 0x2F => pure [0x2F]
  | some 0x62 => pure [0x08]
  | some 0x66 => pure [0x0C]
  | some 0x6E => pure [0x0A]
  | some 0x72 => pure [0x0D]
  | some 0x74 => pure [0x09]
  | some 0x75 => readUnicode
  | some _ => stop .invalidEscape

/-- The octets of a string up to and including its closing quote; each of the
`fuel` steps takes at least one octet of the text. -/
def readOctets : Nat → Reading (List UInt8)
  | 0 => stop .endInString
  | fuel + 1 => do
    let plain ← span fun b => b ≠ 0x22 && b ≠ 0x5C && 0x20 ≤ b
    match ← next with
    | none => stop .endInString
    | some 0x22 => pure plain
    | some 0x5C => do
      let escaped ← readEscape
      let others ← readOctets fuel
      pure (plain ++ escaped ++ others)
    | some _ => stop .controlCharacter

/-- The text of a string after its opening quote. Octets that are not UTF-8
are refused at the first of them. -/
def readString : Reading String := do
  let start ← get
  let octets ← readOctets (start.length + 1)
  match Utf8.decode octets with
  | .ok cs => pure (String.ofList cs)
  | .error _ =>
    let good := (Utf8.pieces start).takeWhile fun
      | .char _ => true
      | _ => false
    fun _ => .error ⟨.invalidCodePoint, start.length - ((good.map Utf8.Piece.size).foldl (· + ·) 0 + 1)⟩

/-! ### Values -/

/-- Takes the given octets, which spell the rest of a word. -/
def readWord (value : Json) : List UInt8 → Reading Json
  | [] => pure value
  | b :: bs => do
    match ← next with
    | none => stop .endInValue
    | some c => if c = b then readWord value bs else stop .expectedIdentifier

/-- The colon between a key and its value. -/
def readColon : Reading Unit := do
  match ← peekToken with
  | some 0x3A => skip
  | some _ => stopAhead .expectedColon
  | none => stopAhead .endInObject

/-- What stands in front of an item, given the next octet: nothing in front of the
first one, and else a comma. -/
def beginItem (atStart : Bool) (b : UInt8) : Reading Unit :=
  if atStart then pure ()
  else if b ≠ 0x2C then stopAhead .expectedCommaOrBracket
  else do
    skip
    match ← peekToken with
    | some 0x5D => stopAhead .trailingComma
    | some _ => pure ()
    | none => stopAhead .endInValue

/-- What stands in front of the key of a field, given the next octet: nothing in front
of the first one, and else a comma. -/
def beginField (atStart : Bool) (b : UInt8) : Reading Unit :=
  if atStart then if b ≠ 0x22 then stopAhead .keyNotString else pure ()
  else if b ≠ 0x2C then stopAhead .expectedCommaOrBrace
  else do
    skip
    match ← peekToken with
    | some 0x22 => pure ()
    | some 0x7D => stopAhead .trailingComma
    | some _ => stopAhead .keyNotString
    | none => stopAhead .endInValue

mutual

/-- A value in which up to `depth` further arrays and objects may be open at a
time; `fuel` bounds the steps. -/
def readValue : Nat → Nat → Reading Json
  | 0, _ => stop .endInValue
  | fuel + 1, depth => do
    match ← peekToken with
    | none => stopAhead .endInValue
    | some 0x6E => do skip; readWord .null [0x75, 0x6C, 0x6C]
    | some 0x74 => do skip; readWord (.bool true) [0x72, 0x75, 0x65]
    | some 0x66 => do skip; readWord (.bool false) [0x61, 0x6C, 0x73, 0x65]
    | some 0x2D => do skip; return .num (← readNumber true)
    | some 0x22 => do skip; return .str (← readString)
    | some 0x5B =>
      match depth with
      | 0 => stopAhead .recursionLimit
      | depth + 1 => do
        skip
        return .arr (← readItems fuel depth true)
    | some 0x7B =>
      match depth with
      | 0 => stopAhead .recursionLimit
      | depth + 1 => do
        skip
        return .obj (← readFields fuel depth true [])
    | some b =>
      if isDigit b then return .num (← readNumber false) else stopAhead .expectedValue

/-- The items of an array up to its closing bracket. -/
def readItems : Nat → Nat → Bool → Reading (List Json)
  | 0, _, _ => stop .endInList
  | fuel + 1, depth, atStart => do
    match ← peekToken with
    | none => stopAhead .endInList
    | some 0x5D => do skip; pure []
    | some b => do
      beginItem atStart b
      let item ← readValue fuel depth
      let others ← readItems fuel depth false
      pure (item :: others)

/-- The fields of an object up to its closing brace, after those read so
far. -/
def readFields : Nat → Nat → Bool → Fields → Reading Fields
  | 0, _, _, _ => stop .endInObject
  | fuel + 1, depth, atStart, fields => do
    match ← peekToken with
    | none => stopAhead .endInObject
    | some 0x7D => do skip; pure fields
    | some b => do
      beginField atStart b
      skip
      let key ← readString
      readColon
      let value ← readValue fuel depth
      readFields fuel depth false (fields.put key value)

end

/-- The number of arrays and objects that may be open at a time. -/
def depthLimit : Nat := 127

/-- A value and nothing after it. -/
def readDocument : Reading Json := do
  let value ← readValue (2 * (← get).length + 2) depthLimit
  match ← peekToken with
  | none => pure value
  | some _ => stopAhead .trailingCharacters

/-- The line and column of the octet before the last `left` ones. -/
def place (bytes : List UInt8) (left : Nat) : Nat × Nat :=
  let before := bytes.take (bytes.length - left)
  (before.count 0x0A + 1, (before.reverse.takeWhile (· ≠ 0x0A)).length)

/-- The value of a JSON text. -/
def read (bytes : List UInt8) : Except ReadError Json :=
  match readDocument.run bytes with
  | .ok (value, _) => .ok value
  | .error s =>
    let (line, column) := place bytes s.left
    .error ⟨s.cause, line, column⟩

end SchemaTypes.Json
