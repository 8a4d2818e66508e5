/-!
UTF-8 octets as characters.

* `Utf8.pieces`: a byte sequence cut into characters and maximal invalid parts;
* `Utf8.decode`: the characters, or the place and extent of the first part that
  is not UTF-8;
* `Utf8.decodeLossy`: the characters with U+FFFD for every invalid part.
-/

namespace SchemaTypes.Utf8

/-- A character that has begun: the bits read so far, the octets read, the
octets still owed, and the bounds of the next one. The bounds are narrower
than those of a continuation octet where a wider octet would spell a
surrogate, a number beyond the last code point or a longer spelling. -/
structure Begun where
  bits : Nat
  read : Nat
  owed : Nat
  low : Nat
  high : Nat
deriving DecidableEq

/-- What a byte sequence is made of. -/
inductive Piece where
  | char (c : Char)
  /-- Octets that begin no character together with the octet after them. -/
  | invalid (size : Nat)
  /-- The beginning of a character that the end of the sequence cuts off. -/
  | incomplete (size : Nat)
deriving DecidableEq

/-- The number of octets of a piece. -/
def Piece.size : Piece → Nat
  | char c => c.utf8Size
  | invalid n => n
  | incomplete n => n

/-- What the first octet of a character says. -/
def first (b : Nat) : Piece ⊕ Begun :=
  if b < 0x80 then .inl (.char (Char.ofNat b))
  else if b < 0xC2 then .inl (.invalid 1)
  else if b < 0xE0 then .inr ⟨b - 0xC0, 1, 1, 0x80, 0xBF⟩
  else if b < 0xF0 then
    .inr ⟨b - 0xE0, 1, 2, if b = 0xE0 then 0xA0 else 0x80, if b = 0xED then 0x9F else 0xBF⟩
  else if b < 0xF5 then
    .inr ⟨b - 0xF0, 1, 3, if b = 0xF0 then 0x90 else 0x80, if b = 0xF4 then 0x8F else 0xBF⟩
  else .inl (.invalid 1)

/-- The pieces of a byte sequence, given the character that has begun before
it. -/
def piecesFrom : Option Begun → List UInt8 → List Piece
  | none, [] => []
  | some s, [] => [.incomplete s.read]
  | none, b :: rest =>
    match first b.toNat with
    | .inl p => p :: piecesFrom none rest
    | .inr s => piecesFrom (some s) rest
  | some s, b :: rest =>
    if s.low ≤ b.toNat ∧ b.toNat ≤ s.high then
      let bits := s.bits * 64 + b.toNat % 64
      if s.owed ≤ 1 then .char (Char.ofNat bits) :: piecesFrom none rest
      else piecesFrom (some ⟨bits, s.read + 1, s.owed - 1, 0x80, 0xBF⟩) rest
    else
      .invalid s.read ::
        match first b.toNat with
        | .inl p => p :: piecesFrom none rest
        | .inr s => piecesFrom (some s) rest

/-- A byte sequence cut into characters and maximal invalid parts. -/
def pieces (bytes : List UInt8) : List Piece := piecesFrom none bytes

/-! ### Decoding -/

/-- The first place at which a byte sequence is not UTF-8. -/
structure Fault where
  index : Nat
  /-- The octets that are invalid there; `none` where the sequence ends inside
  a character. -/
  size : Option Nat
deriving DecidableEq

namespace Fault

def message (f : Fault) : String :=
  match f.size with
  | some n => s!"invalid utf-8 sequence of {n} bytes from index {f.index}"
  | none => s!"incomplete utf-8 byte sequence from index {f.index}"

end Fault

/-- The characters of the pieces, which start at octet `index`. -/
def charsOf : Nat → List Piece → Except Fault (List Char)
  | _, [] => .ok []
  | index, .char c :: rest => (charsOf (index + c.utf8Size) rest).map (c :: ·)
  | index, .invalid n :: _ => .error ⟨index, some n⟩
  | index, .incomplete _ :: _ => .error ⟨index, none⟩

/-- The characters of a byte sequence. -/
def decode (bytes : List UInt8) : Except Fault (List Char) := charsOf 0 (pieces bytes)

/-- The characters of a byte sequence, each invalid part read as U+FFFD. -/
def decodeLossy (bytes : List UInt8) : List Char :=
  (pieces bytes).map fun
    | .char c => c
    | _ => '\uFFFD'

/-- The octets of a text. -/
def encode (text : String) : List UInt8 := text.toUTF8.toList

end SchemaTypes.Utf8
