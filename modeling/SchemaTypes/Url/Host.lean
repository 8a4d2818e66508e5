import SchemaTypes.Text.Split
import SchemaTypes.Url.Percent

/-!
Hosts of URLs.

* `Host`: a domain name, an IPv4 address or an IPv6 address;
* `ipv4?`: an address of one to four numbers, each decimal, octal or
  hexadecimal, the last one filling the octets that are left;
* `ipv6?`: an address of eight pieces, a run of zeros abbreviated or not, the
  last two pieces as an IPv4 address or not;
* `Host.parse?`, `Host.text`: the host spelled by a text, and its normal
  spelling.
-/

namespace SchemaTypes.Url

/-- The host of a URL. -/
inductive Host where
  | domain (name : List Char)
  | ipv4 (address : Nat)
  | ipv6 (pieces : List Nat)
deriving DecidableEq

/-! ### IPv4 -/

/-- A number of an IPv4 address: hexadecimal behind `0x`, octal behind `0`,
decimal otherwise; a bare mark is zero. -/
def ipv4Number? : List Char → Option Nat
  | [] => none
  | '0' :: 'x' :: cs => natural? 16 cs
  | '0' :: 'X' :: cs => natural? 16 cs
  | '0' :: c :: cs => natural? 8 (c :: cs)
  | cs => natural? 10 cs

/-- The parts of a dotted name; one empty part at the end does not count. -/
def dottedParts (cs : List Char) : List (List Char) :=
  let parts := splitAt (· = '.') cs
  if parts.length > 1 ∧ parts.getLast? = some [] then parts.dropLast else parts

/-- Whether a name has to be an IPv4 address, because its last part is a
number. -/
def endsInNumber (cs : List Char) : Bool :=
  match (dottedParts cs).getLast? with
  | some last =>
    (!last.isEmpty && last.all fun c => '0' ≤ c && c ≤ '9') || (ipv4Number? last).isSome
  | none => false

/-- The address of the given numbers: every number but the last is an octet,
and the last one fills the others. -/
def ipv4OfNumbers? : Nat → Nat → List Nat → Option Nat
  | address, used, [last] =>
    let room := Nat.pow 256 (4 - used)
    if last < room then some (address * room + last) else none
  | address, used, n :: rest =>
    if n < 256 then ipv4OfNumbers? (address * 256 + n) (used + 1) rest else none
  | _, _, [] => none

/-- The IPv4 address spelled by a name. -/
def ipv4? (cs : List Char) : Option Nat :=
  let parts := dottedParts cs
  if 4 < parts.length then none
  else (parts.mapM ipv4Number?).bind (ipv4OfNumbers? 0 0)

/-- Four octets in decimal. -/
def ipv4Text (address : Nat) : List Char :=
  [address / 256 / 256 / 256, address / 256 / 256 % 256, address / 256 % 256, address % 256].map
    (Nat.toDigits 10) |>.intersperse ['.'] |>.flatten

/-! ### IPv6 -/

/-- One part of an IPv6 address: up to four hexadecimal digits. -/
def ipv6Piece? (cs : List Char) : Option Nat :=
  if 1 ≤ cs.length ∧ cs.length ≤ 4 then natural? 16 cs else none

/-- Four decimal octets without leading zeros, as two pieces. -/
def ipv6Tail? (cs : List Char) : Option (List Nat) :=
  let octet (part : List Char) : Option Nat :=
    if part.isEmpty ∨ (part.head? = some '0' ∧ 1 < part.length) then none
    else (natural? 10 part).filter (· < 256)
  match (splitAt (· = '.') cs).mapM octet with
  | some [a, b, c, d] => some [a * 256 + b, c * 256 + d]
  | _ => none

/-- The pieces of one side of an abbreviation. Only the last part of an
address may be an IPv4 address. -/
def ipv6Side? (isLast : Bool) : List (List Char) → Option (List Nat)
  | [] => some []
  | [part] =>
    if isLast ∧ part.contains '.' then ipv6Tail? part
    else (ipv6Piece? part).map ([·])
  | part :: rest => do
    let piece ← ipv6Piece? part
    let pieces ← ipv6Side? isLast rest
    pure (piece :: pieces)

/-- The parts before and after `::`, if it is there. A single colon at the end
of a text abbreviates nothing and stays an empty part. -/
def splitAbbreviation : List (List Char) → List (List Char) × Option (List (List Char))
  | [] => ([], none)
  | [[]] => ([[]], none)
  | [] :: rest => ([], some rest)
  | part :: rest =>
    let (before, after) := splitAbbreviation rest
    (part :: before, after)

/-- The IPv6 address spelled by a text. At the ends of a text the
abbreviation makes one more empty part, which goes. -/
def ipv6? (cs : List Char) : Option (List Nat) :=
  let parts := splitAt (· = ':') cs
  let parts? :=
    match parts with
    | [] :: [] :: rest => some ([] :: rest)
    | [] :: _ => none
    | parts => some parts
  parts?.bind fun parts =>
    match splitAbbreviation parts with
    | (before, none) => (ipv6Side? true before).filter (·.length = 8)
    | (before, some after) => do
      let low ← ipv6Side? false before
      let high ← if after = [[]] then some [] else ipv6Side? true after
      if low.length + high.length < 8 then
        some (low ++ List.replicate (8 - low.length - high.length) 0 ++ high)
      else none

/-- The number of zeros that pieces begin with. -/
def zeroRun (pieces : List Nat) : Nat := (pieces.takeWhile (· = 0)).length

/-- The length of the longest run of zeros. -/
def longestZeroRun : List Nat → Nat
  | [] => 0
  | piece :: rest => max (zeroRun (piece :: rest)) (longestZeroRun rest)

def pieceText (piece : Nat) : List Char := Nat.toDigits 16 piece

def piecesText (pieces : List Nat) : List Char :=
  ((pieces.map pieceText).intersperse [':']).flatten

/-- Pieces in hexadecimal, the first of the longest runs of two or more zeros
abbreviated. -/
def ipv6Text (pieces : List Nat) : List Char :=
  let run := longestZeroRun pieces
  if run < 2 then piecesText pieces
  else
    let starts := (List.range pieces.length).filter fun i => zeroRun (pieces.drop i) = run
    let start := starts.headD 0
    piecesText (pieces.take start) ++ "::".toList ++ piecesText (pieces.drop (start + run))

/-! ### Hosts -/

/-- Characters that no domain name has. -/
def isForbiddenInDomain (c : Char) : Bool :=
  isControl c || 0x80 ≤ c.toNat ||
    [' ', '#', '%', '/', ':', '<', '>', '?', '@', '[', '\\', ']', '^', '|'].contains c

/-- The host spelled by a text. Names are percent-decoded and compared in lower
case. -/
def Host.parse? (cs : List Char) : Option Host :=
  match cs with
  | '[' :: rest =>
    if rest.getLast? = some ']' then (ipv6? rest.dropLast).map .ipv6 else none
  | _ =>
    match Utf8.decode (percentDecode cs) with
    | .error _ => none
    | .ok decoded =>
      let name := decoded.map Char.toLower
      if name.isEmpty || name.any isForbiddenInDomain then none
      else if endsInNumber name then (ipv4? name).map .ipv4
      else some (.domain name)

/-- The normal spelling of a host. -/
def Host.text : Host → List Char
  | domain name => name
  | ipv4 address => ipv4Text address
  | ipv6 pieces => '[' :: ipv6Text pieces ++ [']']

end SchemaTypes.Url
