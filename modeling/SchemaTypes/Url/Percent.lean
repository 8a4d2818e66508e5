import SchemaTypes.Number.Digits
import SchemaTypes.Text.Utf8

/-!
Percent-encoding.

* `percentEncode`: the octets of a text, those of a set of ASCII characters
  and all beyond ASCII as `%` and two hexadecimal digits;
* `fragmentSet`, `pathSet`, `userinfoSet`, `querySet`: the sets that the parts
  of a URL need;
* `percentDecode`: the octets that a percent-encoded text stands for.
-/

namespace SchemaTypes.Url

def isControl (c : Char) : Bool := c.toNat < 0x20 || c.toNat = 0x7F

def fragmentSet (c : Char) : Bool := isControl c || [' ', '"', '<', '>', '`'].contains c

def pathSet (c : Char) : Bool := fragmentSet c || ['#', '?', '\x7b', '\x7d'].contains c

def userinfoSet (c : Char) : Bool :=
  pathSet c || ['/', ':', ';', '=', '@', '[', '\\', ']', '^', '|'].contains c

def querySet (c : Char) : Bool := isControl c || [' ', '"', '#', '<', '>', '\''].contains c

/-- The upper-case hexadecimal digit of a number below sixteen. -/
def upperHexDigit (n : Nat) : Char := (Nat.digitChar n).toUpper

def encodeOctet (b : UInt8) : List Char :=
  ['%', upperHexDigit (b.toNat / 16), upperHexDigit (b.toNat % 16)]

/-- Encodes the characters of a set and all characters beyond ASCII. -/
def percentEncode (set : Char → Bool) (cs : List Char) : List Char :=
  cs.flatMap fun c =>
    if set c || 0x80 ≤ c.toNat then (Utf8.encode (String.singleton c)).flatMap encodeOctet
    else [c]

/-- The octets of a text with every `%` and two hexadecimal digits read as the
octet they spell. -/
def percentDecode : List Char → List UInt8
  | [] => []
  | '%' :: a :: b :: rest =>
    match digit? 16 a, digit? 16 b with
    | some x, some y => UInt8.ofNat (x * 16 + y) :: percentDecode rest
    | _, _ => 0x25 :: percentDecode (a :: b :: rest)
  | c :: rest => Utf8.encode (String.singleton c) ++ percentDecode rest

end SchemaTypes.Url
