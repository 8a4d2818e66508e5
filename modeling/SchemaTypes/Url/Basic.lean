import SchemaTypes.Url.Host

/-!
Web addresses.

* `Url`: the parts of an `http` or `https` address;
* `Url.parse?`: the address spelled by a text, as a browser reads it: blanks at
  the ends and line breaks inside do not count, any number of slashes and
  backslashes may follow the scheme, and dot segments of the path are resolved;
* `Url.text`: the normal spelling.
-/

namespace SchemaTypes

/-- The schemes of addresses that are fetched. -/
inductive Url.Scheme where
  | http
  | https
deriving DecidableEq

/-- An `http` or `https` address. The parts hold their percent-encoded text;
the path has its leading slash. -/
structure Url where
  scheme : Url.Scheme
  userinfo : List Char
  host : Url.Host
  port : Option Nat
  path : List Char
  query : Option (List Char)
  fragment : Option (List Char)
deriving DecidableEq

namespace Url

namespace Scheme

def text : Scheme → List Char
  | http => "http".toList
  | https => "https".toList

/-- The port that goes without saying. -/
def defaultPort : Scheme → Nat
  | http => 80
  | https => 443

end Scheme

/-! ### Scheme -/

/-- A text without control characters and spaces at the ends, and without tabs
and line breaks anywhere. -/
def significant (cs : List Char) : List Char :=
  (trimEnds (·.toNat ≤ 0x20) cs).filter fun c => c ≠ '\t' && c ≠ '\n' && c ≠ '\r'

def isSlash (c : Char) : Bool := c = '/' || c = '\\'

/-- The scheme before the first colon, in any case, and what follows the slashes
after it. -/
def splitScheme? (cs : List Char) : Option (Scheme × List Char) :=
  let name := (cs.takeWhile (· ≠ ':')).map Char.toLower
  match cs.dropWhile (· ≠ ':') with
  | [] => none
  | _ :: rest =>
    if name = Scheme.http.text then some (.http, rest.dropWhile isSlash)
    else if name = Scheme.https.text then some (.https, rest.dropWhile isSlash)
    else none

/-! ### Authority -/

/-- The characters that end the authority. -/
def endsAuthority (c : Char) : Bool := c = '/' || c = '\\' || c = '?' || c = '#'

/-- The text before and after the last `@`. -/
def splitUserinfo? (authority : List Char) : Option (List Char × List Char) :=
  if authority.contains '@' then
    let host := afterLast '@' authority
    some (authority.take (authority.length - host.length - 1), host)
  else none

/-- The normal spelling of a user and password, with the mark behind them;
nothing if both are empty. -/
def userinfoText (userinfo : List Char) : List Char :=
  let user := userinfo.takeWhile (· ≠ ':')
  let password := (userinfo.dropWhile (· ≠ ':')).drop 1
  let text := percentEncode userinfoSet user ++
    (if password.isEmpty then [] else ':' :: percentEncode userinfoSet password)
  if text.isEmpty then [] else text ++ ['@']

/-- The host and the port of an authority without userinfo: a colon outside of
brackets parts them. -/
def splitPort : Bool → List Char → List Char × Option (List Char)
  | _, [] => ([], none)
  | inside, c :: rest =>
    if c = ':' ∧ !inside then ([], some rest)
    else
      let inside := if c = '[' then true else if c = ']' then false else inside
      let (host, port) := splitPort inside rest
      (c :: host, port)

/-- A port: decimal digits of at most sixteen bits. The default port and an
empty text are no port. -/
def port? (scheme : Scheme) (digits : List Char) : Option (Option Nat) :=
  match natural? 10 digits with
  | none => none
  | some n =>
    if 65535 < n then none
    else if digits.isEmpty ∨ n = scheme.defaultPort then some none
    else some (some n)

/-! ### Path -/

def isSingleDot (segment : List Char) : Bool :=
  let lower := segment.map Char.toLower
  [['.'], "%2e".toList].contains lower

def isDoubleDot (segment : List Char) : Bool :=
  let lower := segment.map Char.toLower
  ["..".toList, "%2e.".toList, ".%2e".toList, "%2e%2e".toList].contains lower

/-- A letter and a colon or bar, which a double dot does not remove. -/
def isDriveLetter (segment : List Char) : Bool :=
  match segment with
  | [c, mark] => c.isAlpha && (mark = ':' || mark = '|')
  | _ => false

/-- Resolves dot segments; `kept` are the segments before, last one first. -/
def resolveSegments (kept : List (List Char)) : List (List Char) → List (List Char)
  | [] => kept.reverse
  | segment :: rest =>
    let atEnd := rest.isEmpty
    if isDoubleDot segment then
      let kept :=
        match kept with
        | last :: before => if isDriveLetter last then kept else before
        | [] => []
      resolveSegments (if atEnd then [] :: kept else kept) rest
    else if isSingleDot segment then
      resolveSegments (if atEnd then [] :: kept else kept) rest
    else resolveSegments (segment :: kept) rest

/-- The normal spelling of a path, given with or without its leading slash. -/
def pathText (cs : List Char) : List Char :=
  let inner :=
    match cs with
    | c :: rest => if isSlash c then rest else c :: rest
    | [] => []
  let segments := (splitAt isSlash inner).map (percentEncode pathSet)
  (resolveSegments [] segments).flatMap ('/' :: ·)

/-! ### Addresses -/

/-- The address spelled by a text, if it has an `http` or `https` scheme, a
host and a valid port. -/
def parse? (text : String) : Option Url := do
  let (scheme, rest) ← splitScheme? (significant text.toList)
  let authority := rest.takeWhile (!endsAuthority ·)
  let rest := rest.dropWhile (!endsAuthority ·)
  let (userinfo, hostAndPort) := (splitUserinfo? authority).getD ([], authority)
  let (hostText, portDigits) := splitPort false hostAndPort
  let host ← Host.parse? hostText
  let port ← port? scheme (portDigits.getD [])
  let beforeFragment := rest.takeWhile (· ≠ '#')
  let fragment := (rest.dropWhile (· ≠ '#')).tail?
  let path := beforeFragment.takeWhile (· ≠ '?')
  let query := (beforeFragment.dropWhile (· ≠ '?')).tail?
  pure {
    scheme, host, port
    userinfo := userinfoText userinfo
    path := pathText path
    query := query.map (percentEncode querySet)
    fragment := fragment.map (percentEncode fragmentSet) }

/-- The normal spelling of an address. -/
def text (u : Url) : String :=
  String.ofList <|
    u.scheme.text ++ "://".toList ++ u.userinfo ++ u.host.text
      ++ (match u.port with
        | some n => ':' :: Nat.toDigits 10 n
        | none => [])
      ++ u.path
      ++ (match u.query with
        | some q => '?' :: q
        | none => [])
      ++ (match u.fragment with
        | some f => '#' :: f
        | none => [])

end Url

end SchemaTypes
