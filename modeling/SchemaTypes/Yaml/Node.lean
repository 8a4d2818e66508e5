import SchemaTypes.Yaml.Tokens

/-!
The node graph of a YAML document.

* `Yaml.Node`: scalars, sequences, mappings and aliases; an alias names its
  node by number, as an anchor does;
* `Parser`: reading nodes off tokens, with the anchors and tag handles of the
  document;
* `Yaml.document`: the node of a text that holds at most one document.
-/

namespace SchemaTypes.Yaml

/-- A node. An anchored node has the number of its anchor, and an alias has
the number that its anchor had at that point. -/
inductive Node where
  | scalar (anchor : Option Nat) (tag : Option (List Char)) (isPlain : Bool) (text : List Char)
  | sequence (anchor : Option Nat) (tag : Option (List Char)) (items : List Node)
  | mapping (anchor : Option Nat) (tag : Option (List Char)) (entries : List (Node × Node))
  | alias (anchor : Nat)

/-- A plain scalar without text. -/
def Node.empty : Node := .scalar none none true []

/-- The tokens that are left, and the anchors so far with their numbers. -/
structure Reading where
  tokens : List Token
  anchors : List (List Char × Nat) := []

/-- A reader of nodes. -/
abbrev Parser := StateT Reading (Except Fault)

namespace Parser

def peek : Parser (Option Token) := do return (← get).tokens.head?

def skip : Parser Unit := modify fun s => { s with tokens := s.tokens.tail }

/-- Whether the next token is one of the given ones. -/
def isAt (options : List Token) : Parser Bool := do return (← peek).any options.contains

/-! ### Anchors and tags -/

/-- Gives an anchor its number: as many as there are names so far. A name that
comes again gives up its old number. -/
def declare (name : List Char) : Parser Nat := do
  let s ← get
  let number := s.anchors.length
  set { s with anchors := (name, number) :: s.anchors.filter (·.1 ≠ name) }
  return number

/-- The number of an anchor. -/
def resolve (name : List Char) : Parser Nat := do
  match (← get).anchors.lookup name with
  | some number => return number
  | none => throw .unknownAnchor

/-- The tag handles of a document and what they stand for. -/
abbrev Handles := List (List Char × List Char)

/-- The handles that need no directive. -/
def defaultHandles : Handles := [(['!'], ['!']), (['!', '!'], "tag:yaml.org,2002:".toList)]

/-- The full text of a tag. -/
def tagOf (handles : Handles) (handle suffix : List Char) : Parser (List Char) :=
  if handle.isEmpty then return suffix
  else
    match handles.lookup handle with
    | some stem => return stem ++ suffix
    | none => throw .tag

/-- An anchor and a tag in any order, each of them optional. -/
def properties : Parser (Option (List Char) × Option (List Char × List Char)) := do
  match ← peek with
  | some (.anchor name) => do
    skip
    match ← peek with
    | some (.tag handle suffix) => do
      skip
      return (some name, some (handle, suffix))
    | _ => return (some name, none)
  | some (.tag handle suffix) => do
    skip
    match ← peek with
    | some (.anchor name) => do
      skip
      return (some name, some (handle, suffix))
    | _ => return (none, some (handle, suffix))
  | _ => return (none, none)

/-! ### Nodes -/

mutual

/-- A node. `inBlock` admits block collections, and `indentless` a block
sequence that is not indented. -/
def node (handles : Handles) : Nat → Bool → Bool → Parser Node
  | 0, _, _ => throw .node
  | fuel + 1, inBlock, indentless => do
    match ← peek with
    | some (.alias name) => do
      skip
      return .alias (← resolve name)
    | _ => do
      let (name?, tag?) ← properties
      let tag ← tag?.mapM fun (handle, suffix) => tagOf handles handle suffix
      let declared : Parser (Option Nat) := name?.mapM declare
      match ← peek with
      | some .blockEntry =>
        if indentless then do
          let anchor ← declared
          return .sequence anchor tag (← indentlessItems handles fuel)
        else if name?.isSome || tag.isSome then
          return .scalar (← declared) tag true []
        else throw .node
      | some (.scalar isPlain text) => do
        skip
        return .scalar (← declared) tag isPlain text
      | some .flowSequenceStart => do
        skip
        let anchor ← declared
        return .sequence anchor tag (← flowItems handles fuel true)
      | some .flowMappingStart => do
        skip
        let anchor ← declared
        return .mapping anchor tag (← flowEntries handles fuel true)
      | token => do
        if inBlock && token = some .blockSequenceStart then
          skip
          let anchor ← declared
          return .sequence anchor tag (← blockItems handles fuel)
        else if inBlock && token = some .blockMappingStart then
          skip
          let anchor ← declared
          return .mapping anchor tag (← blockEntries handles fuel)
        else if name?.isSome || tag.isSome then
          return .scalar (← declared) tag true []
        else throw .node

/-- A node, or an empty scalar where one of the given tokens follows. -/
def nodeUnless (handles : Handles) : Nat → List Token → Bool → Bool → Parser Node
  | 0, _, _, _ => throw .node
  | fuel + 1, ends, inBlock, indentless => do
    if ← isAt ends then return Node.empty
    node handles fuel inBlock indentless

/-- The items of an indented block sequence. -/
def blockItems (handles : Handles) : Nat → Parser (List Node)
  | 0 => throw .node
  | fuel + 1 => do
    match ← peek with
    | some .blockEntry => do
      skip
      let item ← nodeUnless handles fuel [.blockEntry, .blockEnd] true false
      return item :: (← blockItems handles fuel)
    | some .blockEnd => do
      skip
      return []
    | _ => throw .node

/-- The items of a block sequence at the indentation of its mapping. -/
def indentlessItems (handles : Handles) : Nat → Parser (List Node)
  | 0 => throw .node
  | fuel + 1 => do
    if ← isAt [.blockEntry] then
      skip
      let item ← nodeUnless handles fuel [.blockEntry, .key, .value, .blockEnd] true false
      return item :: (← indentlessItems handles fuel)
    else return []

/-- The entries of a block mapping. -/
def blockEntries (handles : Handles) : Nat → Parser (List (Node × Node))
  | 0 => throw .node
  | fuel + 1 => do
    match ← peek with
    | some .key => do
      skip
      let key ← nodeUnless handles fuel [.key, .value, .blockEnd] true true
      let value ←
        if ← isAt [.value] then
          skip
          nodeUnless handles fuel [.key, .value, .blockEnd] true true
        else pure Node.empty
      return (key, value) :: (← blockEntries handles fuel)
    | some .blockEnd => do
      skip
      return []
    | _ => throw .node

/-- The items of a flow sequence. A key among them is a mapping of one
entry. -/
def flowItems (handles : Handles) : Nat → Bool → Parser (List Node)
  | 0, _ => throw .node
  | fuel + 1, atStart => do
    if !(← isAt [.flowSequenceEnd]) && !atStart then
      if ← isAt [.flowEntry] then skip else throw .node
    if ← isAt [.flowSequenceEnd] then
      skip
      return []
    let item ←
      if ← isAt [.key] then
        skip
        let entry ← flowPair handles fuel
        pure (Node.mapping none none [entry])
      else node handles fuel false false
    return item :: (← flowItems handles fuel false)

/-- The key and the value of a mapping of one entry. A missing key takes the
token after it along. -/
def flowPair (handles : Handles) : Nat → Parser (Node × Node)
  | 0 => throw .node
  | fuel + 1 => do
    let key ←
      if ← isAt [.value, .flowEntry, .flowSequenceEnd] then
        skip
        pure Node.empty
      else node handles fuel false false
    let value ←
      if ← isAt [.value] then
        skip
        nodeUnless handles fuel [.flowEntry, .flowSequenceEnd] false false
      else pure Node.empty
    return (key, value)

/-- The entries of a flow mapping; without a key indicator an entry has no
value. -/
def flowEntries (handles : Handles) : Nat → Bool → Parser (List (Node × Node))
  | 0, _ => throw .node
  | fuel + 1, atStart => do
    if !(← isAt [.flowMappingEnd]) && !atStart then
      if ← isAt [.flowEntry] then skip else throw .node
    if ← isAt [.flowMappingEnd] then
      skip
      return []
    let entry ←
      if ← isAt [.key] then
        skip
        let key ← nodeUnless handles fuel [.value, .flowEntry, .flowMappingEnd] false false
        let value ←
          if ← isAt [.value] then
            skip
            nodeUnless handles fuel [.flowEntry, .flowMappingEnd] false false
          else pure Node.empty
        pure (key, value)
      else do
        let key ← node handles fuel false false
        pure (key, Node.empty)
    return entry :: (← flowEntries handles fuel false)

end

/-! ### Documents -/

/-- The directives in front of a document. -/
def directives : List Token → Bool → Handles → Except Fault (Handles × List Token)
  | .version major minor :: rest, versionSeen, handles =>
    if versionSeen ∨ major ≠ 1 ∨ (minor ≠ 1 ∧ minor ≠ 2) then .error .directive
    else directives rest true handles
  | .tagHandle handle stem :: rest, versionSeen, handles =>
    if (handles.lookup handle).isSome then .error .directive
    else directives rest versionSeen (handles ++ [(handle, stem)])
  | tokens, _, handles => .ok (handles ++ defaultHandles, tokens)

/-- Whether a token begins no document without mark. -/
def endsContent : Token → Bool
  | .version _ _ | .tagHandle _ _ | .documentStart | .documentEnd => true
  | _ => false

/-- The node of a document, and the tokens behind it. -/
def content (handles : Handles) (tokens : List Token) : Except Fault (Node × List Token) :=
  match tokens with
  | [] => .ok (.empty, [])
  | token :: _ =>
    if endsContent token then .ok (.empty, tokens)
    else
      (node handles (3 * tokens.length + 3) true false { tokens }).map fun (node, s) =>
        (node, s.tokens)

/-- Passes the marks of a document's end. -/
def skipEnds (tokens : List Token) : List Token := tokens.dropWhile (· = .documentEnd)

/-- The first document, if there is any, and the tokens behind it. A document
without directives needs no mark of its start. -/
def firstDocument (tokens : List Token) : Except Fault (Option (Node × List Token)) := do
  match tokens with
  | [] => return none
  | token :: _ =>
    if !endsContent token || token = .documentEnd then
      if token = .documentEnd then throw .node
      return some (← content defaultHandles tokens)
    let (handles, rest) ← directives tokens false []
    match rest with
    | .documentStart :: rest => return some (← content handles rest)
    | _ => throw .document

end Parser

/-- The node of a text that holds at most one document; `none` where it holds
none. -/
def document (text : List Char) : Except Fault (Option Node) := do
  match ← Parser.firstDocument (← tokens text) with
  | none => return none
  | some (node, rest) =>
    if (Parser.skipEnds rest).isEmpty then return some node else throw .severalDocuments

end SchemaTypes.Yaml
