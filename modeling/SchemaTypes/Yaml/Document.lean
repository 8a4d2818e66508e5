import SchemaTypes.Yaml.Node
import SchemaTypes.Yaml.Scalar

/-!
YAML documents as JSON values.

* `Node.anchored`: the nodes that have a number;
* `Node.toJson`: the value of a node, aliases replaced by the nodes that they
  name, within bounds on nesting and on replacements;
* `Yaml.read`: the value of a text.
-/

namespace SchemaTypes.Yaml

namespace Node

mutual

/-- The numbered nodes of a node, in the order of their beginnings. -/
def anchored : Node → List (Nat × Node)
  | .scalar anchor tag isPlain text =>
    anchor.toList.map fun n => (n, .scalar anchor tag isPlain text)
  | .sequence anchor tag items =>
    (anchor.toList.map fun n => (n, .sequence anchor tag items)) ++ anchoredItems items
  | .mapping anchor tag entries =>
    (anchor.toList.map fun n => (n, .mapping anchor tag entries)) ++ anchoredEntries entries
  | .alias _ => []

def anchoredItems : List Node → List (Nat × Node)
  | [] => []
  | item :: rest => anchored item ++ anchoredItems rest

def anchoredEntries : List (Node × Node) → List (Nat × Node)
  | [] => []
  | (key, value) :: rest => anchored key ++ anchored value ++ anchoredEntries rest

end

mutual

/-- The size of a node: one for a scalar or alias, two for the ends of a
collection. -/
def size : Node → Nat
  | .scalar .. => 1
  | .sequence _ _ items => 2 + sizeItems items
  | .mapping _ _ entries => 2 + sizeEntries entries
  | .alias _ => 1

def sizeItems : List Node → Nat
  | [] => 0
  | item :: rest => size item + sizeItems rest

def sizeEntries : List (Node × Node) → Nat
  | [] => 0
  | (key, value) :: rest => size key + size value + sizeEntries rest

end

/-- What the reading of values needs: the numbered nodes, of which the last one
with a number counts, and the greatest number of replacements. -/
structure Scope where
  nodes : List (Nat × Node)
  limit : Nat

/-- A computation that counts the replacements of aliases. -/
abbrev Counting := StateT Nat (Except Fault)

/-- The node that a node stands for. -/
def follow (scope : Scope) (node : Node) : Counting Node :=
  match node with
  | .alias anchor => do
    let count := (← get) + 1
    set count
    if scope.limit < count then
      throw Fault.repetitionLimit
    match scope.nodes.lookup anchor with
    | some target => return target
    | none => throw Fault.unknownAnchor
  | _ => return node

/-- The key that a node is: the text of a scalar, whatever its type. -/
def keyText (scope : Scope) (node : Node) : Counting String := do
  match ← follow scope node with
  | .scalar _ _ _ text => return String.ofList text
  | _ => throw Fault.keyNotScalar

/-- Refuses collections with a tag of the document's own. -/
def checkTag (tag : Option (List Char)) : Counting Unit :=
  if tag.any Scalar.isLocal then throw Fault.localTag else return ()

/-- The value of a node in which up to `depth` collections may be open at a
time. -/
def toJson (scope : Scope) : Nat → Node → Counting Json
  | 0, node => do
    match ← follow scope node with
    | .scalar _ tag isPlain text => Scalar.value tag isPlain text
    | _ => throw Fault.recursionLimit
  | depth + 1, node => do
    match ← follow scope node with
    | .scalar _ tag isPlain text => Scalar.value tag isPlain text
    | .sequence _ tag items => do
      checkTag tag
      return .arr (← items.mapM (toJson scope depth))
    | .mapping _ tag entries => do
      checkTag tag
      let fields ← entries.foldlM (fun (fields : Fields) (key, value) => do
        let key ← keyText scope key
        let value ← toJson scope depth value
        return fields.put key value) []
      return .obj fields
    | .alias _ => throw Fault.unknownAnchor

end Node

/-- The number of collections that may be open at a time. -/
def depthLimit : Nat := 128

/-- The value of a text; a text without a document is null. -/
def read (text : List Char) : Except Fault Json := do
  match ← document text with
  | none => return .null
  | some node =>
    let scope : Node.Scope := ⟨node.anchored.reverse, node.size * 100⟩
    (Node.toJson scope depthLimit node).run' 0

end SchemaTypes.Yaml
