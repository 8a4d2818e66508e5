import SchemaTypes.Proofs.Likeness
import SchemaTypes.Proofs.YamlTokens

/-!
The values of JSON texts in YAML.

* `Yaml.Reads`: the value of a node, if it has any, is alike a value;
* `Parser.node_reads`: the nodes of a value's tokens have that value;
* `Yaml.alike_of_read`: the same of texts;
* `formats_agree`: a JSON text holds the same schemas in YAML, if YAML reads it,
  the text has no line break that JSON does not know, and the schemas have no
  number but integers;
* `minus_zero_differs`: other numbers need not be the same.
-/

namespace SchemaTypes

namespace Yaml

open Json

/-! ### Nodes of JSON values -/

namespace Parser

variable {handles : Handles} {fuel : Nat} {inBlock indentless isPlain : Bool} {text : List Char}
  {rest : List Token} {anchors : List (List Char × Nat)}

/-- A scalar is a node of its own. -/
lemma node_scalar :
    node handles (fuel + 1) inBlock indentless ⟨.scalar isPlain text :: rest, anchors⟩
      = .ok (.scalar none none isPlain text, ⟨rest, anchors⟩) := by
  rw [node.eq_def]
  rfl

/-- Behind a bracket stand the nodes of a sequence. -/
lemma node_sequence :
    node handles (fuel + 1) inBlock indentless ⟨.flowSequenceStart :: rest, anchors⟩
      = (do return Node.sequence none none (← flowItems handles fuel true)) ⟨rest, anchors⟩ := by
  rw [node.eq_def]
  rfl

/-- Behind a brace stand the entries of a mapping. -/
lemma node_mapping :
    node handles (fuel + 1) inBlock indentless ⟨.flowMappingStart :: rest, anchors⟩
      = (do return Node.mapping none none (← flowEntries handles fuel true)) ⟨rest, anchors⟩ := by
  rw [node.eq_def]
  rfl

lemma flowItems_close {atStart : Bool} :
    flowItems handles (fuel + 1) atStart ⟨.flowSequenceEnd :: rest, anchors⟩
      = .ok ([], ⟨rest, anchors⟩) := by
  rw [flowItems.eq_def]
  rfl

/-- Tokens that a value of JSON may begin with. -/
inductive Begins : List Token → Prop
  | scalar (isPlain : Bool) (text : List Char) (rest : List Token) :
      Begins (.scalar isPlain text :: rest)
  | sequence (rest : List Token) : Begins (.flowSequenceStart :: rest)
  | mapping (rest : List Token) : Begins (.flowMappingStart :: rest)

lemma Begins.append {tokens : List Token} (h : Begins tokens) (more : List Token) :
    Begins (tokens ++ more) := by
  cases h with
  | scalar isPlain text rest => exact .scalar isPlain text (rest ++ more)
  | sequence rest => exact .sequence (rest ++ more)
  | mapping rest => exact .mapping (rest ++ more)

/-- The tokens of a value begin like those of a node. -/
lemma begins_of_tokensOf {v : Json} {tokens : List Token} (h : TokensOf v tokens) :
    Begins tokens := by
  cases h with
  | word h => exact .scalar _ _ _
  | number h => exact .scalar _ _ _
  | string => exact .scalar _ _ _
  | array h => exact .sequence _
  | object h => exact .mapping _

/-- Where a node begins it is the next one of a sequence. -/
lemma flowItems_item {atStart : Bool} (h : Begins rest) :
    flowItems handles (fuel + 1) atStart ⟨leading atStart ++ rest, anchors⟩
      = (do
          let item ← node handles fuel false false
          return item :: (← flowItems handles fuel false)) ⟨rest, anchors⟩ := by
  rw [flowItems.eq_def]
  cases atStart <;> cases h <;> rfl

lemma flowEntries_close {atStart : Bool} :
    flowEntries handles (fuel + 1) atStart ⟨.flowMappingEnd :: rest, anchors⟩
      = .ok ([], ⟨rest, anchors⟩) := by
  rw [flowEntries.eq_def]
  rfl

/-- The indicators and the text of a key. -/
def keyTokens (text : List Char) : List Token := [.key, .scalar false text, .value]

/-- Behind a key stands its value. -/
lemma flowEntries_entry {atStart : Bool} (h : Begins rest) :
    flowEntries handles (fuel + 3) atStart ⟨leading atStart ++ (keyTokens text ++ rest), anchors⟩
      = (do
          let value ← node handles (fuel + 1) false false
          return (Node.scalar none none false text, value)
            :: (← flowEntries handles (fuel + 2) false)) ⟨rest, anchors⟩ := by
  rw [flowEntries.eq_def]
  cases atStart <;> cases h <;> rfl

/-- A key and its value take three steps. -/
lemma flowEntries_short {atStart : Bool} (hfuel : fuel < 3) (h : Begins rest)
    {answer : List (Node × Node) × Reading} :
    flowEntries handles fuel atStart ⟨leading atStart ++ (keyTokens text ++ rest), anchors⟩
      ≠ .ok answer := by
  rcases fuel with - | - | - | fuel
  · rintro ⟨⟩
  · cases atStart <;> cases h <;> rintro ⟨⟩
  · cases atStart <;> cases h <;> rintro ⟨⟩
  · omega

/-- A value whose key is missing is refused. -/
lemma flowEntries_missing {atStart : Bool} {answer : List (Node × Node) × Reading} :
    flowEntries handles fuel atStart
      ⟨leading atStart ++ .scalar false text :: .value :: rest, anchors⟩ ≠ .ok answer := by
  rcases fuel with - | - | fuel
  · rintro ⟨⟩
  · cases atStart <;> rintro ⟨⟩
  · cases atStart <;> rintro ⟨⟩

end Parser

/-- The value of a node, if it has any, is alike a value. -/
def Reads (v : Json) (node : Node) : Prop :=
  ∀ (scope : Node.Scope) (depth count count' : Nat) (w : Json),
    node.toJson scope depth count = .ok (w, count') → Alike v w

/-- The key and the value of an entry. -/
structure ReadsEntry (entry : String × Json) (node : Node × Node) : Prop where
  key : ∃ text, node.1 = .scalar none none false text ∧ entry.1 = String.ofList text
  value : Reads entry.2 node.2

/-- A scalar without tag or anchor stands for its value. -/
lemma toJson_scalar (scope : Node.Scope) (depth count : Nat) (isPlain : Bool) (text : List Char) :
    (Node.scalar none none isPlain text).toJson scope depth count
      = (Scalar.value none isPlain text).map fun w => (w, count) := by
  have hlift : (Node.scalar none none isPlain text).toJson scope depth count
      = (monadLift (Scalar.value none isPlain text) : Node.Counting Json) count := by
    cases depth with
    | zero => rw [Node.toJson.eq_def]; rfl
    | succ depth => rw [Node.toJson.eq_def]; rfl
  rw [hlift]
  cases Scalar.value none isPlain text with
  | error fault => rfl
  | ok w => rfl

lemma toJson_sequence (scope : Node.Scope) (depth count : Nat) (items : List Node) :
    (Node.sequence none none items).toJson scope (depth + 1) count
      = (do return Json.arr (← items.mapM (Node.toJson scope depth)) : Node.Counting Json) count := by
  rw [Node.toJson.eq_def]
  rfl

lemma toJson_mapping (scope : Node.Scope) (depth count : Nat) (entries : List (Node × Node)) :
    (Node.mapping none none entries).toJson scope (depth + 1) count
      = (do
          let fields ← entries.foldlM (fun (fields : Fields) (entry : Node × Node) => do
            let key ← Node.keyText scope entry.1
            let value ← Node.toJson scope depth entry.2
            return fields.put key value) []
          return Json.obj fields : Node.Counting Json) count := by
  rw [Node.toJson.eq_def]
  rfl

/-- A plain scalar is a scalar in JSON too, whatever it is taken for. -/
lemma isScalar_of_plainValue {text : List Char} {w : Json}
    (h : Scalar.plainValue text = .ok w) : w.isScalar = true := by
  have hother : (if Scalar.hasLeadingZero text then Json.str (String.ofList text)
      else (Scalar.real? text).elim (.str (String.ofList text)) Scalar.realValue).isScalar = true := by
    split_ifs
    · rfl
    · rcases Scalar.real? text with - | - | x
      all_goals rfl
  rw [Scalar.plainValue] at h
  generalize (if Scalar.hasLeadingZero text then Json.str (String.ofList text)
      else (Scalar.real? text).elim (.str (String.ofList text)) Scalar.realValue) = other at h hother
  split_ifs at h with hnull
  · cases h
    rfl
  · split at h
    · cases h
      rfl
    · split at h
      · cases h
        rfl
      · cases h
      · cases h
        exact hother
    · cases h
      exact hother

namespace Reads

/-- Words are read as they are. -/
lemma word {text : List Char} {v : Json} (h : Word text v) :
    Reads v (.scalar none none true text) := by
  intro scope depth count count' w hw
  rw [toJson_scalar] at hw
  have hvalue : Scalar.value none true text = .ok v := by
    cases h
    all_goals rfl
  rw [hvalue] at hw
  cases hw
  exact .same v

/-- A numeral is read as its number if that is an integer, and else as some scalar. -/
lemma number {text : List Char} {n : Number} (h : Numeral text n) :
    Reads (.num n) (.scalar none none true text) := by
  intro scope depth count count' w hw
  cases n with
  | real x =>
      -- whatever YAML takes the numeral for is a scalar
      rw [toJson_scalar] at hw
      obtain ⟨w, hvalue, hpair⟩ := exists_of_map_eq_ok hw
      cases hpair
      exact .real x (isScalar_of_plainValue hvalue)
  | integer z =>
      rw [toJson_scalar] at hw
      have hvalue : Scalar.value none true text = .ok (.num (.integer z)) := h.integer z rfl
      rw [hvalue] at hw
      cases hw
      exact .same _

lemma string (text : List Char) :
    Reads (.str (String.ofList text)) (.scalar none none false text) := by
  intro scope depth count count' w hw
  rw [toJson_scalar] at hw
  cases hw
  exact .same _

variable {scope : Node.Scope} {depth count count' : Nat}

/-- The nodes of a sequence stand for values alike. -/
lemma items {vs : List Json} {nodes : List Node} (h : List.Forall₂ Reads vs nodes) {ws : List Json}
    (hw : nodes.mapM (Node.toJson scope depth) count = .ok (ws, count')) : AlikeItems vs ws := by
  induction h generalizing count ws with
  | nil =>
      cases hw
      exact .nil
  | cons hnode hnodes ih =>
      rw [List.mapM_cons] at hw
      obtain ⟨w, count₁, hvalue, hw⟩ := exists_of_bind_eq_ok hw
      obtain ⟨others, count₂, hothers, hw⟩ := exists_of_bind_eq_ok hw
      cases hw
      exact .cons (hnode scope depth count count₁ w hvalue) (ih hothers)

/-- The entries of a mapping stand for members alike. The induction is on the entries,
with those that stand in front of them already in place. -/
lemma fields {es : List (String × Json)} {nodes : List (Node × Node)}
    (h : List.Forall₂ ReadsEntry es nodes) {before before' fields : Fields}
    (hbefore : AlikeFields before before')
    (hw : (nodes.foldlM (fun (fields : Fields) (entry : Node × Node) => do
        let key ← Node.keyText scope entry.1
        let value ← Node.toJson scope depth entry.2
        return fields.put key value) before' : Node.Counting Fields) count = .ok (fields, count')) :
    AlikeFields (es.foldl (fun fields entry => fields.put entry.1 entry.2) before) fields := by
  induction h generalizing before before' count with
  | nil =>
      cases hw
      exact hbefore
  | @cons e nd es nodes hentry hentries ih =>
      rw [List.foldlM_cons] at hw
      obtain ⟨next, count₁, hstep, hmore⟩ := exists_of_bind_eq_ok hw
      obtain ⟨key, count₂, hkey, hput⟩ := exists_of_bind_eq_ok hstep
      obtain ⟨value, count₃, hvalue, hnext⟩ := exists_of_bind_eq_ok hput
      -- the key is the same on both sides, and the values are alike
      obtain ⟨text, hnode, htext⟩ := hentry.key
      rw [hnode] at hkey
      cases hkey
      cases hnext
      rw [List.foldl_cons, htext]
      exact ih (hbefore.put (hentry.value scope depth _ _ value hvalue) _) hmore

lemma array {vs : List Json} {nodes : List Node} (h : List.Forall₂ Reads vs nodes) :
    Reads (.arr vs) (.sequence none none nodes) := by
  intro scope depth count count' w hw
  cases depth with
  | zero =>
      rw [Node.toJson.eq_def] at hw
      cases hw
  | succ depth =>
      rw [toJson_sequence] at hw
      obtain ⟨ws, count₁, hitems, hw⟩ := exists_of_bind_eq_ok hw
      cases hw
      exact .array (items h hitems)

lemma object {es : List (String × Json)} {nodes : List (Node × Node)}
    (h : List.Forall₂ ReadsEntry es nodes) :
    Reads (.obj (fieldsOf es)) (.mapping none none nodes) := by
  intro scope depth count count' w hw
  cases depth with
  | zero =>
      rw [Node.toJson.eq_def] at hw
      cases hw
  | succ depth =>
      rw [toJson_mapping] at hw
      obtain ⟨ws, count₁, hfields, hw⟩ := exists_of_bind_eq_ok hw
      cases hw
      exact .object (fields h .nil hfields)

end Reads

namespace Parser

variable {handles : Handles} {fuel : Nat} {rest : List Token} {anchors : List (List Char × Nat)}

mutual

/-- Nodes read off the tokens of values have those values. -/
theorem node_reads {v : Json} {tokens : List Token} (h : TokensOf v tokens) {fuel : Nat}
    {inBlock indentless : Bool} {rest : List Token} {anchors : List (List Char × Nat)} {nd : Node}
    {r : Reading}
    (hnode : node handles fuel inBlock indentless ⟨tokens ++ rest, anchors⟩ = .ok (nd, r)) :
    Reads v nd ∧ r.tokens = rest := by
  cases fuel with
  | zero => cases hnode
  | succ fuel =>
      match h with
      | .word hword =>
          rw [List.singleton_append, node_scalar] at hnode
          cases hnode
          exact ⟨.word hword, rfl⟩
      | .number hnumeral =>
          rw [List.singleton_append, node_scalar] at hnode
          cases hnode
          exact ⟨.number hnumeral, rfl⟩
      | .string =>
          rw [List.singleton_append, node_scalar] at hnode
          cases hnode
          exact ⟨.string _, rfl⟩
      | .array hitems =>
          rw [List.cons_append, node_sequence] at hnode
          obtain ⟨nodes, r', hflow, hdone⟩ := exists_of_bind_eq_ok hnode
          obtain ⟨hreads, hrest⟩ := flowItems_reads hitems hflow
          cases hdone
          exact ⟨.array hreads, hrest⟩
      | .object hentries =>
          rw [List.cons_append, node_mapping] at hnode
          obtain ⟨nodes, r', hflow, hdone⟩ := exists_of_bind_eq_ok hnode
          obtain ⟨hreads, hrest⟩ := flowEntries_reads hentries hflow
          cases hdone
          exact ⟨.object hreads, hrest⟩

/-- Sequences read off the tokens of the elements of an array have these elements. -/
theorem flowItems_reads {atStart : Bool} {vs : List Json} {tokens : List Token}
    (h : TokensOfItems atStart vs tokens) {fuel : Nat} {rest : List Token}
    {anchors : List (List Char × Nat)} {nodes : List Node} {r : Reading}
    (hflow : flowItems handles fuel atStart ⟨tokens ++ rest, anchors⟩ = .ok (nodes, r)) :
    List.Forall₂ Reads vs nodes ∧ r.tokens = rest := by
  cases fuel with
  | zero => cases hflow
  | succ fuel =>
      match h with
      | .close =>
          rw [List.singleton_append, flowItems_close] at hflow
          cases hflow
          exact ⟨.nil, rfl⟩
      | .item hitem hmore =>
          rename_i tokens more
          -- the first element is a node, and behind it stand the others
          rw [List.append_assoc, List.append_assoc,
            flowItems_item ((begins_of_tokensOf hitem).append _)] at hflow
          obtain ⟨nd, r₁, hnode, hothers⟩ := exists_of_bind_eq_ok hflow
          obtain ⟨hreads, hrest⟩ := node_reads hitem hnode
          obtain ⟨_, anchors⟩ := r₁
          subst hrest
          obtain ⟨others, r₂, hitems, hdone⟩ := exists_of_bind_eq_ok hothers
          obtain ⟨hreadsOthers, hrest⟩ := flowItems_reads hmore hitems
          cases hdone
          exact ⟨.cons hreads hreadsOthers, hrest⟩

/-- Mappings read off the tokens of the members of an object have these members. -/
theorem flowEntries_reads {atStart : Bool} {es : List (String × Json)} {tokens : List Token}
    (h : TokensOfEntries atStart es tokens) {fuel : Nat} {rest : List Token}
    {anchors : List (List Char × Nat)} {nodes : List (Node × Node)} {r : Reading}
    (hflow : flowEntries handles fuel atStart ⟨tokens ++ rest, anchors⟩ = .ok (nodes, r)) :
    List.Forall₂ ReadsEntry es nodes ∧ r.tokens = rest := by
  match h with
  | .close =>
      cases fuel with
      | zero => cases hflow
      | succ fuel =>
          rw [List.singleton_append, flowEntries_close] at hflow
          cases hflow
          exact ⟨.nil, rfl⟩
  | .entry (.inl hkey) hvalue hmore =>
      -- without its indicator a key is not read as one
      subst hkey
      rw [List.append_assoc] at hflow
      exact absurd hflow flowEntries_missing
  | .entry (.inr hkey) hvalue hmore =>
      rename_i cs value others key tokens more
      subst hkey
      -- the indicator and the key stand in front of the value and the other entries
      have hbegins : Begins (tokens ++ (more ++ rest)) := (begins_of_tokensOf hvalue).append _
      have htokens : leading atStart ++ ([.key] ++ [.scalar false cs, .value] ++ (tokens ++ more))
          ++ rest = leading atStart ++ (keyTokens cs ++ (tokens ++ (more ++ rest))) := by
        simp [keyTokens]
      rw [htokens] at hflow
      -- the entry, its key and its value take one step each
      rcases fuel with - | - | - | fuel
      · exact absurd hflow (flowEntries_short (by omega) hbegins)
      · exact absurd hflow (flowEntries_short (by omega) hbegins)
      · exact absurd hflow (flowEntries_short (by omega) hbegins)
      · -- the value is read by the other induction, and the others by this one
        rw [flowEntries_entry hbegins] at hflow
        obtain ⟨nd, r₁, hnode, hothers⟩ := exists_of_bind_eq_ok hflow
        obtain ⟨hreads, hrest⟩ := node_reads hvalue hnode
        obtain ⟨_, anchors⟩ := r₁
        subst hrest
        obtain ⟨others, r₂, hentries, hdone⟩ := exists_of_bind_eq_ok hothers
        obtain ⟨hreadsOthers, hrest⟩ := flowEntries_reads hmore hentries
        cases hdone
        exact ⟨.cons ⟨⟨cs, rfl, rfl⟩, hreads⟩ hreadsOthers, hrest⟩

end

/-- Tokens of values need no mark of a document's start. -/
lemma firstDocument_of_begins {tokens : List Token} (h : Begins tokens) :
    firstDocument tokens = (content defaultHandles tokens).map some := by
  cases h
  all_goals rfl

/-- What begins like a node is the node of a document. -/
lemma content_of_begins {tokens : List Token} (h : Begins tokens) :
    content handles tokens
      = (node handles (3 * tokens.length + 3) true false { tokens }).map
          fun answer => (answer.1, answer.2.tokens) := by
  cases h
  all_goals rfl

/-- The document of a value's tokens is a node with that value. -/
lemma firstDocument_reads {v : Json} {tokens : List Token} (h : TokensOf v tokens)
    {document : Option (Node × List Token)} (hdocument : firstDocument tokens = .ok document) :
    ∃ nd rest, document = some (nd, rest) ∧ Reads v nd := by
  have hbegins := begins_of_tokensOf h
  rw [firstDocument_of_begins hbegins, content_of_begins hbegins] at hdocument
  obtain ⟨answer, hcontent, rfl⟩ := exists_of_map_eq_ok hdocument
  obtain ⟨⟨nd, r⟩, hnode, rfl⟩ := exists_of_map_eq_ok hcontent
  rw [← List.append_nil tokens] at hnode
  exact ⟨nd, r.tokens, rfl, (node_reads h hnode).1⟩

end Parser

/-- YAML reads the text of a JSON value as a value alike, if it reads it. -/
lemma alike_of_read {t rest : List Char} {v w : Json} (hspells : Spells (afterSpace t) v rest)
    (hrest : afterSpace rest = []) (hnarrow : Narrow t) (h : read t = .ok w) : Alike v w := by
  obtain ⟨nd?, hdocument, hvalue⟩ := exists_of_andThen_eq_ok h
  obtain ⟨T, htokens, hparse⟩ := exists_of_andThen_eq_ok hdocument
  obtain ⟨first, hfirst, hend⟩ := exists_of_andThen_eq_ok hparse
  obtain ⟨nd, others, rfl, hreads⟩ :=
    Parser.firstDocument_reads (tokensOf_of_spells hspells hrest hnarrow htokens) hfirst
  dsimp only at hend
  split_ifs at hend
  cases hend
  obtain ⟨⟨w', count⟩, hjson, rfl⟩ := exists_of_map_eq_ok hvalue
  exact hreads _ _ _ _ _ hjson

end Yaml

lemma eq_ok_of_mapError {ε ε' α : Type} {x : Except ε α} {f : ε → ε'} {a : α}
    (h : x.mapError f = .ok a) : x = .ok a := by
  cases x with
  | error fault => cases h
  | ok b =>
      cases h
      rfl

/-- A JSON text without the line breaks that JSON does not know has a value alike in
YAML, if it has any there. -/
lemma parseDocument_alike {bytes : List UInt8} {text : List Char} {v w : Json}
    (htext : Utf8.decode bytes = .ok text) (hnarrow : Yaml.Narrow text)
    (hjson : parseDocument .json bytes = .ok v) (hyaml : parseDocument .yaml bytes = .ok w) :
    Alike v w := by
  rw [parseDocument, htext] at hyaml
  obtain rfl := Utf8.decode_eq_ok_iff.mp htext
  obtain ⟨rest, hspells, hrest⟩ := Json.spells_of_read (eq_ok_of_mapError hjson)
  exact Yaml.alike_of_read hspells hrest hnarrow (eq_ok_of_mapError hyaml)

/-- **JSON and YAML.** A JSON text without the line breaks that JSON does not know, which
YAML reads too, holds the same schemas in both, or none, if all numbers of the schemas are
integers. -/
theorem formats_agree {bytes : List UInt8} {text : List Char} {v w : Json}
    (htext : Utf8.decode bytes = .ok text) (hnarrow : Yaml.Narrow text)
    (hjson : parseDocument .json bytes = .ok v) (hyaml : parseDocument .yaml bytes = .ok w)
    (hwhole : ∀ mapping, componentSchemas v = .ok mapping → Json.wholeFields mapping = true) :
    componentSchemas w = componentSchemas v := by
  have halike := parseDocument_alike htext hnarrow hjson hyaml
  by_cases hschemas : ∃ mapping, SchemasAt v mapping
  · obtain ⟨mapping, hv⟩ := hschemas
    obtain ⟨mapping', hw, hmapping⟩ := halike.schemasAt hv
    have hcomponents := componentSchemas_of_schemasAt hv
    rw [componentSchemas_of_schemasAt hw, hcomponents, hmapping.eq (hwhole mapping hcomponents)]
  · have hv : ∀ mapping, ¬ SchemasAt v mapping := not_exists.mp hschemas
    have hw : ∀ mapping, ¬ SchemasAt w mapping :=
      fun mapping hmapping => hschemas (halike.exists_schemasAt hmapping)
    rw [componentSchemas_of_forall_not hv, componentSchemas_of_forall_not hw]

/-- A document with one schema, whose example is spelled like this. -/
def balanceText (spelling : String) : List Char :=
  ("\x7b\"components\": \x7b\"schemas\": \x7b\"Balance\": \x7b\"type\": \"number\", \"example\": "
    ++ spelling ++ "\x7d\x7d\x7d\x7d").toList

/-- Its value, where the example is that number. -/
def balanceDocument (n : Number) : Json :=
  .obj [("components", .obj [("schemas", .obj [("Balance",
    .obj [("type", .str "number"), ("example", .num n)])])])]

theorem formats_agree_balance :
    let bytes := Utf8.octets (balanceText "-7")
    ∃ v w, parseDocument .json bytes = .ok v ∧ parseDocument .yaml bytes = .ok w
      ∧ componentSchemas w = componentSchemas v := by
  have hjson : parseDocument .json (Utf8.octets (balanceText "-7"))
      = .ok (balanceDocument (.integer (-7))) := by decide +kernel
  have hyaml : parseDocument .yaml (Utf8.octets (balanceText "-7"))
      = .ok (balanceDocument (.integer (-7))) := by decide +kernel
  refine ⟨_, _, hjson, hyaml, formats_agree (Utf8.decode_eq_ok_iff.mpr rfl) (by decide) hjson hyaml ?_⟩
  rintro mapping ⟨⟩
  rfl

/-- Minus zero is real in JSON and an integer in YAML. -/
theorem minus_zero_differs :
    let bytes := Utf8.octets (balanceText "-0")
    parseDocument .json bytes = .ok (balanceDocument (.real (.zero true)))
      ∧ parseDocument .yaml bytes = .ok (balanceDocument (.integer 0))
      ∧ componentSchemas (balanceDocument (.real (.zero true)))
        ≠ componentSchemas (balanceDocument (.integer 0)) := by
  refine ⟨?_, ?_, ?_⟩ <;> decide +kernel

end SchemaTypes
