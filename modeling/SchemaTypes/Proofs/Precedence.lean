import SchemaTypes.Proofs.Enumerations
import SchemaTypes.Proofs.Lists
import SchemaTypes.Proofs.Nesting

/-!
Type expressions as they are read.

A type expression is written by putting texts one behind the other. It is read by the
precedence of its signs: the marks of an array belong to what stands right in front of
them, and a bar parts all that stands on its two sides. The two go together as long as
no bar stands in front of a mark.

* `TypeExpr`: what a type expression says;
* `TypeToken`, `scan`: the words, literals and signs of a text;
* `readTokens`: the members between the bars of a type expression;
  `readTokens_concat_brackets` says that a mark belongs to the last of them;
* `readType`: the type expression that a text is read as;
* `Kind.tokens`, `scan_render`: the words, literals and signs of a rendered kind;
* `typed_items_read`: typed items are read as an array of what they are read as
  themselves, unless they are a choice of literals; `choice_items_misread` is such a
  choice.
-/

namespace SchemaTypes

/-- What a type expression says. -/
inductive TypeExpr where
  | name (text : String)
  | literal (text : String)
  /-- The type of an object of which nothing is said. -/
  | braces
  | array (item : TypeExpr)
  | union (members : List TypeExpr)

/-! ### Words, literals and signs -/

/-- A word, a literal or a sign. -/
inductive TypeToken where
  | name (text : String)
  | literal (text : String)
  | braces
  | brackets
  | bar
  | opening
  | closing
deriving DecidableEq

/-- The characters of words, identifiers among them: letters and digits, the underscore,
the dollar sign, and all that is neither ASCII nor blank. -/
def isWordChar (c : Char) : Bool :=
  c.isAlphanum || c = '_' || c = '$' || (0x80 ≤ c.toNat && !isBlank c)

/-- A text that is one word, such as an identifier. -/
def IsWord (text : String) : Prop := text.toList ≠ [] ∧ text.toList.all isWordChar = true

instance (text : String) : Decidable (IsWord text) := inferInstanceAs (Decidable (_ ∧ _))

/-- What the next character of a text continues. -/
inductive ScanMode where
  | between
  | word (read : List Char)
  | literal (read : List Char)
  /-- A sign of two characters, of which the first has been read. -/
  | sign (token : TypeToken) (last : Char)
deriving DecidableEq

namespace ScanMode

/-- What a character begins that continues nothing. -/
def start (c : Char) : Option (List TypeToken × ScanMode) :=
  if isWordChar c then some ([], .word [c])
  else if c = ' ' then some ([], .between)
  else if c = '\'' then some ([], .literal [])
  else if c = '[' then some ([], .sign .brackets ']')
  else if c = '\x7b' then some ([], .sign .braces '\x7d')
  else if c = '|' then some ([.bar], .between)
  else if c = '(' then some ([.opening], .between)
  else if c = ')' then some ([.closing], .between)
  else none

/-- What a character completes, and what the next one continues. -/
def step : ScanMode → Char → Option (List TypeToken × ScanMode)
  | between, c => start c
  | word read, c =>
    if isWordChar c then some ([], .word (read ++ [c]))
    else (start c).map fun (tokens, mode) => (.name (String.ofList read) :: tokens, mode)
  | literal read, c =>
    if c = '\'' then some ([.literal (String.ofList read)], .between)
    else some ([], .literal (read ++ [c]))
  | sign token last, c => if c = last then some ([token], .between) else none

/-- What the end of a text completes. -/
def finish : ScanMode → Option (List TypeToken)
  | between => some []
  | word read => some [.name (String.ofList read)]
  | _ => none

end ScanMode

/-- The words, literals and signs of a text. A literal ends at the next quote. -/
def scan : ScanMode → List Char → Option (List TypeToken)
  | mode, [] => mode.finish
  | mode, c :: rest =>
    (mode.step c).bind fun (tokens, next) => (scan next rest).map (tokens ++ ·)

lemma scan_cons {mode next : ScanMode} {c : Char} {tokens : List TypeToken}
    (h : mode.step c = some (tokens, next)) (rest : List Char) :
    scan mode (c :: rest) = (scan next rest).map (tokens ++ ·) := by
  rw [scan, h]
  rfl

/-- A character that completes nothing. -/
lemma scan_cons_nil {mode next : ScanMode} {c : Char} (h : mode.step c = some ([], next))
    (rest : List Char) : scan mode (c :: rest) = scan next rest := by
  rw [scan_cons h]
  exact Option.map_id'

/-- The mark of an array behind a text is one more sign. -/
lemma scan_append_brackets {mode : ScanMode} {cs : List Char} {tokens : List TypeToken}
    (h : scan mode cs = some tokens) :
    scan mode (cs ++ ['[', ']']) = some (tokens ++ [.brackets]) := by
  induction cs generalizing mode tokens with
  | nil =>
      cases mode with
      | between =>
          obtain rfl := Option.some.inj h
          rfl
      | word read =>
          obtain rfl := Option.some.inj h
          rfl
      | literal read => cases h
      | sign token last => cases h
  | cons c rest ih =>
      obtain ⟨⟨first, next⟩, hstep, hrest⟩ := Option.bind_eq_some_iff.mp h
      obtain ⟨later, hlater, rfl⟩ := Option.map_eq_some_iff.mp hrest
      rw [List.cons_append, scan_cons hstep, ih hlater, Option.map_some, List.append_assoc]

lemma scan_append_arrayMarks {text : String} {tokens : List TypeToken}
    (h : scan .between text.toList = some tokens) (n : ℕ) :
    scan .between (text ++ arrayMarks n).toList
      = some (tokens ++ List.replicate n .brackets) := by
  induction n with
  | zero => simpa using h
  | succ n ih =>
      have hmark : arraySuffix.toList = ['[', ']'] := rfl
      rw [arrayMarks_succ, ← String.append_assoc, String.toList_append, hmark,
        scan_append_brackets ih, List.replicate_succ', List.append_assoc]

lemma scan_word {read cs : List Char} (h : ∀ c ∈ cs, isWordChar c = true) :
    scan (.word read) cs = some [.name (String.ofList (read ++ cs))] := by
  induction cs generalizing read with
  | nil => simp [scan, ScanMode.finish]
  | cons c cs ih =>
      obtain ⟨hc, hcs⟩ := List.forall_mem_cons.mp h
      have hstep : (ScanMode.word read).step c = some ([], .word (read ++ [c])) := if_pos hc
      rw [scan_cons_nil hstep, ih hcs, List.append_assoc, List.singleton_append]

lemma scan_of_isWord {text : String} (h : IsWord text) :
    scan .between text.toList = some [.name text] := by
  obtain ⟨hne, hall⟩ := h
  obtain ⟨c, cs, htext⟩ := List.exists_cons_of_ne_nil hne
  rw [List.all_eq_true, htext] at hall
  obtain ⟨hc, hcs⟩ := List.forall_mem_cons.mp hall
  have hstep : ScanMode.between.step c = some ([], .word [c]) := if_pos hc
  rw [htext, scan_cons_nil hstep, scan_word hcs, List.singleton_append, ← htext,
    String.ofList_toList]

lemma scan_literal {v : List Char} (h : '\'' ∉ v) (read rest : List Char) :
    scan (.literal read) (v ++ '\'' :: rest)
      = (scan .between rest).map (.literal (String.ofList (read ++ v)) :: ·) := by
  induction v generalizing read with
  | nil =>
      have hstep : (ScanMode.literal read).step '\''
          = some ([.literal (String.ofList read)], .between) := by rw [ScanMode.step, if_pos rfl]
      rw [List.nil_append, List.append_nil, scan_cons hstep]
      rfl
  | cons c v ih =>
      obtain ⟨hc, hv⟩ := List.ne_and_not_mem_of_not_mem_cons h
      have hstep : (ScanMode.literal read).step c = some ([], .literal (read ++ [c])) :=
        if_neg hc.symm
      rw [List.cons_append, scan_cons_nil hstep, ih hv, List.append_assoc, List.singleton_append]

/-- The literals of an enumeration with a bar between neighbours. -/
def literalTokens (values : List String) : List TypeToken :=
  (values.map TypeToken.literal).intersperse .bar

/-- Values without quotes are literals. -/
lemma scan_behind {value : String} {rest : List String}
    (h : ∀ v ∈ value :: rest, '\'' ∉ v.toList) :
    scan (.literal []) (value.toList ++ behind (rest.map String.toList))
      = some (literalTokens (value :: rest)) := by
  induction rest generalizing value with
  | nil =>
      rw [List.map_nil, behind, scan_literal (h value List.mem_cons_self)]
      simp [scan, ScanMode.finish, literalTokens]
  | cons next rest ih =>
      obtain ⟨hvalue, hrest⟩ := List.forall_mem_cons.mp h
      have hbar (cs : List Char) : scan .between ('|' :: '\'' :: cs)
          = (scan (.literal []) cs).map (.bar :: ·) := by
        have hquote : ScanMode.between.step '\'' = some ([], .literal []) := by decide +kernel
        have hstep : ScanMode.between.step '|' = some ([.bar], .between) := by decide +kernel
        rw [scan_cons hstep, scan_cons_nil hquote]
        rfl
      rw [List.map_cons, behind, scan_literal hvalue, hbar, ih hrest]
      simp [literalTokens]

/-! ### Precedence -/

/-- The type expression with the given members between its bars. -/
def TypeExpr.ofMembers : List TypeExpr → TypeExpr
  | [member] => member
  | members => .union members

lemma TypeExpr.ofMembers_concat {front : List TypeExpr} (h : front ≠ []) (last : TypeExpr) :
    ofMembers (front ++ [last]) = .union (front ++ [last]) := by
  match front, h with
  | [_], _ => rfl
  | _ :: _ :: _, _ => rfl

/-- A type expression of which a part has been read. -/
structure PartialType where
  /-- The members in front of each parenthesis that is still open. -/
  outer : List (List TypeExpr)
  /-- The members in front of the last bar. -/
  members : List TypeExpr
  /-- What stands behind the last bar. -/
  operand : Option TypeExpr

namespace PartialType

/-- Nothing has been read. -/
def start : PartialType := ⟨[], [], none⟩

/-- One more word, literal or sign. The marks of an array belong to what stands right
in front of them; a bar ends a member. -/
def push : PartialType → TypeToken → Option PartialType
  | ⟨outer, members, none⟩, .name text => some ⟨outer, members, some (.name text)⟩
  | ⟨outer, members, none⟩, .literal text => some ⟨outer, members, some (.literal text)⟩
  | ⟨outer, members, none⟩, .braces => some ⟨outer, members, some .braces⟩
  | ⟨outer, members, none⟩, .opening => some ⟨members :: outer, [], none⟩
  | ⟨outer, members, some operand⟩, .brackets => some ⟨outer, members, some (.array operand)⟩
  | ⟨outer, members, some operand⟩, .bar => some ⟨outer, members ++ [operand], none⟩
  | ⟨before :: outer, members, some operand⟩, .closing =>
    some ⟨outer, before, some (.ofMembers (members ++ [operand]))⟩
  | _, _ => none

/-- The members of a type expression that has been read to its end. -/
def members? : PartialType → Option (List TypeExpr)
  | ⟨[], members, some operand⟩ => some (members ++ [operand])
  | _ => none

end PartialType

/-- The members between the bars of a type expression. -/
def readTokens (tokens : List TypeToken) : Option (List TypeExpr) :=
  (tokens.foldlM PartialType.push .start).bind PartialType.members?

/-- The type expression that a text is read as. -/
def readType (text : String) : Option TypeExpr :=
  ((scan .between text.toList).bind readTokens).map .ofMembers

/-- **A mark belongs to the last member** of what stands in front of it. -/
lemma readTokens_concat_brackets {tokens : List TypeToken} {front : List TypeExpr}
    {last : TypeExpr} (h : readTokens tokens = some (front ++ [last])) :
    readTokens (tokens ++ [.brackets]) = some (front ++ [.array last]) := by
  obtain ⟨⟨outer, members, operand⟩, hread, hmembers⟩ := Option.bind_eq_some_iff.mp h
  match outer, operand, hmembers with
  | [], some operand, hmembers =>
      obtain ⟨rfl, hlast⟩ := List.append_inj' (Option.some.inj hmembers) rfl
      obtain rfl := List.singleton_inj.mp hlast
      rw [readTokens, List.foldlM_append, hread]
      rfl

lemma readTokens_append_brackets {tokens : List TypeToken} {front : List TypeExpr}
    {last : TypeExpr} (h : readTokens tokens = some (front ++ [last])) (n : ℕ) :
    readTokens (tokens ++ List.replicate n .brackets)
      = some (front ++ [TypeExpr.array^[n] last]) := by
  induction n with
  | zero => simpa using h
  | succ n ih =>
      rw [List.replicate_succ', ← List.append_assoc, readTokens_concat_brackets ih,
        Function.iterate_succ_apply']

/-- The literals of an enumeration are the members between its bars. -/
lemma foldlM_literalTokens (members : List TypeExpr) (value : String) (rest : List String) :
    ((literalTokens (value :: rest)).foldlM PartialType.push ⟨[], members, none⟩).bind
        PartialType.members?
      = some (members ++ (value :: rest).map .literal) := by
  induction rest generalizing members value with
  | nil => rfl
  | cons next rest ih =>
      have hnext := ih (members ++ [.literal value]) next
      rw [List.append_assoc, List.singleton_append] at hnext
      exact hnext

/-! ### Rendered kinds -/

/-- The word in front of the mark of an array that has no typed items. -/
def Items.word : Items → String
  | primitive token => token.text
  | reference target => target.name
  | _ => unknownType

namespace Kind

/-- What is innermost can be read: no value of an enumeration has a quote, tags and the
names of references are words, and no items are passed through as they are. Arrays of
typed items are not innermost. -/
def IsLegible : Kind → Prop
  | reference target => IsWord target.name
  | string (some values) _ _ => ∀ v ∈ values, '\'' ∉ v.toList
  | other tag => IsWord tag
  | array (.reference target) => IsWord target.name
  | array (.typed _) => False
  | array (.verbatim _) => False
  | _ => True

/-- The literals that a kind is a choice of. -/
def choices : Kind → List String
  | string (some values) _ _ => values
  | _ => []

/-- The words, literals and signs of what is innermost. -/
def tokens : Kind → List TypeToken
  | string (some values) _ _ => literalTokens values
  | object => [.braces]
  | array items => [.name items.word, .brackets]
  | kind => [.name kind.render]

/-- An enumeration without values, which no schema is read as. -/
def IsVoid (kind : Kind) : Prop := ∃ format pattern, kind = string (some []) format pattern

end Kind

lemma isWord_builtin : ∀ word ∈ ["boolean", "integer", "number", "string", unknownType],
    IsWord word := by
  decide +kernel

lemma isWord_token (token : PrimitiveToken) : IsWord token.text := by
  cases token <;> exact isWord_builtin _ (by decide)

lemma scan_word_brackets {text : String} (h : IsWord text) :
    scan .between (text ++ arraySuffix).toList = some [.name text, .brackets] := by
  rw [String.toList_append]
  exact scan_append_brackets (scan_of_isWord h)

section

variable {kind : Kind}

/-- **What is innermost is scanned as it should be.** -/
lemma scan_render (h : kind.IsLegible) (hvoid : ¬ kind.IsVoid) :
    scan .between kind.render.toList = some kind.tokens := by
  cases kind with
  | reference target => exact scan_of_isWord h
  | string values format pattern =>
      match values, h with
      | none, _ => exact scan_of_isWord (isWord_builtin "string" (by decide))
      | some [], _ => exact absurd ⟨_, _, rfl⟩ hvoid
      | some (value :: rest), h =>
          have hquote : ScanMode.between.step '\'' = some ([], .literal []) := by decide +kernel
          rw [toList_render_enum, scan_cons_nil hquote, scan_behind h]
          rfl
  | integer _ _ => exact scan_of_isWord (isWord_builtin "number" (by decide))
  | boolean => exact scan_of_isWord (isWord_builtin "boolean" (by decide))
  | object => decide +kernel
  | email => exact scan_of_isWord (isWord_builtin "string" (by decide))
  | other tag => exact scan_of_isWord h
  | untyped => exact scan_of_isWord (isWord_builtin unknownType (by decide))
  | array items =>
      cases items with
      | primitive token => exact scan_word_brackets (isWord_token token)
      | reference target => exact scan_word_brackets h
      | missing => exact scan_word_brackets (isWord_builtin unknownType (by decide))
      | typed node => exact h.elim
      | verbatim value => exact h.elim

/-- What is no choice of literals is one member, and has no bar. -/
lemma readTokens_of_not_choice (h : kind.choices.length ≤ 1) (hvoid : ¬ kind.IsVoid) :
    (∃ member, readTokens kind.tokens = some [member]) ∧ .bar ∉ kind.tokens := by
  cases kind with
  | string values format pattern =>
      match values, h with
      | none, _ => exact ⟨⟨_, rfl⟩, by simp [Kind.tokens]⟩
      | some [], _ => exact absurd ⟨_, _, rfl⟩ hvoid
      | some [value], _ => exact ⟨⟨_, rfl⟩, by simp [Kind.tokens, literalTokens]⟩
  | _ => exact ⟨⟨_, rfl⟩, by simp [Kind.tokens]⟩

/-- A choice of literals has a member for each of them. -/
lemma readTokens_of_choice (h : kind.choices ≠ []) :
    readTokens kind.tokens = some (kind.choices.map .literal) := by
  cases kind with
  | string values format pattern =>
      match values, h with
      | some (value :: rest), _ => exact foldlM_literalTokens [] value rest
  | _ => exact absurd rfl h

end

/-! ### Typed items -/

/-- No enumeration is read without values. -/
lemma enumValuesOf_ne (fields : Fields) : enumValuesOf fields ≠ some [] := by
  rw [enumValuesOf]
  split <;> simp

lemma not_isVoid_ofFields {fields : Fields} {location : Location} {items : Items × List Finding}
    (h : ¬ items.1.chain.2.IsVoid) :
    ¬ (Kind.ofFields fields location items).1.chain.2.IsVoid := by
  have hread := Kind.read_ofFields fields location items
  generalize Kind.ofFields fields location items = read at hread ⊢
  cases hread with
  | array href htag => exact h
  | string href htag =>
      rintro ⟨format, pattern, hvoid⟩
      exact enumValuesOf_ne fields (Kind.string.inj hvoid).1
  | _ => rintro ⟨format, pattern, ⟨⟩⟩

mutual

lemma not_isVoid_items_ofJson :
    ∀ (value : Json) (location : Location), ¬ (Items.ofJson value location).1.chain.2.IsVoid
  | .str text, location => by
      rw [Items.ofJson]
      cases PrimitiveToken.ofText? (trim text) <;> rintro ⟨format, pattern, ⟨⟩⟩
  | .obj fields, location => by
      have ih := not_isVoid_items_inFields fields location.items
      rw [Items.ofJson]
      cases referenceOf fields with
      | some target => rintro ⟨format, pattern, ⟨⟩⟩
      | none =>
          by_cases htype : (Fields.get? fields "type").isSome = true
          · simp only [if_pos htype]
            exact not_isVoid_ofFields ih
          · simp only [if_neg htype]
            rintro ⟨format, pattern, ⟨⟩⟩
  | .null, _ => by rintro ⟨format, pattern, ⟨⟩⟩
  | .bool _, _ => by rintro ⟨format, pattern, ⟨⟩⟩
  | .num _, _ => by rintro ⟨format, pattern, ⟨⟩⟩
  | .arr _, _ => by rintro ⟨format, pattern, ⟨⟩⟩

/-- The innermost kind of items that are read is no enumeration without values. -/
lemma not_isVoid_items_inFields :
    ∀ (fields : List (String × Json)) (location : Location),
      ¬ (Items.inFields fields location).1.chain.2.IsVoid
  | [], _ => by rintro ⟨format, pattern, ⟨⟩⟩
  | (key, value) :: rest, location => by
      rw [Items.inFields]
      split
      · exact not_isVoid_items_ofJson value location
      · exact not_isVoid_items_inFields rest location

end

section

variable {kind : Kind} (hlegible : kind.IsLegible) (hvoid : ¬ kind.IsVoid)

include hlegible hvoid

/-- The marks of arrays are signs behind what is innermost. -/
lemma scan_render_arrayMarks (n : ℕ) :
    scan .between (kind.render ++ arrayMarks n).toList
      = some (kind.tokens ++ List.replicate n .brackets) :=
  scan_append_arrayMarks (scan_render hlegible hvoid) n

/-- Marks of arrays belong to the last member of what is innermost. -/
lemma readType_render_arrayMarks {front : List TypeExpr} {last : TypeExpr}
    (h : readTokens kind.tokens = some (front ++ [last])) (n : ℕ) :
    readType (kind.render ++ arrayMarks n)
      = some (.ofMembers (front ++ [TypeExpr.array^[n] last])) := by
  rw [readType, scan_render_arrayMarks hlegible hvoid, Option.bind_some,
    readTokens_append_brackets h, Option.map_some]

/-- What is no choice is as many arrays as there are marks behind it. -/
lemma readType_of_not_choice {member : TypeExpr} (h : readTokens kind.tokens = some [member])
    (n : ℕ) : readType (kind.render ++ arrayMarks n) = some (TypeExpr.array^[n] member) := by
  have hread : readTokens kind.tokens = some ([] ++ [member]) := h
  exact readType_render_arrayMarks hlegible hvoid hread n

/-- A choice stays one with marks behind it. -/
lemma readType_of_choice {front : List String} {last : String}
    (h : kind.choices = front ++ [last]) (hfront : front ≠ []) (n : ℕ) :
    readType (kind.render ++ arrayMarks n)
      = some (.union (front.map .literal ++ [TypeExpr.array^[n] (.literal last)])) := by
  have hread : readTokens kind.tokens = some (front.map .literal ++ [.literal last]) := by
    rw [readTokens_of_choice (by simp [h]), h, List.map_append, List.map_singleton]
  rw [readType_render_arrayMarks hlegible hvoid hread,
    TypeExpr.ofMembers_concat (by simpa using hfront)]

end

/-- **Typed items are read as an array** of what they are read as themselves, and no bar
stands in front of the mark of the array, unless the innermost of them is a choice of
literals. Such a choice is read as one, on its own and with marks behind it: each mark
belongs to the last literal only. -/
theorem typed_items_read {fields : Fields} {location : Location} {node : Property}
    (hitems : (Items.ofJson (.obj fields) location).1 = .typed node)
    (hlegible : node.chain.2.IsLegible) :
    ∃ element, readType node.render = some element
      ∧ (node.chain.2.choices.length ≤ 1 →
        readType (Items.typed node).render = some (.array element)
          ∧ ∃ tokens, scan .between (Items.typed node).render.toList = some (tokens ++ [.brackets])
            ∧ .bar ∉ tokens)
      ∧ (∀ front last, node.chain.2.choices = front ++ [last] → front ≠ [] →
        let read (n : ℕ) : TypeExpr :=
          .union (front.map .literal ++ [TypeExpr.array^[n] (.literal last)])
        readType node.render = some (read node.chain.1)
          ∧ readType (Items.typed node).render = some (read (node.chain.1 + 1))) := by
  have hvoid : ¬ node.chain.2.IsVoid := by
    have hchain := not_isVoid_items_ofJson (.obj fields) location
    rwa [hitems, Items.chain] at hchain
  have hchoice (front last) (h : node.chain.2.choices = front ++ [last]) (hfront : front ≠ [])
      (n : ℕ) := readType_of_choice hlegible hvoid h hfront n
  rw [render_items_chain, Items.chain, render_chain]
  rcases Nat.lt_or_ge 1 node.chain.2.choices.length with hmany | hfew
  · obtain ⟨front, last, hlast, hfront⟩ := exists_front_of_one_lt_length hmany
    exact ⟨_, hchoice front last hlast hfront _, fun hfew => by omega,
      fun front last hlast hfront => ⟨hchoice front last hlast hfront _,
        hchoice front last hlast hfront _⟩⟩
  · obtain ⟨⟨member, hmember⟩, hbar⟩ := readTokens_of_not_choice hfew hvoid
    have hread := readType_of_not_choice hlegible hvoid hmember
    refine ⟨_, hread _, fun _ => ⟨?_, node.chain.2.tokens ++ List.replicate node.chain.1 .brackets,
      ?_, by simpa using hbar⟩, fun front last hlast hfront =>
        ⟨hchoice front last hlast hfront _, hchoice front last hlast hfront _⟩⟩
    · rw [hread, Function.iterate_succ_apply']
    · rw [scan_render_arrayMarks hlegible hvoid, List.replicate_succ', List.append_assoc]

/-- An array of references, as the items of one. -/
theorem typed_items_read_rows :
    let rows : Fields :=
      [("type", .str "array"), ("items", .obj [("$ref", .str "#/components/schemas/Row")])]
    let node := (Property.ofJson (.obj rows) (Location.property "key").items).1
    (Items.ofJson (.obj rows) (.property "key")).1 = .typed node
      ∧ node.chain.2.IsLegible
      ∧ readType node.render = some (.array (.name "Row"))
      ∧ readType (Items.typed node).render = some (.array (.array (.name "Row"))) := by
  intro rows node
  have hitems : (Items.ofJson (.obj rows) (.property "key")).1 = .typed node := rfl
  have hlegible : node.chain.2.IsLegible := show IsWord "Row" by decide +kernel
  obtain ⟨element, hnode, hread, -⟩ := typed_items_read hitems hlegible
  have hrow : readType node.render = some (.array (.name "Row")) :=
    show readType "Row[]" = _ from rfl
  obtain rfl := Option.some.inj (hrow.symm.trans hnode)
  exact ⟨hitems, hlegible, hnode, (hread (by decide)).1⟩

/-- **A choice of literals as items.** The mark of the array belongs to the last literal,
so that no array is read; with parentheses around the choice, one is. -/
theorem choice_items_misread :
    let choice : Fields := [("type", .str "string"), ("enum", .arr [.str "x", .str "y"])]
    let node := (Property.ofJson (.obj choice) (Location.property "key").items).1
    (Items.ofJson (.obj choice) (.property "key")).1 = .typed node
      ∧ node.chain.2.IsLegible
      ∧ (Items.typed node).render = "'x'|'y'[]"
      ∧ readType node.render = some (.union [.literal "x", .literal "y"])
      ∧ readType "'x'|'y'[]" = some (.union [.literal "x", .array (.literal "y")])
      ∧ (∀ element, readType (Items.typed node).render ≠ some (.array element))
      ∧ readType "('x'|'y')[]" = some (.array (.union [.literal "x", .literal "y"])) := by
  intro choice node
  have hrender : (Items.typed node).render = "'x'|'y'[]" := rfl
  have hread : readType "'x'|'y'[]" = some (.union [.literal "x", .array (.literal "y")]) := rfl
  have hlegible : ∀ v ∈ ["x", "y"], '\'' ∉ v.toList := by decide +kernel
  have hchoice : readType "'x'|'y'" = some (.union [.literal "x", .literal "y"]) := rfl
  refine ⟨rfl, hlegible, hrender, hchoice, hread, fun element harray => ?_, rfl⟩
  rw [hrender, hread] at harray
  cases harray

end SchemaTypes
