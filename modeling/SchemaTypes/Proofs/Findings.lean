import Mathlib.Logic.Function.Iterate
import SchemaTypes.Proofs.Reading

/-!
The findings about a collection, read off the collection itself.

* `Property.chain`: the arrays of typed items around the innermost kind of a
  property, counted, and that kind;
* `Property.walk`, `UnionType.walk`, `SchemaNode.walk`: the findings that a node
  shows, in document order;
* `findings_property_ofJson`, `findings_union_ofJson`, `findings_ofJson`: reading
  a value finds what its node shows, and besides only properties that are no
  mapping;
* `warnings_ofFields`: the warnings about a mapping are those of a walk over the
  collection it is read into.
-/

namespace SchemaTypes

/-! ### What a node shows -/

mutual

/-- How many arrays of typed items are around the innermost kind, and that kind. -/
def Kind.chain : Kind → ℕ × Kind
  | .array items => items.chain
  | kind => (0, kind)

/-- The chain of an array with the given items. -/
def Items.chain : Items → ℕ × Kind
  | .typed node => (node.chain.1 + 1, node.chain.2)
  | items => (0, .array items)

/-- The chain of a property. -/
def Property.chain : Property → ℕ × Kind
  | ⟨kind, _, _⟩ => kind.chain

end

/-- What the innermost kind of a chain shows at its place. -/
def Kind.innermost (location : Location) : Kind → List Finding
  | .untyped => [.opaqueNode location]
  | .array .missing => [.malformedItems location]
  | .array (.verbatim _) => [.malformedItems location]
  | _ => []

/-- What a chain shows that starts at a place: each array moves the place on to
its items. -/
def chainFindings (location : Location) (chain : ℕ × Kind) : List Finding :=
  chain.2.innermost (Location.items^[chain.1] location)

/-- What a property shows. -/
def Property.walk (location : Location) (p : Property) : List Finding :=
  chainFindings location p.chain

/-- What a union shows: that it has no members, or which of them have no
reference. -/
def UnionType.walk (type : UnionType) : List Finding :=
  if type.members.isEmpty then [.malformedUnion]
  else type.members.zipIdx.flatMap fun (member, index) =>
    if member = .unresolved then [.memberWithoutReference index] else []

/-- What a schema shows. -/
def SchemaNode.walk : SchemaNode → List Finding
  | record type => type.properties.flatMap fun (key, p) => p.walk (.property key)
  | union type => type.walk
  | property p => p.walk .schema

/-- What is found of a value but not shown by its node: `properties` that are no
mapping. -/
def malformedProperties : Json → List Finding
  | .obj fields =>
    match Fields.get? fields "properties" with
    | some (.obj _) => []
    | some _ => [.malformedProperties]
    | none => []
  | _ => []

/-! ### Places -/

/-- The text of the place of items `d` arrays below another place. -/
lemma text_iterate_items (location : Location) (d : ℕ) :
    (Location.items^[d] location).text
      = location.text ++ String.join (List.replicate d " items") := by
  induction d generalizing location with
  | zero => simp
  | succ d ih =>
      rw [Function.iterate_succ_apply, ih, Location.text, List.replicate_succ, String.join_cons,
        String.append_assoc]

/-- The innermost kind shows one thing at most. -/
lemma length_innermost_le (location : Location) (kind : Kind) :
    (kind.innermost location).length ≤ 1 := by
  rw [Kind.innermost.eq_def]
  split <;> simp

/-! ### Reading -/

/-- A chain of typed items goes on in the items. -/
lemma chainFindings_typed (location : Location) (node : Property) :
    chainFindings location (Items.typed node).chain = node.walk location.items := by
  rw [Items.chain, chainFindings, Function.iterate_succ_apply]
  rfl

/-- Reading attributes finds what the kind shows, if reading the items does. -/
lemma findings_kind_ofFields (fields : Fields) (location : Location)
    {items : Items × List Finding} (hitems : items.2 = chainFindings location items.1.chain) :
    (Kind.ofFields fields location items).2
      = chainFindings location (Kind.ofFields fields location items).1.chain := by
  have hread := Kind.read_ofFields fields location items
  generalize Kind.ofFields fields location items = read at hread ⊢
  cases hread with
  | array href htag => rw [Kind.chain]; exact hitems
  | _ => rfl

mutual

/-- Reading items finds what they show. -/
lemma findings_items_ofJson :
    ∀ (value : Json) (location : Location),
      (Items.ofJson value location).2
        = chainFindings location (Items.ofJson value location).1.chain
  | .str text, location => by
      rw [Items.ofJson]
      cases PrimitiveToken.ofText? (trim text) <;> rfl
  | .obj fields, location => by
      have ih := findings_kind_ofFields fields location.items
        (findings_items_inFields fields location.items)
      rw [Items.ofJson]
      cases referenceOf fields with
      | some target => rfl
      | none =>
          by_cases htype : (Fields.get? fields "type").isSome = true
          · simp only [if_pos htype, chainFindings_typed]
            exact ih
          · simp only [if_neg htype]
            rfl
  | .null, _ => rfl
  | .bool _, _ => rfl
  | .num _, _ => rfl
  | .arr _, _ => rfl

/-- Reading the items among the attributes of an array finds what they show. -/
lemma findings_items_inFields :
    ∀ (fields : List (String × Json)) (location : Location),
      (Items.inFields fields location).2
        = chainFindings location (Items.inFields fields location).1.chain
  | [], _ => rfl
  | (key, value) :: rest, location => by
      rw [Items.inFields]
      split
      · exact findings_items_ofJson value location
      · exact findings_items_inFields rest location

end

/-- **Reading a property finds what the property shows.** -/
lemma findings_property_ofJson (value : Json) (location : Location) :
    (Property.ofJson value location).2 = (Property.ofJson value location).1.walk location := by
  cases value with
  | obj fields =>
      exact findings_kind_ofFields fields location (findings_items_inFields fields location)
  | _ => rfl

/-- Reading the entries of a union finds those that show no reference. -/
lemma findings_membersFrom (index : ℕ) (entries : List Json) :
    (UnionType.membersFrom index entries).2
      = ((UnionType.membersFrom index entries).1.zipIdx index).flatMap fun (member, i) =>
          if member = .unresolved then [.memberWithoutReference i] else [] := by
  induction entries generalizing index with
  | nil => rfl
  | cons entry rest ih =>
      rw [UnionType.membersFrom]
      cases entry.fields?.bind referenceOf with
      | some target => simp [ih (index + 1)]
      | none => simp [ih (index + 1)]

/-- **Reading a union finds what the union shows.** -/
lemma findings_union_ofJson (anyOf : Json) :
    (UnionType.ofJson anyOf).2 = (UnionType.ofJson anyOf).1.walk := by
  cases anyOf with
  | arr entries =>
      cases entries with
      | nil => rfl
      | cons entry rest =>
          simp only [UnionType.ofJson, UnionType.walk, findings_membersFrom,
            UnionType.isEmpty_membersFrom]
          rfl
  | _ => rfl

/-- Reading a record finds what its properties show, or that they are no mapping. -/
lemma findings_record_ofFields (fields : Fields) (properties : Json)
    (h : fields.get? "properties" = some properties) :
    (RecordType.ofFields fields properties).2
      = malformedProperties (.obj fields)
        ++ (SchemaNode.record (RecordType.ofFields fields properties).1).walk := by
  rw [malformedProperties, h]
  cases properties with
  | obj entries =>
      simp only [RecordType.ofFields, SchemaNode.walk, List.flatMap_map, List.nil_append,
        findings_property_ofJson]
  | _ => rfl

/-- **Reading a schema finds what its node shows**, and besides only properties
that are no mapping. -/
lemma findings_ofJson (value : Json) :
    (SchemaNode.ofJson value).2
      = malformedProperties value ++ (SchemaNode.ofJson value).1.walk := by
  have hread := SchemaNode.read_ofJson value
  generalize SchemaNode.ofJson value = read at hread ⊢
  cases hread with
  | record h => exact findings_record_ofFields _ _ h
  | union h hunion =>
      rw [malformedProperties, h]
      exact findings_union_ofJson _
  | property h =>
      have hnone : malformedProperties value = [] := by
        cases value with
        | obj fields => rw [malformedProperties, (h fields rfl).1]
        | _ => rfl
      rw [hnone]
      exact findings_property_ofJson value .schema

/-! ### Warnings -/

/-- **The warnings about a mapping are those of a walk over its collection**, in
document order: what each schema shows, and, for an object whose `properties`
are no mapping, that they are not. A property or a top-level type shows one thing
at most, at the innermost kind of its chain, and the place behind `d` arrays is
written as the schema or the property and `d` times ` items`. -/
theorem warnings_ofFields (mapping : Fields) :
    (Collection.ofFields mapping).1.schemas.map Prod.fst = mapping.map Prod.fst
      ∧ (Collection.ofFields mapping).2
        = (mapping.zip (Collection.ofFields mapping).1.schemas).flatMap
            (fun ((_, value), (name, node)) =>
              (malformedProperties value ++ node.walk).map (Warning.mk name))
      ∧ (∀ location (p : Property), (p.walk location).length ≤ 1)
      ∧ (∀ d, (Location.items^[d] .schema).text
          = "schema" ++ String.join (List.replicate d " items"))
      ∧ ∀ key d, (Location.items^[d] (.property key)).text
          = "property '" ++ key ++ "'" ++ String.join (List.replicate d " items") := by
  refine ⟨?_, ?_, fun location p => length_innermost_le _ _, text_iterate_items .schema,
    fun key => text_iterate_items (.property key)⟩
  · simp only [Collection.ofFields, List.map_map]
    rfl
  · simp only [Collection.ofFields, List.map_map]
    induction mapping with
    | nil => rfl
    | cons entry rest ih =>
        simp only [List.map_cons, List.zip_cons_cons, List.flatMap_cons, Function.comp_apply, ih,
          findings_ofJson]

end SchemaTypes
