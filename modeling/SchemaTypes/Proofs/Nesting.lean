import SchemaTypes.Proofs.Denotation
import SchemaTypes.Proofs.Findings

/-!
Arrays of arrays.

The items of an array are looked at in another way than a property is: for a `$ref`
that is a string, and then for a type of any kind. Both agree on what an item is, at
every depth, so that all there is to say of a value in arrays is said by its chain.

* `arrayMarks`: the marks of a number of arrays;
* `render_chain`: a type expression is that of the innermost kind, and a mark for
  each array around it;
* `IsItem`: objects that an array takes for a reference or for typed items;
* `Nested`: a value in a number of arrays around another one;
* `Nested.chain_typed`, `Nested.chain_reference`: the chain of a value in arrays;
* `nested_arrays`: a value in `n` arrays has the type expression of the value with
  `n` marks behind it, and of it is found what is found of the value, `n` times
  ` items` further on.
-/

namespace SchemaTypes

/-! ### Marks of arrays -/

/-- The marks of `n` arrays. -/
def arrayMarks (n : ℕ) : String := String.join (List.replicate n arraySuffix)

@[simp] lemma arrayMarks_zero : arrayMarks 0 = "" := rfl

lemma arrayMarks_add (m n : ℕ) : arrayMarks (m + n) = arrayMarks m ++ arrayMarks n := by
  rw [arrayMarks, List.replicate_add, String.join_append, arrayMarks, arrayMarks]

lemma arrayMarks_succ (n : ℕ) : arrayMarks (n + 1) = arrayMarks n ++ arraySuffix := by
  rw [arrayMarks_add]
  simp [arrayMarks]

mutual

lemma render_kind_chain : ∀ kind : Kind,
    kind.render = kind.chain.2.render ++ arrayMarks kind.chain.1
  | .array items => by rw [Kind.render, Kind.chain, render_items_chain items]
  | .reference _ => by simp [Kind.chain]
  | .string _ _ _ => by simp [Kind.chain]
  | .integer _ _ => by simp [Kind.chain]
  | .boolean => by simp [Kind.chain]
  | .object => by simp [Kind.chain]
  | .email => by simp [Kind.chain]
  | .other _ => by simp [Kind.chain]
  | .untyped => by simp [Kind.chain]

lemma render_items_chain : ∀ items : Items,
    items.render = items.chain.2.render ++ arrayMarks items.chain.1
  | .typed node => by
      rw [Items.render, Items.chain, render_chain node, arrayMarks_succ, String.append_assoc]
  | .primitive _ => by simp [Items.chain, Kind.render]
  | .reference _ => by simp [Items.chain, Kind.render]
  | .missing => by simp [Items.chain, Kind.render]
  | .verbatim _ => by simp [Items.chain, Kind.render]

/-- **The type expression of a property** is that of its innermost kind, and a mark
for each array of typed items around it. -/
lemma render_chain : ∀ p : Property, p.render = p.chain.2.render ++ arrayMarks p.chain.1
  | ⟨kind, _, _⟩ => by rw [Property.render, Property.chain, render_kind_chain kind]

end

/-! ### Values in arrays -/

/-- An object that an array takes for a reference or for typed items: it has a `$ref`
that is a string, or a type of whatever kind. -/
def IsItem (fields : Fields) : Prop :=
  (referenceOf fields).isSome = true ∨ (fields.get? "type").isSome = true

/-- A value in `n` arrays around `x`. An array may have any attributes beside its tag
and its items, as long as they make it no reference. -/
inductive Nested (x : Json) : ℕ → Json → Prop
  | self : Nested x 0 x
  | array {n : ℕ} {inner : Json} {fields : Fields} {tag : String} (h : Nested x n inner)
      (htype : fields.get? "type" = some (.str tag)) (htag : trim tag = "array")
      (hitems : fields.get? "items" = some inner) (href : referenceOf fields = none) :
      Nested x (n + 1) (.obj fields)

lemma inFields_of_get? {fields : Fields} {value : Json}
    (h : fields.get? "items" = some value) (location : Location) :
    Items.inFields fields location = Items.ofJson value location := by
  induction fields with
  | nil => cases h
  | cons entry rest ih =>
      obtain ⟨key, first⟩ := entry
      rw [Fields.get?] at h
      rw [Items.inFields]
      split_ifs at h ⊢ with hkey
      · obtain rfl := Option.some.inj h
        rfl
      · exact ih h

section

variable {fields : Fields} {location : Location}

/-- An object with the tag of an array is an array of its items. -/
lemma property_ofJson_array {inner : Json} {tag : String}
    (htype : fields.get? "type" = some (.str tag)) (htag : trim tag = "array")
    (hitems : fields.get? "items" = some inner) (href : referenceOf fields = none) :
    (Property.ofJson (.obj fields) location).1.kind = .array (Items.ofJson inner location).1 := by
  have htypeTag : typeTagOf fields = some "array" := by
    rw [typeTagOf, htype]
    exact congrArg some htag
  simp only [Property.ofJson, Property.ofFields, Kind.ofFields, href, htypeTag,
    inFields_of_get? hitems]

lemma property_ofJson_reference {target : Reference} (href : referenceOf fields = some target) :
    Property.ofJson (.obj fields) location
      = (⟨.reference target, fields.get? "example", fields.get? "default"⟩, []) := by
  simp only [Property.ofJson, Property.ofFields, Kind.ofFields, href]

lemma items_ofJson_reference {target : Reference} (href : referenceOf fields = some target) :
    (Items.ofJson (.obj fields) location).1 = .reference target := by
  simp only [Items.ofJson, href]

/-- Typed items are the property that they are, one place further on. -/
lemma items_ofJson_typed (htype : (fields.get? "type").isSome = true)
    (href : referenceOf fields = none) :
    (Items.ofJson (.obj fields) location).1
      = .typed (Property.ofJson (.obj fields) location.items).1 := by
  simp only [Items.ofJson, href, if_pos htype]
  rfl

end

lemma Property.chain_eq (p : Property) : p.chain = p.kind.chain := by
  cases p
  rfl

/-- A chain that is `n` arrays longer shows the same, `n` arrays further on. -/
lemma chainFindings_add (location : Location) (d n : ℕ) (kind : Kind) :
    chainFindings location (d + n, kind)
      = chainFindings (Location.items^[n] location) (d, kind) := by
  rw [chainFindings, chainFindings, Function.iterate_add_apply]

namespace Nested

variable {fields : Fields} {n : ℕ} {value : Json}

/-- What stands in arrays around typed items are typed items. -/
lemma exists_typed (htype : (fields.get? "type").isSome = true) (href : referenceOf fields = none)
    (h : Nested (.obj fields) n value) :
    ∃ outer : Fields, value = .obj outer ∧ (outer.get? "type").isSome = true
      ∧ referenceOf outer = none := by
  cases h with
  | self => exact ⟨fields, rfl, htype, href⟩
  | array h houter htag hitems hnone => exact ⟨_, rfl, by rw [houter]; rfl, hnone⟩

/-- **Typed items in arrays** are the innermost of a chain that is longer by one array
each. -/
lemma chain_typed (htype : (fields.get? "type").isSome = true) (href : referenceOf fields = none)
    (h : Nested (.obj fields) n value) (location : Location) :
    (Property.ofJson value location).1.chain
      = ((Property.ofJson (.obj fields) (Location.items^[n] location)).1.chain.1 + n,
          (Property.ofJson (.obj fields) (Location.items^[n] location)).1.chain.2) := by
  induction h generalizing location with
  | self => rfl
  | array h houter htag hitems hnone ih =>
      obtain ⟨inner, rfl, htyped, hinner⟩ := h.exists_typed htype href
      rw [Property.chain_eq, property_ofJson_array houter htag hitems hnone, Kind.chain,
        items_ofJson_typed htyped hinner, Items.chain, ih location.items,
        Function.iterate_succ_apply, Nat.add_assoc]

/-- **A reference in arrays** is the items of the innermost one. -/
lemma chain_reference {target : Reference} (href : referenceOf fields = some target)
    (h : Nested (.obj fields) (n + 1) value) (location : Location) :
    (Property.ofJson value location).1.chain = (n, .array (.reference target)) := by
  induction n generalizing value location with
  | zero =>
      obtain _ | ⟨h, houter, htag, hitems, hnone⟩ := h
      obtain _ | _ := h
      rw [Property.chain_eq, property_ofJson_array houter htag hitems hnone, Kind.chain,
        items_ofJson_reference href, Items.chain]
      nofun
  | succ n ih =>
      obtain _ | ⟨h, houter, htag, hitems, hnone⟩ := h
      have hchain := ih h location.items
      obtain _ | ⟨_, hinner, _, _, hnone'⟩ := h
      rw [Property.chain_eq, property_ofJson_array houter htag hitems hnone, Kind.chain,
        items_ofJson_typed (by rw [hinner]; rfl) hnone', Items.chain, hchain]

/-- A value in arrays has the type expression of the value, and a mark for each
array. -/
lemma render_eq (hitem : IsItem fields) (h : Nested (.obj fields) n value)
    (location : Location) :
    (Property.ofJson value location).1.render
      = (Property.ofJson (.obj fields) (Location.items^[n] location)).1.render
        ++ arrayMarks n := by
  cases href : referenceOf fields with
  | none =>
      have htype := hitem.resolve_left (by simp [href])
      rw [render_chain, h.chain_typed htype href location, arrayMarks_add, ← String.append_assoc,
        ← render_chain]
  | some target =>
      cases n with
      | zero =>
          obtain _ | _ := h
          simp
      | succ n =>
          rw [render_chain, h.chain_reference href location, property_ofJson_reference href,
            Nat.add_comm n 1, arrayMarks_add, ← String.append_assoc]
          simp [Property.render, Kind.render, Items.render, arrayMarks_succ]

/-- Of a value in arrays is found what is found of the value, further on. -/
lemma findings_eq (hitem : IsItem fields) (h : Nested (.obj fields) n value)
    (location : Location) :
    (Property.ofJson value location).2
      = (Property.ofJson (.obj fields) (Location.items^[n] location)).2 := by
  rw [findings_property_ofJson, Property.walk]
  cases href : referenceOf fields with
  | none =>
      have htype := hitem.resolve_left (by simp [href])
      rw [h.chain_typed htype href location, chainFindings_add, findings_property_ofJson,
        Property.walk]
  | some target =>
      rw [property_ofJson_reference href]
      cases n with
      | zero =>
          obtain _ | _ := h
          rw [property_ofJson_reference href]
          rfl
      | succ n =>
          rw [h.chain_reference href location]
          rfl

end Nested

/-- **Arrays of arrays.** A value in `n` arrays, read as a property, has the type
expression of the value with `n` marks behind it, and of it is found just what is
found of the value with ` items` behind its place `n` times. A reference is then the
items of the innermost array; any other value is the innermost property of a chain of
typed items. -/
theorem nested_arrays {fields : Fields} (hitem : IsItem fields) {n : ℕ} {value : Json}
    (h : Nested (.obj fields) n value) (location : Location) :
    let place := Location.items^[n] location
    let inner := Property.ofJson (.obj fields) place
    let outer := Property.ofJson value location
    place.text = location.text ++ String.join (List.replicate n " items")
      ∧ outer.2 = inner.2
      ∧ (∀ anywhere, outer.1.render
        = (Property.ofJson (.obj fields) anywhere).1.render ++ String.join (List.replicate n "[]"))
      ∧ (∀ target, referenceOf fields = some target → ∀ m, n = m + 1 →
        outer.1.chain = (m, .array (.reference target)))
      ∧ (referenceOf fields = none → outer.1.chain = (inner.1.chain.1 + n, inner.1.chain.2)) := by
  intro place inner outer
  refine ⟨text_iterate_items location n, h.findings_eq hitem location, fun anywhere => ?_, ?_,
    fun href => h.chain_typed (hitem.resolve_left (by simp [href])) href location⟩
  · have hrender := h.render_eq hitem location
    rwa [render_ofJson (.obj fields), ← render_ofJson (.obj fields) anywhere] at hrender
  · rintro target href m rfl
    exact h.chain_reference href location

/-- A type that is no string, in a padded array in another one. -/
theorem nested_arrays_oddType :
    let odd : Fields := [("type", .arr [.str "string", .null])]
    let row : Fields := [("items", .obj odd), ("type", .str " array\n")]
    let table : Json := .obj [("example", .null), ("type", .str "array"), ("items", .obj row)]
    IsItem odd ∧ Nested (.obj odd) 2 table
      ∧ (Property.ofJson table (.property "key")).1.render = "unknown[][]"
      ∧ (Property.ofJson table (.property "key")).2
        = [.opaqueNode (.items (.items (.property "key")))] := by
  intro odd row table
  have hitem : IsItem odd := Or.inr rfl
  have hnested : Nested (.obj odd) 2 table :=
    .array (.array .self rfl (by decide +kernel) rfl rfl) rfl (by decide +kernel) rfl rfl
  obtain ⟨-, hfindings, hrender, -, -⟩ := nested_arrays hitem hnested (.property "key")
  exact ⟨hitem, hnested, hrender .schema, hfindings⟩

end SchemaTypes
