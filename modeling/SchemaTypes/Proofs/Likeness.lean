import SchemaTypes.Proofs.Indifference

/-!
Values that are the same but for real numbers.

* `Alike`: scalars may stand in place of the real numbers of the first value;
* `Alike.eq`: where all numbers are integers there is no difference;
* `Alike.schemasAt`, `Alike.exists_schemasAt`: documents alike have schemas alike,
  or none.
-/

namespace SchemaTypes

/-! ### Values but for real numbers -/

/-- Whether a value is no collection. -/
def Json.isScalar : Json → Bool
  | .arr _ => false
  | .obj _ => false
  | _ => true

mutual

/-- The second value is the first one, but for what scalars stand in place of the real
numbers of the first. -/
inductive Alike : Json → Json → Prop
  | same (v : Json) : Alike v v
  | real (x : Binary64) {w : Json} (h : w.isScalar = true) : Alike (.num (.real x)) w
  | array {items items' : List Json} (h : AlikeItems items items') : Alike (.arr items) (.arr items')
  | object {fields fields' : Fields} (h : AlikeFields fields fields') :
      Alike (.obj fields) (.obj fields')

inductive AlikeItems : List Json → List Json → Prop
  | nil : AlikeItems [] []
  | cons {v w : Json} {items items' : List Json} (h : Alike v w) (more : AlikeItems items items') :
      AlikeItems (v :: items) (w :: items')

inductive AlikeFields : Fields → Fields → Prop
  | nil : AlikeFields [] []
  | cons {key : String} {v w : Json} {fields fields' : Fields} (h : Alike v w)
      (more : AlikeFields fields fields') : AlikeFields ((key, v) :: fields) ((key, w) :: fields')

end

mutual

/-- Whether all numbers of a value are integers. -/
def Json.isWhole : Json → Bool
  | .num (.real _) => false
  | .arr items => wholeItems items
  | .obj fields => wholeFields fields
  | _ => true

def Json.wholeItems : List Json → Bool
  | [] => true
  | v :: items => v.isWhole && wholeItems items

def Json.wholeFields : Fields → Bool
  | [] => true
  | (_, v) :: fields => v.isWhole && wholeFields fields

end

mutual

/-- Nothing stands in place of integers. -/
theorem Alike.eq {v w : Json} (h : Alike v w) (hwhole : v.isWhole = true) : w = v :=
  match h with
  | .same v => rfl
  | .real x _ => nomatch hwhole
  | .array hitems => by rw [hitems.eq hwhole]
  | .object hfields => by rw [hfields.eq hwhole]

/-- Whole values alike are the same in arrays. -/
theorem AlikeItems.eq {items items' : List Json} (h : AlikeItems items items')
    (hwhole : Json.wholeItems items = true) : items' = items :=
  match h with
  | .nil => rfl
  | .cons hitem hmore => by
      rw [Json.wholeItems, Bool.and_eq_true] at hwhole
      rw [hitem.eq hwhole.1, hmore.eq hwhole.2]

/-- Whole values alike are the same in objects. -/
theorem AlikeFields.eq {fields fields' : Fields} (h : AlikeFields fields fields')
    (hwhole : Json.wholeFields fields = true) : fields' = fields :=
  match h with
  | .nil => rfl
  | .cons hvalue hmore => by
      rw [Json.wholeFields, Bool.and_eq_true] at hwhole
      rw [hvalue.eq hwhole.1, hmore.eq hwhole.2]

end

namespace AlikeFields

variable {fields fields' : Fields}

lemma refl (fields : Fields) : AlikeFields fields fields := by
  induction fields with
  | nil => exact .nil
  | cons entry fields ih => exact .cons (.same entry.2) ih

/-- Values alike with the same key keep objects alike. -/
lemma put (h : AlikeFields fields fields') {v w : Json} (hvalue : Alike v w) (key : String) :
    AlikeFields (fields.put key v) (fields'.put key w) := by
  induction fields generalizing fields' with
  | nil =>
      cases h
      exact .cons hvalue .nil
  | cons entry fields ih =>
      cases h with
      | @cons k v' w' _ fields' hhead more =>
          rw [Fields.put, Fields.put]
          split_ifs with hkey
          · exact .cons hvalue more
          · exact .cons hhead (ih more)

/-- A member of one of two objects alike has its like in the other. -/
lemma get?_left (h : AlikeFields fields fields') {key : String} {v : Json}
    (hv : fields.get? key = some v) : ∃ w, fields'.get? key = some w ∧ Alike v w := by
  induction fields generalizing fields' with
  | nil => cases hv
  | cons entry fields ih =>
      cases h with
      | @cons k v' w' _ fields' hhead more =>
          rw [Fields.get?] at hv ⊢
          split_ifs at hv ⊢ with hkey
          · cases hv
            exact ⟨w', rfl, hhead⟩
          · exact ih more hv

lemma get?_right (h : AlikeFields fields fields') {key : String} {w : Json}
    (hw : fields'.get? key = some w) : ∃ v, fields.get? key = some v ∧ Alike v w := by
  induction fields generalizing fields' with
  | nil =>
      cases h
      cases hw
  | cons entry fields ih =>
      cases h with
      | @cons k v' w' _ fields' hhead more =>
          rw [Fields.get?] at hw ⊢
          split_ifs at hw ⊢ with hkey
          · cases hw
            exact ⟨v', rfl, hhead⟩
          · exact ih more hw

end AlikeFields

namespace Alike

variable {v w : Json}

lemma objects_of_left {fields : Fields} (h : Alike (.obj fields) w) :
    ∃ fields', w = .obj fields' ∧ AlikeFields fields fields' := by
  cases h with
  | same v => exact ⟨fields, rfl, .refl fields⟩
  | object h => exact ⟨_, rfl, h⟩

lemma objects_of_right {fields' : Fields} (h : Alike v (.obj fields')) :
    ∃ fields, v = .obj fields ∧ AlikeFields fields fields' := by
  cases h with
  | same w => exact ⟨fields', rfl, .refl fields'⟩
  | real x hw => cases hw
  | object h => exact ⟨_, rfl, h⟩

/-- Values alike have mappings of schemas alike. -/
lemma schemasAt (h : Alike v w) {mapping : Fields} (hv : SchemasAt v mapping) :
    ∃ mapping', SchemasAt w mapping' ∧ AlikeFields mapping mapping' := by
  obtain ⟨outer, inner, rfl, hcomponents, hschemas⟩ := hv
  obtain ⟨outer', rfl, houter⟩ := h.objects_of_left
  obtain ⟨x, hx, hcomponents'⟩ := houter.get?_left hcomponents
  obtain ⟨inner', rfl, hinner⟩ := hcomponents'.objects_of_left
  obtain ⟨y, hy, hschemas'⟩ := hinner.get?_left hschemas
  obtain ⟨mapping', rfl, hmapping⟩ := hschemas'.objects_of_left
  exact ⟨mapping', ⟨outer', inner', rfl, hx, hy⟩, hmapping⟩

/-- If the second value has a mapping of schemas, so has the first. -/
lemma exists_schemasAt (h : Alike v w) {mapping' : Fields} (hw : SchemasAt w mapping') :
    ∃ mapping, SchemasAt v mapping := by
  obtain ⟨outer', inner', rfl, hcomponents, hschemas⟩ := hw
  obtain ⟨outer, rfl, houter⟩ := h.objects_of_right
  obtain ⟨x, hx, hcomponents'⟩ := houter.get?_right hcomponents
  obtain ⟨inner, rfl, hinner⟩ := hcomponents'.objects_of_right
  obtain ⟨y, hy, hschemas'⟩ := hinner.get?_right hschemas
  obtain ⟨mapping, rfl, -⟩ := hschemas'.objects_of_right
  exact ⟨mapping, outer, inner, rfl, hx, hy⟩

end Alike

end SchemaTypes
