import SchemaTypes.Number.Binary64

/-!
JSON values.

* `Number`: an integer, or a finite binary64 number;
* `Json`: a value, the fields of an object being a list in document order;
* `lookup`: the value of a field, `put`: the fields after a key is given a
  value;
* `Json.same`: whether two values are the same, which decides their equality.
-/

namespace SchemaTypes

/-- A JSON number. An integer and a binary64 number of the same magnitude are
different numbers, since they are written differently. -/
inductive Number where
  | integer (value : Int)
  | real (value : Binary64)
deriving DecidableEq

/-- A JSON value. -/
inductive Json where
  | null
  | bool (value : Bool)
  | num (value : Number)
  | str (text : String)
  | arr (items : List Json)
  | obj (fields : List (String × Json))

/-- The fields of an object in document order. -/
abbrev Fields := List (String × Json)

namespace Fields

/-- The value of the first field with the given key. -/
def get? : Fields → String → Option Json
  | [], _ => none
  | (k, v) :: rest, key => if k = key then some v else get? rest key

/-- The fields after `key` is given `value`: in its place if the key is there,
else at the end. -/
def put : Fields → String → Json → Fields
  | [], key, value => [(key, value)]
  | (k, v) :: rest, key, value =>
    if k = key then (key, value) :: rest else (k, v) :: put rest key value

end Fields

namespace Json

/-- The text of a string value. -/
def text? : Json → Option String
  | str text => some text
  | _ => none

/-- The items of an array. -/
def items? : Json → Option (List Json)
  | arr items => some items
  | _ => none

/-- The fields of an object. -/
def fields? : Json → Option Fields
  | obj fields => some fields
  | _ => none

/-! ### Equality -/

mutual

/-- Whether two values are the same. -/
def same : Json → Json → Bool
  | null, null => true
  | bool a, bool b => a = b
  | num a, num b => a = b
  | str a, str b => a = b
  | arr items, arr items' => sameItems items items'
  | obj fields, obj fields' => sameFields fields fields'
  | _, _ => false

def sameItems : List Json → List Json → Bool
  | [], [] => true
  | a :: rest, b :: rest' => a.same b && sameItems rest rest'
  | _, _ => false

def sameFields : Fields → Fields → Bool
  | [], [] => true
  | (k, a) :: rest, (k', b) :: rest' => k = k' && a.same b && sameFields rest rest'
  | _, _ => false

end

mutual

theorem same_iff : ∀ a b : Json, same a b = true ↔ a = b
  | null, b => by cases b <;> simp [same]
  | bool _, b => by cases b <;> simp [same]
  | num _, b => by cases b <;> simp [same]
  | str _, b => by cases b <;> simp [same]
  | arr items, b => by cases b <;> simp [same, sameItems_iff items]
  | obj fields, b => by cases b <;> simp [same, sameFields_iff fields]

theorem sameItems_iff : ∀ items items' : List Json, sameItems items items' = true ↔ items = items'
  | [], items' => by cases items' <;> simp [sameItems]
  | a :: rest, items' => by cases items' <;> simp [sameItems, same_iff a, sameItems_iff rest]

theorem sameFields_iff :
    ∀ fields fields' : Fields, sameFields fields fields' = true ↔ fields = fields'
  | [], fields' => by cases fields' <;> simp [sameFields]
  | (_, a) :: rest, fields' => by
      cases fields' <;> simp [sameFields, same_iff a, sameFields_iff rest, Prod.ext_iff]

end

instance : DecidableEq Json := fun a b => decidable_of_iff _ (same_iff a b)

end Json

end SchemaTypes
