import SchemaTypes.Json.Writer
import SchemaTypes.Proofs.Numerals

/-!
The characters of values that are written as compact JSON.

* `isNumeralChar_text`: a number is written with digits, signs, points and
  exponent marks;
* `Printable`: a text without control characters; `printable_compact` says that
  the compact text of a value is one, since strings have theirs escaped.
-/

namespace SchemaTypes

/-! ### Numbers -/

/-- Digits are characters of numerals. -/
lemma isNumeralChar_toDigits (n : ℕ) : ∀ c ∈ Nat.toDigits 10 n, isNumeralChar c = true := by
  intro c hc
  rw [isNumeralChar, Nat.isDigit_of_mem_toDigits (by decide) (by decide) hc, Bool.true_or]

namespace DecimalLayout

variable {digits : List Char} (h : ∀ c ∈ digits, isNumeralChar c = true)
include h

/-- A number with its point is made of characters of numerals. -/
lemma isNumeralChar_positional (whole : Int) :
    ∀ c ∈ positional digits whole, isNumeralChar c = true := by
  have hzeros : ∀ n, ∀ c ∈ List.replicate n '0', isNumeralChar c = true := by
    intro n c hc
    rw [List.eq_of_mem_replicate hc]
    decide
  rw [positional]
  split_ifs
  · simp only [List.forall_mem_cons, List.forall_mem_append]
    exact ⟨by decide, by decide, hzeros _, h⟩
  · simp only [List.forall_mem_append]
    exact ⟨⟨h, hzeros _⟩, List.all_eq_true.mp (by decide)⟩
  · simp only [List.forall_mem_cons, List.forall_mem_append]
    exact ⟨fun c hc => h c (List.mem_of_mem_take hc), by decide,
      fun c hc => h c (List.mem_of_mem_drop hc)⟩

/-- A number with an exponent is made of characters of numerals. -/
lemma isNumeralChar_scientific (exponent : Int) :
    ∀ c ∈ scientific digits exponent, isNumeralChar c = true := by
  have hfraction : ∀ c ∈ if (digits.drop 1).isEmpty then [] else '.' :: digits.drop 1,
      isNumeralChar c = true := by
    split_ifs
    · simp
    · simp only [List.forall_mem_cons]
      exact ⟨by decide, fun c hc => h c (List.mem_of_mem_drop hc)⟩
  have hmark : ∀ c ∈ ['e', if exponent < 0 then '-' else '+'], isNumeralChar c = true := by
    split_ifs <;> exact List.all_eq_true.mp (by decide)
  simp only [scientific, List.forall_mem_append]
  exact ⟨⟨⟨fun c hc => h c (List.mem_of_mem_take hc), hfraction⟩, hmark⟩,
    isNumeralChar_toDigits _⟩

end DecimalLayout

/-- The text of a number. -/
lemma isNumeralChar_text (n : Number) : ∀ c ∈ n.text.toList, isNumeralChar c = true := by
  cases n with
  | integer value =>
      cases value with
      | ofNat n =>
          rw [Number.text, show toString (Int.ofNat n) = n.repr from rfl, Nat.toList_repr]
          exact isNumeralChar_toDigits n
      | negSucc n =>
          rw [Number.text, show toString (Int.negSucc n) = "-" ++ (n + 1).repr from rfl,
            String.toList_append, Nat.toList_repr, List.forall_mem_append]
          exact ⟨List.all_eq_true.mp (by decide), isNumeralChar_toDigits (n + 1)⟩
  | real value =>
      have hsign : ∀ c ∈ if value.negative then ['-'] else [], isNumeralChar c = true := by
        split_ifs <;> exact List.all_eq_true.mp (by decide)
      rw [Number.text, Binary64.text, String.toList_ofList, List.forall_mem_append]
      refine ⟨hsign, ?_⟩
      simp only [DecimalLayout.write]
      split_ifs
      · exact DecimalLayout.isNumeralChar_positional (isNumeralChar_toDigits _) _
      · exact DecimalLayout.isNumeralChar_scientific (isNumeralChar_toDigits _) _

/-! ### Values -/

/-- A text without control characters. -/
def Printable (text : String) : Prop := ∀ c ∈ text.toList, 0x20 ≤ c.toNat

instance (text : String) : Decidable (Printable text) :=
  List.decidableBAll (fun c : Char => 0x20 ≤ c.toNat) text.toList

@[simp] lemma printable_append {front back : String} :
    Printable (front ++ back) ↔ Printable front ∧ Printable back := by
  simp [Printable, String.toList_append, or_imp, forall_and]

/-- Characters of numerals are printable. -/
lemma toNat_of_isNumeralChar {c : Char} (h : isNumeralChar c = true) : 0x20 ≤ c.toNat := by
  rw [isNumeralChar, Bool.or_eq_true] at h
  obtain hdigit | hmark := h
  · have hrange := toNat_of_isDigit hdigit
    omega
  · have hmarks : ∀ mark ∈ ['-', '+', '.', 'e', 'E'], 0x20 ≤ mark.toNat := by simp
    exact hmarks c (List.contains_iff_mem.mp hmark)

namespace Json

/-- Digits of escapes are printable. -/
lemma toNat_hexDigit (n : ℕ) : 0x20 ≤ (hexDigit n).toNat := by
  have hdigits : ∀ d < 16, 0x20 ≤ (Nat.digitChar d).toNat := by decide
  exact hdigits (n % 16) (Nat.mod_lt n (by decide))

/-- Control characters are escaped. -/
lemma toNat_of_mem_escape {c x : Char} (h : x ∈ escape c) : 0x20 ≤ x.toNat := by
  have hshort : ∀ mark ∈ ['\\', '"', 'b', 't', 'n', 'f', 'r', 'u', '0'], 0x20 ≤ mark.toNat := by
    simp
  rw [escape.eq_def] at h
  split at h
  case h_8 =>
    split_ifs at h with hcontrol
    · simp only [List.mem_cons, List.not_mem_nil, or_false] at h
      rcases h with rfl | rfl | rfl | rfl | rfl | rfl
      · exact hshort _ (by decide)
      · exact hshort _ (by decide)
      · exact hshort _ (by decide)
      · exact hshort _ (by decide)
      · exact toNat_hexDigit _
      · exact toNat_hexDigit _
    · obtain rfl := List.mem_singleton.mp h
      exact Nat.le_of_not_lt hcontrol
  all_goals
    simp only [List.mem_cons, List.not_mem_nil, or_false] at h
    rcases h with rfl | rfl <;> exact hshort _ (by decide)

/-- What is not printable is escaped in a quoted text. -/
lemma printable_quoted (text : String) : Printable (quoted text) := by
  intro c hc
  simp only [quoted, String.toList_ofList, List.cons_append, List.mem_cons, List.mem_append,
    List.mem_flatMap, List.not_mem_nil, or_false] at hc
  rcases hc with rfl | ⟨x, -, hx⟩ | rfl
  · decide
  · exact toNat_of_mem_escape hx
  · decide

mutual

/-- **Compact text has no control characters.** -/
lemma printable_compact : ∀ value : Json, Printable value.compact
  | .null => by decide
  | .bool true => by decide
  | .bool false => by decide
  | .num n => fun c hc => toNat_of_isNumeralChar (isNumeralChar_text n c hc)
  | .str text => printable_quoted text
  | .arr items => by
      simp only [compact, printable_append]
      exact ⟨⟨by decide, printable_compactItems items⟩, by decide⟩
  | .obj fields => by
      simp only [compact, printable_append]
      exact ⟨⟨by decide, printable_compactFields fields⟩, by decide⟩

/-- The elements of an array are printable in compact notation. -/
lemma printable_compactItems : ∀ items : List Json, Printable (compactItems items)
  | [] => by decide
  | [item] => printable_compact item
  | item :: next :: rest => by
      simp only [compactItems, printable_append]
      exact ⟨⟨printable_compact item, by decide⟩, printable_compactItems (next :: rest)⟩

/-- The members of an object are printable in compact notation. -/
lemma printable_compactFields : ∀ fields : List (String × Json), Printable (compactFields fields)
  | [] => by decide
  | [(key, value)] => by
      simp only [compactFields, printable_append]
      exact ⟨⟨printable_quoted key, by decide⟩, printable_compact value⟩
  | (key, value) :: next :: rest => by
      simp only [compactFields, printable_append]
      exact ⟨⟨⟨⟨printable_quoted key, by decide⟩, printable_compact value⟩, by decide⟩,
        printable_compactFields (next :: rest)⟩

end

end Json

end SchemaTypes
