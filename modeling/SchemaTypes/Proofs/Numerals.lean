import Mathlib.Data.List.TakeWhile
import SchemaTypes.Json.Reader
import SchemaTypes.Proofs.Octets
import SchemaTypes.Yaml.Scalar

/-!
Numerals.

* `IsWhole.plainValue`: YAML reads whole numbers of sixty-four bits as
  themselves;
* `Json.Reading`: what readers of octets do, one after the other;
* `Numeral`: the texts that JSON reads as numbers;
* `readNumber_ok`: they are, and YAML reads the whole ones as JSON does.
-/

namespace SchemaTypes

open Utf8

/-! ### Digits -/

/-- The number that decimal digits spell behind those of `n`. -/
def spelled (n : Nat) (ds : List Char) : Nat := ds.foldl (fun n c => n * 10 + (c.toNat - 0x30)) n

/-- Digits by their numbers. -/
lemma toNat_of_isDigit {c : Char} (h : c.isDigit = true) : 0x30 ≤ c.toNat ∧ c.toNat ≤ 0x39 := by
  simp only [Char.isDigit, Bool.and_eq_true, decide_eq_true_eq, ge_iff_le, UInt32.le_iff_toNat_le] at h
  exact h

lemma digit?_of_isDigit {c : Char} (h : c.isDigit = true) : digit? 10 c = some (c.toNat - 0x30) := by
  obtain ⟨hlow, hhigh⟩ := toNat_of_isDigit h
  have hrange : ('0' ≤ c && c ≤ '9') = true := by
    simp only [Bool.and_eq_true, decide_eq_true_eq, Char.le_def, UInt32.le_iff_toNat_le]
    exact ⟨hlow, hhigh⟩
  rw [digit?, if_pos hrange, Option.filter_some, if_pos (by simp; omega)]

/-- Digits are read as the number that they spell. -/
lemma natural?_digits {ds : List Char} (h : ∀ c ∈ ds, c.isDigit = true) :
    natural? 10 ds = some (spelled 0 ds) := by
  rw [natural?, spelled]
  generalize 0 = n
  induction ds generalizing n with
  | nil => rfl
  | cons c ds ih =>
      rw [List.foldlM_cons, digit?_of_isDigit (h c List.mem_cons_self), List.foldl_cons]
      exact ih (fun d hd => h d (List.mem_cons_of_mem c hd)) _

lemma decimalValue_digits {ds : List Char} (h : ∀ c ∈ ds, c.isDigit = true) :
    decimalValue ds = spelled 0 ds := by
  rw [decimalValue, natural?_digits h, Option.getD_some]

/-- Gathering all digits gives the number that they spell. -/
lemma gather_digits {limit n m : Nat} {ds : List Char} (h : ∀ c ∈ ds, c.isDigit = true)
    (hgather : Json.gather limit n (octets ds) = (m, 0)) (hn : n ≤ limit) :
    m = spelled n ds ∧ m ≤ limit := by
  induction ds generalizing n with
  | nil =>
      cases hgather
      exact ⟨rfl, hn⟩
  | cons c ds ih =>
      obtain ⟨-, hhigh⟩ := toNat_of_isDigit (h c List.mem_cons_self)
      rw [octets_cons, encodeChar_ascii (by omega), List.singleton_append, Json.gather] at hgather
      rw [toNat_octet (by omega)] at hgather
      split_ifs at hgather with hmore
      · exact ih (fun d hd => h d (List.mem_cons_of_mem c hd)) hgather hmore
      · simp at hgather

/-! ### Whole numbers in YAML -/

/-- Digits without a zero in front of others. -/
structure IsWhole (ds : List Char) : Prop where
  nonempty : ds ≠ []
  digits : ∀ c ∈ ds, c.isDigit = true
  lead : ds.head? = some '0' → ds = ['0']

/-- A minus sign, or none. -/
def signText (negative : Bool) : List Char := if negative then ['-'] else []

/-- A number with that sign. -/
def signedValue (negative : Bool) (n : Nat) : Int := if negative then -(n : Int) else n

namespace IsWhole

variable {ds : List Char} (negative : Bool)

/-- The sign in front of digits is told from them. -/
lemma splitSign (h : IsWhole ds) : splitSign (signText negative ++ ds) = (negative, ds) := by
  cases negative with
  | true => rfl
  | false =>
      cases ds with
      | nil => exact absurd rfl h.nonempty
      | cons c rest =>
          have hc := h.digits c List.mem_cons_self
          rw [signText, if_neg Bool.false_ne_true, List.nil_append, SchemaTypes.splitSign.eq_def]
          split
          · rename_i heq
            cases heq
            cases hc
          · rename_i heq
            cases heq
            cases hc
          · rfl

/-- No zero stands in front of a whole number. -/
lemma hasLeadingZero (h : IsWhole ds) :
    Yaml.Scalar.hasLeadingZero (signText negative ++ ds) = false := by
  rw [Yaml.Scalar.hasLeadingZero, h.splitSign]
  by_cases hlead : ds.head? = some '0'
  · rw [h.lead hlead]
    rfl
  · simp [hlead]

/-- A whole number with its sign is read as an integer. -/
lemma integer? (h : IsWhole ds) :
    Yaml.Scalar.integer? (signText negative ++ ds)
      = some (signedValue negative (decimalValue ds)) := by
  have hdigits : (if ds.isEmpty then none else natural? 10 ds) = some (decimalValue ds) := by
    rw [if_neg (by simpa using h.nonempty), natural?_digits h.digits, decimalValue_digits h.digits]
  have hbase : ∀ mark rest, mark.isDigit = false → ds ≠ '0' :: mark :: rest := by
    rintro mark rest hmark rfl
    rw [h.digits mark (by simp)] at hmark
    cases hmark
  cases negative
  all_goals
    rw [Yaml.Scalar.integer?, h.splitSign]
    simp only [if_true, Bool.false_eq_true, if_false]
    split
    · exact absurd rfl (hbase 'x' _ rfl)
    · exact absurd rfl (hbase 'o' _ rfl)
    · exact absurd rfl (hbase 'b' _ rfl)
    · rw [h.hasLeadingZero, if_neg Bool.false_ne_true, hdigits]
      rfl

/-- Such a text begins with a sign or a digit. -/
lemma head_not_letter (h : IsWhole ds) {word : List Char}
    (hword : ∀ c ∈ word.head?, c.isDigit = false ∧ c ≠ '-') : word ≠ signText negative ++ ds := by
  rintro rfl
  cases negative with
  | true => exact (hword '-' rfl).2 rfl
  | false =>
      cases ds with
      | nil => exact h.nonempty rfl
      | cons c rest =>
          have hc := (hword c rfl).1
          rw [h.digits c List.mem_cons_self] at hc
          cases hc

/-- Whole numbers of sixty-four bits are themselves in YAML. -/
lemma plainValue (h : IsWhole ds)
    (hsize : Yaml.Scalar.sizeOf (signedValue negative (decimalValue ds)) = .word) :
    Yaml.Scalar.plainValue (signText negative ++ ds)
      = .ok (.num (.integer (signedValue negative (decimalValue ds)))) := by
  have hempty : (signText negative ++ ds).isEmpty = false := by
    cases negative <;> simp [h.nonempty, signText]
  have hwords : ∀ words : List String,
      (∀ word ∈ words, ∀ c ∈ word.toList.head?, c.isDigit = false ∧ c ≠ '-') →
        words.any (·.toList = signText negative ++ ds) = false := by
    intro words hwords
    rw [List.any_eq_false]
    intro word hmem heq
    exact h.head_not_letter negative (hwords word hmem) (by simpa using heq)
  have hnull : Yaml.Scalar.isNull (signText negative ++ ds) = false := hwords _ (by simp)
  have hbool : Yaml.Scalar.bool? (signText negative ++ ds) = none := by
    rw [Yaml.Scalar.bool?, if_neg, if_neg]
    · rw [hwords _ (by simp)]
      exact Bool.false_ne_true
    · rw [hwords _ (by simp)]
      exact Bool.false_ne_true
  rw [Yaml.Scalar.plainValue, hempty, hnull, hbool, h.integer?]
  simp only [Bool.or_self, Bool.false_eq_true, if_false, hsize]

end IsWhole

/-! ### Numerals in JSON -/

/-- What a computation does before another. -/
lemma exists_of_bind_eq_ok {σ ε α β : Type} {x : StateT σ (Except ε) α}
    {k : α → StateT σ (Except ε) β} {s s' : σ} {b : β} (h : (x >>= k) s = .ok (b, s')) :
    ∃ a middle, x s = .ok (a, middle) ∧ k a middle = .ok (b, s') := by
  change (x s).bind (fun answer => k answer.1 answer.2) = _ at h
  cases hx : x s with
  | error fault =>
      rw [hx] at h
      cases h
  | ok answer =>
      rw [hx] at h
      exact ⟨answer.1, answer.2, rfl, h⟩

namespace Json.Reading

variable {α β : Type}

/-- A reader that looks at the next octet. -/
lemma exists_of_peek_bind {k : Option UInt8 → Reading β} {input : List UInt8}
    {answer : Except Stop (β × List UInt8)} (h : (peek >>= k) input = answer) :
    ∃ o, input.head? = o ∧ k o input = answer := ⟨_, rfl, h⟩

@[simp] lemma skip_bind (k : Unit → Reading β) (input : List UInt8) :
    (skip >>= k) input = k () input.tail := rfl

@[simp] lemma next_bind (k : Option UInt8 → Reading β) (input : List UInt8) :
    (next >>= k) input = k input.head? input.tail := rfl

@[simp] lemma span_bind (p : UInt8 → Bool) (k : List UInt8 → Reading β) (input : List UInt8) :
    (span p >>= k) input = k (input.takeWhile p) (input.dropWhile p) := rfl

@[simp] lemma pure_apply (a : α) (input : List UInt8) :
    (pure a : Reading α) input = .ok (a, input) := rfl

end Json.Reading

open Json Json.Reading

/-- The characters of numerals. -/
def isNumeralChar (c : Char) : Bool := c.isDigit || ['-', '+', '.', 'e', 'E'].contains c

lemma tells_isDigit : Tells Json.isDigit Char.isDigit where
  ascii c hc := by
    rw [Json.isDigit, Char.isDigit, Bool.eq_iff_iff]
    simp only [Bool.and_eq_true, decide_eq_true_eq, UInt8.le_iff_toNat_le, ge_iff_le,
      UInt32.le_iff_toNat_le, toNat_octet (show c.toNat < 256 by omega)]
    rfl
  beyond c hc b hb := by
    rw [Json.isDigit, Char.isDigit, Bool.eq_iff_iff]
    simp only [Bool.and_eq_true, decide_eq_true_eq, UInt8.le_iff_toNat_le, ge_iff_le,
      UInt32.le_iff_toNat_le]
    have hc' : ¬ c.val.toNat < 0x80 := hc
    constructor
    · rintro ⟨-, hhigh⟩
      simp at hhigh
      omega
    · rintro ⟨-, hhigh⟩
      simp at hhigh
      omega

/-- What is left of a real number is its value. -/
lemma readReal_ok {negative : Bool} {digits : Nat} {exponent : Int} {input rest : List UInt8}
    {number : Number} (h : readReal negative digits exponent input = .ok (number, rest)) :
    rest = input ∧ ∃ x, number = .real x := by
  rw [readReal] at h
  cases hparts : realOfParts digits exponent with
  | some f =>
      rw [hparts] at h
      cases h
      exact ⟨rfl, _, rfl⟩
  | none =>
      rw [hparts] at h
      cases h

lemma octets_tail {c : Char} (hc : c.toNat < 0x80) (cs : List Char) :
    (octets (c :: cs)).tail = octets cs := by
  rw [octets_cons, encodeChar_ascii hc]
  rfl

/-- A reader takes characters of numerals off a text. -/
def TakesNumeral (t : List Char) (rest : List UInt8) : Prop :=
  ∃ text t', t = text ++ t' ∧ rest = octets t' ∧ ∀ c ∈ text, isNumeralChar c

lemma TakesNumeral.refl (t : List Char) : TakesNumeral t (octets t) :=
  ⟨[], t, rfl, rfl, by simp⟩

lemma TakesNumeral.cons {c : Char} {t : List Char} {rest : List UInt8} (hc : isNumeralChar c)
    (h : TakesNumeral t rest) : TakesNumeral (c :: t) rest := by
  obtain ⟨text, t', rfl, hrest, htext⟩ := h
  exact ⟨c :: text, t', rfl, hrest, by simpa [hc] using htext⟩

/-- More characters of numerals may go in front. -/
lemma TakesNumeral.append {ds t : List Char} {rest : List UInt8}
    (hds : ∀ c ∈ ds, isNumeralChar c) (h : TakesNumeral t rest) : TakesNumeral (ds ++ t) rest := by
  obtain ⟨text, t', rfl, hrest, htext⟩ := h
  refine ⟨ds ++ text, t', by simp, hrest, fun c hc => ?_⟩
  exact (List.mem_append.mp hc).elim (hds c) (htext c)

/-- The sign of an exponent is passed if it is there. -/
lemma readExponentSign_ok {t : List Char} {rest : List UInt8} {down : Bool}
    (h : readExponentSign (octets t) = .ok (down, rest)) :
    ∃ u, rest = octets u ∧ ∀ rest', TakesNumeral u rest' → TakesNumeral t rest' := by
  rw [readExponentSign] at h
  obtain ⟨o, hhead, h⟩ := exists_of_peek_bind h
  split at h
  · obtain ⟨u, rfl, htail⟩ := exists_char_of_head (by decide) hhead
    rw [skip_bind, htail] at h
    cases h
    exact ⟨u, rfl, fun rest' => .cons (by decide)⟩
  · obtain ⟨u, rfl, htail⟩ := exists_char_of_head (by decide) hhead
    rw [skip_bind, htail] at h
    cases h
    exact ⟨u, rfl, fun rest' => .cons (by decide)⟩
  · cases h
    exact ⟨t, rfl, fun _ h => h⟩

/-- The digits in front of a text belong to its numeral. -/
lemma takesNumeral_dropWhile {t : List Char} {rest : List UInt8}
    (h : TakesNumeral (t.dropWhile Char.isDigit) rest) : TakesNumeral t rest := by
  have hdigits : ∀ c ∈ t.takeWhile Char.isDigit, isNumeralChar c := fun c hc => by
    rw [isNumeralChar, List.mem_takeWhile_imp hc, Bool.true_or]
  have htext := TakesNumeral.append hdigits h
  rwa [List.takeWhile_append_dropWhile] at htext

/-- The digits of an exponent are passed, and the number is real. -/
lemma readPower_ok {negative down : Bool} {digits : Nat} {exponent : Int} {t : List Char}
    {rest : List UInt8} {number : Number}
    (h : readPower negative digits exponent down (octets t) = .ok (number, rest)) :
    TakesNumeral t rest ∧ ∃ x, number = .real x := by
  obtain ⟨htake, hdrop⟩ := tells_isDigit.takeWhile t
  have htext := takesNumeral_dropWhile (.refl (t.dropWhile Char.isDigit))
  rw [readPower] at h
  obtain ⟨o, hhead, h⟩ := exists_of_peek_bind h
  split at h
  · cases h
  · rename_i b
    by_cases hdigit : (!Json.isDigit b) = true
    · rw [if_pos hdigit] at h
      cases h
    · rw [if_neg hdigit, span_bind, htake, hdrop] at h
      generalize gather exponentLimit 0 _ = gathered at h
      obtain ⟨value, dropped⟩ := gathered
      dsimp only at h
      by_cases hdropped : dropped = 0
      · rw [if_pos hdropped] at h
        obtain ⟨rfl, hreal⟩ := readReal_ok h
        exact ⟨htext, hreal⟩
      · rw [if_neg hdropped] at h
        split_ifs at h
        cases h
        exact ⟨htext, _, rfl⟩

/-- An exponent is passed, and the number is real. -/
lemma readExponent_ok {negative : Bool} {digits : Nat} {exponent : Int} {b : UInt8}
    {t : List Char} {rest : List UInt8} {number : Number} (hb : b = 0x65 ∨ b = 0x45)
    (hhead : (octets t).head? = some b)
    (h : readExponent negative digits exponent (octets t) = .ok (number, rest)) :
    TakesNumeral t rest ∧ ∃ x, number = .real x := by
  have hmark : b.toNat < 0x80 ∧ isNumeralChar (Char.ofNat b.toNat) = true := by
    obtain rfl | rfl := hb <;> decide
  obtain ⟨u, rfl, htail⟩ := exists_char_of_head hmark.1 hhead
  rw [readExponent, skip_bind, htail] at h
  obtain ⟨down, middle, hsign, h⟩ := exists_of_bind_eq_ok h
  obtain ⟨v, rfl, htakes⟩ := readExponentSign_ok hsign
  obtain ⟨hrest, hreal⟩ := readPower_ok h
  exact ⟨.cons hmark.2 (htakes rest hrest), hreal⟩

/-- A fraction is passed, and the number is real. -/
lemma readFraction_ok {negative : Bool} {digits : Nat} {exponent : Int} {t : List Char}
    {rest : List UInt8} {number : Number} (hhead : (octets t).head? = some 0x2E)
    (h : readFraction negative digits exponent (octets t) = .ok (number, rest)) :
    TakesNumeral t rest ∧ ∃ x, number = .real x := by
  obtain ⟨u, rfl, htail⟩ := exists_char_of_head (by decide) hhead
  obtain ⟨htake, hdrop⟩ := tells_isDigit.takeWhile u
  rw [readFraction, skip_bind, htail, span_bind, htake, hdrop] at h
  suffices hrest : TakesNumeral (u.dropWhile Char.isDigit) rest ∧ ∃ x, number = .real x from
    ⟨.cons (by decide) (takesNumeral_dropWhile hrest.1), hrest.2⟩
  split_ifs at h with hempty
  · obtain ⟨o, -, h⟩ := exists_of_peek_bind h
    cases o <;> cases h
  · generalize gather significandLimit digits _ = gathered at h
    obtain ⟨value, dropped⟩ := gathered
    obtain ⟨o, hmark, h⟩ := exists_of_peek_bind h
    split at h
    · exact readExponent_ok (.inl rfl) hmark h
    · exact readExponent_ok (.inr rfl) hmark h
    · obtain ⟨rfl, hreal⟩ := readReal_ok h
      exact ⟨.refl _, hreal⟩

/-! ### Numerals that spell whole numbers -/

/-- The digits in front spell a whole number. -/
lemma readLead_ok {b : UInt8} {t : List Char} {lead rest : List UInt8}
    (hhead : (octets t).head? = some b) (hb : Json.isDigit b = true)
    (h : readLead b (octets t) = .ok (lead, rest)) :
    ∃ ds t', t = ds ++ t' ∧ lead = octets ds ∧ rest = octets t' ∧ IsWhole ds := by
  have hascii : b.toNat < 0x80 := by
    simp only [Json.isDigit, Bool.and_eq_true, decide_eq_true_eq, UInt8.le_iff_toNat_le] at hb
    have := hb.2
    simp at this
    omega
  obtain ⟨u, rfl, htail⟩ := exists_char_of_head hascii hhead
  rw [readLead] at h
  split_ifs at h with hzero
  · subst hzero
    rw [skip_bind, htail] at h
    obtain ⟨o, -, h⟩ := exists_of_peek_bind h
    split_ifs at h
    · cases h
    · cases h
      exact ⟨['0'], u, rfl, rfl, rfl, by simp, by simp, fun _ => rfl⟩
  · obtain ⟨htake, hdrop⟩ := tells_isDigit.takeWhile (Char.ofNat b.toNat :: u)
    have htoNat : (Char.ofNat b.toNat).toNat = b.toNat := toNat_ofNat (.inl (by omega))
    have hc : (Char.ofNat b.toNat).isDigit = true := by
      rw [← tells_isDigit.ascii _ (htoNat.trans_lt hascii), htoNat, ofNat_eq rfl]
      exact hb
    change Except.ok _ = _ at h
    cases h
    refine ⟨_, _, (List.takeWhile_append_dropWhile).symm, htake, hdrop, ?_, ?_, ?_⟩
    · rw [List.takeWhile_cons_of_pos hc]
      exact List.cons_ne_nil _ _
    · exact fun c hc => List.mem_takeWhile_imp hc
    · intro hlead
      rw [List.takeWhile_cons_of_pos hc, List.head?_cons, Option.some_inj] at hlead
      rw [hlead] at htoNat
      exact absurd (UInt8.toNat_inj.mp htoNat.symm) hzero

/-- Whole numbers of JSON fit into sixty-four bits. -/
lemma wholeNumber_eq_integer {negative : Bool} {n : Nat} {z : Int}
    (h : wholeNumber negative n = .integer z) (hn : n ≤ significandLimit) :
    z = signedValue negative n ∧ Yaml.Scalar.sizeOf z = .word := by
  have hlimit : significandLimit = 18446744073709551615 := rfl
  have hhalf : Nat.pow 2 63 = 9223372036854775808 := rfl
  have hlow : Int.pow 2 63 = 9223372036854775808 := rfl
  have hhigh : Int.pow 2 64 = 18446744073709551616 := rfl
  rw [wholeNumber, hhalf] at h
  rw [Yaml.Scalar.sizeOf, hlow, hhigh]
  cases negative with
  | false =>
      cases h
      exact ⟨rfl, if_pos (by omega)⟩
  | true =>
      rw [if_neg (by simp)] at h
      split_ifs at h with hsize
      · cases h
      · obtain rfl := Number.integer.inj h
        exact ⟨rfl, if_pos (by omega)⟩

/-- Behind its leading digits a number goes on as a real one, or ends. -/
lemma readTail_ok {negative : Bool} {digits dropped : Nat} {t : List Char} {rest : List UInt8}
    {number : Number} (h : readTail negative digits dropped (octets t) = .ok (number, rest)) :
    (TakesNumeral t rest ∧ ∃ x, number = .real x) ∨
      (rest = octets t ∧ dropped = 0 ∧ number = wholeNumber negative digits) := by
  rw [readTail] at h
  obtain ⟨o, hhead, h⟩ := exists_of_peek_bind h
  split at h
  · exact .inl (readFraction_ok hhead h)
  · exact .inl (readExponent_ok (.inl rfl) hhead h)
  · exact .inl (readExponent_ok (.inr rfl) hhead h)
  · split_ifs at h with hdropped
    · cases h
      exact .inr ⟨rfl, hdropped, rfl⟩
    · obtain ⟨rfl, hreal⟩ := readReal_ok h
      exact .inl ⟨.refl t, hreal⟩

/-- The text of a numeral, and the number that JSON reads it as. -/
structure Numeral (text : List Char) (number : Number) : Prop where
  /-- It begins with a digit, or with a minus sign and a digit. -/
  head : ∃ negative c rest, text = signText negative ++ c :: rest ∧ c.isDigit = true
  chars : ∀ c ∈ text, isNumeralChar c
  /-- If the number is whole, YAML reads it as the same. -/
  integer : ∀ z, number = .integer z → Yaml.Scalar.plainValue text = .ok (.num (.integer z))

namespace Numeral

variable {ds more : List Char} (negative : Bool)

lemma ofDigits (hds : IsWhole ds) (hmore : ∀ c ∈ more, isNumeralChar c) {number : Number}
    (hinteger : ∀ z, number = .integer z →
      Yaml.Scalar.plainValue (signText negative ++ (ds ++ more)) = .ok (.num (.integer z))) :
    Numeral (signText negative ++ (ds ++ more)) number where
  head := by
    cases ds with
    | nil => exact absurd rfl hds.nonempty
    | cons c ds => exact ⟨negative, c, ds ++ more, rfl, hds.digits c List.mem_cons_self⟩
  chars := by
    intro c hc
    rcases List.mem_append.mp hc with hsign | hc
    · cases negative with
      | true =>
          obtain rfl := List.mem_singleton.mp hsign
          decide
      | false => cases hsign
    · rcases List.mem_append.mp hc with hdigit | hc
      · rw [isNumeralChar, hds.digits c hdigit, Bool.true_or]
      · exact hmore c hc
  integer := hinteger

end Numeral

/-- JSON numbers are numerals, and YAML reads the whole ones as JSON does. -/
theorem readNumber_ok {negative : Bool} {t : List Char} {rest : List UInt8} {number : Number}
    (h : readNumber negative (octets t) = .ok (number, rest)) :
    ∃ text t', t = text ++ t' ∧ rest = octets t'
      ∧ Numeral (signText negative ++ text) number := by
  rw [readNumber] at h
  obtain ⟨o, hhead, h⟩ := exists_of_peek_bind h
  split at h
  · cases h
  · rename_i b
    by_cases hb : Json.isDigit b = true
    · rw [hb] at h
      obtain ⟨lead, middle, hlead, h⟩ := exists_of_bind_eq_ok h
      obtain ⟨ds, u, rfl, rfl, rfl, hds⟩ := readLead_ok hhead hb hlead
      generalize hgather : gather significandLimit 0 (octets ds) = gathered at h
      obtain ⟨digits, dropped⟩ := gathered
      rcases readTail_ok h with ⟨⟨text, t', rfl, hrest, hchars⟩, x, rfl⟩ | ⟨hrest, rfl, rfl⟩
      · refine ⟨ds ++ text, t', by simp, hrest, .ofDigits negative hds hchars ?_⟩
        rintro z ⟨⟩
      · obtain ⟨rfl, hlimit⟩ := gather_digits hds.digits hgather (Nat.zero_le _)
        refine ⟨ds ++ [], u, by simp, hrest, .ofDigits negative hds (by simp) ?_⟩
        intro z hz
        obtain ⟨rfl, hsize⟩ := wholeNumber_eq_integer hz hlimit
        rw [List.append_nil]
        rw [← decimalValue_digits hds.digits] at hsize ⊢
        exact hds.plainValue negative hsize
    · rw [if_pos (by simpa using hb), skip_bind] at h
      cases h

end SchemaTypes
