import Mathlib.Data.List.DropRight
import SchemaTypes.Proofs.Numerals

/-!
The texts of JSON values.

* `Json.afterSpace`: a text without the blanks in front of it;
* `Json.Quoted`: the texts of strings;
* `Json.Spells`, `Json.SpellsItems`, `Json.SpellsEntries`: the texts of values,
  of the items of arrays and of the entries of objects, with what stands behind
  them;
* `Json.spells_of_read`: a text that is read is that of the value.
-/

namespace SchemaTypes

open Utf8 Json.Reading

namespace Json

/-! ### Blanks -/

/-- The blanks between the tokens of JSON. -/
def isSpaceChar (c : Char) : Bool := c = ' ' || c = '\t' || c = '\n' || c = '\r'

/-- A text without the blanks in front of it. -/
def afterSpace (t : List Char) : List Char := t.dropWhile isSpaceChar

lemma afterSpace_afterSpace (t : List Char) : afterSpace (afterSpace t) = afterSpace t :=
  List.dropWhile_idempotent _ _

/-- Blanks are told by their octets. -/
lemma tells_isSpace : Tells isSpace isSpaceChar where
  ascii c hc := by
    have hall : ∀ n < 0x80, isSpace (UInt8.ofNat n) = isSpaceChar (Char.ofNat n) := by decide
    rw [hall _ hc, Char.ofNat_toNat]
  beyond c hc b hb := by
    have hbyte : isSpace b = false := by
      simp only [isSpace, Bool.or_eq_false_iff, decide_eq_false_iff_not]
      refine ⟨⟨⟨?_, ?_⟩, ?_⟩, ?_⟩
      all_goals
        rintro rfl
        simp at hb
    have hchar : isSpaceChar c = false := by
      simp only [isSpaceChar, Bool.or_eq_false_iff, decide_eq_false_iff_not]
      refine ⟨⟨⟨?_, ?_⟩, ?_⟩, ?_⟩
      all_goals
        rintro rfl
        simp at hc
    rw [hbyte, hchar]

/-- The reader that looks behind blanks. -/
lemma exists_of_peekToken_bind {β : Type} {k : Option UInt8 → Reading β} {t : List Char}
    {answer : Except Stop (β × List UInt8)} (h : (peekToken >>= k) (octets t) = answer) :
    ∃ o, (octets (afterSpace t)).head? = o ∧ k o (octets (afterSpace t)) = answer := by
  refine ⟨_, rfl, ?_⟩
  rw [afterSpace, ← (tells_isSpace.takeWhile t).2]
  exact h

/-! ### Strings -/

/-- The characters that stand for themselves. -/
def isPlainChar (c : Char) : Bool := c ≠ '"' && c ≠ '\\' && 0x20 ≤ c.toNat

/-- Characters that stand for themselves in a string are told by their octets. -/
lemma tells_isPlain : Tells (fun b => b ≠ 0x22 && b ≠ 0x5C && 0x20 ≤ b) isPlainChar where
  ascii c hc := by
    have hall : ∀ n < 0x80, (UInt8.ofNat n ≠ 0x22 && UInt8.ofNat n ≠ 0x5C && 0x20 ≤ UInt8.ofNat n)
        = isPlainChar (Char.ofNat n) := by decide
    rw [hall _ hc, Char.ofNat_toNat]
  beyond c hc b hb := by
    have hbyte : (b ≠ 0x22 && b ≠ 0x5C && 0x20 ≤ b) = true := by
      simp only [Bool.and_eq_true, decide_eq_true_eq, UInt8.le_iff_toNat_le]
      refine ⟨⟨?_, ?_⟩, ?_⟩
      · rintro rfl
        simp at hb
      · rintro rfl
        simp at hb
      · simp
        omega
    have hchar : isPlainChar c = true := by
      simp only [isPlainChar, Bool.and_eq_true, decide_eq_true_eq]
      refine ⟨⟨?_, ?_⟩, ?_⟩
      · rintro rfl
        simp at hc
      · rintro rfl
        simp at hc
      · omega
    rw [hchar]
    exact hbyte

/-- What a backslash and a character stand for. -/
def shortEscape? : Char → Option Char
  | '"' => some '"'
  | '\\' => some '\\'
  | '/' => some '/'
  | 'b' => some '\x08'
  | 'f' => some '\x0c'
  | 'n' => some '\n'
  | 'r' => some '\r'
  | 't' => some '\t'
  | _ => none

/-- The texts of strings up to and with the closing quote: what a string begins with,
the characters that it spells, and what stands behind it. -/
inductive Quoted : List Char → List Char → List Char → Prop
  | close {rest : List Char} : Quoted ('"' :: rest) [] rest
  | char {c : Char} {t cs rest : List Char} (hc : isPlainChar c = true) (more : Quoted t cs rest) :
      Quoted (c :: t) (c :: cs) rest
  | escape {x c : Char} {t cs rest : List Char} (hx : shortEscape? x = some c)
      (more : Quoted t cs rest) : Quoted ('\\' :: x :: t) (c :: cs) rest
  | unicode {digits t cs rest : List Char} {n : Nat} (hdigits : digits.length = 4)
      (hn : natural? 16 digits = some n) (hscalar : ¬(0xD800 ≤ n ∧ n ≤ 0xDFFF))
      (more : Quoted t cs rest) : Quoted ('\\' :: 'u' :: (digits ++ t)) (Char.ofNat n :: cs) rest
  /-- Two surrogates spell a character beyond U+FFFF. -/
  | pair {high low t cs rest : List Char} {n m : Nat} (hhigh : high.length = 4)
      (hn : natural? 16 high = some n) (hlead : 0xD800 ≤ n ∧ n ≤ 0xDBFF) (hlow : low.length = 4)
      (hm : natural? 16 low = some m) (htrail : 0xDC00 ≤ m ∧ m ≤ 0xDFFF)
      (more : Quoted t cs rest) :
      Quoted ('\\' :: 'u' :: (high ++ '\\' :: 'u' :: (low ++ t)))
        (Char.ofNat ((n - 0xD800) * 0x400 + (m - 0xDC00) + 0x10000) :: cs) rest

namespace Quoted

/-- Characters that stand for themselves go in front of a quoted text. -/
lemma plain {ps t cs rest : List Char} (hps : ∀ c ∈ ps, isPlainChar c = true)
    (more : Quoted t cs rest) : Quoted (ps ++ t) (ps ++ cs) rest := by
  induction ps with
  | nil => exact more
  | cons c ps ih =>
      exact .char (hps c List.mem_cons_self) (ih fun d hd => hps d (List.mem_cons_of_mem c hd))

/-- Behind a quoted text the rest of the input follows. -/
lemma suffix {t cs rest : List Char} (h : Quoted t cs rest) : rest <:+ t := by
  induction h with
  | close => exact List.suffix_cons _ _
  | @char c t cs rest hc more ih => exact ih.trans (List.suffix_cons c t)
  | @escape x c t cs rest hx more ih => exact ih.trans (List.suffix_append ['\\', x] t)
  | @unicode digits t cs rest n hdigits hn hscalar more ih =>
      exact ih.trans (List.suffix_append ('\\' :: 'u' :: digits) t)
  | @pair high low t cs rest n m hhigh hn hlead hlow hm htrail more ih =>
      refine ih.trans ⟨'\\' :: 'u' :: (high ++ '\\' :: 'u' :: low), ?_⟩
      simp

end Quoted

/-- No octet of a character beyond the first ones is a digit. -/
lemma hexValue?_eq_none {b : UInt8} (hb : ¬ b.toNat < 0x80) : hexValue? b = none := by
  have hlt := b.toNat_lt
  have hnone : ∀ c : Char, ¬ c.toNat < 0x80 → digit? 16 c = none := by
    intro c hc
    have habove : ∀ x : Char, x.toNat < 0x80 → ¬ c ≤ x := by
      intro x hx hle
      rw [Char.le_def, UInt32.le_iff_toNat_le] at hle
      exact hc (lt_of_le_of_lt hle hx)
    rw [digit?]
    simp [habove '9' (by decide), habove 'f' (by decide), habove 'F' (by decide)]
  refine hnone _ ?_
  rwa [toNat_ofNat (.inl (by omega))]

/-- A hexadecimal digit in front of a text. -/
lemma exists_of_hexValue? {b : UInt8} {n : Nat} {t : List Char} {rest : List UInt8}
    (h : hexValue? b = some n) (ht : octets t = b :: rest) :
    ∃ c u, t = c :: u ∧ rest = octets u ∧ digit? 16 c = some n := by
  by_cases hb : b.toNat < 0x80
  · have hhead : (octets t).head? = some b := by rw [ht]; rfl
    obtain ⟨u, rfl, htail⟩ := exists_char_of_head hb hhead
    rw [ht] at htail
    exact ⟨_, u, rfl, htail, h⟩
  · rw [hexValue?_eq_none hb] at h
    cases h

/-- Four digits are read as their number. -/
lemma readHex_ok {t : List Char} {n : Nat} {rest : List UInt8}
    (h : readHex (octets t) = .ok (n, rest)) :
    ∃ digits u, t = digits ++ u ∧ rest = octets u ∧ digits.length = 4
      ∧ natural? 16 digits = some n := by
  rw [readHex.eq_def] at h
  split at h
  · rename_i a b c d rest' ht
    split at h
    · rename_i na nb nc nd ha hb hc hd
      cases h
      obtain ⟨x, t, rfl, hrest, hx⟩ := exists_of_hexValue? ha ht
      obtain ⟨y, t, rfl, hrest, hy⟩ := exists_of_hexValue? hb hrest.symm
      obtain ⟨z, t, rfl, hrest, hz⟩ := exists_of_hexValue? hc hrest.symm
      obtain ⟨w, t, rfl, hrest, hw⟩ := exists_of_hexValue? hd hrest.symm
      refine ⟨[x, y, z, w], t, rfl, hrest, rfl, ?_⟩
      simp [natural?, hx, hy, hz, hw]
    · cases h
  · cases h

lemma octetsOf_eq (n : Nat) : octetsOf n = octets [Char.ofNat n] := by
  rw [octets_cons, octets_nil, List.append_nil, octetsOf]

/-- An octet that is expected is passed. -/
lemma expectInEscape_ok {b : UInt8} {input rest : List UInt8} {u : Unit}
    (h : expectInEscape b input = .ok (u, rest)) : input.head? = some b ∧ rest = input.tail := by
  rw [expectInEscape, next_bind] at h
  generalize input.head? = o at h ⊢
  split at h
  · cases h
  · split_ifs at h with hb
    · cases h
      rw [hb]
      exact ⟨rfl, rfl⟩
    · cases h

/-- An escape by number is read as its character, or two of them as one. -/
lemma readUnicode_ok {t : List Char} {bytes rest : List UInt8}
    (h : readUnicode (octets t) = .ok (bytes, rest)) :
    ∃ c u, bytes = octets [c] ∧ rest = octets u
      ∧ ∀ cs rest', Quoted u cs rest' → Quoted ('\\' :: 'u' :: t) (c :: cs) rest' := by
  rw [readUnicode] at h
  obtain ⟨n, middle, hhex, h⟩ := exists_of_bind_eq_ok h
  obtain ⟨high, t, rfl, rfl, hhigh, hn⟩ := readHex_ok hhex
  split_ifs at h with htrail hscalar
  · cases h
  · -- the number is that of a character
    cases h
    refine ⟨_, t, octetsOf_eq n, rfl, ?_⟩
    intro cs rest' more
    exact .unicode hhigh hn (by omega) more
  · -- the first half of a pair, behind which the second one is required
    obtain ⟨_, middle, hslash, h⟩ := exists_of_bind_eq_ok h
    obtain ⟨hhead, rfl⟩ := expectInEscape_ok hslash
    obtain ⟨t, rfl, htail⟩ := exists_cons_of_head '\\' (by decide) hhead
    rw [htail] at h
    obtain ⟨_, middle, hmark, h⟩ := exists_of_bind_eq_ok h
    obtain ⟨hhead, rfl⟩ := expectInEscape_ok hmark
    obtain ⟨t, rfl, htail⟩ := exists_cons_of_head 'u' (by decide) hhead
    rw [htail] at h
    obtain ⟨m, middle, hhex, h⟩ := exists_of_bind_eq_ok h
    obtain ⟨low, t, rfl, rfl, hlow, hm⟩ := readHex_ok hhex
    split_ifs at h with hlone
    · cases h
    · simp only [pure_apply, Except.ok.injEq, Prod.mk.injEq] at h
      obtain ⟨rfl, rfl⟩ := h
      refine ⟨_, t, octetsOf_eq _, rfl, ?_⟩
      intro cs rest' more
      exact .pair hhigh hn (by omega) hlow hm (by omega) more

/-- The reader takes the escaped character off, whose escape is a short one. -/
lemma escaped {t : List Char} {bytes rest : List UInt8} (x c : Char)
    (hhead : (octets t).head? = some (UInt8.ofNat x.toNat)) (hx : x.toNat < 0x80)
    (hescape : shortEscape? x = some c)
    (h : (pure (octets [c]) : Reading (List UInt8)) (octets t).tail = .ok (bytes, rest)) :
    ∃ c u, bytes = octets [c] ∧ rest = octets u
      ∧ ∀ cs rest', Quoted u cs rest' → Quoted ('\\' :: t) (c :: cs) rest' := by
  obtain ⟨u, rfl, htail⟩ := exists_cons_of_head x hx hhead
  rw [htail] at h
  cases h
  refine ⟨c, u, rfl, rfl, ?_⟩
  intro cs rest' more
  exact .escape hescape more

/-- An escape is read as its character. -/
lemma readEscape_ok {t : List Char} {bytes rest : List UInt8}
    (h : readEscape (octets t) = .ok (bytes, rest)) :
    ∃ c u, bytes = octets [c] ∧ rest = octets u
      ∧ ∀ cs rest', Quoted u cs rest' → Quoted ('\\' :: t) (c :: cs) rest' := by
  rw [readEscape, next_bind] at h
  generalize hhead : (octets t).head? = o at h
  split at h
  · cases h
  · exact escaped '"' '"' hhead (by decide) rfl h
  · exact escaped '\\' '\\' hhead (by decide) rfl h
  · exact escaped '/' '/' hhead (by decide) rfl h
  · exact escaped 'b' '\x08' hhead (by decide) rfl h
  · exact escaped 'f' '\x0c' hhead (by decide) rfl h
  · exact escaped 'n' '\n' hhead (by decide) rfl h
  · exact escaped 'r' '\r' hhead (by decide) rfl h
  · exact escaped 't' '\t' hhead (by decide) rfl h
  · obtain ⟨t, rfl, htail⟩ := exists_cons_of_head 'u' (by decide) hhead
    rw [htail] at h
    exact readUnicode_ok h
  · cases h

/-- What is read up to the closing quote are the octets of the characters that the
string spells. -/
lemma readOctets_ok {fuel : Nat} {t : List Char} {bytes rest : List UInt8}
    (h : readOctets fuel (octets t) = .ok (bytes, rest)) :
    ∃ cs u, bytes = octets cs ∧ rest = octets u ∧ Quoted t cs u := by
  induction fuel generalizing t bytes rest with
  | zero => cases h
  | succ fuel ih =>
      -- characters that stand for themselves are taken at once, up to the first other one
      obtain ⟨htake, hdrop⟩ := tells_isPlain.takeWhile t
      rw [readOctets, span_bind, htake, hdrop, next_bind] at h
      have hplain : ∀ c ∈ t.takeWhile isPlainChar, isPlainChar c = true :=
        fun c hc => List.mem_takeWhile_imp hc
      obtain ⟨ps, u, ht, hps, hu⟩ : ∃ ps u, t = ps ++ u ∧ t.takeWhile isPlainChar = ps
          ∧ t.dropWhile isPlainChar = u := ⟨_, _, List.takeWhile_append_dropWhile.symm, rfl, rfl⟩
      rw [hps] at h hplain
      rw [hu] at h
      subst ht
      generalize hhead : (octets u).head? = o at h
      split at h
      · cases h
      · -- the closing quote
        obtain ⟨u, rfl, htail⟩ := exists_cons_of_head '"' (by decide) hhead
        rw [htail] at h
        cases h
        refine ⟨ps, u, rfl, rfl, ?_⟩
        have hclose : Quoted ('"' :: u) [] u := .close
        have hquoted := Quoted.plain hplain hclose
        rwa [List.append_nil] at hquoted
      · -- an escape, and on with what follows
        obtain ⟨u, rfl, htail⟩ := exists_cons_of_head '\\' (by decide) hhead
        rw [htail] at h
        obtain ⟨escaped, middle, hescape, h⟩ := exists_of_bind_eq_ok h
        obtain ⟨c, u, rfl, rfl, hquoted⟩ := readEscape_ok hescape
        obtain ⟨others, middle, hothers, h⟩ := exists_of_bind_eq_ok h
        obtain ⟨cs, u, rfl, rfl, hmore⟩ := ih hothers
        cases h
        refine ⟨ps ++ c :: cs, u, ?_, rfl, .plain hplain (hquoted cs u hmore)⟩
        rw [octets_append, octets_cons, List.append_assoc]
        simp
      · cases h

/-- **Strings.** A string that is read is quoted in the input. -/
lemma readString_ok {t : List Char} {text : String} {rest : List UInt8}
    (h : readString (octets t) = .ok (text, rest)) :
    ∃ cs u, text = String.ofList cs ∧ rest = octets u ∧ Quoted t cs u := by
  rw [readString] at h
  obtain ⟨start, middle, hget, h⟩ := exists_of_bind_eq_ok h
  cases hget
  obtain ⟨bytes, middle, hoctets, h⟩ := exists_of_bind_eq_ok h
  obtain ⟨cs, u, rfl, rfl, hquoted⟩ := readOctets_ok hoctets
  rw [decode_eq_ok_iff.mpr rfl] at h
  cases h
  exact ⟨cs, u, rfl, rfl, hquoted⟩

/-! ### Values -/

/-- The words. -/
inductive Word : List Char → Json → Prop
  | null : Word ['n', 'u', 'l', 'l'] .null
  | true : Word ['t', 'r', 'u', 'e'] (.bool Bool.true)
  | false : Word ['f', 'a', 'l', 's', 'e'] (.bool Bool.false)

/-- What stands in front of an entry: nothing in front of the first one, and else a
comma. -/
inductive Lead : Bool → List Char → List Char → Prop
  | first {t : List Char} : Lead true t t
  | next {t : List Char} : Lead false (',' :: t) (afterSpace t)

/-- Behind a comma blanks are passed as well. -/
lemma Lead.afterSpace_eq {atStart : Bool} {t u : List Char} (h : Lead atStart t u)
    (ht : afterSpace t = t) : afterSpace u = u := by
  cases h with
  | first => exact ht
  | next => exact afterSpace_afterSpace _

/-- The fields that entries make, in order. -/
def fieldsOf (entries : List (String × Json)) : Fields :=
  entries.foldl (fun fields entry => fields.put entry.1 entry.2) []

mutual

/-- The texts of values: what a text begins with, the value that it spells, and what
stands behind it. -/
inductive Spells : List Char → Json → List Char → Prop
  | word {text rest : List Char} {v : Json} (h : Word text v) : Spells (text ++ rest) v rest
  | number {text rest : List Char} {n : Number} (h : Numeral text n) :
      Spells (text ++ rest) (.num n) rest
  | string {t cs rest : List Char} (h : Quoted t cs rest) :
      Spells ('"' :: t) (.str (String.ofList cs)) rest
  | array {t rest : List Char} {items : List Json} (h : SpellsItems true (afterSpace t) items rest) :
      Spells ('[' :: t) (.arr items) rest
  | object {t rest : List Char} {entries : List (String × Json)}
      (h : SpellsEntries true (afterSpace t) entries rest) :
      Spells ('\x7b' :: t) (.obj (fieldsOf entries)) rest

/-- The items of an array up to and with its closing bracket. -/
inductive SpellsItems : Bool → List Char → List Json → List Char → Prop
  | close {atStart : Bool} {rest : List Char} : SpellsItems atStart (']' :: rest) [] rest
  | item {atStart : Bool} {t u u' rest : List Char} {item : Json} {others : List Json}
      (lead : Lead atStart t u) (value : Spells u item u')
      (more : SpellsItems false (afterSpace u') others rest) :
      SpellsItems atStart t (item :: others) rest

/-- The entries of an object up to and with its closing brace. -/
inductive SpellsEntries : Bool → List Char → List (String × Json) → List Char → Prop
  | close {atStart : Bool} {rest : List Char} : SpellsEntries atStart ('\x7d' :: rest) [] rest
  | entry {atStart : Bool} {t u key u' w w' rest : List Char} {value : Json}
      {others : List (String × Json)} (lead : Lead atStart t ('"' :: u)) (quoted : Quoted u key u')
      (colon : afterSpace u' = ':' :: w) (spells : Spells (afterSpace w) value w')
      (more : SpellsEntries false (afterSpace w') others rest) :
      SpellsEntries atStart t ((String.ofList key, value) :: others) rest

end

/-- A word is read letter by letter. -/
lemma readWord_ok {v w : Json} {word : List Char} (hascii : ∀ c ∈ word, c.toNat < 0x80)
    {t : List Char} {rest : List UInt8} (h : readWord v (octets word) (octets t) = .ok (w, rest)) :
    w = v ∧ ∃ u, t = word ++ u ∧ rest = octets u := by
  induction word generalizing t with
  | nil =>
      cases h
      exact ⟨rfl, t, rfl, rfl⟩
  | cons c word ih =>
      have hc := hascii c List.mem_cons_self
      rw [octets_cons, encodeChar_ascii hc, List.singleton_append, readWord, next_bind] at h
      generalize hhead : (octets t).head? = o at h
      split at h
      · cases h
      · split_ifs at h with hb
        · subst hb
          obtain ⟨t, rfl, htail⟩ := exists_cons_of_head c hc hhead
          rw [htail] at h
          obtain ⟨rfl, u, rfl, rfl⟩ := ih (fun d hd => hascii d (List.mem_cons_of_mem c hd)) h
          exact ⟨rfl, u, rfl, rfl⟩
        · cases h

/-- Behind a key stands a colon. -/
lemma readColon_ok {t : List Char} {u : Unit} {rest : List UInt8}
    (h : readColon (octets t) = .ok (u, rest)) :
    ∃ w, afterSpace t = ':' :: w ∧ rest = octets w := by
  rw [readColon] at h
  obtain ⟨o, hhead, h⟩ := exists_of_peekToken_bind h
  split at h
  · obtain ⟨w, hw, htail⟩ := exists_cons_of_head ':' (by decide) hhead
    cases h
    exact ⟨w, hw, htail⟩
  · cases h
  · cases h

/-- What a reader has taken off in front of an item. -/
lemma beginItem_ok {atStart : Bool} {b : UInt8} {t : List Char} {x : Unit} {rest : List UInt8}
    (hhead : (octets t).head? = some b) (h : beginItem atStart b (octets t) = .ok (x, rest)) :
    ∃ u, rest = octets u ∧ Lead atStart t u := by
  rw [beginItem] at h
  split_ifs at h with hstart hcomma
  · cases h
    rw [hstart]
    exact ⟨t, rfl, .first⟩
  · cases h
  · obtain rfl : b = 0x2C := by simpa using hcomma
    obtain ⟨t, rfl, htail⟩ := exists_cons_of_head ',' (by decide) hhead
    rw [skip_bind, htail] at h
    obtain ⟨o, -, h⟩ := exists_of_peekToken_bind h
    rw [Bool.not_eq_true] at hstart
    split at h
    · cases h
    · cases h
      rw [hstart]
      exact ⟨_, rfl, .next⟩
    · cases h

/-- A member begins with the quote of its key, and a comma in front if it is not the
first. -/
lemma beginField_ok {atStart : Bool} {b : UInt8} {t : List Char} {x : Unit} {rest : List UInt8}
    (hhead : (octets t).head? = some b) (h : beginField atStart b (octets t) = .ok (x, rest)) :
    ∃ u, rest = octets ('"' :: u) ∧ Lead atStart t ('"' :: u) := by
  rw [beginField] at h
  split_ifs at h with hstart hquote hcomma
  · cases h
  · obtain rfl : b = 0x22 := by simpa using hquote
    obtain ⟨t, rfl, -⟩ := exists_cons_of_head '"' (by decide) hhead
    cases h
    rw [hstart]
    exact ⟨t, rfl, .first⟩
  · cases h
  · obtain rfl : b = 0x2C := by simpa using hcomma
    obtain ⟨t, rfl, htail⟩ := exists_cons_of_head ',' (by decide) hhead
    rw [skip_bind, htail] at h
    obtain ⟨o, hquote, h⟩ := exists_of_peekToken_bind h
    rw [Bool.not_eq_true] at hstart
    split at h
    · obtain ⟨u, hu, -⟩ := exists_cons_of_head '"' (by decide) hquote
      cases h
      rw [hstart, hu]
      refine ⟨u, rfl, ?_⟩
      rw [← hu]
      exact .next
    all_goals cases h

/-- What the readers of values take off a text with so much fuel. -/
structure Sound (fuel : Nat) : Prop where
  value : ∀ {depth : Nat} {t : List Char} {v : Json} {rest : List UInt8},
    readValue fuel depth (octets t) = .ok (v, rest) →
      ∃ u, rest = octets u ∧ Spells (afterSpace t) v u
  items : ∀ {depth : Nat} {atStart : Bool} {t : List Char} {vs : List Json} {rest : List UInt8},
    readItems fuel depth atStart (octets t) = .ok (vs, rest) →
      ∃ u, rest = octets u ∧ SpellsItems atStart (afterSpace t) vs u
  fields : ∀ {depth : Nat} {atStart : Bool} {t : List Char} {before fields : Fields}
    {rest : List UInt8},
    readFields fuel depth atStart before (octets t) = .ok (fields, rest) →
      ∃ u entries, rest = octets u ∧ SpellsEntries atStart (afterSpace t) entries u
        ∧ fields = entries.foldl (fun fields entry => fields.put entry.1 entry.2) before

namespace Sound

variable {fuel : Nat}

lemma zero : Sound 0 where
  value h := by cases h
  items h := by cases h
  fields h := by cases h

/-- A value that is a word, of which the first letter has been seen. -/
lemma spelled_word {t : List Char} {text : List Char} {v w : Json} {rest : List UInt8} (c : Char)
    (hhead : (octets t).head? = some (UInt8.ofNat c.toNat)) (hword : Word (c :: text) v)
    (hascii : ∀ x ∈ c :: text, x.toNat < 0x80)
    (h : readWord v (octets text) (octets t).tail = .ok (w, rest)) :
    ∃ u, rest = octets u ∧ Spells t w u := by
  obtain ⟨t, rfl, htail⟩ := exists_cons_of_head c (hascii c List.mem_cons_self) hhead
  rw [htail] at h
  obtain ⟨rfl, u, rfl, rfl⟩ := readWord_ok (fun x hx => hascii x (List.mem_cons_of_mem c hx)) h
  exact ⟨u, rfl, .word hword⟩

/-- A value is read by its first octet. -/
lemma succ_value (h : Sound fuel) {depth : Nat} {t : List Char} {v : Json} {rest : List UInt8}
    (hread : readValue (fuel + 1) depth (octets t) = .ok (v, rest)) :
    ∃ u, rest = octets u ∧ Spells (afterSpace t) v u := by
  rw [readValue.eq_def] at hread
  dsimp only at hread
  obtain ⟨o, hhead, hread⟩ := exists_of_peekToken_bind hread
  generalize afterSpace t = t at hhead hread ⊢
  split at hread
  · cases hread
  · exact spelled_word 'n' hhead .null (by simp) hread
  · exact spelled_word 't' hhead .true (by simp) hread
  · exact spelled_word 'f' hhead .false (by simp) hread
  · obtain ⟨t, rfl, htail⟩ := exists_cons_of_head '-' (by decide) hhead
    rw [skip_bind, htail] at hread
    obtain ⟨n, middle, hnumber, hread⟩ := exists_of_bind_eq_ok hread
    obtain ⟨text, u, rfl, rfl, hnumeral⟩ := readNumber_ok hnumber
    cases hread
    exact ⟨u, rfl, .number hnumeral⟩
  · obtain ⟨t, rfl, htail⟩ := exists_cons_of_head '"' (by decide) hhead
    rw [skip_bind, htail] at hread
    obtain ⟨text, middle, hstring, hread⟩ := exists_of_bind_eq_ok hread
    obtain ⟨cs, u, rfl, rfl, hquoted⟩ := readString_ok hstring
    cases hread
    exact ⟨u, rfl, .string hquoted⟩
  · obtain ⟨t, rfl, htail⟩ := exists_cons_of_head '[' (by decide) hhead
    -- arrays and objects may be nested so deep only
    cases depth with
    | zero => cases hread
    | succ depth =>
        dsimp only at hread
        rw [skip_bind, htail] at hread
        obtain ⟨vs, middle, hitems, hread⟩ := exists_of_bind_eq_ok hread
        obtain ⟨u, rfl, hspells⟩ := h.items hitems
        cases hread
        exact ⟨u, rfl, .array hspells⟩
  · obtain ⟨t, rfl, htail⟩ := exists_cons_of_head '\x7b' (by decide) hhead
    cases depth with
    | zero => cases hread
    | succ depth =>
        dsimp only at hread
        rw [skip_bind, htail] at hread
        obtain ⟨fields, middle, hfields, hread⟩ := exists_of_bind_eq_ok hread
        obtain ⟨u, entries, rfl, hspells, rfl⟩ := h.fields hfields
        cases hread
        exact ⟨u, rfl, .object hspells⟩
  · split_ifs at hread with hdigit
    · obtain ⟨n, middle, hnumber, hread⟩ := exists_of_bind_eq_ok hread
      obtain ⟨text, u, rfl, rfl, hnumeral⟩ := readNumber_ok hnumber
      cases hread
      exact ⟨u, rfl, .number hnumeral⟩
    · cases hread

/-- The elements of an array are read one after the other. -/
lemma succ_items (h : Sound fuel) {depth : Nat} {atStart : Bool} {t : List Char} {vs : List Json}
    {rest : List UInt8} (hread : readItems (fuel + 1) depth atStart (octets t) = .ok (vs, rest)) :
    ∃ u, rest = octets u ∧ SpellsItems atStart (afterSpace t) vs u := by
  rw [readItems] at hread
  obtain ⟨o, hhead, hread⟩ := exists_of_peekToken_bind hread
  have hspace := afterSpace_afterSpace t
  generalize afterSpace t = t at hhead hread hspace ⊢
  split at hread
  · cases hread
  · obtain ⟨t, rfl, htail⟩ := exists_cons_of_head ']' (by decide) hhead
    rw [skip_bind, htail] at hread
    cases hread
    exact ⟨t, rfl, .close⟩
  · -- an element, with a comma in front if it is not the first, and the others
    obtain ⟨_, middle, hbegin, hread⟩ := exists_of_bind_eq_ok hread
    obtain ⟨u, rfl, hlead⟩ := beginItem_ok hhead hbegin
    obtain ⟨item, middle, hvalue, hread⟩ := exists_of_bind_eq_ok hread
    obtain ⟨u', rfl, hspells⟩ := h.value hvalue
    rw [hlead.afterSpace_eq hspace] at hspells
    obtain ⟨others, middle, hothers, hread⟩ := exists_of_bind_eq_ok hread
    obtain ⟨w, rfl, hmore⟩ := h.items hothers
    cases hread
    exact ⟨w, rfl, .item hlead hspells hmore⟩

/-- The members of an object are read one after the other, a later one in the stead of
an earlier one with its key. -/
lemma succ_fields (h : Sound fuel) {depth : Nat} {atStart : Bool} {t : List Char}
    {before fields : Fields} {rest : List UInt8}
    (hread : readFields (fuel + 1) depth atStart before (octets t) = .ok (fields, rest)) :
    ∃ u entries, rest = octets u ∧ SpellsEntries atStart (afterSpace t) entries u
      ∧ fields = entries.foldl (fun fields entry => fields.put entry.1 entry.2) before := by
  rw [readFields] at hread
  obtain ⟨o, hhead, hread⟩ := exists_of_peekToken_bind hread
  generalize afterSpace t = t at hhead hread ⊢
  split at hread
  · cases hread
  · obtain ⟨t, rfl, htail⟩ := exists_cons_of_head '\x7d' (by decide) hhead
    rw [skip_bind, htail] at hread
    cases hread
    exact ⟨t, [], rfl, .close, rfl⟩
  · -- the key, its colon and its value, and then the other members
    obtain ⟨_, middle, hbegin, hread⟩ := exists_of_bind_eq_ok hread
    obtain ⟨u, rfl, hlead⟩ := beginField_ok hhead hbegin
    rw [skip_bind, octets_tail (by decide)] at hread
    obtain ⟨key, middle, hkey, hread⟩ := exists_of_bind_eq_ok hread
    obtain ⟨cs, u', rfl, rfl, hquoted⟩ := readString_ok hkey
    obtain ⟨_, middle, hcolon, hread⟩ := exists_of_bind_eq_ok hread
    obtain ⟨w, hw, rfl⟩ := readColon_ok hcolon
    obtain ⟨value, middle, hvalue, hread⟩ := exists_of_bind_eq_ok hread
    obtain ⟨w', rfl, hspells⟩ := h.value hvalue
    obtain ⟨rest', others, rfl, hmore, rfl⟩ := h.fields hread
    exact ⟨rest', _, rfl, .entry hlead hquoted hw hspells hmore, rfl⟩

end Sound

/-- **Reading is sound**, however deep it goes. -/
lemma sound (fuel : Nat) : Sound fuel := by
  induction fuel with
  | zero => exact .zero
  | succ fuel ih =>
      exact { value := ih.succ_value, items := ih.succ_items, fields := ih.succ_fields }

/-- **Texts of values.** A text that JSON reads is that of the value, between blanks. -/
theorem spells_of_read {t : List Char} {v : Json} (h : read (octets t) = .ok v) :
    ∃ u, Spells (afterSpace t) v u ∧ afterSpace u = [] := by
  rw [read] at h
  split at h
  · rename_i value rest hread
    cases h
    change readDocument (octets t) = _ at hread
    rw [readDocument] at hread
    obtain ⟨start, middle, hget, hread⟩ := exists_of_bind_eq_ok hread
    cases hget
    obtain ⟨value, middle, hvalue, hread⟩ := exists_of_bind_eq_ok hread
    obtain ⟨u, rfl, hspells⟩ := (sound _).value hvalue
    obtain ⟨o, hhead, hread⟩ := exists_of_peekToken_bind hread
    split at hread
    · cases hread
      rw [List.head?_eq_none_iff, octets_eq_nil_iff] at hhead
      exact ⟨u, hspells, hhead⟩
    · cases hread
  · cases h

end Json

end SchemaTypes
