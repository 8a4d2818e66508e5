import Mathlib.Tactic
import SchemaTypes.Text.Utf8

/-!
Characters and their octets.

* `Utf8.octets`: the octets of characters;
* `Utf8.charsOf_octets`, `Utf8.octets_of_charsOf`: characters are read back from
  their octets, and no other octets are read as characters;
* `Utf8.decode_eq_ok_iff`: both in one;
* `Utf8.exists_char_of_head`: an octet of ASCII is a character;
* `Utf8.Tells.takeWhile`: runs of octets as runs of characters.
-/

namespace SchemaTypes

lemma exists_of_map_eq_ok {ε α β : Type} {x : Except ε α} {f : α → β} {b : β}
    (h : x.map f = .ok b) : ∃ a, x = .ok a ∧ f a = b := by
  cases x with
  | error fault => cases h
  | ok a =>
      cases h
      exact ⟨a, rfl, rfl⟩

lemma exists_of_andThen_eq_ok {ε α β : Type} {x : Except ε α} {f : α → Except ε β} {b : β}
    (h : (x >>= f) = .ok b) : ∃ a, x = .ok a ∧ f a = .ok b := by
  cases x with
  | error fault => cases h
  | ok a => exact ⟨a, rfl, h⟩

namespace Utf8

/-- The octets of characters. -/
def octets (cs : List Char) : List UInt8 := cs.flatMap String.utf8EncodeChar

@[simp] lemma octets_nil : octets [] = [] := rfl

@[simp] lemma octets_cons (c : Char) (cs : List Char) :
    octets (c :: cs) = String.utf8EncodeChar c ++ octets cs := List.flatMap_cons

@[simp] lemma octets_append (front back : List Char) :
    octets (front ++ back) = octets front ++ octets back := List.flatMap_append

/-! ### Steps of the decoder -/

lemma toNat_octet {n : Nat} (h : n < 256) : (UInt8.ofNat n).toNat = n := by
  rw [UInt8.toNat_ofNat']
  omega

/-- An octet is known by its number. -/
lemma ofNat_eq {n : Nat} {b : UInt8} (h : n = b.toNat) : UInt8.ofNat n = b := by
  rw [h, UInt8.ofNat_toNat]

section

variable {s : Begun} {b : UInt8} {rest : List UInt8}

/-- A first octet begins a sequence. -/
lemma piecesFrom_begin (h : first b.toNat = .inr s) :
    piecesFrom none (b :: rest) = piecesFrom (some s) rest := by
  rw [piecesFrom, h]

/-- A further octet continues it. -/
lemma piecesFrom_continue (h : s.low ≤ b.toNat ∧ b.toNat ≤ s.high) (howed : ¬ s.owed ≤ 1) :
    piecesFrom (some s) (b :: rest)
      = piecesFrom (some ⟨s.bits * 64 + b.toNat % 64, s.read + 1, s.owed - 1, 0x80, 0xBF⟩) rest := by
  rw [piecesFrom, if_pos h]
  exact if_neg howed

/-- The last octet completes it. -/
lemma piecesFrom_complete (h : s.low ≤ b.toNat ∧ b.toNat ≤ s.high) (howed : s.owed ≤ 1) :
    piecesFrom (some s) (b :: rest)
      = .char (Char.ofNat (s.bits * 64 + b.toNat % 64)) :: piecesFrom none rest := by
  rw [piecesFrom, if_pos h]
  exact if_pos howed

end

lemma first_one {n : Nat} (h : n < 0x80) : first n = .inl (.char (Char.ofNat n)) := if_pos h

/-- The first of two octets. -/
lemma first_two {n : Nat} (h : 0xC2 ≤ n ∧ n < 0xE0) :
    first n = .inr ⟨n - 0xC0, 1, 1, 0x80, 0xBF⟩ := by
  rw [first, if_neg (by omega), if_neg (by omega), if_pos (by omega)]

/-- The first of three octets, which may limit the second one. -/
lemma first_three {n : Nat} (h : 0xE0 ≤ n ∧ n < 0xF0) :
    first n = .inr ⟨n - 0xE0, 1, 2, if n = 0xE0 then 0xA0 else 0x80,
      if n = 0xED then 0x9F else 0xBF⟩ := by
  rw [first, if_neg (by omega), if_neg (by omega), if_neg (by omega), if_pos (by omega)]

/-- The first of four octets, which may limit the second one. -/
lemma first_four {n : Nat} (h : 0xF0 ≤ n ∧ n < 0xF5) :
    first n = .inr ⟨n - 0xF0, 1, 3, if n = 0xF0 then 0x90 else 0x80,
      if n = 0xF4 then 0x8F else 0xBF⟩ := by
  rw [first, if_neg (by omega), if_neg (by omega), if_neg (by omega), if_neg (by omega),
    if_pos (by omega)]

/-! ### From characters to octets and back -/

lemma toNat_ofNat {n : Nat} (h : n.isValidChar) : (Char.ofNat n).toNat = n := by
  rw [Char.ofNat, dif_pos h]
  rfl

/-- The octets of a character by its number. -/
lemma encodeChar_ofNat {n : Nat} (h : n.isValidChar) :
    String.utf8EncodeChar (Char.ofNat n) =
      if n ≤ 0x7F then [UInt8.ofNat n]
      else if n ≤ 0x7FF then [UInt8.ofNat (n / 64 % 0x20 + 0xC0), UInt8.ofNat (n % 0x40 + 0x80)]
      else if n ≤ 0xFFFF then
        [UInt8.ofNat (n / 4096 % 0x10 + 0xE0), UInt8.ofNat (n / 64 % 0x40 + 0x80),
          UInt8.ofNat (n % 0x40 + 0x80)]
      else
        [UInt8.ofNat (n / 262144 % 0x08 + 0xF0), UInt8.ofNat (n / 4096 % 0x40 + 0x80),
          UInt8.ofNat (n / 64 % 0x40 + 0x80), UInt8.ofNat (n % 0x40 + 0x80)] := by
  have hval : (Char.ofNat n).val.toNat = n := toNat_ofNat h
  rw [String.utf8EncodeChar, hval]

/-- A character is read off its octets. -/
lemma piecesFrom_encodeChar (c : Char) (rest : List UInt8) :
    piecesFrom none (String.utf8EncodeChar c ++ rest) = .char c :: piecesFrom none rest := by
  have hvalid : c.toNat.isValidChar := c.valid
  rw [← Char.ofNat_toNat c, encodeChar_ofNat hvalid]
  generalize c.toNat = n at hvalid ⊢
  rw [Nat.isValidChar] at hvalid
  split_ifs with hone htwo hthree
  · have hfirst := first_one (show (UInt8.ofNat n).toNat < 0x80 by rw [toNat_octet] <;> omega)
    rw [List.singleton_append, piecesFrom, hfirst, toNat_octet (by omega)]
  · have hlead : (UInt8.ofNat (n / 64 % 0x20 + 0xC0)).toNat = n / 64 + 0xC0 := by
      rw [toNat_octet] <;> omega
    have hlast : (UInt8.ofNat (n % 0x40 + 0x80)).toNat = n % 0x40 + 0x80 := toNat_octet (by omega)
    rw [List.cons_append, List.cons_append, List.nil_append,
      piecesFrom_begin (first_two (by omega)),
      piecesFrom_complete (by simp only []; omega) le_rfl, hlead, hlast]
    congr 3
    simp only []
    omega
  · have hlead : (UInt8.ofNat (n / 4096 % 0x10 + 0xE0)).toNat = n / 4096 + 0xE0 := by
      rw [toNat_octet] <;> omega
    have hnext : (UInt8.ofNat (n / 64 % 0x40 + 0x80)).toNat = n / 64 % 0x40 + 0x80 :=
      toNat_octet (by omega)
    have hlast : (UInt8.ofNat (n % 0x40 + 0x80)).toNat = n % 0x40 + 0x80 := toNat_octet (by omega)
    rw [List.cons_append, List.cons_append, List.cons_append, List.nil_append,
      piecesFrom_begin (first_three (by omega)),
      piecesFrom_continue (by simp only [hlead, hnext]; split_ifs <;> omega) (by simp),
      piecesFrom_complete (by simp only []; omega) le_rfl, hlead, hnext, hlast]
    congr 3
    simp only []
    omega
  · have hlead : (UInt8.ofNat (n / 262144 % 0x08 + 0xF0)).toNat = n / 262144 + 0xF0 := by
      rw [toNat_octet] <;> omega
    have hnext : (UInt8.ofNat (n / 4096 % 0x40 + 0x80)).toNat = n / 4096 % 0x40 + 0x80 :=
      toNat_octet (by omega)
    have hthird : (UInt8.ofNat (n / 64 % 0x40 + 0x80)).toNat = n / 64 % 0x40 + 0x80 :=
      toNat_octet (by omega)
    have hlast : (UInt8.ofNat (n % 0x40 + 0x80)).toNat = n % 0x40 + 0x80 := toNat_octet (by omega)
    rw [List.cons_append, List.cons_append, List.cons_append, List.cons_append, List.nil_append,
      piecesFrom_begin (first_four (by omega)),
      piecesFrom_continue (by simp only [hlead, hnext]; split_ifs <;> omega) (by simp),
      piecesFrom_continue (by simp only []; omega) (by simp),
      piecesFrom_complete (by simp only []; omega) (by simp), hlead, hnext, hthird, hlast]
    congr 3
    simp only []
    omega

/-! ### From octets to characters -/

section

variable {s : Begun} {bytes : List UInt8} {cs : List Char} {index : Nat}

/-- A character that has begun and is read to its end goes on with an octet within the
bounds. -/
lemma exists_of_continue (howed : ¬ s.owed ≤ 1)
    (h : charsOf index (piecesFrom (some s) bytes) = .ok cs) :
    ∃ b rest, bytes = b :: rest ∧ (s.low ≤ b.toNat ∧ b.toNat ≤ s.high)
      ∧ charsOf index (piecesFrom
          (some ⟨s.bits * 64 + b.toNat % 64, s.read + 1, s.owed - 1, 0x80, 0xBF⟩) rest) = .ok cs := by
  cases bytes with
  | nil => simp [piecesFrom, charsOf] at h
  | cons b rest =>
      by_cases hbounds : s.low ≤ b.toNat ∧ b.toNat ≤ s.high
      · rw [piecesFrom_continue hbounds howed] at h
        exact ⟨b, rest, rfl, hbounds, h⟩
      · rw [piecesFrom, if_neg hbounds] at h
        simp [charsOf] at h

/-- If decoding goes on, the last octet is there and is one of those that can follow. -/
lemma exists_of_complete (howed : s.owed ≤ 1)
    (h : charsOf index (piecesFrom (some s) bytes) = .ok cs) :
    ∃ b rest cs' index', bytes = b :: rest ∧ (s.low ≤ b.toNat ∧ b.toNat ≤ s.high)
      ∧ cs = Char.ofNat (s.bits * 64 + b.toNat % 64) :: cs'
      ∧ charsOf index' (piecesFrom none rest) = .ok cs' := by
  cases bytes with
  | nil => simp [piecesFrom, charsOf] at h
  | cons b rest =>
      by_cases hbounds : s.low ≤ b.toNat ∧ b.toNat ≤ s.high
      · rw [piecesFrom_complete hbounds howed, charsOf] at h
        obtain ⟨cs', hcs', rfl⟩ := exists_of_map_eq_ok h
        exact ⟨b, rest, cs', _, rfl, hbounds, rfl, hcs'⟩
      · rw [piecesFrom, if_neg hbounds] at h
        simp [charsOf] at h

/-- The octets begin with those of a character, which is the first one read. -/
def BeginsWithChar (bytes : List UInt8) (cs : List Char) : Prop :=
  ∃ c rest cs' index, bytes = String.utf8EncodeChar c ++ rest ∧ cs = c :: cs'
    ∧ charsOf index (piecesFrom none rest) = .ok cs'

lemma beginsWithChar_one {b : UInt8} (hb : b.toNat < 0x80)
    (h : charsOf index (piecesFrom none (b :: bytes)) = .ok cs) :
    BeginsWithChar (b :: bytes) cs := by
  rw [piecesFrom, first_one hb, charsOf] at h
  obtain ⟨cs, hcs, rfl⟩ := exists_of_map_eq_ok h
  refine ⟨_, bytes, cs, _, ?_, rfl, hcs⟩
  rw [encodeChar_ofNat (.inl (by omega)), if_pos (by omega), ofNat_eq rfl, List.singleton_append]

lemma beginsWithChar_two {b : UInt8} (hb : 0xC2 ≤ b.toNat ∧ b.toNat < 0xE0)
    (h : charsOf index (piecesFrom none (b :: bytes)) = .ok cs) :
    BeginsWithChar (b :: bytes) cs := by
  rw [piecesFrom_begin (first_two hb)] at h
  obtain ⟨x, rest, cs, index, rfl, hx, rfl, hcs⟩ := exists_of_complete le_rfl h
  refine ⟨_, rest, cs, index, ?_, rfl, hcs⟩
  simp only [] at hx ⊢
  generalize hn : (b.toNat - 0xC0) * 64 + x.toNat % 64 = n
  have hlead : UInt8.ofNat (n / 64 % 0x20 + 0xC0) = b := ofNat_eq (by omega)
  have hlast : UInt8.ofNat (n % 0x40 + 0x80) = x := ofNat_eq (by omega)
  rw [encodeChar_ofNat (.inl (by omega)), if_neg (by omega), if_pos (by omega), hlead, hlast]
  rfl

lemma beginsWithChar_three {b : UInt8} (hb : 0xE0 ≤ b.toNat ∧ b.toNat < 0xF0)
    (h : charsOf index (piecesFrom none (b :: bytes)) = .ok cs) :
    BeginsWithChar (b :: bytes) cs := by
  rw [piecesFrom_begin (first_three hb)] at h
  obtain ⟨x, rest, rfl, hx, h⟩ := exists_of_continue (by simp) h
  obtain ⟨y, rest, cs, index, rfl, hy, rfl, hcs⟩ := exists_of_complete le_rfl h
  refine ⟨_, rest, cs, index, ?_, rfl, hcs⟩
  have hx : 0x80 ≤ x.toNat ∧ x.toNat ≤ 0xBF ∧ (b.toNat = 0xE0 → 0xA0 ≤ x.toNat)
      ∧ (b.toNat = 0xED → x.toNat ≤ 0x9F) := by
    simp only [] at hx
    split_ifs at hx <;> omega
  simp only [] at hy ⊢
  generalize hn : ((b.toNat - 0xE0) * 64 + x.toNat % 64) * 64 + y.toNat % 64 = n
  have hvalid : n.isValidChar := by
    rw [Nat.isValidChar]
    omega
  have hlead : UInt8.ofNat (n / 4096 % 0x10 + 0xE0) = b := ofNat_eq (by omega)
  have hnext : UInt8.ofNat (n / 64 % 0x40 + 0x80) = x := ofNat_eq (by omega)
  have hlast : UInt8.ofNat (n % 0x40 + 0x80) = y := ofNat_eq (by omega)
  rw [encodeChar_ofNat hvalid, if_neg (by omega), if_neg (by omega), if_pos (by omega), hlead,
    hnext, hlast]
  rfl

lemma beginsWithChar_four {b : UInt8} (hb : 0xF0 ≤ b.toNat ∧ b.toNat < 0xF5)
    (h : charsOf index (piecesFrom none (b :: bytes)) = .ok cs) :
    BeginsWithChar (b :: bytes) cs := by
  rw [piecesFrom_begin (first_four hb)] at h
  obtain ⟨x, rest, rfl, hx, h⟩ := exists_of_continue (by simp) h
  obtain ⟨y, rest, rfl, hy, h⟩ := exists_of_continue (by simp) h
  obtain ⟨z, rest, cs, index, rfl, hz, rfl, hcs⟩ := exists_of_complete (by simp) h
  refine ⟨_, rest, cs, index, ?_, rfl, hcs⟩
  have hx : 0x80 ≤ x.toNat ∧ x.toNat ≤ 0xBF ∧ (b.toNat = 0xF0 → 0x90 ≤ x.toNat)
      ∧ (b.toNat = 0xF4 → x.toNat ≤ 0x8F) := by
    simp only [] at hx
    split_ifs at hx <;> omega
  simp only [] at hy hz ⊢
  generalize hn : (((b.toNat - 0xF0) * 64 + x.toNat % 64) * 64 + y.toNat % 64) * 64
    + z.toNat % 64 = n
  have hvalid : n.isValidChar := by
    rw [Nat.isValidChar]
    omega
  have hlead : UInt8.ofNat (n / 262144 % 0x08 + 0xF0) = b := ofNat_eq (by omega)
  have hnext : UInt8.ofNat (n / 4096 % 0x40 + 0x80) = x := ofNat_eq (by omega)
  have hthird : UInt8.ofNat (n / 64 % 0x40 + 0x80) = y := ofNat_eq (by omega)
  have hlast : UInt8.ofNat (n % 0x40 + 0x80) = z := ofNat_eq (by omega)
  rw [encodeChar_ofNat hvalid, if_neg (by omega), if_neg (by omega), if_neg (by omega), hlead,
    hnext, hthird, hlast]
  rfl

/-- Octets that are read as characters begin with the octets of one. -/
lemma beginsWithChar {b : UInt8} (h : charsOf index (piecesFrom none (b :: bytes)) = .ok cs) :
    BeginsWithChar (b :: bytes) cs := by
  by_cases hone : b.toNat < 0x80
  · exact beginsWithChar_one hone h
  by_cases htwo : 0xC2 ≤ b.toNat ∧ b.toNat < 0xE0
  · exact beginsWithChar_two htwo h
  by_cases hthree : 0xE0 ≤ b.toNat ∧ b.toNat < 0xF0
  · exact beginsWithChar_three hthree h
  by_cases hfour : 0xF0 ≤ b.toNat ∧ b.toNat < 0xF5
  · exact beginsWithChar_four hfour h
  · have hinvalid : first b.toNat = .inl (.invalid 1) := by
      rw [first, if_neg hone]
      split_ifs <;> first | rfl | omega
    simp [piecesFrom, hinvalid, charsOf] at h

/-- Only the octets of characters are read as characters. -/
lemma octets_of_charsOf (h : charsOf index (piecesFrom none bytes) = .ok cs) :
    bytes = octets cs := by
  induction cs generalizing bytes index with
  | nil =>
      cases bytes with
      | nil => rfl
      | cons b rest =>
          obtain ⟨c, rest, cs', index, -, hcs, -⟩ := beginsWithChar h
          cases hcs
  | cons c cs ih =>
      cases bytes with
      | nil => cases h
      | cons b rest =>
          obtain ⟨c, rest, cs, index, hbytes, ⟨rfl⟩, hrest⟩ := beginsWithChar h
          rw [hbytes, octets_cons, ih hrest]

end

/-- Characters are read back from their octets. -/
lemma charsOf_octets (cs : List Char) (index : Nat) :
    charsOf index (piecesFrom none (octets cs)) = .ok cs := by
  induction cs generalizing index with
  | nil => rfl
  | cons c cs ih =>
      rw [octets_cons, piecesFrom_encodeChar, charsOf, ih]
      rfl

/-- **Octets and characters.** Octets are read as characters just if they are the
octets of those. -/
theorem decode_eq_ok_iff {bytes : List UInt8} {cs : List Char} :
    decode bytes = .ok cs ↔ bytes = octets cs := by
  constructor
  · exact octets_of_charsOf
  · rintro rfl
    exact charsOf_octets cs 0

/-! ### ASCII -/

/-- The first characters have one octet each. -/
lemma encodeChar_ascii {c : Char} (h : c.toNat < 0x80) :
    String.utf8EncodeChar c = [UInt8.ofNat c.toNat] := by
  have hvalid : c.toNat.isValidChar := c.valid
  rw [← Char.ofNat_toNat c, encodeChar_ofNat hvalid, Char.ofNat_toNat, if_pos (by omega)]

/-- The octets of any other character are none of ASCII. -/
lemma encodeChar_beyond {c : Char} (h : ¬ c.toNat < 0x80) :
    ∃ b bs, String.utf8EncodeChar c = b :: bs ∧ ∀ x ∈ b :: bs, 0x80 ≤ x.toNat := by
  have hvalid : c.toNat.isValidChar := c.valid
  rw [← Char.ofNat_toNat c, encodeChar_ofNat hvalid]
  generalize c.toNat = n at h hvalid ⊢
  rw [Nat.isValidChar] at hvalid
  split_ifs with hone htwo hthree
  · omega
  all_goals
    refine ⟨_, _, rfl, ?_⟩
    simp only [List.mem_cons, List.not_mem_nil, or_false, forall_eq_or_imp, forall_eq]
    simp only [UInt8.toNat_ofNat']
    omega

/-- An ASCII octet in front of octets of characters is that of a character. -/
lemma exists_char_of_head {cs : List Char} {b : UInt8} (hb : b.toNat < 0x80)
    (h : (octets cs).head? = some b) : ∃ rest, cs = Char.ofNat b.toNat :: rest
      ∧ (octets cs).tail = octets rest := by
  cases cs with
  | nil => cases h
  | cons c rest =>
      refine ⟨rest, ?_⟩
      rw [octets_cons] at h ⊢
      by_cases hc : c.toNat < 0x80
      · rw [encodeChar_ascii hc] at h ⊢
        cases h
        rw [toNat_octet (by omega), Char.ofNat_toNat]
        exact ⟨rfl, rfl⟩
      · obtain ⟨x, bs, hchar, hbeyond⟩ := encodeChar_beyond hc
        rw [hchar] at h
        cases h
        have := hbeyond b List.mem_cons_self
        omega

lemma exists_cons_of_head {cs : List Char} (c : Char) (hc : c.toNat < 0x80)
    (h : (octets cs).head? = some (UInt8.ofNat c.toNat)) :
    ∃ rest, cs = c :: rest ∧ (octets cs).tail = octets rest := by
  have htoNat : (UInt8.ofNat c.toNat).toNat = c.toNat := toNat_octet (by omega)
  have hcons := exists_char_of_head (by omega) h
  rwa [htoNat, Char.ofNat_toNat] at hcons

lemma octets_eq_nil_iff {cs : List Char} : octets cs = [] ↔ cs = [] := by
  constructor
  · intro h
    cases cs with
    | nil => rfl
    | cons c rest =>
        rw [octets_cons] at h
        by_cases hc : c.toNat < 0x80
        · simp [encodeChar_ascii hc] at h
        · obtain ⟨x, bs, hchar, -⟩ := encodeChar_beyond hc
          simp [hchar] at h
  · rintro rfl
    rfl

/-- A property of characters that is told by any of their octets. -/
structure Tells (p : UInt8 → Bool) (q : Char → Bool) : Prop where
  ascii : ∀ c : Char, c.toNat < 0x80 → p (UInt8.ofNat c.toNat) = q c
  beyond : ∀ c : Char, ¬ c.toNat < 0x80 → ∀ b : UInt8, 0x80 ≤ b.toNat → p b = q c

namespace Tells

variable {p : UInt8 → Bool} {q : Char → Bool}

lemma all_encodeChar (h : Tells p q) (c : Char) :
    ∃ b bs, String.utf8EncodeChar c = b :: bs ∧ ∀ x ∈ b :: bs, p x = q c := by
  by_cases hc : c.toNat < 0x80
  · rw [encodeChar_ascii hc]
    refine ⟨_, _, rfl, fun x hx => ?_⟩
    rw [List.mem_singleton.mp hx, h.ascii c hc]
  · obtain ⟨b, bs, hchar, hbeyond⟩ := encodeChar_beyond hc
    exact ⟨b, bs, hchar, fun x hx => h.beyond c hc x (hbeyond x hx)⟩

/-- What is told of octets is told of the characters in front. -/
lemma takeWhile (h : Tells p q) (cs : List Char) :
    (octets cs).takeWhile p = octets (cs.takeWhile q)
      ∧ (octets cs).dropWhile p = octets (cs.dropWhile q) := by
  induction cs with
  | nil => exact ⟨rfl, rfl⟩
  | cons c cs ih =>
      obtain ⟨b, bs, hchar, hall⟩ := h.all_encodeChar c
      rw [octets_cons, hchar]
      cases hq : q c with
      | true =>
          have hp : ∀ x ∈ b :: bs, p x = true := fun x hx => (hall x hx).trans hq
          rw [List.takeWhile_append_of_pos hp, List.dropWhile_append_of_pos hp, ih.1, ih.2,
            List.takeWhile_cons_of_pos hq, List.dropWhile_cons_of_pos hq, octets_cons, hchar]
          exact ⟨rfl, rfl⟩
      | false =>
          have hp : ¬ p b = true := by simp [hall b List.mem_cons_self, hq]
          rw [List.cons_append, List.takeWhile_cons_of_neg hp, List.dropWhile_cons_of_neg hp,
            List.takeWhile_cons_of_neg (by simp [hq]), List.dropWhile_cons_of_neg (by simp [hq]),
            octets_cons, hchar]
          exact ⟨rfl, rfl⟩

end Tells

end Utf8

end SchemaTypes
