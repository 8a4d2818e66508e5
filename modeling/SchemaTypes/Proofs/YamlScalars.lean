import SchemaTypes.Proofs.JsonText
import SchemaTypes.Yaml.Token

/-!
The scalars of JSON in YAML.

* `Yaml.Narrow`: texts without the line breaks that JSON does not know;
* `Yaml.Bare`: the words and numerals of JSON;
* `Yaml.Delimited`: what stands behind a value;
* `Yaml.readPlain_ok`: words and numerals are plain scalars;
* `Yaml.readQuoted_ok`: strings are quoted scalars with the same characters.
-/

namespace SchemaTypes.Yaml

open Json

/-! ### Line breaks -/

/-- The line breaks beyond ASCII, which JSON does not know. -/
def isWideBreak (c : Char) : Bool := c.toNat = 0x85 || c.toNat = 0x2028 || c.toNat = 0x2029

/-- A text without such breaks. -/
def Narrow (t : List Char) : Prop := ∀ c ∈ t, isWideBreak c = false

instance (t : List Char) : Decidable (Narrow t) := List.decidableBAll _ t

namespace Narrow

variable {c : Char} {t u : List Char}

lemma tail (h : Narrow (c :: t)) : Narrow t := fun x hx => h x (List.mem_cons_of_mem c hx)

lemma suffix (h : Narrow t) (hsuffix : u <:+ t) : Narrow u := fun x hx => h x (hsuffix.mem hx)

end Narrow

lemma isGap_eq {c : Char} (h : isWideBreak c = false) : isGap c = isSpaceChar c := by
  rw [isWideBreak, Bool.or_eq_false_iff, Bool.or_eq_false_iff] at h
  rw [isGap, isBlankChar, isBreak, h.1.1, h.1.2, h.2, isSpaceChar]
  simp only [Bool.or_false, Bool.or_assoc]

/-- Such texts have the same blanks in both languages. -/
lemma Narrow.dropWhile_isGap {t : List Char} (h : Narrow t) : t.dropWhile isGap = afterSpace t := by
  induction t with
  | nil => rfl
  | cons c t ih =>
      rw [afterSpace, List.dropWhile_cons, List.dropWhile_cons, isGap_eq (h c List.mem_cons_self),
        ih h.tail, afterSpace]

namespace Cursor

/-- A line break is passed, and no more than gaps. -/
lemma dropWhile_lineBreak {c : Cursor} {x : Char} {t : List Char} (h : c.rest = x :: t)
    (hx : isBreak x = true) :
    c.lineBreak.2.rest.dropWhile isGap = t.dropWhile isGap
      ∧ c.lineBreak.2.rest <:+ t := by
  rw [lineBreak.eq_def, h]
  split
  · rename_i heq
    cases heq
    refine ⟨?_, List.suffix_cons _ _⟩
    rw [List.dropWhile_cons_of_pos (by decide)]
  · rename_i heq
    cases heq
    rw [if_pos hx]
    exact ⟨rfl, List.suffix_rfl⟩
  · rename_i heq
    cases heq

lemma isAtMark_of_head {c : Cursor} {x y : Char} {t : List Char} (h : c.rest = y :: t)
    (hxy : y ≠ x) : c.isAtMark x = false := by
  simp [isAtMark, h, hxy]

lemma isAtMark_of_next {c : Cursor} {x y z : Char} {t : List Char} (h : c.rest = y :: z :: t)
    (hxz : z ≠ x) : c.isAtMark x = false := by
  simp [isAtMark, h, hxz]

end Cursor

namespace Gap

/-- Gaps are passed as far as they go. -/
lemma read_ok {indent : Int} (hindent : indent ≤ 0) {fuel : Nat} (gap : Gap) (c : Cursor)
    (hfuel : c.rest.length ≤ fuel) :
    ∃ gap' c', read indent fuel gap c = .ok (gap', c') ∧ c'.rest = c.rest.dropWhile isGap := by
  induction fuel generalizing gap c with
  | zero =>
      have hrest : c.rest = [] := List.length_eq_zero_iff.mp (by omega)
      refine ⟨gap, c, rfl, ?_⟩
      rw [hrest]
      rfl
  | succ fuel ih =>
      rw [read.eq_def]
      dsimp only
      cases hrest : c.rest with
      | nil => exact ⟨gap, c, rfl, hrest⟩
      | cons x t =>
          dsimp only
          rw [hrest, List.length_cons] at hfuel
          have hskip : (c.skip 1).rest = t := by rw [Cursor.skip, hrest]; rfl
          have hnext : ∀ gap, ∃ gap' c', read indent fuel gap (c.skip 1) = .ok (gap', c')
              ∧ c'.rest = t.dropWhile isGap := by
            intro gap
            have h := ih gap (c.skip 1) (by rw [hskip]; omega)
            rwa [hskip] at h
          by_cases hblank : isBlankChar x = true
          · have hgap : isGap x = true := by rw [isGap, hblank, Bool.true_or]
            rw [if_pos hblank, List.dropWhile_cons_of_pos hgap]
            cases gap with
            | blanks text => exact hnext _
            | breaks first others =>
                dsimp only
                rw [if_neg (by omega)]
                exact hnext _
          rw [if_neg hblank]
          by_cases hbreak : isBreak x = true
          · have hgap : isGap x = true := by rw [isGap, hbreak, Bool.or_true]
            rw [if_pos hbreak, List.dropWhile_cons_of_pos hgap]
            obtain ⟨hdrop, hsuffix⟩ := Cursor.dropWhile_lineBreak hrest hbreak
            have hlength := hsuffix.length_le
            have hlines : ∀ gap, ∃ gap' c', read indent fuel gap c.lineBreak.2 = .ok (gap', c')
                ∧ c'.rest = t.dropWhile isGap := by
              intro gap
              have h := ih gap c.lineBreak.2 (by omega)
              rwa [hdrop] at h
            cases gap with
            | blanks text => exact hlines _
            | breaks first others => exact hlines _
          · rw [if_neg hbreak]
            refine ⟨gap, c, rfl, ?_⟩
            rw [List.dropWhile_cons_of_neg (by rw [isGap]; simp [hblank, hbreak]), hrest]

/-- Blanks that are not followed by another gap are kept as they are. -/
lemma read_blanks (indent : Int) {spaces : List Char} (hspaces : ∀ x ∈ spaces, isBlankChar x = true)
    {fuel : Nat} (text : List Char) {c : Cursor} {y : Char} {t : List Char}
    (hrest : c.rest = spaces ++ y :: t) (hy : isGap y = false) (hfuel : c.rest.length ≤ fuel) :
    ∃ c', read indent fuel (.blanks text) c = .ok (.blanks (text ++ spaces), c')
      ∧ c'.rest = y :: t := by
  induction spaces generalizing fuel text c with
  | nil =>
      rw [isGap, Bool.or_eq_false_iff] at hy
      cases fuel with
      | zero =>
          rw [hrest] at hfuel
          simp at hfuel
      | succ fuel =>
          refine ⟨c, ?_, hrest⟩
          rw [read.eq_def]
          dsimp only
          rw [hrest]
          simp [hy.1, hy.2]
  | cons x spaces ih =>
      cases fuel with
      | zero =>
          rw [hrest] at hfuel
          simp at hfuel
      | succ fuel =>
          have hskip : (c.skip 1).rest = spaces ++ y :: t := by rw [Cursor.skip, hrest]; rfl
          have hlength : (c.skip 1).rest.length ≤ fuel := by
            rw [hrest] at hfuel
            rw [hskip]
            simpa using hfuel
          obtain ⟨c', hread, hc'⟩ := ih (fun z hz => hspaces z (List.mem_cons_of_mem x hz))
            (text ++ [x]) hskip hlength
          refine ⟨c', ?_, hc'⟩
          rw [read.eq_def]
          dsimp only
          rw [hrest, List.cons_append]
          dsimp only
          rw [if_pos (hspaces x List.mem_cons_self), hread, List.append_assoc]
          rfl

end Gap

/-! ### Plain scalars -/

/-- The characters of the words and numerals of JSON. -/
def isBareChar (c : Char) : Bool := c.isAlphanum || ['-', '+', '.'].contains c

/-- The words and numerals of JSON: a sign, or none, then a letter or digit, then more of
them. -/
structure Bare (text : List Char) : Prop where
  head : ∃ negative c rest, text = signText negative ++ c :: rest ∧ c.isAlphanum = true
  chars : ∀ c ∈ text, isBareChar c = true

lemma toNat_lt_of_isBareChar {c : Char} (h : isBareChar c = true) : c.toNat < 0x80 := by
  rw [isBareChar, Bool.or_eq_true] at h
  rcases h with h | h
  · delta Char.isAlphanum Char.isAlpha Char.isUpper Char.isLower Char.isDigit at h
    simp only [Bool.or_eq_true, Bool.and_eq_true, decide_eq_true_eq, ge_iff_le,
      UInt32.le_iff_toNat_le] at h
    have hval : c.toNat = c.val.toNat := rfl
    simp at h
    omega
  · simp only [List.contains_eq_mem, decide_eq_true_eq, List.mem_cons, List.not_mem_nil,
      or_false] at h
    rcases h with rfl | rfl | rfl
    all_goals decide

/-- No such character ends a plain scalar. -/
lemma not_end_of_isBareChar {c : Char} (h : isBareChar c = true) :
    isGap c = false ∧ c ≠ ':' ∧ isFlowIndicator c = false := by
  have hall : ∀ n < 0x80, isBareChar (Char.ofNat n) = true →
      isGap (Char.ofNat n) = false ∧ Char.ofNat n ≠ ':' ∧ isFlowIndicator (Char.ofNat n) = false := by
    decide
  have hc := hall c.toNat (toNat_lt_of_isBareChar h)
  rw [Char.ofNat_toNat] at hc
  exact hc h

lemma Bare.of_word {text : List Char} {v : Json} (h : Word text v) : Bare text := by
  cases h with
  | null => exact ⟨⟨false, 'n', _, rfl, by decide⟩, by simp [isBareChar]⟩
  | true => exact ⟨⟨false, 't', _, rfl, by decide⟩, by simp [isBareChar]⟩
  | false => exact ⟨⟨false, 'f', _, rfl, by decide⟩, by simp [isBareChar]⟩

lemma Bare.of_numeral {text : List Char} {n : Number} (h : Numeral text n) : Bare text where
  head := by
    obtain ⟨negative, c, rest, htext, hc⟩ := h.head
    exact ⟨negative, c, rest, htext, by rw [Char.isAlphanum, hc, Bool.or_true]⟩
  chars := by
    intro c hc
    have hchar := h.chars c hc
    rw [isNumeralChar, Bool.or_eq_true] at hchar
    rw [isBareChar, Bool.or_eq_true, Char.isAlphanum, Bool.or_eq_true]
    rcases hchar with hdigit | hmark
    · exact .inl (.inr hdigit)
    · simp only [List.contains_eq_mem, decide_eq_true_eq, List.mem_cons, List.not_mem_nil,
        or_false] at hmark
      rcases hmark with rfl | rfl | rfl | rfl | rfl
      all_goals decide

/-- What may stand behind a value: blanks, then the end of the text or, inside of a
collection, a mark of it. -/
def Delimited (inFlow : Bool) (t : List Char) : Prop :=
  afterSpace t = [] ∨ inFlow = true ∧ ∃ x u, afterSpace t = x :: u ∧ (x = ',' ∨ x = ']' ∨ x = '\x7d')

namespace Delimited

variable {inFlow : Bool} {t : List Char}

/-- Such a text ends a plain scalar. -/
lemma head (h : Delimited inFlow t) :
    t = [] ∨ ∃ x u, t = x :: u ∧ (isGap x = true ∨ inFlow = true ∧ x ≠ ':' ∧ isFlowIndicator x) := by
  cases t with
  | nil => exact .inl rfl
  | cons x u =>
      refine .inr ⟨x, u, rfl, ?_⟩
      by_cases hspace : isSpaceChar x = true
      · left
        simp only [isSpaceChar, Bool.or_eq_true, decide_eq_true_eq] at hspace
        rcases hspace with ((rfl | rfl) | rfl) | rfl
        all_goals decide
      · right
        rw [Delimited, afterSpace, List.dropWhile_cons_of_neg hspace] at h
        rcases h with h | ⟨hflow, y, w, hcons, hy⟩
        · cases h
        · cases hcons
          refine ⟨hflow, ?_⟩
          rcases hy with rfl | rfl | rfl
          all_goals decide

lemma afterSpace (h : Delimited inFlow t) : Delimited inFlow (Json.afterSpace t) := by
  rwa [Delimited, afterSpace_afterSpace]

end Delimited

/-- A word or numeral is taken up to its end. -/
lemma plainWord_ok {inFlow : Bool} {text t : List Char} (htext : ∀ x ∈ text, isBareChar x = true)
    (ht : Delimited inFlow t) {fuel : Nat} {c : Cursor} (hrest : c.rest = text ++ t)
    (hfuel : text.length ≤ fuel) :
    ∃ c', plainWord inFlow fuel c = .ok (text, c') ∧ c'.rest = t := by
  induction text generalizing fuel c with
  | nil =>
      refine ⟨c, ?_, hrest⟩
      cases fuel with
      | zero => rfl
      | succ fuel =>
          rw [plainWord.eq_def]
          dsimp only
          rw [hrest, List.nil_append]
          rcases ht.head with rfl | ⟨x, u, rfl, hgap | ⟨rfl, hcolon, hmark⟩⟩
          · rfl
          · dsimp only
            rw [if_pos hgap]
          · dsimp only
            split_ifs with hgap hbad hend
            · rfl
            · simp [hcolon] at hbad
            · rfl
            · simp [hmark] at hend
  | cons x text ih =>
      obtain ⟨hgap, hcolon, hmark⟩ := not_end_of_isBareChar (htext x List.mem_cons_self)
      cases fuel with
      | zero => simp at hfuel
      | succ fuel =>
          have hskip : (c.skip 1).rest = text ++ t := by rw [Cursor.skip, hrest]; rfl
          have hlength : text.length ≤ fuel := by simpa using hfuel
          obtain ⟨c', hword, hc'⟩ := ih (fun y hy => htext y (List.mem_cons_of_mem x hy)) hskip hlength
          refine ⟨c', ?_, hc'⟩
          rw [plainWord.eq_def]
          dsimp only
          rw [hrest, List.cons_append]
          simp [hgap, hcolon, hmark, hword, Except.map]

namespace Bare

variable {text t : List Char} {c : Cursor}

/-- A word or numeral is no mark of a document. -/
lemma not_mark (h : Bare text) (hrest : c.rest = text ++ t) :
    c.isAtMark '-' = false ∧ c.isAtMark '.' = false := by
  obtain ⟨negative, x, more, rfl, hx⟩ := h.head
  have hdash : x ≠ '-' := by
    rintro rfl
    cases hx
  have hdot : x ≠ '.' := by
    rintro rfl
    cases hx
  cases negative with
  | false => exact ⟨Cursor.isAtMark_of_head hrest hdash, Cursor.isAtMark_of_head hrest hdot⟩
  | true => exact ⟨Cursor.isAtMark_of_next hrest hdash, Cursor.isAtMark_of_next hrest hdot⟩

lemma nonempty (h : Bare text) : text ≠ [] := by
  obtain ⟨negative, x, more, rfl, -⟩ := h.head
  simp

lemma not_comment (h : Bare text) (hrest : c.rest = text ++ t) : c.isAt '#' = false := by
  cases text with
  | nil => exact absurd rfl h.nonempty
  | cons x text =>
      have hx : x ≠ '#' := by
        rintro rfl
        exact absurd (h.chars '#' List.mem_cons_self) (by decide)
      simp [Cursor.isAt, hrest, hx]

end Bare

section

variable {inFlow : Bool} {indent : Int} {fuel : Nat} {gap : Gap} {c c₁ : Cursor} {word : List Char}

/-- The last word of a plain scalar. -/
lemma plainWords_last (hmark : (c.isAtDocumentMark || c.isAt '#') = false)
    (hword : plainWord inFlow c.rest.length c = .ok (word, c₁))
    (hend : c₁.endsOr 0 (!isGap ·) = true) :
    plainWords inFlow indent (fuel + 1) gap c
      = .ok (if word.isEmpty then [] else gap.fold ++ word,
          (if word.isEmpty then gap else .blanks []).hasBreak, c₁) := by
  rw [plainWords, hmark, hword]
  change (if c₁.endsOr 0 (!isGap ·) = true then _ else _) = _
  rw [if_pos hend]
  rfl

/-- A word of a plain scalar, and those behind it. -/
lemma plainWords_more (hmark : (c.isAtDocumentMark || c.isAt '#') = false)
    (hword : plainWord inFlow c.rest.length c = .ok (word, c₁)) (hne : word ≠ [])
    (hend : c₁.endsOr 0 (!isGap ·) = false) {gap' : Gap} {c₂ c₃ : Cursor}
    (hgap : Gap.read indent c₁.rest.length (.blanks []) c₁ = .ok (gap', c₂))
    (hindent : indent ≤ 0) {others : List Char} {broken : Bool}
    (hothers : plainWords inFlow indent fuel gap' c₂ = .ok (others, broken, c₃)) :
    plainWords inFlow indent (fuel + 1) gap c = .ok (gap.fold ++ word ++ others, broken, c₃) := by
  have hempty : word.isEmpty = false := by simpa using hne
  have hcolumn : (!inFlow && decide ((c₂.column : Int) < indent)) = false := by
    rw [decide_eq_false (by omega), Bool.and_false]
  rw [plainWords, hmark, hword]
  change (if c₁.endsOr 0 (!isGap ·) = true then _ else _) = _
  rw [hend, if_neg Bool.false_ne_true]
  simp only [hempty, Bool.false_eq_true, if_false, hgap]
  change (if (!inFlow && decide ((c₂.column : Int) < indent)) = true then _ else _) = _
  rw [hcolumn, if_neg Bool.false_ne_true, hothers]
  rfl

end

/-- No word follows where a value has ended. -/
lemma plainWords_end {inFlow : Bool} {indent : Int} {fuel : Nat} {gap : Gap} {c : Cursor}
    (hend : Delimited inFlow c.rest) (hspace : afterSpace c.rest = c.rest) :
    plainWords inFlow indent fuel gap c = .ok ([], gap.hasBreak, c) := by
  rw [Delimited, hspace] at hend
  have hc : (c.isAtDocumentMark || c.isAt '#') = false ∧ c.endsOr 0 (!isGap ·) = true
      ∧ plainWord inFlow c.rest.length c = .ok ([], c) := by
    rcases hend with hrest | ⟨rfl, x, u, hrest, rfl | rfl | rfl⟩
    all_goals
      simp [Cursor.isAtDocumentMark, Cursor.isAtMark, Cursor.isAt, Cursor.endsOr, Cursor.ahead,
        hrest, plainWord, isGap, isBlankChar, isBreak, isFlowIndicator]
  cases fuel with
  | zero => rfl
  | succ fuel => exact plainWords_last hc.1 hc.2.2 hc.2.1

/-- Words and numerals are plain scalars up to the blanks behind them. -/
lemma readPlain_ok {inFlow : Bool} {text t : List Char} (htext : Bare text)
    (ht : Delimited inFlow t) (hnarrow : Narrow t) {c : Cursor} (hrest : c.rest = text ++ t) :
    ∃ broken c', readPlain inFlow (-1) c = .ok (text, broken, c')
      ∧ (c'.rest = t ∨ c'.rest = afterSpace t) := by
  obtain ⟨hdash, hdot⟩ := htext.not_mark hrest
  have hmark : (c.isAtDocumentMark || c.isAt '#') = false := by
    rw [Cursor.isAtDocumentMark, hdash, hdot, htext.not_comment hrest]
    rfl
  have hlength : text.length ≤ c.rest.length := by
    rw [hrest, List.length_append]
    omega
  obtain ⟨c₁, hword, rfl⟩ := plainWord_ok htext.chars ht hrest hlength
  by_cases hend : c₁.endsOr 0 (!isGap ·) = true
  · have hempty : text.isEmpty = false := by simpa using htext.nonempty
    refine ⟨false, c₁, ?_, .inl rfl⟩
    rw [readPlain, plainWords_last hmark hword hend, hempty]
    rfl
  · obtain ⟨gap, c₂, hgap, hc₂⟩ := Gap.read_ok (le_refl 0) (.blanks []) c₁ le_rfl
    rw [hnarrow.dropWhile_isGap] at hc₂
    have hothers : plainWords inFlow 0 c.rest.length gap c₂ = .ok ([], gap.hasBreak, c₂) := by
      refine plainWords_end ?_ ?_
      · rw [hc₂]
        exact ht.afterSpace
      · rw [hc₂, afterSpace_afterSpace]
    refine ⟨gap.hasBreak, c₂, ?_, .inr hc₂⟩
    have hmore : plainWords inFlow 0 (c.rest.length + 1) (.blanks []) c
        = .ok (text ++ [], gap.hasBreak, c₂) :=
      plainWords_more hmark hword htext.nonempty (Bool.not_eq_true _ ▸ hend) hgap le_rfl hothers
    rwa [List.append_nil] at hmore

/-! ### Quoted scalars -/

lemma escape?_of_shortEscape? {x c : Char} (h : shortEscape? x = some c) :
    escape? x = some (.char c) ∧ isBreak x = false := by
  rw [shortEscape?.eq_def] at h
  split at h
  all_goals
    cases h
    try exact ⟨rfl, by decide⟩

section

variable {fuel : Nat} {c : Cursor} {x : Char} {t : List Char}

/-- A gap or the closing quote ends a word. -/
lemma quotedWord_end (hrest : c.rest = x :: t) (hx : isGap x = true ∨ x = '"') :
    quotedWord false fuel c = .ok ([], false, c) := by
  cases fuel with
  | zero => rfl
  | succ fuel =>
      rw [quotedWord.eq_def]
      dsimp only
      rw [hrest]
      dsimp only
      by_cases hgap : isGap x = true
      · rw [if_pos hgap]
      · rw [if_neg hgap, if_neg Bool.false_ne_true, if_pos (hx.resolve_left hgap)]

/-- A character that stands for itself. -/
lemma quotedWord_char (hrest : c.rest = x :: t) (hgap : isGap x = false)
    (hx : isPlainChar x = true) :
    quotedWord false (fuel + 1) c
      = (quotedWord false fuel (c.skip 1)).map fun r => (x :: r.1, r.2.1, r.2.2) := by
  simp only [isPlainChar, Bool.and_eq_true, decide_eq_true_eq] at hx
  rw [quotedWord.eq_def]
  dsimp only
  rw [hrest]
  dsimp only
  rw [hgap, if_neg Bool.false_ne_true, if_neg Bool.false_ne_true, if_neg hx.1.1, if_neg hx.1.2]

/-- An escaped character. -/
lemma quotedWord_escape (hrest : c.rest = '\\' :: x :: t) (hx : isBreak x = false) :
    quotedWord false (fuel + 1) c
      = (readEscape c).bind fun y =>
          (quotedWord false fuel y.2).map fun r => (y.1 :: r.1, r.2.1, r.2.2) := by
  have hahead : (c.ahead 1).any isBreak = false := by
    simp [Cursor.ahead, hrest, hx]
  rw [quotedWord.eq_def]
  dsimp only
  rw [hrest]
  dsimp only
  rw [if_neg (by decide), if_neg Bool.false_ne_true, if_neg (by decide), if_pos rfl, hahead,
    if_neg Bool.false_ne_true]
  cases readEscape c with
  | error fault => rfl
  | ok y => rfl

end

section

variable {c : Cursor} {x : Char} {digits t : List Char} {n : Nat}

lemma readEscape_short {y : Char} (hrest : c.rest = '\\' :: x :: t)
    (hx : shortEscape? x = some y) : readEscape c = .ok (y, c.skip 2) := by
  have hahead : c.ahead 1 = some x := by rw [Cursor.ahead, hrest]; rfl
  rw [readEscape, hahead, Option.bind_some, (escape?_of_shortEscape? hx).1]

lemma readEscape_unicode (hrest : c.rest = '\\' :: 'u' :: (digits ++ t)) (hdigits : digits.length = 4)
    (hn : natural? 16 digits = some n) :
    readEscape c = if (0xD800 ≤ n ∧ n ≤ 0xDFFF) ∨ 0x10FFFF < n then .error .scalar
      else .ok (Char.ofNat n, c.skip 6) := by
  have hahead : c.ahead 1 = some 'u' := by rw [Cursor.ahead, hrest]; rfl
  have hnumber : hexNumber? 4 (c.rest.drop 2) = some n := by
    rw [hrest, List.drop_succ_cons, List.drop_succ_cons, List.drop_zero, hexNumber?,
      if_pos (by rw [List.length_append]; omega), List.take_left' hdigits, hn]
  have hescape : escape? 'u' = some (.digits 4) := rfl
  rw [readEscape, hahead, Option.bind_some, hescape]
  dsimp only
  rw [hnumber]

end

/-- The blanks of a string are spaces. -/
lemma eq_space_of_quoted {x : Char} {t cs rest : List Char} (h : Quoted (x :: t) cs rest)
    (hnarrow : Narrow (x :: t)) (hgap : isGap x = true) :
    x = ' ' ∧ ∃ cs', cs = ' ' :: cs' ∧ Quoted t cs' rest := by
  cases h with
  | char hx more =>
      have hspace : x = ' ' := by
        rw [isGap_eq (hnarrow x List.mem_cons_self)] at hgap
        simp only [isSpaceChar, Bool.or_eq_true, decide_eq_true_eq] at hgap
        rcases hgap with ((rfl | rfl) | rfl) | rfl
        · rfl
        all_goals cases hx
      subst hspace
      exact ⟨rfl, _, rfl, more⟩
  | close => cases hgap
  | escape hx more => cases hgap
  | unicode hdigits hn hscalar more => cases hgap
  | pair hhigh hn hlead hlow hm htrail more => cases hgap

lemma close_of_quoted {t cs rest : List Char} (h : Quoted ('"' :: t) cs rest) :
    cs = [] ∧ rest = t := by
  cases h with
  | close => exact ⟨rfl, rfl⟩
  | char hx more => cases hx

/-- A word of a string that JSON reads is a part of its text. -/
lemma quotedWord_ok {fuel : Nat} {c c' : Cursor} {cs rest word : List Char} {broken : Bool}
    (hquoted : Quoted c.rest cs rest) (hnarrow : Narrow c.rest) (hfuel : c.rest.length ≤ fuel)
    (h : quotedWord false fuel c = .ok (word, broken, c')) :
    broken = false ∧ c'.rest <:+ c.rest ∧ ∃ others, cs = word ++ others
      ∧ Quoted c'.rest others rest
      ∧ (c'.rest = '"' :: rest ∨ ∃ u, c'.rest = ' ' :: u) := by
  induction fuel generalizing c cs word with
  | zero =>
      rw [List.length_eq_zero_iff.mp (Nat.le_zero.mp hfuel)] at hquoted
      cases hquoted
  | succ fuel ih =>
      -- a character is passed, and the rest of the word follows
      have hnext : ∀ (n : Nat) (y : Char) (cs' : List Char), 0 < n → c.rest ≠ [] → cs = y :: cs' →
          Quoted (c.rest.drop n) cs' rest →
          (quotedWord false fuel (c.skip n)).map (fun r => (y :: r.1, r.2.1, r.2.2))
            = .ok (word, broken, c') →
          broken = false ∧ c'.rest <:+ c.rest ∧ ∃ others, cs = word ++ others
            ∧ Quoted c'.rest others rest ∧ (c'.rest = '"' :: rest ∨ ∃ u, c'.rest = ' ' :: u) := by
        intro n y cs' hn hne hcs hmore hmap
        obtain ⟨⟨word', broken', c''⟩, hword, heq⟩ := exists_of_map_eq_ok hmap
        cases heq
        have hlength : 0 < c.rest.length := List.length_pos_iff.mpr hne
        obtain ⟨hbroken, hsuffix, others, rfl, hothers, hstop⟩ := ih (c := c.skip n) hmore
          (hnarrow.suffix (List.drop_suffix n c.rest))
          (by rw [Cursor.skip, List.length_drop]; omega) hword
        exact ⟨hbroken, hsuffix.trans (List.drop_suffix n c.rest), others, by rw [hcs]; rfl,
          hothers, hstop⟩
      generalize hrest : c.rest = t at hquoted hnarrow
      cases hquoted with
      | close =>
          rw [quotedWord_end hrest (.inr rfl)] at h
          cases h
          exact ⟨rfl, hrest ▸ List.suffix_rfl, [], rfl, hrest ▸ .close, .inl hrest⟩
      | @char x t cs' _ hc more =>
          by_cases hgap : isGap x = true
          · rw [quotedWord_end hrest (.inl hgap)] at h
            cases h
            obtain ⟨rfl, -⟩ := eq_space_of_quoted (.char hc more) hnarrow hgap
            exact ⟨rfl, hrest ▸ List.suffix_rfl, _, rfl, hrest ▸ .char hc more, .inr ⟨t, hrest⟩⟩
          · rw [quotedWord_char hrest (Bool.not_eq_true _ ▸ hgap) hc] at h
            rw [← hrest]
            exact hnext 1 x cs' one_pos (by simp [hrest]) rfl (hrest ▸ more) h
      | @escape x y t cs' _ hx more =>
          rw [quotedWord_escape hrest (escape?_of_shortEscape? hx).2, readEscape_short hrest hx] at h
          rw [← hrest]
          exact hnext 2 y cs' two_pos (by simp [hrest]) rfl (hrest ▸ more) h
      | @unicode digits t cs' _ n hdigits hn hscalar more =>
          rw [quotedWord_escape hrest (by decide), readEscape_unicode hrest hdigits hn] at h
          split_ifs at h with hrange
          · cases h
          · have hdrop : c.rest.drop 6 = t := by
              rw [hrest, List.drop_succ_cons, List.drop_succ_cons, ← hdigits, List.drop_left]
            rw [← hrest]
            exact hnext 6 _ cs' (by omega) (by simp [hrest]) rfl (hdrop ▸ more) h
      | pair hhigh hn hlead hlow hm htrail more =>
          rw [quotedWord_escape hrest (by decide), readEscape_unicode hrest hhigh hn,
            if_pos (.inl (by omega))] at h
          cases h

/-- Behind the spaces of a string a word begins, or it ends. -/
lemma exists_spaces {t cs rest : List Char} (h : Quoted t cs rest) (hnarrow : Narrow t) :
    ∃ spaces y u cs', t = spaces ++ y :: u ∧ cs = spaces ++ cs' ∧ Quoted (y :: u) cs' rest
      ∧ (∀ x ∈ spaces, x = ' ') ∧ isGap y = false := by
  induction t generalizing cs with
  | nil => cases h
  | cons x t ih =>
      by_cases hgap : isGap x = true
      · obtain ⟨rfl, cs', rfl, hmore⟩ := eq_space_of_quoted h hnarrow hgap
        obtain ⟨spaces, y, u, cs'', rfl, rfl, hquoted, hspaces, hy⟩ := ih hmore hnarrow.tail
        refine ⟨' ' :: spaces, y, u, cs'', rfl, rfl, hquoted, ?_, hy⟩
        intro z hz
        rcases List.mem_cons.mp hz with rfl | hz
        · rfl
        · exact hspaces z hz
      · exact ⟨[], x, t, cs, rfl, rfl, h, by simp, Bool.not_eq_true _ ▸ hgap⟩

lemma quotedWords_ok {fuel : Nat} {c c' : Cursor} {cs rest text : List Char}
    (hquoted : Quoted c.rest cs rest) (hnarrow : Narrow c.rest)
    (h : quotedWords false fuel c = .ok (text, c')) : text = cs ∧ c'.rest = rest := by
  induction fuel generalizing c cs text with
  | zero => cases h
  | succ fuel ih =>
      rw [quotedWords] at h
      by_cases hmark : (c.isAtDocumentMark || c.rest.isEmpty) = true
      · rw [if_pos hmark] at h
        cases h
      rw [if_neg hmark] at h
      obtain ⟨⟨word, broken, c₁⟩, hword, h⟩ := exists_of_andThen_eq_ok h
      obtain ⟨rfl, hsuffix, others, rfl, hothers, hstop⟩ :=
        quotedWord_ok hquoted hnarrow le_rfl hword
      change (if c₁.isAt '"' = true then _ else _) = _ at h
      rcases hstop with hclose | ⟨t, hspace⟩
      · rw [if_pos (by simp [Cursor.isAt, hclose])] at h
        cases h
        rw [hclose] at hothers
        obtain ⟨rfl, -⟩ := close_of_quoted hothers
        refine ⟨(List.append_nil _).symm, ?_⟩
        rw [Cursor.skip, hclose]
        rfl
      · rw [if_neg (by simp [Cursor.isAt, hspace])] at h
        have hnarrow₁ := hnarrow.suffix hsuffix
        obtain ⟨spaces, y, u, cs', hrest, rfl, hmore, hspaces, hy⟩ :=
          exists_spaces hothers hnarrow₁
        obtain ⟨c₂, hgap, hc₂⟩ := Gap.read_blanks 0
          (fun x hx => by rw [hspaces x hx]; decide) [] hrest hy le_rfl
        rw [if_neg Bool.false_ne_true, hgap] at h
        change (quotedWords false fuel c₂ >>= _) = _ at h
        obtain ⟨⟨others, c₃⟩, hwords, hdone⟩ := exists_of_andThen_eq_ok h
        cases hdone
        rw [hrest] at hnarrow₁
        obtain ⟨rfl, rfl⟩ := ih (hc₂ ▸ hmore)
          (hc₂ ▸ hnarrow₁.suffix (List.suffix_append spaces (y :: u))) hwords
        exact ⟨List.append_assoc word spaces others, rfl⟩

/-- YAML reads the strings of JSON as JSON does, if it reads them. -/
theorem readQuoted_ok {c c' : Cursor} {t cs rest text : List Char} (hrest : c.rest = '"' :: t)
    (hquoted : Quoted t cs rest) (hnarrow : Narrow t)
    (h : readQuoted false c = .ok (text, c')) : text = cs ∧ c'.rest = rest := by
  have hskip : (c.skip 1).rest = t := by rw [Cursor.skip, hrest]; rfl
  exact quotedWords_ok (hskip ▸ hquoted) (hskip ▸ hnarrow) h

end SchemaTypes.Yaml
