import SchemaTypes.Proofs.YamlLayout

/-!
The tokens of JSON texts in YAML.

* `Layout.Moves`: from one place to another some tokens are taken;
* `Layout.Runs.opening` and its siblings: the steps over the marks, words and
  strings of JSON;
* `Yaml.TokensOf`: the tokens of a value; the indicator of a key is missing
  where the key is too long;
* `Yaml.tokensOf_of_spells`: the tokens of a JSON text are those of its value.
-/

namespace SchemaTypes.Yaml

open Json

namespace Layout

/-! ### What tokens do -/

/-- From one place to another some tokens are taken, up to blanks in front of a text. -/
structure Moves (s s' : Layout) (new : List Token) (rest : List Char) : Prop where
  flat : Flat s'
  tokens : s'.tokens.toList = s.tokens.toList ++ new
  rest : afterSpace s'.cursor.rest = afterSpace rest

namespace Moves

variable {s s' s'' p : Layout} {new others : List Token} {rest rest' : List Char}

lemma trans (h : Moves s s' new rest) (h' : Moves s' s'' others rest') :
    Moves s s'' (new ++ others) rest' where
  flat := h'.flat
  tokens := by rw [h'.tokens, h.tokens, List.append_assoc]
  rest := h'.rest

lemma of_readied (hready : Readied s p) (h : Moves p s' new rest) : Moves s s' new rest where
  flat := h.flat
  tokens := by rw [h.tokens, hready.tokens]
  rest := h.rest

end Moves

namespace Flat

variable {s : Layout} {x : Char} {u : List Char}

lemma rest_skip (hrest : s.cursor.rest = x :: u) : (s.cursor.skip 1).rest = u := by
  rw [Cursor.skip, hrest]
  rfl

lemma narrow_skip (h : Flat s) (hrest : s.cursor.rest = x :: u) : Narrow (s.cursor.skip 1).rest := by
  rw [rest_skip hrest]
  exact h.narrow.suffix (hrest ▸ List.suffix_cons x u)

/-- The places of keys are known after one is noted. -/
lemma exists_noteKey (h : Flat s) :
    ∃ keys, s.noteKey = .ok { s with keys } ∧ Flat { s with keys }
      ∧ (s.keyAllowed = true → keys.head? = some (some (place s))) := by
  rw [h.noteKey]
  split_ifs with hallowed
  · refine ⟨_, rfl, h.replace _ ?_, fun _ => rfl⟩
    rintro key ⟨⟩
    rfl
  · exact ⟨s.keys, rfl, h, fun hallowed' => absurd hallowed' hallowed⟩

/-- A collection begins. -/
lemma openFlow (h : Flat s) (hrest : s.cursor.rest = x :: u) (token : Token) :
    ∃ s', s.openFlow token = .ok s' ∧ Moves s s' [token] u ∧ s'.cursor.rest = u
      ∧ s'.depth = s.depth + 1 ∧ s'.keyAllowed = true := by
  obtain ⟨keys, hnote, hflat, -⟩ := h.exists_noteKey
  refine ⟨{ s with
    cursor := s.cursor.skip 1, tokens := s.tokens.push token, keyAllowed := true,
    keys := none :: keys, depth := s.depth + 1 }, ?_, ?_, rest_skip hrest, rfl, rfl⟩
  · rw [Layout.openFlow, hnote]
    rfl
  · -- one more level, on which no key has begun
    refine ⟨⟨h.narrow_skip hrest, h.indent, ?_, ?_⟩, by simp, by rw [rest_skip hrest]⟩
    · rw [List.length_cons, hflat.keys]
    · intro key hkey
      rcases List.mem_cons.mp hkey with rfl | hkey
      · rintro place ⟨⟩
      · exact hflat.loose key hkey

/-- A collection ends. -/
lemma closeFlow (h : Flat s) (hrest : s.cursor.rest = x :: u) {depth : Nat}
    (hdepth : s.depth = depth + 1) (token : Token) :
    ∃ s', s.closeFlow token = .ok s' ∧ Moves s s' [token] u ∧ s'.cursor.rest = u
      ∧ s'.depth = depth := by
  refine ⟨{ s with
    cursor := s.cursor.skip 1, tokens := s.tokens.push token, keyAllowed := false,
    keys := s.keys.tail, depth := s.depth - 1 }, ?_, ?_, rest_skip hrest, by simp [hdepth]⟩
  · rw [Layout.closeFlow, h.dropKey, ok_bind]
    dsimp only
    rw [if_pos (by simp [inFlow, indicator, push, hdepth])]
    rfl
  · -- the level and its key are gone
    refine ⟨⟨h.narrow_skip hrest, h.indent, ?_, ?_⟩, by simp, by rw [rest_skip hrest]⟩
    · rw [List.length_tail, h.keys, hdepth]
      rfl
    · intro key hkey
      exact h.loose key (List.mem_of_mem_tail hkey)

/-- An entry ends. -/
lemma entry (h : Flat s) (hrest : s.cursor.rest = ',' :: u) :
    ∃ s', s.token ',' = .ok s' ∧ Moves s s' [.flowEntry] u ∧ s'.cursor.rest = u
      ∧ s'.depth = s.depth ∧ s'.keyAllowed = true := by
  refine ⟨{ s with
    cursor := s.cursor.skip 1, tokens := s.tokens.push .flowEntry, keyAllowed := true,
    keys := none :: s.keys.tail }, ?_, ?_, rest_skip hrest, rfl, rfl⟩
  · rw [token_entry hrest, h.dropKey]
    rfl
  · have hflat := h.replace none (by rintro place ⟨⟩)
    exact ⟨⟨h.narrow_skip hrest, h.indent, hflat.keys, hflat.loose⟩, by simp,
      by rw [rest_skip hrest]⟩

/-- A string. If a key may begin here, its place is that of the string. -/
lemma quoted (h : Flat s) {t cs rest : List Char} (hrest : s.cursor.rest = '"' :: t)
    (hquoted : Quoted t cs rest) {s' : Layout} (htoken : s.token '"' = .ok s') :
    Moves s s' [.scalar false cs] rest ∧ s'.cursor.rest = rest ∧ s'.depth = s.depth
      ∧ (s.keyAllowed = true → s'.keys.head? = some (some (place s))) := by
  obtain ⟨keys, hnote, hflat, hkeys⟩ := h.exists_noteKey
  rw [token_quoted hrest, Layout.quoted, word, hnote, ok_bind] at htoken
  obtain ⟨answer, hscalar, hdone⟩ := exists_of_andThen_eq_ok htoken
  obtain ⟨⟨text, c⟩, hread, rfl⟩ := exists_of_map_eq_ok hscalar
  cases hdone
  -- the scalar is read up to the quote at its end
  have hnarrow := h.narrow
  rw [hrest] at hnarrow
  obtain ⟨rfl, rfl⟩ := readQuoted_ok hrest hquoted hnarrow.tail hread
  refine ⟨⟨⟨?_, h.indent, hflat.keys, hflat.loose⟩, by simp [push], rfl⟩, rfl, rfl, hkeys⟩
  exact hnarrow.tail.suffix hquoted.suffix

/-- A word or numeral. -/
lemma plain (h : Flat s) {text t : List Char} (htext : Bare text) (hrest : s.cursor.rest = text ++ t)
    (ht : Delimited s.inFlow t) :
    ∃ s', s.plain = .ok s' ∧ Moves s s' [.scalar true text] t ∧ s'.cursor.rest <:+ t
      ∧ s'.depth = s.depth := by
  obtain ⟨keys, hnote, hflat, -⟩ := h.exists_noteKey
  have hnarrow : Narrow t := h.narrow.suffix (hrest ▸ List.suffix_append text t)
  obtain ⟨broken, c, hread, hc⟩ := readPlain_ok htext ht hnarrow hrest
  -- the cursor stands right behind the text, or behind the blanks there
  have hsuffix : c.rest <:+ t := by
    rcases hc with hc | hc
    · rw [hc]
    · rw [hc]
      exact List.dropWhile_suffix isSpaceChar
  have hspace : afterSpace c.rest = afterSpace t := by
    rcases hc with hc | hc
    · rw [hc]
    · rw [hc, afterSpace_afterSpace]
  refine ⟨{ s with
    keys, tokens := s.tokens.push (.scalar true text), cursor := c, keyAllowed := broken }, ?_,
    ⟨⟨hnarrow.suffix hsuffix, h.indent, hflat.keys, hflat.loose⟩, by simp, hspace⟩, hsuffix, rfl⟩
  rw [Layout.plain, hnote, ok_bind]
  change (readPlain s.inFlow s.indent s.cursor >>= _) = _
  rw [h.indent, hread]
  rfl

lemma openBlock_inFlow (h : s.inFlow = true) (column place : Nat) (token : Token) :
    s.openBlock column place token = s := by
  rw [openBlock, h, Bool.true_or, if_pos rfl]

/-- The mark of a value, and the key in front of it if it is still possible. -/
lemma value (h : Flat s) (hrest : s.cursor.rest = ':' :: u) (hflow : s.inFlow = true)
    {before : List Token} {last : Token} (htokens : s.tokens.toList = before ++ [last])
    (hkeys : s.keys.head? = some none
      ∨ ∃ place, s.keys.head? = some (some place) ∧ place.tokens = before.length) :
    ∃ s' key, s.token ':' = .ok s' ∧ Flat s' ∧ s'.cursor.rest = u ∧ s'.depth = s.depth
      ∧ s'.tokens.toList = before ++ (key ++ [last, .value]) ∧ (key = [] ∨ key = [.key]) := by
  obtain ⟨first, others, hs⟩ := h.exists_keys
  rw [token_value hrest hflow]
  rw [hs] at hkeys
  rcases hkeys with hnone | ⟨place, hsome, hplace⟩
  · -- the place of the key was given up: only the mark is taken
    cases hnone
    refine ⟨{ s with
      cursor := s.cursor.skip 1, tokens := s.tokens.push .value, keyAllowed := false }, [], ?_,
      ⟨h.narrow_skip hrest, h.indent, h.keys, h.loose⟩, rest_skip hrest, rfl, ?_, .inl rfl⟩
    · rw [Layout.value, hs]
      dsimp only
      rw [openBlock_inFlow hflow, hflow]
      simp only [Bool.not_true, Bool.false_and, Bool.false_eq_true, if_false]
      rw [← hs]
      rfl
    · simp [htokens]
  · -- the indicator of the key goes in front of the last token
    cases hsome
    have hflat := h.replace none (by rintro place ⟨⟩)
    rw [hs] at hflat
    refine ⟨{ s with
      cursor := s.cursor.skip 1
      tokens := (s.tokens.insertIdxIfInBounds place.tokens .key).push .value
      keyAllowed := false, keys := none :: others }, [.key], ?_,
      ⟨h.narrow_skip hrest, h.indent, hflat.keys, hflat.loose⟩, rest_skip hrest, rfl, ?_, .inr rfl⟩
    · rw [Layout.value, hs]
      dsimp only
      rw [openBlock_inFlow]
      · rfl
      · exact hflow
    · have hbefore : s.tokens = (before ++ [last]).toArray := by rw [← htokens, Array.toArray_toList]
      rw [Array.toList_push, hbefore, List.insertIdxIfInBounds_toArray, hplace, insertIdx_length]
      simp

end Flat

namespace Runs

variable {s : Layout} {tokens : Array Token} {x : Char} {t u w cs : List Char}

lemma inFlow_of_depth {depth : Nat} (h : s.depth = depth + 1) : s.inFlow = true := by
  rw [inFlow, h]
  exact decide_eq_true (Nat.succ_ne_zero depth)

/-- Into a collection. -/
lemma opening (h : Runs s tokens) (hs : Flat s) (hrest : afterSpace s.cursor.rest = x :: u)
    (hx : x ≠ '#') {token : Token}
    (htoken : ∀ p : Layout, p.cursor.rest = x :: u → p.token x = p.openFlow token) :
    ∃ s', Moves s s' [token] u ∧ s'.depth = s.depth + 1 ∧ s'.keyAllowed = true ∧ Runs s' tokens := by
  obtain ⟨p, s', hready, hp, hstep, hruns⟩ := h.step hs hrest hx
  obtain ⟨s'', hopen, hmoves, hrest', hdepth, hallowed⟩ := hready.flat.openFlow hp token
  rw [htoken p hp, hopen] at hstep
  cases hstep
  exact ⟨s', .of_readied hready hmoves, by rw [hdepth, hready.depth], hallowed,
    hruns (hrest' ▸ List.suffix_rfl)⟩

/-- Out of a collection. -/
lemma closing (h : Runs s tokens) (hs : Flat s) (hrest : afterSpace s.cursor.rest = x :: u)
    (hx : x ≠ '#') {depth : Nat} (hdepth : s.depth = depth + 1) {token : Token}
    (htoken : ∀ p : Layout, p.cursor.rest = x :: u → p.token x = p.closeFlow token) :
    ∃ s', Moves s s' [token] u ∧ s'.depth = depth ∧ Runs s' tokens := by
  obtain ⟨p, s', hready, hp, hstep, hruns⟩ := h.step hs hrest hx
  obtain ⟨s'', hclose, hmoves, hrest', hdepth'⟩ :=
    hready.flat.closeFlow hp (hready.depth.trans hdepth) token
  rw [htoken p hp, hclose] at hstep
  cases hstep
  exact ⟨s', .of_readied hready hmoves, hdepth', hruns (hrest' ▸ List.suffix_rfl)⟩

/-- Over a comma. -/
lemma comma (h : Runs s tokens) (hs : Flat s) (hrest : afterSpace s.cursor.rest = ',' :: u) :
    ∃ s', Moves s s' [.flowEntry] u ∧ s'.depth = s.depth ∧ s'.keyAllowed = true
      ∧ Runs s' tokens := by
  obtain ⟨p, s', hready, hp, hstep, hruns⟩ := h.step hs hrest (by decide)
  obtain ⟨s'', hentry, hmoves, hrest', hdepth, hallowed⟩ := hready.flat.entry hp
  rw [hentry] at hstep
  cases hstep
  exact ⟨s', .of_readied hready hmoves, by rw [hdepth, hready.depth], hallowed,
    hruns (hrest' ▸ List.suffix_rfl)⟩

/-- Over a word or numeral. -/
lemma bare (h : Runs s tokens) (hs : Flat s) {text : List Char} (htext : Bare text)
    (hrest : afterSpace s.cursor.rest = text ++ t) (ht : Delimited s.inFlow t) :
    ∃ s', Moves s s' [.scalar true text] t ∧ s'.depth = s.depth ∧ Runs s' tokens := by
  cases text with
  | nil => exact absurd rfl htext.nonempty
  | cons x text =>
      have hx : x ≠ '#' := by
        rintro rfl
        exact absurd (htext.chars '#' List.mem_cons_self) (by decide)
      obtain ⟨p, s', hready, hp, hstep, hruns⟩ := h.step hs hrest hx
      have hflow : p.inFlow = s.inFlow := by rw [inFlow, hready.depth, inFlow]
      obtain ⟨s'', hplain, hmoves, hsuffix, hdepth⟩ := hready.flat.plain htext hp (hflow ▸ ht)
      rw [token_bare htext hp, hplain] at hstep
      cases hstep
      exact ⟨s', .of_readied hready hmoves, by rw [hdepth, hready.depth],
        hruns (hsuffix.trans (List.suffix_append text t))⟩

/-- Over a string. -/
lemma string (h : Runs s tokens) (hs : Flat s) (hrest : afterSpace s.cursor.rest = '"' :: t)
    (hquoted : Quoted t cs u) :
    ∃ s', Moves s s' [.scalar false cs] u ∧ s'.depth = s.depth
      ∧ (s.inFlow = true → s.keyAllowed = true →
        ∃ place, s'.keys.head? = some (some place) ∧ place.tokens = s.tokens.size)
      ∧ Runs s' tokens := by
  obtain ⟨p, s', hready, hp, hstep, hruns⟩ := h.step hs hrest (by decide)
  obtain ⟨hmoves, hrest', hdepth, hkeys⟩ := hready.flat.quoted hp hquoted hstep
  refine ⟨s', .of_readied hready hmoves, by rw [hdepth, hready.depth], ?_,
    hruns (hrest' ▸ hquoted.suffix)⟩
  intro hflow hallowed
  refine ⟨_, hkeys ((hready.allowed hflow).trans hallowed), ?_⟩
  rw [Flat.place, hready.tokens]

/-- Over a key and the mark of its value. -/
lemma key (h : Runs s tokens) (hs : Flat s) (hflow : s.inFlow = true)
    (hallowed : s.keyAllowed = true) (hrest : afterSpace s.cursor.rest = '"' :: t)
    (hquoted : Quoted t cs u) (hcolon : afterSpace u = ':' :: w) :
    ∃ s' key, Moves s s' (key ++ [.scalar false cs, .value]) w ∧ s'.depth = s.depth
      ∧ (key = [] ∨ key = [.key]) ∧ Runs s' tokens := by
  obtain ⟨s₁, hmoves₁, hdepth₁, hkeys, hruns₁⟩ := h.string hs hrest hquoted
  obtain ⟨place, hhead, hplace⟩ := hkeys hflow hallowed
  obtain ⟨p, s', hready, hp, hstep, hruns⟩ :=
    hruns₁.step hmoves₁.flat (hmoves₁.rest.trans hcolon) (by decide)
  have hdepth : p.depth = s.depth := hready.depth.trans hdepth₁
  have htokens : p.tokens.toList = s.tokens.toList ++ [.scalar false cs] := by
    rw [hready.tokens, hmoves₁.tokens]
  -- on the way to the colon the place of the key is kept or given up
  have hkeys' : p.keys.head? = some none
      ∨ ∃ place, p.keys.head? = some (some place) ∧ place.tokens = s.tokens.toList.length := by
    rcases hready.keys with hsame | hnone
    · exact .inr ⟨place, hsame.trans hhead, by rw [hplace, Array.length_toList]⟩
    · exact .inl hnone
  obtain ⟨s'', key, hvalue, hflat, hrest', hdepth', hnew, hkey⟩ :=
    hready.flat.value hp (by rw [inFlow, hdepth]; exact hflow) htokens hkeys'
  rw [hvalue] at hstep
  cases hstep
  exact ⟨s', key, ⟨hflat, hnew, by rw [hrest']⟩, hdepth'.trans hdepth, hkey,
    hruns (hrest' ▸ List.suffix_rfl)⟩

end Runs

end Layout

/-! ### Tokens of values -/

/-- The token in front of an entry that is not the first one. -/
def leading (atStart : Bool) : List Token := if atStart then [] else [.flowEntry]

mutual

/-- The tokens of JSON values. Where a key is too long, its indicator is missing. -/
inductive TokensOf : Json → List Token → Prop
  | word {text : List Char} {v : Json} (h : Word text v) : TokensOf v [.scalar true text]
  | number {text : List Char} {n : Number} (h : Numeral text n) :
      TokensOf (.num n) [.scalar true text]
  | string {cs : List Char} : TokensOf (.str (String.ofList cs)) [.scalar false cs]
  | array {items : List Json} {tokens : List Token} (h : TokensOfItems true items tokens) :
      TokensOf (.arr items) (.flowSequenceStart :: tokens)
  | object {entries : List (String × Json)} {tokens : List Token}
      (h : TokensOfEntries true entries tokens) :
      TokensOf (.obj (fieldsOf entries)) (.flowMappingStart :: tokens)

inductive TokensOfItems : Bool → List Json → List Token → Prop
  | close {atStart : Bool} : TokensOfItems atStart [] [.flowSequenceEnd]
  | item {atStart : Bool} {item : Json} {others : List Json} {tokens more : List Token}
      (h : TokensOf item tokens) (hmore : TokensOfItems false others more) :
      TokensOfItems atStart (item :: others) (leading atStart ++ (tokens ++ more))

inductive TokensOfEntries : Bool → List (String × Json) → List Token → Prop
  | close {atStart : Bool} : TokensOfEntries atStart [] [.flowMappingEnd]
  | entry {atStart : Bool} {cs : List Char} {value : Json} {others : List (String × Json)}
      {key tokens more : List Token} (hkey : key = [] ∨ key = [.key]) (h : TokensOf value tokens)
      (hmore : TokensOfEntries false others more) :
      TokensOfEntries atStart ((String.ofList cs, value) :: others)
        (leading atStart ++ (key ++ [.scalar false cs, .value] ++ (tokens ++ more)))

end

namespace Layout

/-- What stands in front of an entry is passed. -/
lemma Runs.lead {s : Layout} {tokens : Array Token} (h : Runs s tokens) (hs : Flat s)
    {atStart : Bool} {t u : List Char} (hlead : Lead atStart t u)
    (hrest : afterSpace s.cursor.rest = t) :
    ∃ s', Moves s s' (leading atStart) s'.cursor.rest ∧ afterSpace s'.cursor.rest = u
      ∧ s'.depth = s.depth ∧ ((atStart = true → s.keyAllowed = true) → s'.keyAllowed = true)
      ∧ Runs s' tokens := by
  cases hlead with
  | first =>
      refine ⟨s, ⟨hs, (List.append_nil _).symm, rfl⟩, hrest, rfl, ?_, h⟩
      intro hallowed
      exact hallowed rfl
  | next =>
      obtain ⟨s', hmoves, hdepth, hallowed, hruns⟩ := h.comma hs hrest
      exact ⟨s', ⟨hmoves.flat, hmoves.tokens, rfl⟩, hmoves.rest, hdepth, fun _ => hallowed, hruns⟩

lemma exists_of_lead {t u : List Char} (h : Lead false t u) : ∃ w, t = ',' :: w := by
  cases h with
  | next => exact ⟨_, rfl⟩

/-- Behind a value inside of an array, a comma or the end of the array follows. -/
lemma delimited_of_items {t rest : List Char} {items : List Json}
    (h : SpellsItems false (afterSpace t) items rest) : Delimited true t := by
  refine .inr ⟨rfl, ?_⟩
  generalize afterSpace t = t at h
  cases h with
  | close => exact ⟨_, _, rfl, .inr (.inl rfl)⟩
  | item lead value more =>
      obtain ⟨w, rfl⟩ := exists_of_lead lead
      exact ⟨_, _, rfl, .inl rfl⟩

/-- Behind a value inside of an object, a comma or the end of the object follows. -/
lemma delimited_of_entries {t rest : List Char} {entries : List (String × Json)}
    (h : SpellsEntries false (afterSpace t) entries rest) : Delimited true t := by
  refine .inr ⟨rfl, ?_⟩
  generalize afterSpace t = t at h
  cases h with
  | close => exact ⟨_, _, rfl, .inr (.inr rfl)⟩
  | entry lead quoted colon value more =>
      obtain ⟨w, rfl⟩ := exists_of_lead lead
      exact ⟨_, _, rfl, .inl rfl⟩

mutual

theorem scans {t rest : List Char} {v : Json} (h : Spells t v rest) {s : Layout} {T : Array Token}
    (hs : Flat s) (hrest : afterSpace s.cursor.rest = t) (hend : Delimited s.inFlow rest)
    (hruns : Runs s T) :
    ∃ s' tokens, TokensOf v tokens ∧ Moves s s' tokens rest ∧ s'.depth = s.depth ∧ Runs s' T :=
  match h with
  | .word hword => by
      obtain ⟨s', hmoves, hdepth, hruns'⟩ := hruns.bare hs (.of_word hword) hrest hend
      exact ⟨s', _, .word hword, hmoves, hdepth, hruns'⟩
  | .number hnumeral => by
      obtain ⟨s', hmoves, hdepth, hruns'⟩ := hruns.bare hs (.of_numeral hnumeral) hrest hend
      exact ⟨s', _, .number hnumeral, hmoves, hdepth, hruns'⟩
  | .string hquoted => by
      obtain ⟨s', hmoves, hdepth, -, hruns'⟩ := hruns.string hs hrest hquoted
      exact ⟨s', _, .string, hmoves, hdepth, hruns'⟩
  | .array hitems => by
      -- into the array, and over its elements up to its end
      obtain ⟨s₁, hmoves₁, hdepth₁, -, hruns₁⟩ :=
        hruns.opening hs hrest (by decide) fun p => token_openSequence
      obtain ⟨s', tokens, htokens, hmoves, hdepth, hruns'⟩ :=
        scansItems hitems hmoves₁.flat hdepth₁ hmoves₁.rest hruns₁
      exact ⟨s', _, .array htokens, hmoves₁.trans hmoves, hdepth, hruns'⟩
  | .object hentries => by
      -- a key may begin right behind the brace
      obtain ⟨s₁, hmoves₁, hdepth₁, hallowed, hruns₁⟩ :=
        hruns.opening hs hrest (by decide) fun p => token_openMapping
      obtain ⟨s', tokens, htokens, hmoves, hdepth, hruns'⟩ :=
        scansEntries hentries hmoves₁.flat hdepth₁ (fun _ => hallowed) hmoves₁.rest hruns₁
      exact ⟨s', _, .object htokens, hmoves₁.trans hmoves, hdepth, hruns'⟩

theorem scansItems {atStart : Bool} {t rest : List Char} {items : List Json}
    (h : SpellsItems atStart t items rest) {s : Layout} {T : Array Token} {depth : Nat}
    (hs : Flat s) (hdepth : s.depth = depth + 1) (hrest : afterSpace s.cursor.rest = t)
    (hruns : Runs s T) :
    ∃ s' tokens, TokensOfItems atStart items tokens ∧ Moves s s' tokens rest ∧ s'.depth = depth
      ∧ Runs s' T :=
  match h with
  | .close => by
      obtain ⟨s', hmoves, hdepth', hruns'⟩ :=
        hruns.closing hs hrest (by decide) hdepth fun p => token_closeSequence
      exact ⟨s', _, .close, hmoves, hdepth', hruns'⟩
  | .item lead value more => by
      -- past a comma, over the element, and on with the others
      obtain ⟨s₁, hmoves₁, hrest₁, hdepth₁, -, hruns₁⟩ := hruns.lead hs lead hrest
      have hflow₁ : s₁.inFlow = true := Runs.inFlow_of_depth (hdepth₁.trans hdepth)
      obtain ⟨s₂, tokens, htokens, hmoves₂, hdepth₂, hruns₂⟩ :=
        scans value hmoves₁.flat hrest₁ (hflow₁ ▸ delimited_of_items more) hruns₁
      obtain ⟨s', others, hothers, hmoves, hdepth', hruns'⟩ :=
        scansItems more hmoves₂.flat (hdepth₂.trans (hdepth₁.trans hdepth)) hmoves₂.rest hruns₂
      exact ⟨s', _, .item htokens hothers, hmoves₁.trans (hmoves₂.trans hmoves), hdepth', hruns'⟩

theorem scansEntries {atStart : Bool} {t rest : List Char} {entries : List (String × Json)}
    (h : SpellsEntries atStart t entries rest) {s : Layout} {T : Array Token} {depth : Nat}
    (hs : Flat s) (hdepth : s.depth = depth + 1) (hallowed : atStart = true → s.keyAllowed = true)
    (hrest : afterSpace s.cursor.rest = t) (hruns : Runs s T) :
    ∃ s' tokens, TokensOfEntries atStart entries tokens ∧ Moves s s' tokens rest ∧ s'.depth = depth
      ∧ Runs s' T :=
  match h with
  | .close => by
      obtain ⟨s', hmoves, hdepth', hruns'⟩ :=
        hruns.closing hs hrest (by decide) hdepth fun p => token_closeMapping
      exact ⟨s', _, .close, hmoves, hdepth', hruns'⟩
  | .entry lead quoted colon value more => by
      -- past a comma, over the key and over the value, and on with the others
      obtain ⟨s₁, hmoves₁, hrest₁, hdepth₁, hallowed₁, hruns₁⟩ := hruns.lead hs lead hrest
      have hdepth₁ := hdepth₁.trans hdepth
      obtain ⟨s₂, key, hmoves₂, hdepth₂, hkey, hruns₂⟩ :=
        hruns₁.key hmoves₁.flat (Runs.inFlow_of_depth hdepth₁) (hallowed₁ hallowed) hrest₁ quoted
          colon
      have hdepth₂ := hdepth₂.trans hdepth₁
      obtain ⟨s₃, tokens, htokens, hmoves₃, hdepth₃, hruns₃⟩ :=
        scans value hmoves₂.flat hmoves₂.rest
          (Runs.inFlow_of_depth hdepth₂ ▸ delimited_of_entries more) hruns₂
      obtain ⟨s', others, hothers, hmoves, hdepth', hruns'⟩ :=
        scansEntries more hmoves₃.flat (hdepth₃.trans hdepth₂) (fun h => nomatch h) hmoves₃.rest
          hruns₃
      exact ⟨s', _, .entry hkey htokens hothers,
        hmoves₁.trans (hmoves₂.trans (hmoves₃.trans hmoves)), hdepth', hruns'⟩

end

end Layout

/-- No byte order mark stands in front of a value. -/
lemma ascii_of_spells {t rest : List Char} {v : Json} (h : Spells t v rest) :
    ∃ x u, t = x :: u ∧ x.toNat < 0x80 := by
  have hbare : ∀ text : List Char, Bare text → ∃ x u, text ++ rest = x :: u ∧ x.toNat < 0x80 := by
    intro text htext
    cases text with
    | nil => exact absurd rfl htext.nonempty
    | cons x text =>
        exact ⟨x, text ++ rest, rfl, toNat_lt_of_isBareChar (htext.chars x List.mem_cons_self)⟩
  cases h with
  | word hword => exact hbare _ (.of_word hword)
  | number hnumeral => exact hbare _ (.of_numeral hnumeral)
  | string hquoted => exact ⟨_, _, rfl, by decide⟩
  | array hitems => exact ⟨_, _, rfl, by decide⟩
  | object hentries => exact ⟨_, _, rfl, by decide⟩

/-- **Tokens of JSON texts.** The tokens of a JSON text in YAML are those of its value. -/
theorem tokensOf_of_spells {t rest : List Char} {v : Json} {T : List Token}
    (hspells : Spells (afterSpace t) v rest) (hrest : afterSpace rest = []) (hnarrow : Narrow t)
    (h : tokens t = .ok T) : TokensOf v T := by
  have hmark : tokens t = if t.all isAllowed then
      (Layout.run (t.length + 1) { cursor := { rest := t } }).map Array.toList
      else .error .character := by
    rw [tokens.eq_def]
    split
    · -- the text does not begin with a byte order mark
      rename_i u
      obtain ⟨x, w, hx, hascii⟩ := ascii_of_spells hspells
      rw [afterSpace, List.dropWhile_cons_of_neg (by decide)] at hx
      cases hx
      exact absurd hascii (by decide)
    · rfl
  rw [hmark] at h
  split_ifs at h
  obtain ⟨tokens, hrun, rfl⟩ := exists_of_map_eq_ok h
  -- at the start no collection is open and no key has begun
  have hflat : Layout.Flat { cursor := { rest := t } } :=
    { narrow := hnarrow
      indent := rfl
      keys := rfl
      loose := by
        intro key hkey
        obtain rfl := List.mem_singleton.mp hkey
        rintro place ⟨⟩ }
  obtain ⟨s', tokens', htokens, hmoves, -, hruns⟩ :=
    Layout.scans hspells hflat rfl (.inl hrest) ⟨t.length + 1, Nat.lt_succ_self _, hrun⟩
  rw [hruns.finish hmoves.flat (hmoves.rest.trans hrest), hmoves.tokens]
  exact htokens

end SchemaTypes.Yaml
