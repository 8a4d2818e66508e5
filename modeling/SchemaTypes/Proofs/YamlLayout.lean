import SchemaTypes.Proofs.Lists
import SchemaTypes.Proofs.YamlScalars
import SchemaTypes.Yaml.Tokens

/-!
The layout of YAML texts that open no blocks.

* `Layout.Flat`: a place outside of all blocks, with what becomes of its
  possible keys;
* `Layout.skipToToken_ok`: what is passed in front of a token;
* `Layout.token_bare` and its siblings: tokens by their first characters;
* `Layout.Runs`: the tokens of a text from a place on; `Runs.step` is one of
  them, `Runs.finish` the end.
-/

namespace SchemaTypes.Yaml

open Json

lemma ok_bind {ε α β : Type} (a : α) (f : α → Except ε β) : (Except.ok a >>= f) = f a := rfl

/-- Where each element has a result, the list of them has one. -/
lemma mapM_eq_ok {ε α β : Type} {f : α → Except ε β} {g : α → β} {l : List α}
    (h : ∀ a ∈ l, f a = .ok (g a)) : l.mapM f = .ok (l.map g) := by
  induction l with
  | nil => rfl
  | cons a l ih =>
      rw [List.mapM_cons, h a List.mem_cons_self, ih fun b hb => h b (List.mem_cons_of_mem a hb)]
      rfl

namespace Layout

/-! ### Outside of blocks -/

/-- A place outside of all blocks, where no key is required, in front of a text without
the line breaks that JSON does not know. -/
structure Flat (s : Layout) : Prop where
  narrow : Narrow s.cursor.rest
  indent : s.indent = -1
  keys : s.keys.length = s.depth + 1
  loose : ∀ key ∈ s.keys, ∀ place ∈ key, place.isRequired = false

namespace Flat

variable {s : Layout}

/-- Where no block is open none is closed. -/
lemma closeBlocks (h : Flat s) {column : Int} (hcolumn : -1 ≤ column) :
    s.closeBlocks column = s := by
  have hclose : closeFrom column s.outer s.indent s.tokens = (s.outer, s.indent, s.tokens) := by
    rw [closeFrom.eq_def]
    dsimp only
    rw [if_pos (by rw [h.indent]; exact hcolumn)]
  rw [Layout.closeBlocks, hclose]
  split_ifs
  · rfl
  · rfl

/-- The places of keys after the innermost one is replaced. -/
lemma replace (h : Flat s) (key : Option KeyPlace)
    (hkey : ∀ place ∈ key, place.isRequired = false) :
    Flat { s with keys := key :: s.keys.tail } where
  narrow := h.narrow
  indent := h.indent
  keys := by
    have hkeys := h.keys
    simp only [List.length_cons, List.length_tail]
    omega
  loose := by
    intro k hk
    rcases List.mem_cons.mp hk with rfl | hk
    · exact hkey
    · exact h.loose k (List.mem_of_mem_tail hk)

/-- There is a place for a key on each level. -/
lemma exists_keys (h : Flat s) : ∃ key rest, s.keys = key :: rest := by
  have hkeys := h.keys
  cases hs : s.keys with
  | nil =>
      rw [hs] at hkeys
      cases hkeys
  | cons key rest => exact ⟨key, rest, rfl⟩

/-- The key that may begin is given up, as none is required. -/
lemma dropKey (h : Flat s) : s.dropKey = .ok { s with keys := none :: s.keys.tail } := by
  obtain ⟨key, rest, hs⟩ := h.exists_keys
  obtain ⟨cursor, tokens, indent, outer, depth, allowed, keys⟩ := s
  obtain rfl : keys = key :: rest := hs
  cases key with
  | none => rfl
  | some place =>
      have hplace := h.loose (some place) List.mem_cons_self place rfl
      rw [Layout.dropKey]
      dsimp only
      rw [hplace, if_neg Bool.false_ne_true]
      rfl

/-- A key that begins here. -/
def place (s : Layout) : KeyPlace :=
  ⟨s.tokens.size, s.cursor.index, s.cursor.line, s.cursor.column, false⟩

/-- Where a key may begin its place is noted. -/
lemma noteKey (h : Flat s) :
    s.noteKey
      = .ok (if s.keyAllowed then { s with keys := some (place s) :: s.keys.tail } else s) := by
  rw [Layout.noteKey]
  split_ifs with hallowed
  · have hindent : s.indent ≠ (s.cursor.column : Int) := by
      rw [h.indent]
      omega
    rw [h.dropKey]
    simp only [hindent, decide_false, Bool.and_false, place]
    rfl
  · rfl

/-- The keys that are still possible. -/
def fresh (s : Layout) : List (Option KeyPlace) :=
  s.keys.map fun key => key.filter fun place => !KeyPlace.isStale place s.cursor

/-- Places that are too far back are given up. -/
lemma dropStaleKeys (h : Flat s) : s.dropStaleKeys = .ok { s with keys := fresh s } := by
  have hkeys : ∀ f : Option KeyPlace → Except Fault (Option KeyPlace),
      (∀ key ∈ s.keys, f key = .ok (key.filter fun place => !KeyPlace.isStale place s.cursor)) →
        s.keys.mapM f = .ok (fresh s) := fun f hf => mapM_eq_ok hf
  rw [Layout.dropStaleKeys, hkeys]
  · rfl
  · intro key hkey
    cases key with
    | none => rfl
    | some place =>
        have hplace := h.loose (some place) hkey place rfl
        dsimp only
        rw [Option.filter_some]
        by_cases hstale : KeyPlace.isStale place s.cursor = true
        · rw [if_pos hstale, hplace, if_neg Bool.false_ne_true, hstale]
          rfl
        · rw [if_neg hstale]
          rw [Bool.not_eq_true] at hstale
          rw [hstale]
          rfl

/-- With the stale places given up the layout is flat still. -/
lemma fresh_keys (h : Flat s) : Flat { s with keys := fresh s } where
  narrow := h.narrow
  indent := h.indent
  keys := by
    rw [fresh, List.length_map]
    exact h.keys
  loose := by
    intro key hkey place hplace
    obtain ⟨key', hkey', rfl⟩ := List.mem_map.mp hkey
    obtain ⟨hsome, -⟩ := Option.filter_eq_some_iff.mp hplace
    exact h.loose key' hkey' place hsome

end Flat

/-! ### Towards the next token -/

/-- Blanks may be passed in any portions. -/
lemma afterSpace_dropWhile {p : Char → Bool} (hp : ∀ x, p x = true → isSpaceChar x = true)
    (t : List Char) : afterSpace (t.dropWhile p) = afterSpace t := by
  induction t with
  | nil => rfl
  | cons x t ih =>
      by_cases hx : p x = true
      · rw [List.dropWhile_cons_of_pos hx, ih, afterSpace, afterSpace,
          List.dropWhile_cons_of_pos (hp x hx)]
      · rw [List.dropWhile_cons_of_neg hx]

/-- The blanks in front of a token. -/
def isBlankHere (s : Layout) (x : Char) : Bool :=
  x = ' ' || ((s.inFlow || !s.keyAllowed) && x = '\t')

/-- What is passed in front of a token is blank. -/
lemma isSpaceChar_of_isBlankHere {s : Layout} {x : Char} (h : isBlankHere s x = true) :
    isSpaceChar x = true := by
  simp only [isBlankHere, Bool.or_eq_true, Bool.and_eq_true, decide_eq_true_eq] at h
  rcases h with rfl | ⟨-, rfl⟩
  all_goals decide

/-- What is passed in front of a token: blanks, up to a tab where a key may begin. -/
lemma skipToToken_ok {fuel : Nat} {s : Layout} (hnarrow : Narrow s.cursor.rest)
    (hcomment : (afterSpace s.cursor.rest).head? ≠ some '#') (hfuel : s.cursor.rest.length < fuel) :
    ∃ c allowed, s.skipToToken fuel = { s with cursor := c, keyAllowed := allowed }
      ∧ (s.inFlow = true → allowed = s.keyAllowed) ∧ c.rest <:+ s.cursor.rest
      ∧ (c.rest = afterSpace s.cursor.rest ∨ ∃ u, c.rest = '\t' :: u) := by
  induction fuel generalizing s with
  | zero => exact absurd hfuel (Nat.not_lt_zero _)
  | succ fuel ih =>
      obtain ⟨c, hc⟩ : ∃ c, s.cursor.skipWhile (isBlankHere s) = c := ⟨_, rfl⟩
      have hrest : c.rest = s.cursor.rest.dropWhile (isBlankHere s) := by
        rw [← hc]
        exact drop_length_takeWhile (isBlankHere s) s.cursor.rest
      have hspace : afterSpace c.rest = afterSpace s.cursor.rest := by
        rw [hrest, afterSpace_dropWhile fun x => isSpaceChar_of_isBlankHere]
      -- no comment begins here: what stands behind the blanks is no `#`
      have hmark : c.isAt '#' = false := by
        rw [Cursor.isAt, decide_eq_false_iff_not]
        intro hhead
        obtain ⟨t, ht⟩ := List.head?_eq_some_iff.mp hhead
        rw [← hspace, ht, afterSpace, List.dropWhile_cons_of_neg (by decide)] at hcomment
        exact hcomment rfl
      have hsuffix : c.rest <:+ s.cursor.rest := hrest ▸ List.dropWhile_suffix _
      have hskip : s.skipToToken (fuel + 1)
          = if c.rest.head?.any isBreak then
              skipToToken fuel
                { s with cursor := c.lineBreak.2, keyAllowed := s.keyAllowed || !s.inFlow }
            else { s with cursor := c } := by
        have hstep : s.skipToToken (fuel + 1) =
            let c := s.cursor.skipWhile (isBlankHere s)
            let c := if c.isAt '#' then c.skipWhile (!isBreak ·) else c
            if c.rest.head?.any isBreak then
              skipToToken fuel
                { s with cursor := c.lineBreak.2, keyAllowed := s.keyAllowed || !s.inFlow }
            else { s with cursor := c } := rfl
        rw [hstep, hc]
        simp only [hmark, Bool.false_eq_true, if_false]
      rw [hskip]
      cases ht : c.rest with
      | nil =>
          refine ⟨c, s.keyAllowed, rfl, fun _ => rfl, hsuffix, .inl ?_⟩
          rw [← hspace, ht]
          rfl
      | cons x t =>
          have hx : isBlankHere s x = false := by
            have hhead := List.head?_dropWhile_not (isBlankHere s) s.cursor.rest
            rwa [← hrest, ht] at hhead
          by_cases hbreak : isBreak x = true
          · -- at a line break the way goes on behind it, with less of the text left
            rw [if_pos (by simpa [ht] using hbreak)]
            obtain ⟨hdrop, htail⟩ := Cursor.dropWhile_lineBreak ht hbreak
            have hbehind : c.lineBreak.2.rest <:+ s.cursor.rest :=
              (htail.trans (ht ▸ List.suffix_cons x t)).trans hsuffix
            have hnarrow' : Narrow c.lineBreak.2.rest := hnarrow.suffix hbehind
            have hspace' : afterSpace c.lineBreak.2.rest = afterSpace s.cursor.rest := by
              have hgap : isGap x = true := by rw [isGap, hbreak, Bool.or_true]
              rw [← hnarrow'.dropWhile_isGap, hdrop, ← hspace,
                ← (hnarrow.suffix hsuffix).dropWhile_isGap, ht, List.dropWhile_cons_of_pos hgap]
            obtain ⟨c', allowed, hrun, hallowed, hsuffix', hc'⟩ :=
              ih (s := { s with cursor := c.lineBreak.2, keyAllowed := s.keyAllowed || !s.inFlow })
                hnarrow' (hspace' ▸ hcomment)
                (by
                  have h₁ := htail.length_le
                  have h₂ := hsuffix.length_le
                  rw [ht, List.length_cons] at h₂
                  dsimp only
                  omega)
            rw [hspace'] at hc'
            refine ⟨c', allowed, hrun, ?_, hsuffix'.trans hbehind, hc'⟩
            intro hflow
            rw [hallowed hflow, hflow]
            exact Bool.or_false _
          · rw [if_neg (by simpa [ht] using hbreak)]
            refine ⟨c, s.keyAllowed, rfl, fun _ => rfl, hsuffix, ?_⟩
            by_cases hspaceChar : isSpaceChar x = true
            · right
              simp only [isSpaceChar, Bool.or_eq_true, decide_eq_true_eq] at hspaceChar
              rcases hspaceChar with ((rfl | rfl) | rfl) | rfl
              · cases hx
              · exact ⟨t, ht⟩
              · exact absurd (by decide) hbreak
              · exact absurd (by decide) hbreak
            · left
              rw [← hspace, ht, afterSpace, List.dropWhile_cons_of_neg hspaceChar]

/-! ### Tokens by their first characters -/

section

variable {s : Layout} {u : List Char}

lemma token_tab (h : s.cursor.rest = '\t' :: u) : s.token '\t' = .error .token := by
  simp [token, Cursor.isAtMark_of_head h, beginsPlain, isGap, isBlankChar]

/-- A bracket begins a sequence. -/
lemma token_openSequence (h : s.cursor.rest = '[' :: u) :
    s.token '[' = s.openFlow .flowSequenceStart := by
  simp [token, Cursor.isAtMark_of_head h]

lemma token_closeSequence (h : s.cursor.rest = ']' :: u) :
    s.token ']' = s.closeFlow .flowSequenceEnd := by
  simp [token, Cursor.isAtMark_of_head h]

/-- A brace begins a mapping. -/
lemma token_openMapping (h : s.cursor.rest = '\x7b' :: u) :
    s.token '\x7b' = s.openFlow .flowMappingStart := by
  simp [token, Cursor.isAtMark_of_head h]

lemma token_closeMapping (h : s.cursor.rest = '\x7d' :: u) :
    s.token '\x7d' = s.closeFlow .flowMappingEnd := by
  simp [token, Cursor.isAtMark_of_head h]

/-- A comma ends an entry, and the key that could have begun there. -/
lemma token_entry (h : s.cursor.rest = ',' :: u) :
    s.token ',' = s.dropKey.map fun s => s.indicator .flowEntry 1 true := by
  simp [token, Cursor.isAtMark_of_head h]
  rfl

/-- Inside of a collection a colon is the mark of a value. -/
lemma token_value (h : s.cursor.rest = ':' :: u) (hflow : s.inFlow = true) :
    s.token ':' = s.value := by
  simp [token, Cursor.isAtMark_of_head h, hflow]

/-- A quote begins a quoted scalar. -/
lemma token_quoted (h : s.cursor.rest = '"' :: u) : s.token '"' = s.quoted false := by
  simp [token, Cursor.isAtMark_of_head h]

/-- No letter or digit has a meaning of its own. -/
lemma not_indicator {x : Char} (h : x.isAlphanum = true) :
    isIndicator x = false ∧ isGap x = false := by
  have hall : ∀ n < 0x80, (Char.ofNat n).isAlphanum = true →
      isIndicator (Char.ofNat n) = false ∧ isGap (Char.ofNat n) = false := by decide
  have hlt : x.toNat < 0x80 := toNat_lt_of_isBareChar (by rw [isBareChar, h, Bool.true_or])
  have hx := hall x.toNat hlt
  rw [Char.ofNat_toNat] at hx
  exact hx h

/-- A word or numeral begins a plain scalar, as no indicator is like its first
character. -/
lemma token_bare {text : List Char} {x : Char} (htext : Bare (x :: text))
    (h : s.cursor.rest = x :: text ++ u) : s.token x = s.plain := by
  obtain ⟨hdash, hdot⟩ := htext.not_mark h
  obtain ⟨negative, y, rest, heq, hy⟩ := htext.head
  obtain ⟨hindicator, hgap⟩ := not_indicator hy
  cases negative with
  | false =>
      cases heq
      have hne : ∀ y, isIndicator y = true → x ≠ y := by
        rintro y hy rfl
        rw [hindicator] at hy
        cases hy
      have hplain : s.beginsPlain x = true := by simp [beginsPlain, hindicator, hgap]
      rw [token]
      simp only [hdash, hdot, hplain, hne '%' rfl, hne '[' rfl, hne '\x7b' rfl, hne ']' rfl,
        hne '\x7d' rfl, hne ',' rfl, hne '-' rfl, hne '?' rfl, hne ':' rfl, hne '*' rfl, hne '&' rfl,
        hne '!' rfl, hne '|' rfl, hne '>' rfl, hne '\'' rfl, hne '"' rfl, and_false, false_and,
        if_false, if_true, Bool.false_eq_true]
  | true =>
      cases heq
      have hahead : s.cursor.ahead 1 = some y := by rw [Cursor.ahead, h]; rfl
      have hends : s.cursor.endsOr 1 isGap = false := by rw [Cursor.endsOr, hahead]; exact hgap
      have hblank : isBlankChar y = false := by
        rw [isGap, Bool.or_eq_false_iff] at hgap
        exact hgap.1
      have hplain : s.beginsPlain '-' = true := by simp [beginsPlain, hahead, hblank]
      rw [token]
      simp [hdash, hdot, hplain, hends]

end

/-! ### Steps -/

/-- The tokens of a text from a place on. -/
def Runs (s : Layout) (tokens : Array Token) : Prop :=
  ∃ fuel, s.cursor.rest.length < fuel ∧ run fuel s = .ok tokens

/-- A place just in front of its next token. -/
structure Readied (s p : Layout) : Prop where
  flat : Flat p
  tokens : p.tokens = s.tokens
  depth : p.depth = s.depth
  keys : p.keys.head? = s.keys.head? ∨ p.keys.head? = some none
  allowed : s.inFlow = true → p.keyAllowed = s.keyAllowed

/-- The innermost place is kept or given up. -/
lemma head?_fresh (s : Layout) :
    (Flat.fresh s).head? = s.keys.head? ∨ (Flat.fresh s).head? = some none := by
  rw [Flat.fresh]
  rcases s.keys with - | ⟨- | place, rest⟩
  · exact .inl rfl
  · exact .inl rfl
  · rw [List.map_cons, List.head?_cons, List.head?_cons, Option.filter_some]
    split_ifs
    · exact .inl rfl
    · exact .inr rfl

/-- Blanks and stale keys are passed in front of a token. -/
lemma exists_readied {s : Layout} (hs : Flat s)
    (hcomment : (afterSpace s.cursor.rest).head? ≠ some '#') :
    ∃ p, Readied s p ∧ (p.cursor.rest = afterSpace s.cursor.rest ∨ ∃ u, p.cursor.rest = '\t' :: u)
      ∧ (∀ fuel, p.cursor.rest = [] → run (fuel + 1) s = p.finish.map Layout.tokens)
      ∧ ∀ fuel x u, p.cursor.rest = x :: u → run (fuel + 1) s = (p.token x).bind (run fuel) := by
  obtain ⟨c, allowed, hskip, hallowed, hsuffix, hc⟩ :=
    skipToToken_ok hs.narrow hcomment (Nat.lt_succ_self s.cursor.rest.length)
  -- `q` stands in front of the token, and `p` is `q` with the stale keys given up
  obtain ⟨q, hq⟩ : ∃ q : Layout, { s with cursor := c, keyAllowed := allowed } = q := ⟨_, rfl⟩
  have hflat : Flat q := by
    rw [← hq]
    exact
      { narrow := hs.narrow.suffix hsuffix, indent := hs.indent, keys := hs.keys,
        loose := hs.loose }
  obtain ⟨p, hp⟩ : ∃ p : Layout, { q with keys := Flat.fresh q } = p := ⟨_, rfl⟩
  have hready : Flat p := hp ▸ hflat.fresh_keys
  refine ⟨p, ?_, ?_, ?_, ?_⟩
  · have hkeys := head?_fresh q
    subst hp hq
    exact { flat := hready, tokens := rfl, depth := rfl, keys := hkeys, allowed := hallowed }
  · subst hp hq
    exact hc
  · intro fuel hnil
    rw [run, hskip, hq, hflat.dropStaleKeys, ok_bind, hp]
    dsimp only
    rw [hready.closeBlocks (by omega), hnil]
    cases p.finish with
    | error fault => rfl
    | ok s => rfl
  · intro fuel x u hcons
    rw [run, hskip, hq, hflat.dropStaleKeys, ok_bind, hp]
    dsimp only
    rw [hready.closeBlocks (by omega), hcons]
    rfl

/-- The token at a place outside of blocks. -/
lemma Runs.step {s : Layout} {tokens : Array Token} (h : Runs s tokens) (hs : Flat s) {x : Char}
    {u : List Char} (hrest : afterSpace s.cursor.rest = x :: u) (hx : x ≠ '#') :
    ∃ p s', Readied s p ∧ p.cursor.rest = x :: u ∧ p.token x = .ok s'
      ∧ (s'.cursor.rest <:+ u → Runs s' tokens) := by
  obtain ⟨fuel, hfuel, hrun⟩ := h
  cases fuel with
  | zero => exact absurd hfuel (Nat.not_lt_zero _)
  | succ fuel =>
      obtain ⟨p, hready, hp, -, hstep⟩ := exists_readied hs (by rw [hrest]; simpa using hx)
      rcases hp with hp | ⟨v, htab⟩
      · rw [hrest] at hp
        rw [hstep fuel x u hp] at hrun
        obtain ⟨s', htoken, hruns⟩ := exists_of_andThen_eq_ok hrun
        refine ⟨p, s', hready, hp, htoken, ?_⟩
        intro hsuffix
        have hlength := (List.dropWhile_suffix isSpaceChar (l := s.cursor.rest)).length_le
        rw [← afterSpace, hrest, List.length_cons] at hlength
        have hrest' := hsuffix.length_le
        exact ⟨fuel, by omega, hruns⟩
      · -- no token begins with a tab: the run would have failed
        rw [hstep fuel _ v htab, token_tab htab] at hrun
        cases hrun

/-- At the end of a text all tokens are there. -/
lemma Runs.finish {s : Layout} {tokens : Array Token} (h : Runs s tokens) (hs : Flat s)
    (hrest : afterSpace s.cursor.rest = []) : tokens = s.tokens := by
  obtain ⟨fuel, hfuel, hrun⟩ := h
  cases fuel with
  | zero => exact absurd hfuel (Nat.not_lt_zero _)
  | succ fuel =>
      obtain ⟨p, hready, hp, hend, hstep⟩ := exists_readied hs (by rw [hrest]; simp)
      rcases hp with hp | ⟨v, htab⟩
      · rw [hrest] at hp
        rw [hend fuel hp, Layout.finish, hready.flat.closeBlocks le_rfl,
          hready.flat.dropKey] at hrun
        cases hrun
        exact hready.tokens
      · rw [hstep fuel _ v htab, token_tab htab] at hrun
        cases hrun

end Layout

end SchemaTypes.Yaml
