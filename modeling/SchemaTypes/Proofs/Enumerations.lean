import Mathlib.Tactic
import SchemaTypes.Schema.Node

/-!
Type expressions of enumerations.

Values stand between single quotes and are parted by bars, and nothing inside of
a value is escaped. What the expression says of the values is therefore a matter
of the quotes among their characters.

* `behind`: the text of an enumeration from the end of a value on, and
  `toList_render_enum`: the type expression in these terms;
* `HasSeam`: what parts two values, within a value and its closing quote;
  `behind_inj` says that values without a seam end where they seem to, and
  `exists_behind_eq_of_hasSeam` that a value with one need not;
* `readLiterals`: the literals of a text, each ending at the next quote;
  `literalsFrom_behind` and `notMem_of_literalsFrom` say that these are the
  values just if no value has a quote;
* `render_enum_eq_iff`, `exists_render_eq_of_hasSeam`, `readLiterals_enum`: the same of
  type expressions, which `enum_render_inj` puts together.
-/

namespace SchemaTypes

/-! ### The text of an enumeration -/

/-- What follows a value in the type expression of an enumeration: its closing
quote, and the later values. -/
def behind : List (List Char) → List Char
  | [] => ['\'']
  | value :: rest => '\'' :: '|' :: '\'' :: (value ++ behind rest)

lemma toList_render_enum (value : String) (rest : List String) (format pattern : Option String) :
    (Kind.string (some (value :: rest)) format pattern).render.toList
      = '\'' :: (value.toList ++ behind (rest.map String.toList)) := by
  induction rest generalizing value with
  | nil => simp [Kind.render, joinWith, enumLiteral, behind, String.toList_append]
  | cons next rest ih =>
      have hnext := ih next
      simp only [Kind.render, List.map_cons, joinWith, String.toList_append] at hnext ⊢
      rw [hnext]
      simp [enumLiteral, behind, String.toList_append]

/-- What may follow the closing quote of a value: nothing, or the bar and the opening
quote of the next value. -/
def Resumes (rest : List Char) : Prop := rest = [] ∨ ∃ more, rest = '|' :: '\'' :: more

/-- Behind a value there is a quote, and behind it the end or the next value. -/
lemma exists_behind_eq (values : List (List Char)) :
    ∃ rest, behind values = '\'' :: rest ∧ Resumes rest := by
  cases values with
  | nil => exact ⟨[], rfl, Or.inl rfl⟩
  | cons value rest => exact ⟨_, rfl, Or.inr ⟨_, rfl⟩⟩

/-! ### Values without seams -/

/-- A text that, with its closing quote, holds what parts two values. -/
def HasSeam (cs : List Char) : Prop := ['\'', '|', '\''] <:+: cs ++ ['\'']

instance (cs : List Char) : Decidable (HasSeam cs) := inferInstanceAs (Decidable (_ <:+: _))

/-- A value that goes on where another one ends has a seam there. -/
lemma eq_nil_of_append_quote {v w more rest rest' : List Char} (hv : ¬ HasSeam v)
    (hvw : v = w ++ more) (hrest : '\'' :: rest' = more ++ '\'' :: rest)
    (hresumes : Resumes rest') : more = [] := by
  cases more with
  | nil => rfl
  | cons c more =>
      simp only [List.cons_append, List.cons.injEq] at hrest
      obtain ⟨rfl, hrest⟩ := hrest
      exfalso
      obtain rfl | ⟨tail, rfl⟩ := hresumes
      · simp at hrest
      · cases more with
        | nil => simp at hrest
        | cons d more =>
            simp only [List.cons_append, List.cons.injEq] at hrest
            obtain ⟨rfl, hrest⟩ := hrest
            -- the quote behind the bar is in the value or closes it
            obtain ⟨end', hend⟩ : ∃ end', more ++ ['\''] = '\'' :: end' := by
              cases more with
              | nil => exact ⟨[], rfl⟩
              | cons e more =>
                  simp only [List.cons_append, List.cons.injEq] at hrest
                  exact ⟨more ++ ['\''], by rw [← hrest.1, List.cons_append]⟩
            exact hv ⟨w, end', by simp [hvw, ← hend]⟩

/-- Values without seams end where the first quote is behind which they may end. -/
lemma append_quote_inj {v w rest rest' : List Char} (hv : ¬ HasSeam v) (hw : ¬ HasSeam w)
    (hrest : Resumes rest) (hrest' : Resumes rest')
    (h : v ++ '\'' :: rest = w ++ '\'' :: rest') : v = w ∧ rest = rest' := by
  obtain ⟨more, hwv, hmore⟩ | ⟨more, hvw, hmore⟩ := List.append_eq_append_iff.mp h
  · obtain rfl := eq_nil_of_append_quote hw hwv hmore hrest
    simp_all
  · obtain rfl := eq_nil_of_append_quote hv hvw hmore hrest'
    simp_all

/-- Enumerations of values without seams are told apart by their texts. -/
lemma behind_inj {v w : List Char} {vs ws : List (List Char)} (hv : ∀ x ∈ v :: vs, ¬ HasSeam x)
    (hw : ∀ x ∈ w :: ws, ¬ HasSeam x) (h : v ++ behind vs = w ++ behind ws) :
    v :: vs = w :: ws := by
  induction vs generalizing v w ws with
  | nil =>
      obtain ⟨rest', hws, hrest'⟩ := exists_behind_eq ws
      rw [hws] at h
      obtain ⟨rfl, rfl⟩ :=
        append_quote_inj (hv v (by simp)) (hw w (by simp)) (Or.inl rfl) hrest' h
      cases ws with
      | nil => rfl
      | cons y ws => simp [behind] at hws
  | cons x vs ih =>
      obtain ⟨rest', hws, hrest'⟩ := exists_behind_eq ws
      rw [hws] at h
      obtain ⟨rfl, rfl⟩ :=
        append_quote_inj (hv v (by simp)) (hw w (by simp)) (Or.inr ⟨_, rfl⟩) hrest' h
      cases ws with
      | nil => simp [behind] at hws
      | cons y ws =>
          simp only [behind, List.cons.injEq, true_and] at hws
          rw [ih (fun z hz => hv z (by simp_all)) (fun z hz => hw z (by simp_all)) hws.symm]

/-- **A value with a seam is told apart from nothing**: it is in an enumeration that
has the text of another one. -/
lemma exists_behind_eq_of_hasSeam {v : List Char} (h : HasSeam v) :
    ∃ vs w ws, v :: vs ≠ w :: ws ∧ v ++ behind vs = w ++ behind ws := by
  obtain ⟨front, back, hv⟩ := h
  cases back using List.reverseRecOn with
  | nil =>
      -- the seam ends at the closing quote of the value
      have hv' : v = front ++ ['\'', '|'] :=
        List.append_cancel_right (show v ++ ['\''] = front ++ ['\'', '|'] ++ ['\''] by simp [← hv])
      refine ⟨[[]], front, [['|', '\'']], by simp, ?_⟩
      simp [hv', behind]
  | append_singleton back c =>
      have hsplit : (front ++ ['\'', '|', '\''] ++ back) ++ [c] = v ++ ['\''] := by
        simpa using hv
      obtain ⟨hv', -⟩ := List.append_inj' hsplit rfl
      refine ⟨[], front, [back], by simp, ?_⟩
      simp [← hv', behind]

/-! ### Reading literals -/

/-- The literals of a text from inside of one of them, of which `read` has been
read. A literal ends at the next quote, and a bar parts it from the one behind. -/
def literalsFrom (read : List Char) : List Char → Option (List (List Char))
  | [] => none
  | c :: rest =>
    if c = '\'' then
      match rest with
      | [] => some [read]
      | '|' :: '\'' :: rest => (literalsFrom [] rest).map (read :: ·)
      | _ => none
    else literalsFrom (read ++ [c]) rest

/-- The single-quoted literals of a text, parted by bars. -/
def readLiterals (text : String) : Option (List String) :=
  match text.toList with
  | '\'' :: rest => (literalsFrom [] rest).map (List.map String.ofList)
  | _ => none

lemma literalsFrom_append {v : List Char} (h : '\'' ∉ v) (read rest : List Char) :
    literalsFrom read (v ++ rest) = literalsFrom (read ++ v) rest := by
  induction v generalizing read with
  | nil => simp
  | cons c v ih =>
      obtain ⟨hc, hv⟩ := List.ne_and_not_mem_of_not_mem_cons h
      rw [List.cons_append, literalsFrom.eq_def]
      simp only [if_neg (Ne.symm hc), ih hv, List.append_assoc, List.singleton_append]

/-- Values without quotes are read back. -/
lemma literalsFrom_behind (read : List Char) {values : List (List Char)}
    (h : ∀ v ∈ values, '\'' ∉ v) : literalsFrom read (behind values) = some (read :: values) := by
  induction values generalizing read with
  | nil => simp [behind, literalsFrom]
  | cons v values ih =>
      have hv := h v List.mem_cons_self
      have hvalues := ih v fun w hw => h w (List.mem_cons_of_mem v hw)
      rw [behind, literalsFrom, if_pos rfl]
      simp only [literalsFrom_append hv, List.nil_append, hvalues, Option.map_some]

/-- What is read has no quotes. -/
lemma notMem_of_literalsFrom {read cs : List Char} {values : List (List Char)}
    (h : literalsFrom read cs = some values) (hread : '\'' ∉ read) : ∀ v ∈ values, '\'' ∉ v := by
  fun_induction literalsFrom read cs generalizing values with
  | case1 => simp at h
  | case2 read =>
      obtain rfl := Option.some.inj h
      simpa using hread
  | case3 read rest ih =>
      obtain ⟨later, hlater, rfl⟩ := Option.map_eq_some_iff.mp h
      intro v hv
      obtain rfl | hv := List.mem_cons.mp hv
      · exact hread
      · exact ih hlater (by simp) v hv
  | case4 => simp at h
  | case5 read c rest hc ih => exact ih h (by simp [hread, Ne.symm hc])

/-- The values of an enumeration are read off its type expression just if none
has a quote. -/
theorem readLiterals_enum {values : List String} (hne : values ≠ [])
    (format pattern : Option String) :
    readLiterals (Kind.string (some values) format pattern).render = some values
      ↔ ∀ v ∈ values, '\'' ∉ v.toList := by
  obtain ⟨value, rest, rfl⟩ := List.exists_cons_of_ne_nil hne
  have hread : readLiterals (Kind.string (some (value :: rest)) format pattern).render
      = (literalsFrom [] (value.toList ++ behind (rest.map String.toList))).map
          (List.map String.ofList) := by
    simp only [readLiterals, toList_render_enum]
  rw [hread]
  constructor
  · intro h v hv
    obtain ⟨chars, hchars, hvalues⟩ := Option.map_eq_some_iff.mp h
    obtain ⟨cs, hcs, rfl⟩ := List.mem_map.mp (hvalues ▸ hv)
    rw [String.toList_ofList]
    exact notMem_of_literalsFrom hchars (by simp) cs hcs
  · intro h
    have hvalue := h value List.mem_cons_self
    have hrest : ∀ v ∈ rest.map String.toList, '\'' ∉ v := by
      intro v hv
      obtain ⟨text, htext, rfl⟩ := List.mem_map.mp hv
      exact h text (List.mem_cons_of_mem value htext)
    rw [literalsFrom_append hvalue, List.nil_append, literalsFrom_behind _ hrest]
    simp [Function.comp_def]

/-! ### Type expressions -/

/-- **Enumerations are told apart by their type expressions**, as long as none of
their values has a seam. -/
theorem render_enum_eq_iff {vs ws : List String} (hvs : vs ≠ []) (hws : ws ≠ [])
    (hv : ∀ v ∈ vs, ¬ HasSeam v.toList) (hw : ∀ w ∈ ws, ¬ HasSeam w.toList)
    (format pattern format' pattern' : Option String) :
    (Kind.string (some vs) format pattern).render
      = (Kind.string (some ws) format' pattern').render ↔ vs = ws := by
  refine ⟨fun h => ?_, fun h => by rw [h]; rfl⟩
  obtain ⟨v, vs, rfl⟩ := List.exists_cons_of_ne_nil hvs
  obtain ⟨w, ws, rfl⟩ := List.exists_cons_of_ne_nil hws
  have htext := congrArg String.toList h
  rw [toList_render_enum, toList_render_enum, List.cons.injEq] at htext
  have hvalues : (v :: vs).map String.toList = (w :: ws).map String.toList := by
    refine behind_inj ?_ ?_ htext.2
    · rw [← List.map_cons, List.forall_mem_map]
      exact hv
    · rw [← List.map_cons, List.forall_mem_map]
      exact hw
  exact List.map_injective_iff.mpr (fun _ _ => String.toList_inj.mp) hvalues

/-- **No value with a seam could be allowed**: it is in two enumerations with one type
expression. -/
theorem exists_render_eq_of_hasSeam {v : String} (h : HasSeam v.toList)
    (format pattern : Option String) :
    ∃ us ts, v ∈ us ∧ ts ≠ [] ∧ us ≠ ts
      ∧ (Kind.string (some us) format pattern).render
        = (Kind.string (some ts) format pattern).render := by
  obtain ⟨vs, w, ws, hne, htext⟩ := exists_behind_eq_of_hasSeam h
  refine ⟨v :: vs.map String.ofList, .ofList w :: ws.map String.ofList, by simp, by simp,
    fun heq => hne ?_, String.toList_inj.mp ?_⟩
  · simpa [Function.comp_def] using congrArg (List.map String.toList) heq
  · simpa [toList_render_enum, Function.comp_def] using htext

/-- **What type expressions tell of enumerations.** Values without seams are told apart,
values with seams are not, and reading an expression as quoted literals gives its values
back just if they have no quotes at all. -/
theorem enum_render_inj (format pattern format' pattern' : Option String) :
    (∀ vs ws : List String, vs ≠ [] → ws ≠ [] → (∀ v ∈ vs, ¬ HasSeam v.toList) →
        (∀ w ∈ ws, ¬ HasSeam w.toList) →
        ((Kind.string (some vs) format pattern).render
          = (Kind.string (some ws) format' pattern').render ↔ vs = ws))
      ∧ (∀ v : String, HasSeam v.toList → ∃ us ts, v ∈ us ∧ ts ≠ [] ∧ us ≠ ts
          ∧ (Kind.string (some us) format pattern).render
            = (Kind.string (some ts) format pattern).render)
      ∧ ∀ us : List String, us ≠ [] →
        (readLiterals (Kind.string (some us) format pattern).render = some us
          ↔ ∀ u ∈ us, '\'' ∉ u.toList) :=
  ⟨fun _ _ hvs hws hv hw => render_enum_eq_iff hvs hws hv hw format pattern format' pattern',
    fun _ hseam => exists_render_eq_of_hasSeam hseam format pattern,
    fun _ hus => readLiterals_enum hus format pattern⟩

/-- Quotes and bars in values, and no seams. -/
theorem enum_render_inj_quotes :
    (∀ v ∈ ["it's", "|'", "'|x"], ¬ HasSeam v.toList)
      ∧ (∀ w ∈ ["it", "s", "|'", "'|x"], ¬ HasSeam w.toList)
      ∧ (Kind.string (some ["it's", "|'", "'|x"]) none none).render
        ≠ (Kind.string (some ["it", "s", "|'", "'|x"]) none none).render
      ∧ readLiterals (Kind.string (some ["a|b", "\\"]) none none).render = some ["a|b", "\\"] := by
  have hv : ∀ v ∈ ["it's", "|'", "'|x"], ¬ HasSeam v.toList := by decide
  have hw : ∀ w ∈ ["it", "s", "|'", "'|x"], ¬ HasSeam w.toList := by decide
  obtain ⟨hinj, -, hread⟩ := enum_render_inj none none none none
  exact ⟨hv, hw, fun h => absurd ((hinj _ _ (by decide) (by decide) hv hw).mp h) (by decide),
    (hread ["a|b", "\\"] (by decide)).mpr (by decide)⟩

/-- A value with the end of a value in it is taken for two. -/
theorem enum_render_collides :
    (Kind.string (some ["a'|'b"]) none none).render
        = (Kind.string (some ["a", "b"]) none none).render
      ∧ ["a'|'b"] ≠ ["a", "b"]
      ∧ readLiterals (Kind.string (some ["a'|'b"]) none none).render = some ["a", "b"] := by
  decide +kernel

end SchemaTypes
