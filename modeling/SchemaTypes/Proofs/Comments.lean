import SchemaTypes.Proofs.Denotation
import SchemaTypes.Proofs.Literals

/-!
Documentation blocks as comments.

The entries of a block are texts of the document, and stand in the block as they
are. Whether the block is one comment is therefore a matter of these texts.

* `EndsComment`, `behindComment?`: the end of a comment in a text, and what
  stands behind the first one; `behindComment?_append` relates the two;
* `endsComment_append`: no end of a comment comes about where two texts meet,
  unless a star meets a slash, which none of the marks of a block lets happen;
* `behindComment?_lines`: the first end of a comment in a block is that of its
  closing line just if no entry has one;
* `Denotation.remarks`: the attributes that a block writes out, and
  `forall_entries_iff`, which leads from entries back to attributes;
* `behindComment?_documentation`: the block of a parsed property is one comment
  just if none of these attributes has the end of a comment in its text.
-/

namespace SchemaTypes

/-! ### The end of a comment -/

/-- A text with the end of a comment in it. -/
def EndsComment (cs : List Char) : Prop := ['*', '/'] <:+: cs

instance (cs : List Char) : Decidable (EndsComment cs) := inferInstanceAs (Decidable (_ <:+: _))

/-- What stands behind the first end of a comment. -/
def behindComment? : List Char → Option (List Char)
  | c :: d :: rest => if c = '*' ∧ d = '/' then some rest else behindComment? (d :: rest)
  | _ => none

/-- An end of a comment is the first one if there is none up to its star. -/
lemma behindComment?_append (body rest : List Char) :
    behindComment? (body ++ '*' :: '/' :: rest) = some rest ↔ ¬ EndsComment (body ++ ['*']) := by
  induction body with
  | nil =>
      have hstar : ¬ EndsComment ['*'] := by decide
      simp [behindComment?, hstar]
  | cons c body ih =>
      -- the character behind `c` is the same on both sides
      obtain ⟨d, front, hfront⟩ : ∃ d front, body ++ ['*'] = d :: front :=
        List.exists_cons_of_ne_nil (by simp)
      have hwhole : body ++ '*' :: '/' :: rest = d :: (front ++ '/' :: rest) := by
        rw [List.append_cons, hfront, List.cons_append]
      rw [hwhole] at ih
      rw [List.cons_append, List.cons_append, hwhole, hfront, behindComment?]
      rw [hfront] at ih
      split
      · next hend =>
          obtain ⟨rfl, rfl⟩ := hend
          have hlonger : front ++ '/' :: rest ≠ rest := by
            intro heq
            have hlength := congrArg List.length heq
            simp only [List.length_append, List.length_cons] at hlength
            omega
          have hends : EndsComment ('*' :: '/' :: front) := ⟨[], front, rfl⟩
          simp [hlonger, hends]
      · next hend =>
          rw [ih, EndsComment, EndsComment, List.infix_cons_iff (a := c)]
          have hstart : ¬ ['*', '/'] <+: c :: d :: front := by
            rw [List.cons_prefix_cons, List.cons_prefix_cons]
            rintro ⟨rfl, rfl, -⟩
            exact hend ⟨rfl, rfl⟩
          simp [hstart]

/-- Where two texts meet there is no end of a comment, unless a star meets a
slash. -/
lemma endsComment_append {front back : List Char}
    (h : front.getLast? ≠ some '*' ∨ back.head? ≠ some '/') :
    EndsComment (front ++ back) ↔ EndsComment front ∨ EndsComment back := by
  rw [EndsComment, List.infix_append_iff]
  constructor
  · rintro (hfront | hback | ⟨l₁, l₂, hsplit, hlast, hhead⟩)
    · exact Or.inl hfront
    · exact Or.inr hback
    · rcases l₁ with _ | ⟨c, _ | ⟨d, l₁⟩⟩
      · obtain rfl : ['*', '/'] = l₂ := hsplit
        exact Or.inr hhead.isInfix
      · exfalso
        obtain ⟨rfl, rfl⟩ : '*' = c ∧ ['/'] = l₂ := by simpa using hsplit
        obtain ⟨before, rfl⟩ := hlast
        obtain ⟨after, rfl⟩ := hhead
        simp at h
      · simp only [List.cons_append, List.cons.injEq] at hsplit
        obtain ⟨rfl, rfl, hnil⟩ := hsplit
        obtain ⟨rfl, rfl⟩ := List.append_eq_nil_iff.mp hnil.symm
        exact Or.inl hlast.isInfix
  · rintro (hfront | hback)
    · exact Or.inl hfront
    · exact Or.inr (Or.inl hback)

/-! ### Blocks -/

namespace DocBlock

/-- The characters of an entry's line, with its end. -/
def entryChars (indent : Indent) (entry : String) : List Char :=
  (indent.blanks ++ entryLine entry).toList ++ ['\r', '\n']

lemma endsComment_entryChars (indent : Indent) (entry : String) :
    EndsComment (entryChars indent entry) ↔ EndsComment entry.toList := by
  have hmark : ¬ EndsComment (indent.blanks ++ "* ").toList := by cases indent <;> decide
  have hlast : (indent.blanks ++ "* ").toList.getLast? ≠ some '*' := by cases indent <;> decide
  have hend : ¬ EndsComment ['\r', '\n'] := by decide
  have hchars : entryChars indent entry
      = (indent.blanks ++ "* ").toList ++ (entry.toList ++ ['\r', '\n']) := by
    simp [entryChars, entryLine, String.toList_append]
  rw [hchars, endsComment_append (Or.inl hlast), endsComment_append (Or.inr (by decide)),
    or_iff_right hmark, or_iff_left hend]

lemma endsComment_flatMap_entryChars (indent : Indent) (entries : List String) :
    EndsComment (entries.flatMap (entryChars indent))
      ↔ ∃ entry ∈ entries, EndsComment entry.toList := by
  induction entries with
  | nil => simp [show ¬ EndsComment [] by decide]
  | cons entry rest ih =>
      have hlast : (entryChars indent entry).getLast? ≠ some '*' := by simp [entryChars]
      rw [List.flatMap_cons, endsComment_append (Or.inl hlast), endsComment_entryChars, ih,
        List.exists_mem_cons_iff]

/-- The first end of a comment in a block is that of the closing line, just if no
entry has one. -/
lemma behindComment?_lines (block : DocBlock) :
    behindComment? (terminated block.lines).toList = some lineEnd.toList
      ↔ ∀ entry ∈ block.entries, ¬ EndsComment entry.toList := by
  obtain ⟨indent, entries⟩ := block
  have hopening : ¬ EndsComment ((indent.blanks ++ opening).toList ++ ['\r', '\n']) := by
    cases indent <;> decide
  have hclosing : ¬ EndsComment (indent.blanks.toList ++ ['*', '*']) := by cases indent <;> decide
  have hhead : (indent.blanks.toList ++ ['*', '*']).head? ≠ some '/' := by cases indent <;> decide
  -- what stands in front of the closing line
  obtain ⟨front, hfront⟩ : ∃ front, front = (indent.blanks ++ opening).toList ++ ['\r', '\n']
      ++ entries.flatMap (entryChars indent) := ⟨_, rfl⟩
  have htext : (terminated (lines ⟨indent, entries⟩)).toList
      = (front ++ indent.blanks.toList ++ ['*']) ++ '*' :: '/' :: lineEnd.toList := by
    have hentry : entryChars indent
        = fun entry => indent.blanks.toList ++ ((entryLine entry).toList ++ ['\r', '\n']) := by
      funext entry
      simp [entryChars, String.toList_append]
    rw [toList_terminated, hfront, hentry]
    simp [lines, closing, lineEnd, List.flatMap_map, String.toList_append]
  have hbody : front ++ indent.blanks.toList ++ ['*'] ++ ['*']
      = front ++ (indent.blanks.toList ++ ['*', '*']) := by simp
  rw [htext, behindComment?_append, hbody, endsComment_append (Or.inr hhead),
    or_iff_left hclosing, hfront, endsComment_append (Or.inl (by simp)), or_iff_right hopening,
    endsComment_flatMap_entryChars]
  simp

end DocBlock

/-! ### Attributes -/

namespace Denotation

/-- The attributes that documentation writes out beside the example, by the type
tag of their object. A least value, which is a number, is not among them. -/
def notedKeys : String → List String
  | "string" => ["format", "pattern"]
  | "integer" => ["format"]
  | _ => []

/-- The values of the attributes of a value that its documentation writes out. -/
def remarks : Json → List Json
  | .obj fields =>
    match stringAt? fields "$ref", tag? fields with
    | none, some tag => ("example" :: notedKeys tag).filterMap (Fields.get? fields)
    | _, _ => []
  | _ => []

lemma labelled_eq (label : String) (fields : Fields) (key : String) :
    labelled label fields key
      = ([key].filterMap (Fields.get? fields)).map fun value => label ++ value.literal := by
  rw [labelled]
  cases h : Fields.get? fields key <;> simp [h]

section

variable {P : String → Prop} (hformat : ∀ text, P ("Format: " ++ text) ↔ P text)
  (hpattern : ∀ text, P ("Pattern: " ++ text) ↔ P text)
  (hminimum : ∀ n : Number, P ("Minimum: " ++ n.text))
include hformat hpattern hminimum

lemma forall_notes_iff (fields : Fields) (tag : String) :
    (∀ entry ∈ notes fields tag, P entry)
      ↔ ∀ value ∈ (notedKeys tag).filterMap (Fields.get? fields), P value.literal := by
  have hleast : ∀ entry ∈ minimumEntry fields, P entry := by
    intro entry hentry
    rw [minimumEntry] at hentry
    split at hentry
    · obtain rfl := List.mem_singleton.mp hentry
      exact hminimum _
    · cases hentry
  rw [notes.eq_def]
  split
  · show _ ↔ ∀ value ∈ (["format"] ++ ["pattern"]).filterMap (Fields.get? fields), P value.literal
    rw [List.filterMap_append, List.forall_mem_append, List.forall_mem_append, labelled_eq,
      labelled_eq, List.forall_mem_map, List.forall_mem_map]
    simp only [hformat, hpattern]
  · show _ ↔ ∀ value ∈ ["format"].filterMap (Fields.get? fields), P value.literal
    rw [List.forall_mem_append, and_iff_left hleast, labelled_eq, List.forall_mem_map]
    simp only [hformat]
  · next hstring hinteger => simp [notedKeys]

/-- What holds of texts with and without the labels in front of them, and of
least values, holds of all entries just if it holds of the attributes. -/
lemma forall_entries_iff (value : Json) :
    (∀ entry ∈ entries value, P entry) ↔ ∀ v ∈ remarks value, P v.literal := by
  cases value with
  | obj fields =>
      rw [entries, remarks]
      cases stringAt? fields "$ref" with
      | some path => simp
      | none =>
          cases tag? fields with
          | none => simp
          | some tag =>
              have hremarks : ("example" :: notedKeys tag).filterMap (Fields.get? fields)
                  = ["example"].filterMap (Fields.get? fields)
                    ++ (notedKeys tag).filterMap (Fields.get? fields) := by
                rw [← List.filterMap_append]
                rfl
              dsimp only
              rw [hremarks, List.forall_mem_append, List.forall_mem_append,
                forall_notes_iff hformat hpattern hminimum, labelled_eq, List.forall_mem_map]
              simp only [String.empty_append]
  | _ => simp [entries, remarks]

end

end Denotation

open Denotation

/-! ### Documentation -/

lemma endsComment_labelled {label : String} (hlabel : ¬ EndsComment label.toList)
    (hlast : label.toList.getLast? ≠ some '*') (text : String) :
    ¬ EndsComment (label ++ text).toList ↔ ¬ EndsComment text.toList := by
  rw [String.toList_append, endsComment_append (Or.inl hlast), or_iff_right hlabel]

/-- A number has no star. -/
lemma not_endsComment_number (n : Number) : ¬ EndsComment n.text.toList := by
  intro h
  have hstar := isNumeralChar_text n '*' (h.mem (by simp))
  exact absurd hstar (by decide)

/-- **A documentation block is one comment**: the first end of a comment in the
lines of a block, each ended by CR LF, is that of the closing line, just if none
of the attributes that the block writes out has one in its text. -/
theorem behindComment?_documentation {value : Json} {location : Location} {indent : Indent}
    {block : DocBlock} (h : (Property.ofJson value location).1.documentation indent = some block) :
    behindComment? (terminated block.lines).toList = some lineEnd.toList
      ↔ ∀ v ∈ remarks value, ¬ EndsComment v.literal.toList := by
  rw [documentation_ofJson] at h
  split_ifs at h with hempty
  obtain rfl := Option.some.inj h
  rw [DocBlock.behindComment?_lines]
  refine forall_entries_iff ?_ ?_ ?_ value
  · exact endsComment_labelled (by decide) (by decide)
  · exact endsComment_labelled (by decide) (by decide)
  · intro n
    rw [endsComment_labelled (by decide) (by decide)]
    exact not_endsComment_number n

/-- Stars and slashes in every attribute, but no star in front of a slash. -/
def starredText : Json :=
  .obj [("type", .str "string"), ("example", .arr [.str "/*", .str "/"]), ("format", .str "*"),
    ("pattern", .str "/^[a-z]* /")]

theorem behindComment?_starredText :
    ∃ block, (Property.ofJson starredText .schema).1.documentation .property = some block
      ∧ (∀ v ∈ remarks starredText, ¬ EndsComment v.literal.toList)
      ∧ behindComment? (terminated block.lines).toList = some lineEnd.toList := by
  have hattributes : ∀ v ∈ remarks starredText, ¬ EndsComment v.literal.toList := by decide +kernel
  refine ⟨_, rfl, hattributes, ?_⟩
  exact (behindComment?_documentation rfl).mpr hattributes

/-- A pattern that ends its comment. -/
def slashPattern : Json := .obj [("type", .str "string"), ("pattern", .str "^[a-z]*/x$")]

theorem pattern_ends_comment :
    (Property.ofJson slashPattern .schema).1.documentation .top
        = some ⟨.top, ["Pattern: ^[a-z]*/x$"]⟩
      ∧ behindComment? (terminated (DocBlock.lines ⟨.top, ["Pattern: ^[a-z]*/x$"]⟩)).toList
        = some "x$\r\n**/\r\n".toList
      ∧ "x$\r\n**/\r\n".toList ≠ lineEnd.toList := by
  decide +kernel

end SchemaTypes
