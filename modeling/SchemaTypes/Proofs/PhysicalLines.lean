import SchemaTypes.Proofs.Comments
import SchemaTypes.Proofs.Lists
import SchemaTypes.Proofs.Skeleton

/-!
Line ends in an output.

Every line that is written ends with CR LF. The output has no other line ends,
and no line feed that stands alone, as long as the lines themselves have no line
feeds; and these come from strings of the document only, since all other values
are written as compact JSON.

* `FeedsFollowReturns`, `lineEnds`: a text whose line feeds all stand behind
  carriage returns, and the number of CR LF pairs in a text;
* `terminated_disciplined_iff`: lines with their ends are such a text, with as
  many pairs as lines, just if no line has a line feed;
* `Denotation.shownStrings`: the strings of a mapping that reach the output:
  names, keys, referenced names, passed-through type tags, values of
  enumerations, verbatim items and documentation;
* `without_typeText`, `without_blockLines`, `without_lines`: the lines of a
  mapping have no line feeds just if these strings have none;
* `generateSchemas_disciplined_iff`: the same for the output of a generation and
  its count of lines.
-/

namespace SchemaTypes

/-! ### Returns and feeds -/

/-- A text in which every line feed stands right behind a carriage return. -/
def FeedsFollowReturns (cs : List Char) : Prop :=
  ∀ before after, cs = before ++ '\n' :: after → before.getLast? = some '\r'

/-- The number of CR LF pairs in a text. -/
def lineEnds : List Char → ℕ
  | c :: d :: rest => (if c = '\r' ∧ d = '\n' then 1 else 0) + lineEnds (d :: rest)
  | _ => 0

lemma lineEnds_concat (cs : List Char) (d : Char) :
    lineEnds (cs ++ [d]) = lineEnds cs + if cs.getLast? = some '\r' ∧ d = '\n' then 1 else 0 := by
  fun_induction lineEnds cs with
  | case1 c e rest ih =>
      rw [List.cons_append] at ih
      rw [List.cons_append, List.cons_append, lineEnds, ih, List.getLast?_cons_cons, Nat.add_assoc]
  | case2 cs hshort =>
      match cs, hshort with
      | [], _ => rfl
      | [c], _ => simp [lineEnds]
      | c :: e :: rest, hshort => exact absurd rfl (hshort c e rest)

/-- If every feed stands behind a return, there are as many pairs as feeds. -/
lemma FeedsFollowReturns.count_eq {cs : List Char} (h : FeedsFollowReturns cs) :
    cs.count '\n' = lineEnds cs := by
  induction cs using List.reverseRecOn with
  | nil => rfl
  | append_singleton cs d ih =>
      have hcs : FeedsFollowReturns cs := by
        intro before after hsplit
        exact h before (after ++ [d]) (by simp [hsplit])
      have hlast : d = '\n' → cs.getLast? = some '\r' := by
        rintro rfl
        exact h cs [] rfl
      rw [lineEnds_concat, List.count_append, ih hcs]
      by_cases hd : d = '\n'
      · simp [hd, hlast hd]
      · simp [hd]

lemma FeedsFollowReturns.append {cs ds : List Char} (hcs : FeedsFollowReturns cs)
    (hds : FeedsFollowReturns ds) : FeedsFollowReturns (cs ++ ds) := by
  intro before after hsplit
  obtain ⟨more, hbefore, hmore⟩ | ⟨more, rfl, hmore⟩ := List.append_eq_append_iff.mp hsplit
  · have hlast := hds more after hmore
    rw [hbefore, List.getLast?_append, hlast, Option.some_or]
  · cases more with
    | nil =>
        have hlast := hds [] after (by simpa using hmore.symm)
        simp at hlast
    | cons c more =>
        obtain ⟨rfl, rfl⟩ := List.cons.inj hmore
        exact hcs before more rfl

lemma feedsFollowReturns_of_notMem {cs : List Char} (h : '\n' ∉ cs) : FeedsFollowReturns cs := by
  rintro before after rfl
  simp at h

lemma feedsFollowReturns_lineEnd : FeedsFollowReturns ['\r', '\n'] := by
  intro before after hsplit
  match before, hsplit with
  | [], hsplit => simp at hsplit
  | [c], hsplit =>
      obtain rfl : '\r' = c := (List.cons.inj hsplit).1
      rfl
  | c :: d :: before, hsplit => simp at hsplit

lemma without_feed_iff {text : String} : Without ['\n'] text ↔ '\n' ∉ text.toList := by
  constructor
  · exact fun h hmem => h '\n' hmem List.mem_cons_self
  · intro h c hc hfeed
    obtain rfl := List.mem_singleton.mp hfeed
    exact h hc

/-- Every line has the feed of its end, and those of its own. -/
lemma count_terminated (texts : List String) :
    (terminated texts).toList.count '\n'
      = texts.length + (texts.flatMap String.toList).count '\n' := by
  rw [toList_terminated]
  induction texts with
  | nil => rfl
  | cons text rest ih =>
      rw [List.flatMap_cons, List.flatMap_cons, List.count_append, List.count_append, ih,
        List.count_append, List.length_cons, show ['\r', '\n'].count '\n' = 1 from rfl]
      omega

lemma feedsFollowReturns_terminated {texts : List String}
    (h : ∀ text ∈ texts, Without ['\n'] text) :
    FeedsFollowReturns (terminated texts).toList := by
  rw [toList_terminated]
  induction texts with
  | nil => exact feedsFollowReturns_of_notMem (by simp)
  | cons text rest ih =>
      have htext := without_feed_iff.mp (h text List.mem_cons_self)
      have hrest := ih fun later hlater => h later (List.mem_cons_of_mem text hlater)
      rw [List.flatMap_cons]
      exact ((feedsFollowReturns_of_notMem htext).append feedsFollowReturns_lineEnd).append hrest

/-- **Lines with their ends**: every feed stands behind a return and there are as
many pairs as lines, just if the lines have no feeds. -/
lemma terminated_disciplined_iff (texts : List String) :
    FeedsFollowReturns (terminated texts).toList
        ∧ lineEnds (terminated texts).toList = texts.length
      ↔ ∀ text ∈ texts, Without ['\n'] text := by
  have hcount := count_terminated texts
  constructor
  · rintro ⟨hfeeds, hends⟩ text htext
    rw [hfeeds.count_eq, hends] at hcount
    have hnone : '\n' ∉ texts.flatMap String.toList := List.count_eq_zero.mp (by omega)
    exact without_feed_iff.mpr fun hmem => hnone (List.mem_flatMap.mpr ⟨text, htext, hmem⟩)
  · intro h
    have hfeeds := feedsFollowReturns_terminated h
    have hnone : '\n' ∉ texts.flatMap String.toList := by
      intro hmem
      obtain ⟨text, htext, hfeed⟩ := List.mem_flatMap.mp hmem
      exact without_feed_iff.mp (h text htext) hfeed
    refine ⟨hfeeds, ?_⟩
    rw [← hfeeds.count_eq, hcount, List.count_eq_zero.mpr hnone, Nat.add_zero]

/-! ### Strings that are shown -/

namespace Denotation

/-- The strings among the values of an enumeration. -/
def enumStrings (fields : Fields) : List String :=
  match fields.get? "enum" with
  | some (.arr values) => values.filterMap Json.text?
  | _ => []

/-- The strings in the type expression of an object; `array` are those of its
type as an array. -/
def objectStrings (fields : Fields) (array : List String) : List String :=
  match stringAt? fields "$ref", tag? fields with
  | some path, _ => [lastSegment path]
  | none, none => []
  | none, some "array" => array
  | none, some "string" => enumStrings fields
  | none, some tag => if tag ∈ recognisedTags then [] else [tag]

mutual

/-- The strings in the type expression of an array with the given `items`. -/
def itemsStrings : Json → List String
  | .str text => if trim text ∈ ["string", "integer", "boolean"] then [] else [text]
  | .obj fields =>
    match stringAt? fields "$ref" with
    | some path => [lastSegment path]
    | none =>
      if (Fields.get? fields "type").isSome then objectStrings fields (arrayStrings fields) else []
  | _ => []

/-- The strings in the type expression of an array with the given attributes. -/
def arrayStrings : List (String × Json) → List String
  | [] => []
  | (key, value) :: rest => if key = "items" then itemsStrings value else arrayStrings rest

end

/-- The strings in the type expression of a value. -/
def typeStrings : Json → List String
  | .obj fields => objectStrings fields (arrayStrings fields)
  | _ => []

/-- The strings in the documentation of a value. -/
def remarkStrings (documentation : Bool) (value : Json) : List String :=
  if documentation then (remarks value).filterMap Json.text? else []

/-- The name of the schema that an entry of `anyOf` refers to. -/
def memberStrings : Json → List String
  | .obj fields => ((stringAt? fields "$ref").map lastSegment).toList
  | _ => []

/-- The strings in the type expression of an `anyOf`. -/
def unionStrings : Json → List String
  | .arr entries => entries.flatMap memberStrings
  | _ => []

/-- The strings in the lines of a schema. -/
def groupStrings (documentation : Bool) (name : String) (value : Json) : List String :=
  let plain := remarkStrings documentation value ++ typeStrings value
  match value with
  | .obj fields =>
    match Fields.get? fields "properties", Fields.get? fields "anyOf" with
    | some properties, _ =>
      name :: (properties.fields?.getD []).flatMap
        fun (key, value) => key :: remarkStrings documentation value ++ typeStrings value
    | none, some anyOf => name :: unionStrings anyOf
    | none, none => name :: plain
  | _ => name :: plain

/-- The strings of a mapping that reach its output. -/
def shownStrings (documentation : Bool) (mapping : Fields) : List String :=
  mapping.flatMap fun (name, value) => groupStrings documentation name value

end Denotation

open Denotation

/-! ### Joined texts and literals -/

lemma without_intercalate {chars : List Char} {separator : String}
    (hseparator : Without chars separator) (texts : List String) :
    Without chars (separator.intercalate texts) ↔ ∀ text ∈ texts, Without chars text := by
  rw [Without, String.toList_intercalate, forall_mem_intercalate hseparator, List.forall_mem_map]
  rfl

/-- A value other than a string is written without line feeds. -/
lemma without_compact (value : Json) : Without ['\n'] value.compact :=
  without_feed_iff.mpr fun hfeed => absurd (Json.printable_compact value '\n' hfeed) (by decide)

lemma without_number (n : Number) : Without ['\n'] n.text := without_compact (.num n)

lemma without_literals (values : List Json) :
    (∀ value ∈ values, Without ['\n'] value.literal)
      ↔ ∀ text ∈ values.filterMap Json.text?, Without ['\n'] text := by
  induction values with
  | nil => simp
  | cons value rest ih =>
      rw [List.forall_mem_cons, ih]
      cases value with
      | str text => simp [Json.text?, Json.literal]
      | _ => exact and_iff_right (without_compact _)

/-! ### Type expressions and documentation -/

lemma without_enumText (fields : Fields) :
    Without ['\n'] (enumText fields) ↔ ∀ text ∈ enumStrings fields, Without ['\n'] text := by
  have hplain : Without ['\n'] "string" := by decide
  have hquote : Without ['\n'] "'" := by decide
  rw [enumText, enumStrings]
  cases fields.get? "enum" with
  | none => simpa using hplain
  | some value =>
      cases value with
      | arr values =>
          cases values with
          | nil => simpa using hplain
          | cons first rest =>
              simp only [without_intercalate (show Without ['\n'] "|" by decide),
                List.forall_mem_map, without_append, hquote, true_and, and_true]
              exact without_literals (first :: rest)
      | _ => simpa using hplain

/-- The type expression of an object has no line feeds just if its strings have
none, given the same of its type as an array. -/
lemma without_objectText (fields : Fields) {array : String} {strings : List String}
    (harray : Without ['\n'] array ↔ ∀ text ∈ strings, Without ['\n'] text) :
    Without ['\n'] (objectText fields array)
      ↔ ∀ text ∈ objectStrings fields strings, Without ['\n'] text := by
  have hwords : ∀ word ∈ ["unknown", "number", "boolean", "\x7b\x7d", "string"],
      Without ['\n'] word := by decide
  rw [objectText]
  split
  · next path tag href => simp [objectStrings, href]
  · next href htag => simp [objectStrings, href, htag, hwords]
  · next href htag => simpa [objectStrings, href, htag] using harray
  · next href htag => simpa [objectStrings, href, htag] using without_enumText fields
  · next href htag => simp [objectStrings, href, htag, recognisedTags, hwords]
  · next href htag => simp [objectStrings, href, htag, recognisedTags, hwords]
  · next href htag => simp [objectStrings, href, htag, recognisedTags, hwords]
  · next href htag => simp [objectStrings, href, htag, recognisedTags, hwords]
  · next tag harr hstring hinteger hboolean hobject hemail href htag =>
      have hother : tag ∉ recognisedTags := by
        simp only [recognisedTags, List.mem_cons, List.not_mem_nil, or_false, not_or]
        exact ⟨harr, hstring, hinteger, hboolean, hobject, hemail⟩
      simp [objectStrings, href, htag, hother]

mutual

/-- Items have no line feeds just if their strings have none. -/
lemma without_itemsText :
    ∀ value : Json, Without ['\n'] (itemsText value)
      ↔ ∀ text ∈ itemsStrings value, Without ['\n'] text
  | .str text => by
      have htokens : ∀ token ∈ ["string", "integer", "boolean"],
          Without ['\n'] (token ++ "[]") := by
        decide
      rw [itemsText, itemsStrings]
      split_ifs with htoken
      · simpa using htokens _ htoken
      · simp
  | .obj fields => by
      have hsuffix : Without ['\n'] "[]" := by decide
      have hobject := without_objectText fields (without_arrayText fields)
      rw [itemsText, itemsStrings]
      cases stringAt? fields "$ref" with
      | some path => simp [hsuffix]
      | none =>
          by_cases htype : (Fields.get? fields "type").isSome = true
          · simp only [if_pos htype, without_append, hobject, hsuffix, and_true]
          · simpa [htype] using without_compact (.obj fields)
  | .null => by simpa [itemsText, itemsStrings] using without_compact .null
  | .bool b => by simpa [itemsText, itemsStrings] using without_compact (.bool b)
  | .num n => by simpa [itemsText, itemsStrings] using without_compact (.num n)
  | .arr items => by simpa [itemsText, itemsStrings] using without_compact (.arr items)

lemma without_arrayText :
    ∀ fields : List (String × Json), Without ['\n'] (arrayText fields)
      ↔ ∀ text ∈ arrayStrings fields, Without ['\n'] text
  | [] => by
      have hunknown : Without ['\n'] "unknown[]" := by decide
      simpa [arrayText, arrayStrings] using hunknown
  | (key, value) :: rest => by
      rw [arrayText, arrayStrings]
      split
      · exact without_itemsText value
      · exact without_arrayText rest

end

/-- **A type expression has no line feeds** just if its strings have none. -/
lemma without_typeText (value : Json) :
    Without ['\n'] (typeText value) ↔ ∀ text ∈ typeStrings value, Without ['\n'] text := by
  have hunknown : Without ['\n'] "unknown" := by decide
  cases value with
  | obj fields => exact without_objectText fields (without_arrayText fields)
  | _ => simpa [typeText, typeStrings] using hunknown

/-- **The lines of a block have no line feeds** just if the strings that they
show have none. -/
lemma without_blockLines (documentation : Bool) {blanks : String}
    (hblanks : Without ['\n'] blanks) (value : Json) :
    (∀ line ∈ blockLines documentation blanks value, Without ['\n'] line)
      ↔ ∀ text ∈ remarkStrings documentation value, Without ['\n'] text := by
  have hentries : (∀ entry ∈ entries value, Without ['\n'] entry)
      ↔ ∀ text ∈ (remarks value).filterMap Json.text?, Without ['\n'] text := by
    rw [← without_literals]
    refine forall_entries_iff ?_ ?_ ?_ value
    · exact fun text => without_append.trans (and_iff_right (by decide))
    · exact fun text => without_append.trans (and_iff_right (by decide))
    · exact fun n => without_append.mpr ⟨by decide, without_number n⟩
  have hmarks : Without ['\n'] "" ∧ Without ['\n'] "/**" ∧ Without ['\n'] "* "
      ∧ Without ['\n'] "**/" := by decide
  rw [blockLines, remarkStrings]
  cases documentation with
  | false => simp
  | true =>
      rw [if_pos rfl, ← hentries]
      by_cases hempty : entries value = []
      · simp [hempty]
      · rw [if_pos ⟨rfl, hempty⟩]
        simp only [List.cons_append, List.forall_mem_cons, List.forall_mem_append,
          List.forall_mem_map, without_append, hblanks, hmarks, true_and, List.not_mem_nil,
          false_implies, implies_true, and_true]

/-! ### Lines of a mapping -/

lemma without_propertyLines (documentation : Bool) (fields : Fields) (key : String) (value : Json) :
    (∀ line ∈ propertyLines documentation fields key value, Without ['\n'] line)
      ↔ ∀ text ∈ key :: remarkStrings documentation value ++ typeStrings value,
          Without ['\n'] text := by
  have hmarks : Without ['\n'] "  " ∧ Without ['\n'] ": "
      ∧ Without ['\n'] (if isRequired fields key then "" else "?") := by
    refine ⟨by decide, by decide, ?_⟩
    split_ifs <;> decide
  rw [propertyLines, List.forall_mem_append, without_blockLines documentation (by decide)]
  simp only [List.forall_mem_cons, List.cons_append, List.forall_mem_append, without_append,
    without_typeText, hmarks, true_and, and_true, List.not_mem_nil, false_implies, implies_true]
  tauto

lemma without_memberText (entry : Json) :
    Without ['\n'] (memberText entry) ↔ ∀ text ∈ memberStrings entry, Without ['\n'] text := by
  have hunknown : Without ['\n'] "unknown" := by decide
  cases entry with
  | obj fields =>
      rw [memberText, memberStrings]
      cases stringAt? fields "$ref" with
      | none => simpa using hunknown
      | some path => simp
  | _ => simpa [memberText, memberStrings] using hunknown

lemma without_unionText (anyOf : Json) :
    Without ['\n'] (unionText anyOf) ↔ ∀ text ∈ unionStrings anyOf, Without ['\n'] text := by
  have hunknown : Without ['\n'] "unknown" := by decide
  cases anyOf with
  | arr entries =>
      cases entries with
      | nil => simpa [unionText, unionStrings] using hunknown
      | cons entry rest =>
          rw [unionText, unionStrings, without_intercalate (by decide), List.forall_mem_map,
            List.forall_mem_flatMap]
          simp only [without_memberText]
  | _ => simpa [unionText, unionStrings] using hunknown

/-- The lines of a schema have no line feeds just if its strings have none. -/
lemma without_group (documentation : Bool) (name : String) (value : Json) :
    (∀ line ∈ group documentation name value, Without ['\n'] line)
      ↔ ∀ text ∈ groupStrings documentation name value, Without ['\n'] text := by
  have hhead : ∀ text, Without ['\n'] ("export type " ++ name ++ " = " ++ text)
      ↔ Without ['\n'] name ∧ Without ['\n'] text := by
    have hmarks : Without ['\n'] "export type " ∧ Without ['\n'] " = " := by decide
    intro text
    simp only [without_append, hmarks, true_and, and_true]
  have hbraces : Without ['\n'] "\x7b" ∧ Without ['\n'] "\x7d" := by decide
  have hplain : (∀ line ∈ blockLines documentation "" value
        ++ ["export type " ++ name ++ " = " ++ typeText value], Without ['\n'] line)
      ↔ ∀ text ∈ name :: (remarkStrings documentation value ++ typeStrings value),
          Without ['\n'] text := by
    rw [List.forall_mem_append, without_blockLines documentation (by decide),
      List.forall_mem_singleton, hhead, without_typeText, List.forall_mem_cons, List.forall_mem_append]
    tauto
  cases value with
  | obj fields =>
      simp only [group, groupStrings]
      cases hproperties : Fields.get? fields "properties" with
      | some properties =>
          simp only [List.cons_append, List.forall_mem_cons, List.forall_mem_append,
            List.forall_mem_flatMap, hhead, hbraces, without_propertyLines, and_true,
            List.not_mem_nil, false_implies, implies_true]
      | none =>
          cases hanyOf : Fields.get? fields "anyOf" with
          | some anyOf =>
              simp only [List.forall_mem_singleton, hhead, without_unionText, List.forall_mem_cons]
          | none => exact hplain
  | _ => exact hplain

/-- **The lines of a mapping have no line feeds** just if the strings that it
shows have none. -/
lemma without_lines (documentation : Bool) (mapping : Fields) :
    (∀ line ∈ lines documentation mapping, Without ['\n'] line)
      ↔ ∀ text ∈ shownStrings documentation mapping, Without ['\n'] text := by
  rw [lines, forall_mem_intercalate (by decide), List.forall_mem_map, shownStrings,
    List.forall_mem_flatMap]
  simp only [without_group]

/-- **Line ends of an output.** On a destination that never fails, all line feeds
of an output stand right behind carriage returns and there are as many CR LF pairs
as lines were counted, just if none of the strings that the mapping shows has a
line feed. -/
theorem generateSchemas_disciplined_iff (mapping : Fields) (documentation : Bool) :
    ∃ statistics sink, ∃ text : String,
      generateSchemas mapping documentation {} = .ok statistics sink ∧ sink.held = text.toUTF8
      ∧ (FeedsFollowReturns text.toList ∧ lineEnds text.toList = statistics.lines
        ↔ ∀ shown ∈ shownStrings documentation mapping, Without ['\n'] shown) := by
  obtain ⟨statistics, hrun, hlines⟩ := generateSchemas_unlimited mapping documentation
  refine ⟨statistics, _, _, hrun, rfl, ?_⟩
  rw [hlines, terminated_disciplined_iff, schemaTexts_eq_lines, without_lines]

/-- A type tag on two lines. -/
def brokenTag : Fields := [("A", .obj [("type", .str "int\nlong")])]

theorem tag_breaks_line :
    schemaTexts true brokenTag = ["export type A = int\nlong"]
      ∧ (∃ statistics, generateSchemas brokenTag true {}
          = .ok statistics { held := "export type A = int\nlong\r\n".toUTF8, flushes := 2 })
      ∧ ¬ FeedsFollowReturns "export type A = int\nlong\r\n".toList := by
  have htexts : schemaTexts true brokenTag = ["export type A = int\nlong"] := by decide +kernel
  refine ⟨htexts, ?_, fun h => ?_⟩
  · obtain ⟨statistics, hrun, -⟩ := generateSchemas_unlimited brokenTag true
    rw [htexts] at hrun
    exact ⟨statistics, hrun⟩
  · have hlast := h "export type A = int".toList "long\r\n".toList (by decide)
    exact absurd hlast (by decide)

end SchemaTypes
