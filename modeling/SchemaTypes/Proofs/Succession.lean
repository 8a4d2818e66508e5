import SchemaTypes.Proofs.Tally

/-!
Mappings one behind the other.

* `gapLines`: the blank line between two lists of schemas, unless one of them is
  empty;
* `separated_append`, `Collection.lines_append`: the lines of two lists of
  schemas are those of each, with this gap between them;
* `generateSchemas_append`: a generation for two mappings in succession writes,
  finds and counts what it does for each of them, and one blank line more.
-/

namespace SchemaTypes

/-- The blank line between two lists of which neither is empty. -/
def gapLines {α : Type} (front back : List α) : List Line :=
  if front ≠ [] ∧ back ≠ [] then [.blank] else []

@[simp] lemma gapLines_map {α β : Type} (f : α → β) (front back : List α) :
    gapLines (front.map f) (back.map f) = gapLines front back := by
  simp [gapLines]

lemma separated_append (front back : List (List Line)) :
    separated (front ++ back) = separated front ++ gapLines front back ++ separated back := by
  cases front with
  | nil => simp [gapLines, separated]
  | cons group groups =>
      cases back with
      | nil => simp [gapLines, separated]
      | cons next rest =>
          have hgap : gapLines (group :: groups) (next :: rest) = [.blank] := by simp [gapLines]
          rw [hgap, List.cons_append, Emitter.separated_cons, Emitter.separated_cons, Emitter.separated_cons,
            List.flatMap_append, List.flatMap_cons]
          simp only [List.append_assoc, List.cons_append, List.nil_append]

namespace Collection

lemma lines_append (documentation : Bool) (front back : List (String × SchemaNode)) :
    Collection.lines documentation ⟨front ++ back⟩
      = Collection.lines documentation ⟨front⟩ ++ gapLines front back
        ++ Collection.lines documentation ⟨back⟩ := by
  simp only [lines, List.map_append, separated_append, gapLines_map]

/-- Each schema is read on its own. -/
lemma ofFields_append (front back : Fields) :
    ofFields (front ++ back)
      = (⟨(ofFields front).1.schemas ++ (ofFields back).1.schemas⟩,
          (ofFields front).2 ++ (ofFields back).2) := by
  simp only [ofFields, List.map_append, List.flatMap_append]

end Collection

lemma schemaLines_append (documentation : Bool) (front back : Fields) :
    schemaLines documentation (front ++ back)
      = schemaLines documentation front ++ gapLines front back
        ++ schemaLines documentation back := by
  -- a collection has as many schemas as the mapping it is read from
  have hgap : gapLines (Collection.ofFields front).1.schemas (Collection.ofFields back).1.schemas
      = gapLines front back := by simp [gapLines, Collection.ofFields]
  rw [schemaLines, Collection.ofFields_append, Collection.lines_append, hgap]
  rfl

/-- **Two mappings in succession**, on a destination that never fails. The output
is that of the first, one empty line unless one of them is empty, and that of the
second; the warnings and the counts are added up, the empty line being one line
more. So what a schema contributes depends neither on the other schemas nor on
its place among them. -/
theorem generateSchemas_append (front back : Fields) (documentation : Bool) :
    ∃ (s t : Statistics) (a b : ByteArray),
      generateSchemas front documentation {} = .ok s { held := a, flushes := s.lines + 1 }
        ∧ generateSchemas back documentation {} = .ok t { held := b, flushes := t.lines + 1 }
        ∧ generateSchemas (front ++ back) documentation {}
          = if front ≠ [] ∧ back ≠ [] then
              .ok { s + t with lines := s.lines + t.lines + 1 }
                { held := a ++ lineEnd.toUTF8 ++ b, flushes := s.lines + t.lines + 2 }
            else
              .ok (s + t) { held := a ++ b, flushes := s.lines + t.lines + 1 } := by
  have hboth := generateSchemas_eq_ofLines (front ++ back) documentation
  rw [schemaLines_append, Collection.ofFields_append, Statistics.ofLines_append,
    List.map_append, toUTF8_terminated_append, List.length_append] at hboth
  refine ⟨_, _, _, _, generateSchemas_eq_ofLines front documentation,
    generateSchemas_eq_ofLines back documentation, ?_⟩
  by_cases hne : front ≠ [] ∧ back ≠ []
  · have hgap : gapLines front back = [.blank] := by rw [gapLines, if_pos hne]
    have htext : (terminated ([Line.blank].map Line.text)).toUTF8 = lineEnd.toUTF8 := by
      simp [terminated, Line.blank, Line.plain]
    rw [hgap, Statistics.ofLines_append, Statistics.ofLines_blank, Statistics.add_lines_add,
      Statistics.warn_lines, Statistics.warn_ofLines_add, List.map_append,
      toUTF8_terminated_append, htext, List.length_append, List.length_singleton,
      Nat.add_right_comm _ 1] at hboth
    rw [if_pos hne]
    exact hboth
  · have hgap : gapLines front back = [] := by rw [gapLines, if_neg hne]
    rw [hgap, List.append_nil, Statistics.warn_ofLines_add] at hboth
    rw [if_neg hne]
    exact hboth

end SchemaTypes
