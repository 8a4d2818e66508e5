import Mathlib.Data.List.TakeWhile
import Mathlib.Tactic

/-!
Lists.

* `flatMap_intercalate`, `nil_intercalate`, `forall_mem_intercalate`,
  `mem_intercalate`: lists one after the other, with a separator between them;
* `exists_last_or_forall`, `exists_front_of_one_lt_length`: the end of a list, and what
  stands in front of it;
* `span_append_cons`, `drop_length_takeWhile`: the front of a list, up to where a
  predicate stops;
* `insertIdx_length`: a new element in front of the last one;
* `join_eq_empty`: empty texts one after the other.
-/

namespace SchemaTypes

variable {α β : Type}

/-! ### Separators -/

/-- What is made of the elements of joined lists is joined by what is made of the
separator. -/
lemma flatMap_intercalate (f : α → List β) (separator : List α) (groups : List (List α)) :
    (separator.intercalate groups).flatMap f
      = (separator.flatMap f).intercalate (groups.map (·.flatMap f)) := by
  induction groups with
  | nil => rfl
  | cons group rest ih =>
      cases rest with
      | nil => simp
      | cons next rest =>
          simp only [List.intercalate_cons_cons, List.map_cons, List.flatMap_append] at ih ⊢
          rw [ih]

lemma nil_intercalate (groups : List (List α)) : [].intercalate groups = groups.flatten := by
  induction groups with
  | nil => rfl
  | cons group rest ih =>
      cases rest with
      | nil => simp
      | cons next rest =>
          rw [List.intercalate_cons_cons, ih, List.append_nil]
          rfl

/-- What holds of a separator holds of all parts of a list just if it holds of
the parts between separators. -/
lemma forall_mem_intercalate {p : α → Prop} {separator : List α}
    (hseparator : ∀ a ∈ separator, p a) (groups : List (List α)) :
    (∀ a ∈ separator.intercalate groups, p a) ↔ ∀ group ∈ groups, ∀ a ∈ group, p a := by
  induction groups with
  | nil => simp
  | cons group rest ih =>
      cases rest with
      | nil => simp
      | cons next rest =>
          rw [List.intercalate_cons_cons, List.forall_mem_append, List.forall_mem_append, ih,
            and_iff_left hseparator, List.forall_mem_cons (a := group)]

/-- What is in joined lists is in the separator or in one of the lists. -/
lemma mem_intercalate {separator : List α} {groups : List (List α)} {a : α}
    (h : a ∈ separator.intercalate groups) : a ∈ separator ∨ ∃ group ∈ groups, a ∈ group := by
  refine (forall_mem_intercalate (p := fun b => b ∈ separator ∨ ∃ group ∈ groups, b ∈ group)
    (fun _ hb => .inl hb) groups).mpr ?_ a h
  exact fun group hgroup _ hb => .inr ⟨group, hgroup, hb⟩

/-! ### Ends of lists -/

/-- A list has a last element outside of a class, unless all are of the class. -/
lemma exists_last_or_forall {p : α → Prop} (l : List α) :
    (∀ a ∈ l, p a) ∨ ∃ front last back, l = front ++ last :: back ∧ ¬ p last ∧ ∀ a ∈ back, p a := by
  induction l with
  | nil => exact .inl (by simp)
  | cons a l ih =>
      obtain hall | ⟨front, last, back, rfl, hlast, hback⟩ := ih
      · by_cases ha : p a
        · exact .inl (by simpa using ⟨ha, hall⟩)
        · exact .inr ⟨[], a, l, rfl, ha, hall⟩
      · exact .inr ⟨a :: front, last, back, rfl, hlast, hback⟩

/-- A list of two or more has a last element, and others in front of it. -/
lemma exists_front_of_one_lt_length {l : List α} (h : 1 < l.length) :
    ∃ front last, l = front ++ [last] ∧ front ≠ [] := by
  refine ⟨l.dropLast, l.getLast (List.ne_nil_of_length_pos (by omega)),
    (List.dropLast_append_getLast _).symm, List.ne_nil_of_length_pos ?_⟩
  rw [List.length_dropLast]
  omega

lemma insertIdx_length (before : List α) (last a : α) :
    (before ++ [last]).insertIdx before.length a = before ++ [a, last] := by
  induction before with
  | nil => rfl
  | cons b before ih =>
      rw [List.cons_append, List.length_cons, List.insertIdx_succ_cons, ih, List.cons_append]

/-! ### Fronts of lists -/

/-- A predicate splits a list at the first element that it stops at. -/
lemma span_append_cons {p : α → Bool} {front : List α} {stop : α}
    (hfront : ∀ a ∈ front, p a = true) (hstop : p stop = false) (back : List α) :
    (front ++ stop :: back).span p = (front, stop :: back) := by
  rw [List.span_eq_takeWhile_dropWhile, List.takeWhile_append_of_pos hfront,
    List.dropWhile_append_of_pos hfront]
  simp [hstop]

lemma drop_length_takeWhile (p : α → Bool) (l : List α) :
    l.drop (l.takeWhile p).length = l.dropWhile p := by
  induction l with
  | nil => rfl
  | cons a l ih =>
      by_cases ha : p a = true
      · rw [List.takeWhile_cons_of_pos ha, List.dropWhile_cons_of_pos ha]
        exact ih
      · rw [List.takeWhile_cons_of_neg ha, List.dropWhile_cons_of_neg ha]
        rfl

/-! ### Texts -/

lemma join_eq_empty {texts : List String} (h : ∀ text ∈ texts, text = "") :
    String.join texts = "" := by
  induction texts with
  | nil => rfl
  | cons text texts ih =>
      obtain ⟨rfl, hrest⟩ := List.forall_mem_cons.mp h
      rw [String.join_cons, ih hrest, String.append_empty]

end SchemaTypes
