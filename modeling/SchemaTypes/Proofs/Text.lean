import Mathlib.Data.List.TakeWhile
import Mathlib.Tactic
import SchemaTypes.Text.Join
import SchemaTypes.Text.Split

/-!
Joined and split texts.

* `joinWith_eq_intercalate`: joining is the library's `String.intercalate`;
* `splitAt_append_cons`: a separator splits a text into the parts of what stands
  on its two sides;
* `afterLast_eq_getLastD`: what stands behind the last separator is the last of
  the parts.
-/

namespace SchemaTypes

lemma joinWith_eq_intercalate (separator : String) :
    ∀ texts, joinWith separator texts = separator.intercalate texts
  | [] => by simp [joinWith]
  | [text] => by simp [joinWith]
  | text :: next :: rest => by
      rw [joinWith, joinWith_eq_intercalate separator (next :: rest),
        String.intercalate_cons_cons]

lemma splitAt_ne_nil (separator : Char → Bool) (cs : List Char) : splitAt separator cs ≠ [] := by
  cases cs with
  | nil => simp [splitAt]
  | cons c cs =>
      rw [splitAt]
      split
      · simp
      · split <;> simp

section

variable {separator : Char}

/-- A separator splits a text in two, each of which has parts of its own. -/
lemma splitAt_append_cons (front back : List Char) :
    splitAt (· == separator) (front ++ separator :: back)
      = splitAt (· == separator) front ++ splitAt (· == separator) back := by
  induction front with
  | nil => simp [splitAt]
  | cons c front ih =>
      rw [List.cons_append, splitAt, splitAt]
      by_cases hc : (c == separator) = true
      · rw [if_pos hc, if_pos hc, ih, List.cons_append]
      · rw [if_neg hc, if_neg hc, ih]
        cases hparts : splitAt (· == separator) front with
        | nil => exact absurd hparts (splitAt_ne_nil _ front)
        | cons part parts => rfl

/-- A text without separators is its only part. -/
lemma splitAt_of_notMem {cs : List Char} (h : separator ∉ cs) :
    splitAt (· == separator) cs = [cs] := by
  induction cs with
  | nil => rfl
  | cons c cs ih =>
      obtain ⟨hc, hcs⟩ := List.ne_and_not_mem_of_not_mem_cons h
      rw [splitAt, ih hcs]
      simp [Ne.symm hc]

lemma afterLast_append_cons (front : List Char) {back : List Char} (h : separator ∉ back) :
    afterLast separator (front ++ separator :: back) = back := by
  have hback : ∀ c ∈ back.reverse, decide (c ≠ separator) = true := fun c hc =>
    decide_eq_true fun hcs => h (hcs ▸ List.mem_reverse.mp hc)
  rw [afterLast, List.reverse_append, List.reverse_cons, List.append_assoc,
    List.takeWhile_append_of_pos hback]
  simp

end

/-- What stands behind the last separator is the last part between separators. -/
lemma afterLast_eq_getLastD (separator : Char) (cs : List Char) :
    afterLast separator cs = (splitAt (· == separator) cs).getLastD [] := by
  by_cases hmem : separator ∈ cs
  · -- the last separator of the text is the first one of the text read backwards
    obtain ⟨back, front, hcs, hback⟩ := List.eq_append_cons_of_mem (List.mem_reverse.mpr hmem)
    have hcs' : cs = front.reverse ++ separator :: back.reverse := by
      rw [← List.reverse_reverse cs, hcs]
      simp
    have hnot : separator ∉ back.reverse := fun h => hback (List.mem_reverse.mp h)
    rw [hcs', afterLast_append_cons _ hnot, splitAt_append_cons, splitAt_of_notMem hnot]
    simp
  · have hall : ∀ c ∈ cs.reverse, decide (c ≠ separator) = true := fun c hc =>
      decide_eq_true fun hcs => hmem (hcs ▸ List.mem_reverse.mp hc)
    rw [splitAt_of_notMem hmem, afterLast, List.takeWhile_eq_self_iff.mpr hall,
      List.reverse_reverse]
    rfl

end SchemaTypes
