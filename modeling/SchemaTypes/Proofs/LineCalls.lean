import SchemaTypes.Proofs.Refusal

/-!
Lines written on after a failure.

A line sink may be called again after a call has failed. Its sink then takes what
still fits, be it that an earlier flush was refused, and counts nothing more.

* `LineCall`, `LineSink.performAll`: calls one after the other, whatever becomes of
  those before;
* `verdict`: the answer to the last of some lines;
* `LineSink.Reached`: what a sink with limits is like after some lines, and
  `Reached.writeLine`: what one more line makes of it;
* `LineSink.performAll_reached`, `LineSink.counts_performAll`: the same for any
  number of calls;
* `performAll_limited`: bytes, answers and counts after every prefix of the calls.
-/

namespace SchemaTypes

/-! ### Calls -/

/-- A call of a line sink. -/
inductive LineCall where
  | line (text : String)
  | blank
deriving DecidableEq

namespace LineCall

/-- The line that is asked for. -/
def text : LineCall → String
  | line text => text
  | blank => ""

def perform : LineCall → EStateM WriteFault LineSink Unit
  | line text => LineSink.writeLine text
  | blank => LineSink.blankLine

lemma perform_eq_writeLine (call : LineCall) : call.perform = LineSink.writeLine call.text := by
  cases call <;> rfl

end LineCall

/-- The text of the lines that are asked for, in bytes. -/
def askedFor (calls : List LineCall) : ByteArray :=
  (terminated (calls.map LineCall.text)).toUTF8

/-- The answer to the last of some calls: whether all their lines fit, and then
whether there is a flush for each of them. -/
def verdict (byteLimit flushLimit : ℕ) (calls : List LineCall) : Option WriteFault :=
  if byteLimit < (askedFor calls).size then some .storageFull
  else if flushLimit < calls.length then some .brokenPipe
  else none

section

variable {L F : ℕ} (front back : List LineCall)

lemma askedFor_append : askedFor (front ++ back) = askedFor front ++ askedFor back := by
  rw [askedFor, List.map_append, toUTF8_terminated_append]
  rfl

lemma askedFor_singleton (call : LineCall) : askedFor [call] = (call.text ++ lineEnd).toUTF8 := by
  simp [askedFor, terminated]

/-- Where lines fail, so do more of them. -/
lemma verdict_append (h : verdict L F front ≠ none) : verdict L F (front ++ back) ≠ none := by
  rw [verdict] at h ⊢
  rw [askedFor_append, ByteArray.size_append, List.length_append]
  split_ifs at h ⊢ <;> simp_all <;> omega

end

namespace LineSink

/-- Calls one after the other, whether or not those before have failed. -/
def performAll : List LineCall → LineSink → List (Option WriteFault) × LineSink
  | [], s => ([], s)
  | call :: rest, s =>
    let result := call.perform s
    let (answers, last) := performAll rest (finalState result)
    (failure? result :: answers, last)

lemma performAll_concat (calls : List LineCall) (call : LineCall) (s : LineSink) :
    performAll (calls ++ [call]) s
      = ((performAll calls s).1 ++ [failure? (writeLine call.text (performAll calls s).2)],
          finalState (writeLine call.text (performAll calls s).2)) := by
  induction calls generalizing s with
  | nil => simp [performAll, call.perform_eq_writeLine]
  | cons first rest ih => simp [performAll, ih]

/-! ### One more line -/

/-- What a sink with limits is like after lines were asked for, some of which may
have failed. -/
structure Reached (byteLimit flushLimit : ℕ) (calls : List LineCall) (s : LineSink) : Prop where
  bytes : s.sink.byteLimit = some byteLimit
  flushed : s.sink.flushLimit = some flushLimit
  held_eq : s.sink.held = (askedFor calls).extract 0 byteLimit
  /-- As long as all lines fit, each has had its flush, while there were any. -/
  flushes_eq : (askedFor calls).size ≤ byteLimit → s.sink.flushes = min calls.length flushLimit

section

variable {L F : ℕ} {calls : List LineCall} {s : LineSink}

/-- What a sink takes of one more line is what fits of all lines. -/
lemma Reached.taking_eq (h : Reached L F calls s) (call : LineCall) :
    s.sink.taking (call.text ++ lineEnd).toUTF8 = (askedFor (calls ++ [call])).extract 0 L := by
  have hroom : L - s.sink.held.size = L - (askedFor calls).size := by
    rw [h.held_eq, ByteArray.size_extract]
    omega
  rw [Sink.taking, h.bytes, askedFor_append, askedFor_singleton, ByteArray.extract_append, ← hroom,
    h.held_eq]
  simp

/-- One more line has room if all lines fit. A line is never empty, so that a sink
that has cut a line has no room for another. -/
lemma Reached.hasRoom_iff (h : Reached L F calls s) (call : LineCall) :
    s.sink.hasRoom (call.text ++ lineEnd).toUTF8.size = true
      ↔ (askedFor (calls ++ [call])).size ≤ L := by
  have hpos := size_lineEnd_pos call.text
  rw [Sink.hasRoom, h.bytes, Option.all_some, decide_eq_true_eq, askedFor_append,
    askedFor_singleton, h.held_eq, ByteArray.size_extract, ByteArray.size_append]
  omega

/-- **One more line.** The sink ends as it should, and the answer is the verdict. -/
lemma Reached.writeLine (h : Reached L F calls s) (call : LineCall) :
    failure? (writeLine call.text s) = verdict L F (calls ++ [call])
      ∧ Reached L F (calls ++ [call]) (finalState (writeLine call.text s)) := by
  have hlength : (calls ++ [call]).length = calls.length + 1 := by simp
  rw [writeLine_eq, h.taking_eq, verdict, hlength]
  by_cases hfits : (askedFor (calls ++ [call])).size ≤ L
  · have hbefore : (askedFor calls).size ≤ L := by
      rw [askedFor_append, ByteArray.size_append] at hfits
      omega
    have hflushes := h.flushes_eq hbefore
    rw [if_pos ((h.hasRoom_iff call).mpr hfits), if_neg (Nat.not_lt.mpr hfits)]
    by_cases hlast : F < calls.length + 1
    · -- the flushes are used up by the lines before
      have hrefused : ¬ s.sink.flushLimit.all (s.sink.flushes < ·) = true := by
        rw [h.flushed, Option.all_some, decide_eq_true_eq]
        omega
      rw [if_neg hrefused, if_pos hlast]
      exact ⟨rfl, h.bytes, h.flushed, rfl, fun _ => by simp only [finalState]; omega⟩
    · have hallowed : s.sink.flushLimit.all (s.sink.flushes < ·) = true := by
        rw [h.flushed, Option.all_some, decide_eq_true_eq]
        omega
      rw [if_pos hallowed, if_neg hlast]
      exact ⟨rfl, h.bytes, h.flushed, rfl, fun _ => by simp only [finalState]; omega⟩
  · rw [if_neg (mt (h.hasRoom_iff call).mp hfits), if_pos (Nat.not_le.mp hfits)]
    exact ⟨rfl, h.bytes, h.flushed, rfl, fun hle => absurd hle hfits⟩

end

/-! ### Any number of calls -/

/-- **Calls on a sink with limits** leave it as it should be after so many lines, and
each is answered by the verdict on the lines up to it. -/
lemma performAll_reached (L F : ℕ) (calls : List LineCall) :
    Reached L F calls (performAll calls ⟨.limited L F, 0⟩).2
      ∧ (performAll calls ⟨.limited L F, 0⟩).1
        = (List.range calls.length).map fun i => verdict L F (calls.take (i + 1)) := by
  induction calls using List.reverseRecOn with
  | nil =>
      refine ⟨⟨rfl, rfl, ?_, fun _ => ?_⟩, rfl⟩
      · simp [performAll, Sink.limited, askedFor, extract_of_size_le]
      · simp [performAll, Sink.limited]
  | append_singleton calls call ih =>
      obtain ⟨hreached, hanswers⟩ := ih
      obtain ⟨hanswer, hnext⟩ := hreached.writeLine call
      have hbefore : ∀ i ∈ List.range calls.length,
          verdict L F (calls.take (i + 1)) = verdict L F ((calls ++ [call]).take (i + 1)) := by
        intro i hi
        rw [List.take_append_of_le_length (Nat.succ_le_of_lt (List.mem_range.mp hi))]
      rw [performAll_concat]
      refine ⟨hnext, ?_⟩
      rw [hanswers, hanswer, List.map_congr_left hbefore, List.length_append, List.length_singleton,
        List.range_succ, List.map_append, List.map_singleton, List.take_of_length_le (by simp)]

/-- On any sink, the calls that succeed are those that are flushed and counted. -/
lemma counts_performAll (calls : List LineCall) (s : LineSink) :
    (performAll calls s).2.lines = s.lines + (performAll calls s).1.count none
      ∧ (performAll calls s).2.sink.flushes
        = s.sink.flushes + (performAll calls s).1.count none := by
  induction calls using List.reverseRecOn with
  | nil => exact ⟨rfl, rfl⟩
  | append_singleton calls call ih =>
      obtain ⟨hlines, hflushes⟩ := ih
      rw [performAll_concat, List.count_append, writeLine_eq]
      split_ifs <;> simp [failure?, finalState, hlines, hflushes, Nat.add_assoc]

/-- The first answers are those to the first calls. -/
lemma take_answers (L F : ℕ) (calls : List LineCall) (k : ℕ) :
    (performAll (calls.take k) ⟨.limited L F, 0⟩).1
      = (performAll calls ⟨.limited L F, 0⟩).1.take k := by
  rw [(performAll_reached L F _).2, (performAll_reached L F _).2, ← List.map_take, List.take_range,
    List.length_take]
  refine List.map_congr_left fun i hi => ?_
  rw [List.mem_range, lt_min_iff] at hi
  rw [List.take_take, min_eq_left (by omega)]

lemma getElem?_answers (L F : ℕ) {calls : List LineCall} {i : ℕ} (hi : i < calls.length) :
    (performAll calls ⟨.limited L F, 0⟩).1[i]? = some (verdict L F (calls.take (i + 1))) := by
  rw [(performAll_reached L F calls).2, List.getElem?_map, List.getElem?_range hi, Option.map_some]

/-- Behind a call that fails no call succeeds. -/
lemma answer_ne_none {L F : ℕ} {calls : List LineCall} {i j : ℕ} {fault : WriteFault}
    {answer : Option WriteFault}
    (hi : (performAll calls ⟨.limited L F, 0⟩).1[i]? = some (some fault)) (hij : i ≤ j)
    (hj : (performAll calls ⟨.limited L F, 0⟩).1[j]? = some answer) : answer ≠ none := by
  have hlength : (performAll calls ⟨.limited L F, 0⟩).1.length = calls.length := by
    simp [(performAll_reached L F calls).2]
  obtain ⟨hjlt, -⟩ := List.getElem?_eq_some_iff.mp hj
  rw [hlength] at hjlt
  rw [getElem?_answers L F (hij.trans_lt hjlt), Option.some_inj] at hi
  rw [getElem?_answers L F hjlt, Option.some_inj] at hj
  obtain ⟨more, hmore⟩ : calls.take (i + 1) <+: calls.take (j + 1) :=
    List.take_prefix_take_left (by omega)
  rw [← hj, ← hmore]
  exact verdict_append _ _ (by rw [hi]; exact Option.some_ne_none _)

end LineSink

/-- **Lines written on after a failure.** A line sink is called again and again, on a
destination for at most `L` bytes and `F` flushes. Then

* after every prefix of the calls the destination holds the first `L` bytes of their
  lines, also if flushes were refused;
* a call is answered by the verdict on the lines up to its own: the bytes are missing
  if these do not fit, else a flush is if there are more of them than flushes, and
  else the call succeeds;
* the lines counted and the flushes are as many as the calls that succeeded;
* from the first call that fails no line is counted. -/
theorem performAll_limited (calls : List LineCall) (L F : ℕ) :
    let after (k : ℕ) := (LineSink.performAll (calls.take k) ⟨.limited L F, 0⟩).2
    let answers := (LineSink.performAll calls ⟨.limited L F, 0⟩).1
    let bytes (k : ℕ) := (terminated ((calls.take k).map LineCall.text)).toUTF8
    (∀ k, (after k).sink.held = (bytes k).extract 0 L)
      ∧ answers.length = calls.length
      ∧ (∀ i < calls.length, answers[i]? = some
          (if L < (bytes (i + 1)).size then some .storageFull
          else if F < i + 1 then some .brokenPipe
          else none))
      ∧ (∀ k, (after k).lines = (answers.take k).count none
        ∧ (after k).sink.flushes = (after k).lines)
      ∧ ∀ i k, i ≤ k → (∃ fault, answers[i]? = some (some fault)) →
        (after k).lines = (after i).lines := by
  intro after answers bytes
  have hcounts : ∀ k, (after k).lines = (answers.take k).count none
      ∧ (after k).sink.flushes = (answers.take k).count none := by
    intro k
    have hcounts := LineSink.counts_performAll (calls.take k) ⟨.limited L F, 0⟩
    rw [LineSink.take_answers] at hcounts
    exact ⟨hcounts.1.trans (Nat.zero_add _), hcounts.2.trans (Nat.zero_add _)⟩
  refine ⟨fun k => (LineSink.performAll_reached L F (calls.take k)).1.held_eq, ?_, fun i hi => ?_,
    fun k => ⟨(hcounts k).1, (hcounts k).2.trans (hcounts k).1.symm⟩, ?_⟩
  · simp [answers, (LineSink.performAll_reached L F calls).2]
  · rw [LineSink.getElem?_answers L F hi, verdict, List.length_take_of_le hi]
    rfl
  · rintro i k hik ⟨fault, hfault⟩
    -- the answers from this call on are failures, and add nothing to the count
    have hlater : ((answers.drop i).take (k - i)).count none = 0 := by
      refine List.count_eq_zero.mpr fun hnone => ?_
      obtain ⟨j, hj⟩ := List.mem_iff_getElem?.mp (List.mem_of_mem_take hnone)
      rw [List.getElem?_drop] at hj
      exact LineSink.answer_ne_none hfault (Nat.le_add_right i j) hj rfl
    obtain ⟨n, rfl⟩ := Nat.exists_eq_add_of_le hik
    rw [Nat.add_sub_cancel_left] at hlater
    rw [(hcounts _).1, (hcounts _).1, List.take_add, List.count_append, hlater, Nat.add_zero]

end SchemaTypes
