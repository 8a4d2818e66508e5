import Mathlib.Tactic
import SchemaTypes.Declaration.Sink

/-!
Lines written to a sink of limited patience.

* `failure?`, `finalState`: how a run ends, and in which state;
* `terminated`: the text of lines, each ended by CR LF;
* `LineSink.writeLine_eq`: what one line does to a sink, whatever its limits;
* `Sink.Within`: a sink that has not yet passed a limit;
* `LineSink.writeTexts_within`: lines written from within the limits leave the
  first bytes of the lines up to the first flush that is refused, and the limit
  that is passed first decides the fault;
* `LineSink.writeOut_limited`, `LineSink.writeOut_unlimited`: the same for lines
  followed by the last flush, on a sink that holds nothing.
-/

namespace SchemaTypes

/-! ### How a run ends -/

section

variable {ε σ α β : Type}

/-- Why a run failed, if it did. -/
def failure? : EStateM.Result ε σ α → Option ε
  | .ok _ _ => none
  | .error e _ => some e

/-- The state that a run ends in. -/
def finalState : EStateM.Result ε σ α → σ
  | .ok _ s => s
  | .error _ s => s

/-- A result with another answer. -/
def mapAnswer (f : α → β) : EStateM.Result ε σ α → EStateM.Result ε σ β
  | .ok a s => .ok (f a) s
  | .error e s => .error e s

@[simp] lemma failure?_mapAnswer (f : α → β) (r : EStateM.Result ε σ α) :
    failure? (mapAnswer f r) = failure? r := by
  cases r <;> rfl

@[simp] lemma finalState_mapAnswer (f : α → β) (r : EStateM.Result ε σ α) :
    finalState (mapAnswer f r) = finalState r := by
  cases r <;> rfl

lemma failure?_eq_none_iff (r : EStateM.Result ε σ α) :
    failure? r = none ↔ ∃ a s, r = .ok a s := by
  cases r <;> simp [failure?]

lemma failure?_eq_some_iff (r : EStateM.Result ε σ α) (e : ε) :
    failure? r = some e ↔ ∃ s, r = .error e s := by
  cases r <;> simp [failure?]

end

/-! ### The text of lines -/

/-- Lines in order, each with its end. -/
def terminated : List String → String
  | [] => ""
  | line :: rest => line ++ lineEnd ++ terminated rest

@[simp] lemma terminated_nil : terminated [] = "" := rfl

/-- Each line ends with a carriage return and a line feed. -/
lemma toList_terminated (lines : List String) :
    (terminated lines).toList = lines.flatMap fun line => line.toList ++ ['\r', '\n'] := by
  induction lines with
  | nil => rfl
  | cons line rest ih => simp [terminated, lineEnd, String.toList_append, ih]

lemma toUTF8_terminated_cons (line : String) (rest : List String) :
    (terminated (line :: rest)).toUTF8 = (line ++ lineEnd).toUTF8 ++ (terminated rest).toUTF8 := by
  simp [terminated, String.toByteArray_append]

/-! ### Bytes cut to a limit -/

lemma extract_append_of_le {a : ByteArray} (b : ByteArray) {limit : ℕ} (h : limit ≤ a.size) :
    (a ++ b).extract 0 limit = a.extract 0 limit := by
  rw [ByteArray.extract_append, Nat.sub_eq_zero_of_le h]
  simp

lemma extract_of_size_le {a : ByteArray} {limit : ℕ} (h : a.size ≤ limit) :
    a.extract 0 limit = a := by
  have hmax := ByteArray.extract_zero_max_size (a := a) (i := limit)
  rwa [Nat.max_eq_left h] at hmax

/-! ### One line -/

/-- A sink that has passed neither of its limits. -/
structure Sink.Within (byteLimit flushLimit : ℕ) (s : Sink) : Prop where
  bytes : s.byteLimit = some byteLimit
  flushed : s.flushLimit = some flushLimit
  size_le : s.held.size ≤ byteLimit
  flushes_le : s.flushes ≤ flushLimit

/-- A destination that holds nothing and has the given limits. -/
def Sink.limited (byteLimit flushLimit : ℕ) : Sink :=
  { byteLimit := some byteLimit, flushLimit := some flushLimit }

lemma Sink.within_limited (byteLimit flushLimit : ℕ) :
    (Sink.limited byteLimit flushLimit).Within byteLimit flushLimit :=
  ⟨rfl, rfl, Nat.zero_le _, Nat.zero_le _⟩

/-- A sink takes bytes up to its limit. -/
lemma Sink.Within.taking_eq {L F : ℕ} {s : Sink} (h : s.Within L F) (bytes : ByteArray) :
    s.taking bytes = (s.held ++ bytes).extract 0 L := by
  rw [Sink.taking, h.bytes, ByteArray.extract_append, extract_of_size_le h.size_le]
  simp

namespace LineSink

/-- Lines written up to the first that fails. -/
def writeTexts (texts : List String) : EStateM WriteFault LineSink Unit := texts.forM writeLine

/-- Lines written to a sink, and the last flush; the answer is their number. -/
def writeOut (texts : List String) (sink : Sink) : EStateM.Result WriteFault Sink ℕ :=
  match writeTexts texts ⟨sink, 0⟩ with
  | .error fault s => .error fault s.sink
  | .ok _ s => mapAnswer (fun _ => s.lines) s.close

/-- A line that does not fit is cut and not flushed; one that fits is held even
if its flush is refused. -/
lemma writeLine_eq (text : String) (s : LineSink) :
    writeLine text s =
      if s.sink.hasRoom (text ++ lineEnd).toUTF8.size then
        if s.sink.flushLimit.all (s.sink.flushes < ·) then
          .ok () ⟨{ s.sink with
            held := s.sink.taking (text ++ lineEnd).toUTF8, flushes := s.sink.flushes + 1 },
            s.lines + 1⟩
        else
          .error .brokenPipe
            { s with sink := { s.sink with held := s.sink.taking (text ++ lineEnd).toUTF8 } }
      else
        .error .storageFull
          { s with sink := { s.sink with held := s.sink.taking (text ++ lineEnd).toUTF8 } } := by
  by_cases hroom : s.sink.hasRoom (text ++ lineEnd).toUTF8.size = true
  · by_cases hflush : s.sink.flushLimit.all (s.sink.flushes < ·) = true
    · simp only [writeLine, bind, EStateM.bind, Sink.write, Sink.flush, if_pos hroom, if_pos hflush]
    · simp only [writeLine, bind, EStateM.bind, Sink.write, Sink.flush, if_pos hroom, if_neg hflush]
  · simp only [writeLine, bind, EStateM.bind, Sink.write, if_neg hroom]

section Within

variable {L F : ℕ} {s : LineSink} (h : s.sink.Within L F) (text : String)
include h

/-- A line that does not fit is cut off. -/
lemma writeLine_of_full (hfull : L < (s.sink.held ++ (text ++ lineEnd).toUTF8).size) :
    writeLine text s = .error .storageFull
      { s with sink := { s.sink with
          held := (s.sink.held ++ (text ++ lineEnd).toUTF8).extract 0 L } } := by
  have hroom : ¬ s.sink.hasRoom (text ++ lineEnd).toUTF8.size = true := by
    rw [ByteArray.size_append] at hfull
    simpa [Sink.hasRoom, h.bytes] using hfull
  rw [writeLine_eq, if_neg hroom, h.taking_eq]

/-- A line that fits may not be passed on. -/
lemma writeLine_of_refused (hfits : (s.sink.held ++ (text ++ lineEnd).toUTF8).size ≤ L)
    (hlast : s.sink.flushes = F) :
    writeLine text s = .error .brokenPipe
      { s with sink := { s.sink with held := s.sink.held ++ (text ++ lineEnd).toUTF8 } } := by
  have hroom : s.sink.hasRoom (text ++ lineEnd).toUTF8.size = true := by
    rw [ByteArray.size_append] at hfits
    simpa [Sink.hasRoom, h.bytes] using hfits
  have hflush : ¬ s.sink.flushLimit.all (s.sink.flushes < ·) = true := by
    simp [h.flushed, hlast]
  rw [writeLine_eq, if_pos hroom, if_neg hflush, h.taking_eq, extract_of_size_le hfits]

/-- A line that fits and is passed on is written. -/
lemma writeLine_of_fits (hfits : (s.sink.held ++ (text ++ lineEnd).toUTF8).size ≤ L)
    (hflushes : s.sink.flushes < F) :
    writeLine text s = .ok ()
      ⟨{ s.sink with
          held := s.sink.held ++ (text ++ lineEnd).toUTF8, flushes := s.sink.flushes + 1 },
        s.lines + 1⟩ := by
  have hroom : s.sink.hasRoom (text ++ lineEnd).toUTF8.size = true := by
    rw [ByteArray.size_append] at hfits
    simpa [Sink.hasRoom, h.bytes] using hfits
  have hflush : s.sink.flushLimit.all (s.sink.flushes < ·) = true := by
    simpa [h.flushed] using hflushes
  rw [writeLine_eq, if_pos hroom, if_pos hflush, h.taking_eq, extract_of_size_le hfits]

end Within

/-! ### Lines up to a limit -/

@[simp] lemma writeTexts_nil (s : LineSink) : writeTexts [] s = .ok () s := rfl

lemma writeTexts_cons (text : String) (rest : List String) (s : LineSink) :
    writeTexts (text :: rest) s =
      match writeLine text s with
      | .ok _ s' => writeTexts rest s'
      | .error fault s' => .error fault s' := by
  simp only [writeTexts, List.forM_eq_forM, List.forM_cons, bind, EStateM.bind]
  cases writeLine text s <;> rfl

/-- The lines that a sink gets to see: those up to the first whose flush it
refuses. -/
def reached (flushLimit : ℕ) (texts : List String) : ByteArray :=
  (terminated (texts.take (flushLimit + 1))).toUTF8

@[simp] lemma reached_nil (flushLimit : ℕ) : reached flushLimit [] = .empty := by
  simp [reached]

lemma reached_zero_cons (text : String) (rest : List String) :
    reached 0 (text :: rest) = (text ++ lineEnd).toUTF8 := by
  simp [reached, terminated]

lemma reached_succ_cons (flushLimit : ℕ) (text : String) (rest : List String) :
    reached (flushLimit + 1) (text :: rest)
      = (text ++ lineEnd).toUTF8 ++ reached flushLimit rest := by
  rw [reached, List.take_succ_cons, toUTF8_terminated_cons, reached]

/-- The first line is among those that a sink gets to see. -/
lemma exists_reached_cons (flushLimit : ℕ) (text : String) (rest : List String) :
    ∃ bytes, reached flushLimit (text :: rest) = (text ++ lineEnd).toUTF8 ++ bytes := by
  cases flushLimit with
  | zero => exact ⟨.empty, by rw [reached_zero_cons, ByteArray.append_empty]⟩
  | succ n => exact ⟨reached n rest, reached_succ_cons n text rest⟩

/-- **Lines written from within the limits.** The sink ends with the first bytes
of what it held and of the lines it gets to see; the bytes that do not fit are
noticed before the flush that is refused. -/
theorem writeTexts_within {L F : ℕ} (texts : List String) (s : LineSink)
    (h : s.sink.Within L F) :
    (finalState (writeTexts texts s)).sink.held
        = (s.sink.held ++ reached (F - s.sink.flushes) texts).extract 0 L
      ∧ failure? (writeTexts texts s)
        = if L < (s.sink.held ++ reached (F - s.sink.flushes) texts).size then
            some .storageFull
          else if F < s.sink.flushes + texts.length then some .brokenPipe
          else none := by
  induction texts generalizing s with
  | nil =>
      have hle := h.flushes_le
      have hsize := h.size_le
      rw [reached_nil, ByteArray.append_empty, extract_of_size_le hsize, if_neg (by omega),
        if_neg (by simpa using hle)]
      exact ⟨rfl, rfl⟩
  | cons text rest ih =>
      rw [writeTexts_cons]
      by_cases hfull : L < (s.sink.held ++ (text ++ lineEnd).toUTF8).size
      · -- the line is cut, and nothing behind it is written
        obtain ⟨bytes, hbytes⟩ := exists_reached_cons (F - s.sink.flushes) text rest
        rw [hbytes, ← ByteArray.append_assoc, writeLine_of_full h text hfull,
          extract_append_of_le bytes hfull.le,
          if_pos (by rw [ByteArray.size_append]; omega)]
        exact ⟨rfl, rfl⟩
      · have hfits := Nat.le_of_not_lt hfull
        by_cases hlast : s.sink.flushes = F
        · -- the line is held, and its flush is refused
          rw [writeLine_of_refused h text hfits hlast, hlast, Nat.sub_self, reached_zero_cons,
            extract_of_size_le hfits, if_neg hfull, List.length_cons, if_pos (by omega)]
          exact ⟨rfl, rfl⟩
        · have hflushes : s.sink.flushes < F := lt_of_le_of_ne h.flushes_le hlast
          obtain ⟨n, hn⟩ : ∃ n, F - s.sink.flushes = n + 1 := ⟨F - s.sink.flushes - 1, by omega⟩
          have hrest : F - (s.sink.flushes + 1) = n := by omega
          rw [writeLine_of_fits h text hfits hflushes, hn, reached_succ_cons,
            ← ByteArray.append_assoc]
          have hstep := ih ⟨{ s.sink with
              held := s.sink.held ++ (text ++ lineEnd).toUTF8, flushes := s.sink.flushes + 1 },
            s.lines + 1⟩ ⟨h.bytes, h.flushed, hfits, hflushes⟩
          simp only [hrest] at hstep
          rw [List.length_cons, show s.sink.flushes + (rest.length + 1)
            = s.sink.flushes + 1 + rest.length by omega]
          exact hstep

/-- A run that writes all lines has flushed and counted each of them, and leaves
the limits as they are. -/
lemma writeTexts_ok {texts : List String} {s s' : LineSink} (h : writeTexts texts s = .ok () s') :
    s'.sink.flushes = s.sink.flushes + texts.length ∧ s'.lines = s.lines + texts.length
      ∧ s'.sink.flushLimit = s.sink.flushLimit := by
  induction texts generalizing s with
  | nil =>
      rw [writeTexts_nil] at h
      cases h
      exact ⟨rfl, rfl, rfl⟩
  | cons text rest ih =>
      rw [writeTexts_cons, writeLine_eq] at h
      split_ifs at h
      obtain ⟨hflushes, hlines, hlimit⟩ := ih h
      refine ⟨?_, ?_, hlimit⟩
      · rw [hflushes, List.length_cons]
        simp only
        omega
      · rw [hlines, List.length_cons]
        simp only
        omega

/-- **Lines and a last flush, from an empty sink.** -/
theorem writeOut_limited (texts : List String) (L F : ℕ) :
    (finalState (writeOut texts (.limited L F))).held = (reached F texts).extract 0 L
      ∧ failure? (writeOut texts (.limited L F))
        = if L < (reached F texts).size then some .storageFull
          else if F < texts.length + 1 then some .brokenPipe
          else none := by
  have hwritten := writeTexts_within texts ⟨.limited L F, 0⟩ (Sink.within_limited L F)
  rw [show (Sink.limited L F).held = .empty from rfl, show (Sink.limited L F).flushes = 0 from rfl,
    Nat.sub_zero, ByteArray.empty_append, Nat.zero_add] at hwritten
  obtain ⟨hheld, hfailure⟩ := hwritten
  rw [writeOut]
  cases hrun : writeTexts texts ⟨.limited L F, 0⟩ with
  | error fault s =>
      rw [hrun] at hheld hfailure
      refine ⟨hheld, ?_⟩
      rw [failure?] at hfailure ⊢
      split_ifs at hfailure ⊢ with hfull hbroken hlast
      · exact hfailure
      · exact hfailure
      · omega
  | ok _ s =>
      rw [hrun] at hheld hfailure
      obtain ⟨hflushes, -, hlimit⟩ := writeTexts_ok hrun
      have hclose : s.close = if texts.length < F then
          .ok () { s.sink with flushes := s.sink.flushes + 1 } else .error .brokenPipe s.sink := by
        simp [close, Sink.flush, hflushes, hlimit, Sink.limited]
      rw [failure?] at hfailure
      split_ifs at hfailure with hfull hbroken
      simp only [hclose, if_neg hfull]
      by_cases hlast : texts.length < F
      · rw [if_pos hlast, if_neg (by omega)]
        exact ⟨hheld, rfl⟩
      · rw [if_neg hlast, if_pos (by omega)]
        exact ⟨hheld, rfl⟩

/-- A sink without limits takes every line. -/
lemma writeTexts_unlimited (texts : List String) (held : ByteArray) (flushes lines : ℕ) :
    writeTexts texts ⟨{ held, flushes }, lines⟩
      = .ok () ⟨{ held := held ++ (terminated texts).toUTF8, flushes := flushes + texts.length },
          lines + texts.length⟩ := by
  induction texts generalizing held flushes lines with
  | nil => simp
  | cons text rest ih =>
      have hline : writeLine text ⟨{ held, flushes }, lines⟩
          = .ok () ⟨{ held := held ++ (text ++ lineEnd).toUTF8, flushes := flushes + 1 },
              lines + 1⟩ := rfl
      rw [writeTexts_cons, hline, toUTF8_terminated_cons, ← ByteArray.append_assoc,
        List.length_cons, Nat.add_comm rest.length 1, ← Nat.add_assoc, ← Nat.add_assoc]
      exact ih _ _ _

/-- **Lines and a last flush, on a sink that never fails.** -/
theorem writeOut_unlimited (texts : List String) :
    writeOut texts {} = .ok texts.length
      { held := (terminated texts).toUTF8, flushes := texts.length + 1 } := by
  have hrun := writeTexts_unlimited texts .empty 0 0
  rw [writeOut, hrun]
  simp [close, Sink.flush, mapAnswer]

end LineSink

end SchemaTypes
