import SchemaTypes.Proofs.Tally

/-!
Emitters of which a limit is passed.

* `Sink.Spent`: a sink that is full or has used up its flushes;
* `LineSink.writeLine_spent`: such a sink refuses every line from then on;
* `Emitter.Going`, `Emitter.Over`: an emitter that has completed some lines, and
  goes on or has come to a refusal; in both cases exactly these lines are
  counted;
* `Emitter.Going.writeAll`, `Emitter.Over.writeAll`: what the writing of further
  lines makes of it.
-/

namespace SchemaTypes

/-! ### Sinks -/

/-- A sink that is full, or has used up its flushes. -/
structure Sink.Spent (byteLimit flushLimit : ℕ) (s : Sink) : Prop where
  bytes : s.byteLimit = some byteLimit
  flushed : s.flushLimit = some flushLimit
  spent : byteLimit ≤ s.held.size ∨ flushLimit ≤ s.flushes

lemma size_lineEnd_pos (text : String) : 0 < (text ++ lineEnd).toUTF8.size := by
  have hend : lineEnd.toUTF8.size = 2 := by decide +kernel
  have happend : (text ++ lineEnd).toUTF8 = text.toUTF8 ++ lineEnd.toUTF8 := by
    simp [String.toByteArray_append]
  rw [happend, ByteArray.size_append, hend]
  omega

/-- Every line has an end, so that a full sink has no room for it. -/
lemma LineSink.writeLine_spent {L F : ℕ} {s : LineSink} (h : s.sink.Spent L F) (text : String) :
    ∃ fault s', writeLine text s = .error fault s' ∧ s'.sink.Spent L F ∧ s'.lines = s.lines
      ∧ s'.sink.flushes = s.sink.flushes := by
  have hpos := size_lineEnd_pos text
  have hgrown : s.sink.held.size ≤ (s.sink.taking (text ++ lineEnd).toUTF8).size := by
    rw [Sink.taking, h.bytes, ByteArray.size_append]
    omega
  have hspent : Sink.Spent L F
      { s.sink with held := s.sink.taking (text ++ lineEnd).toUTF8 } :=
    ⟨h.bytes, h.flushed, h.spent.imp_left fun hfull => hfull.trans hgrown⟩
  rw [writeLine_eq]
  by_cases hroom : s.sink.hasRoom (text ++ lineEnd).toUTF8.size = true
  · have hroom' := hroom
    rw [Sink.hasRoom, h.bytes, Option.all_some, decide_eq_true_eq] at hroom'
    have hlast : F ≤ s.sink.flushes := h.spent.resolve_left (by omega)
    have hflush : ¬ s.sink.flushLimit.all (s.sink.flushes < ·) = true := by
      rw [h.flushed, Option.all_some, decide_eq_true_eq]
      omega
    rw [if_pos hroom, if_neg hflush]
    exact ⟨_, _, rfl, hspent, rfl, rfl⟩
  · rw [if_neg hroom]
    exact ⟨_, _, rfl, hspent, rfl, rfl⟩

/-! ### Emitters -/

/-- Whether lines pass a limit. -/
def Exceeds (byteLimit flushLimit : ℕ) (lines : List Line) : Prop :=
  byteLimit < (terminated (lines.map Line.text)).toUTF8.size ∨ flushLimit < lines.length

namespace Emitter

/-- An emitter that has completed just the given lines, which pass no limit. -/
structure Completed (L F : ℕ) (documentation : Bool) (done : List Line) (e : Emitter) : Prop where
  documentation_eq : e.documentation = documentation
  tally_eq : e.tally = Statistics.ofLines done
  flushes_eq : e.out.sink.flushes = done.length
  fits : ¬ Exceeds L F done

/-- An emitter that holds just the lines it has completed. -/
structure Going (L F : ℕ) (documentation : Bool) (done : List Line) (e : Emitter) : Prop
    extends Completed L F documentation done e where
  bytes : e.out.sink.byteLimit = some L
  flushed : e.out.sink.flushLimit = some F
  held_eq : e.out.sink.held = (terminated (done.map Line.text)).toUTF8

/-- An emitter of which a line has been refused. -/
structure Over (L F : ℕ) (documentation : Bool) (done : List Line) (e : Emitter) : Prop
    extends Completed L F documentation done e where
  spent : e.out.sink.Spent L F

section

variable {L F : ℕ} {documentation : Bool} {done : List Line} {e : Emitter}

lemma going_new (L F : ℕ) (documentation : Bool) :
    Going L F documentation [] (Emitter.new (.limited L F) documentation) where
  documentation_eq := rfl
  tally_eq := rfl
  flushes_eq := rfl
  fits := by simp [Exceeds]
  bytes := rfl
  flushed := rfl
  held_eq := by simp [Emitter.new, Sink.limited]

lemma Going.within (h : Going L F documentation done e) : e.out.sink.Within L F := by
  have hfits := h.fits
  rw [Exceeds, ← h.held_eq, ← h.flushes_eq] at hfits
  exact ⟨h.bytes, h.flushed, by omega, by omega⟩

/-- What an emitter holds with one more line. -/
lemma Going.held_append (h : Going L F documentation done e) (line : Line) :
    e.out.sink.held ++ (line.text ++ lineEnd).toUTF8
      = (terminated ((done ++ [line]).map Line.text)).toUTF8 := by
  rw [h.held_eq, List.map_append, toUTF8_terminated_append]
  simp [terminated]

/-- A refused line leaves an emitter over, with nothing more completed. -/
lemma Completed.refused (h : Completed L F documentation done e) {out : LineSink}
    (hlines : out.lines = e.out.lines) (hflushes : out.sink.flushes = e.out.sink.flushes)
    (hspent : out.sink.Spent L F) : Over L F documentation done { e with out } where
  documentation_eq := h.documentation_eq
  tally_eq := by
    rw [← h.tally_eq, tally, tally, hlines]
  flushes_eq := hflushes.trans h.flushes_eq
  fits := h.fits
  spent := hspent

/-- The next line is completed, or passes a limit and is refused. -/
lemma Going.write (h : Going L F documentation done e) (line : Line) :
    (∃ e', write line e = .ok () e' ∧ Going L F documentation (done ++ [line]) e')
      ∨ (Exceeds L F (done ++ [line])
        ∧ ∃ fault e', write line e = .error fault e' ∧ Over L F documentation done e') := by
  have hwithin := h.within
  have hheld := h.held_append line
  have hflushes := h.flushes_eq
  have htally := tally_write line e
  rw [write_eq] at htally ⊢
  by_cases hfull : L < (e.out.sink.held ++ (line.text ++ lineEnd).toUTF8).size
  · -- the line is cut, and the sink is full
    have hsize : ((e.out.sink.held ++ (line.text ++ lineEnd).toUTF8).extract 0 L).size = L := by
      rw [ByteArray.size_extract]
      omega
    rw [LineSink.writeLine_of_full hwithin line.text hfull]
    refine Or.inr ⟨Or.inl (hheld ▸ hfull), _, _, rfl, h.toCompleted.refused rfl rfl ?_⟩
    exact ⟨h.bytes, h.flushed, Or.inl hsize.ge⟩
  · have hfits := Nat.le_of_not_lt hfull
    by_cases hlast : e.out.sink.flushes = F
    · rw [LineSink.writeLine_of_refused hwithin line.text hfits hlast]
      refine Or.inr ⟨Or.inr ?_, _, _, rfl, h.toCompleted.refused rfl rfl ?_⟩
      · rw [List.length_append, List.length_singleton]
        omega
      · exact ⟨h.bytes, h.flushed, Or.inr hlast.ge⟩
    · have hroom : e.out.sink.flushes < F := lt_of_le_of_ne hwithin.flushes_le hlast
      rw [LineSink.writeLine_of_fits hwithin line.text hfits hroom] at htally ⊢
      refine Or.inl ⟨_, rfl, ?_⟩
      have hcounts : Statistics.ofLines (done ++ [line])
          = e.tally + Statistics.ofLines [line] := by
        rw [Statistics.ofLines_append, h.tally_eq]
      have hlength : (done ++ [line]).length = done.length + 1 := by simp
      exact
        { documentation_eq := h.documentation_eq
          tally_eq := htally.trans hcounts.symm
          flushes_eq := by rw [hlength, ← hflushes]
          fits := by rw [Exceeds, ← hheld, hlength]; omega
          bytes := h.bytes
          flushed := h.flushed
          held_eq := hheld }

/-- Once a line has been refused, every line is. -/
lemma Over.write (h : Over L F documentation done e) (line : Line) :
    ∃ fault e', write line e = .error fault e' ∧ Over L F documentation done e' := by
  obtain ⟨fault, out, hline, hspent, hlines, hflushes⟩ :=
    LineSink.writeLine_spent h.spent line.text
  rw [write_eq, hline]
  exact ⟨fault, _, rfl, h.toCompleted.refused hlines hflushes hspent⟩

/-- Further lines are all completed, or those up to one that passes a limit. -/
lemma Going.writeAll (h : Going L F documentation done e) (lines : List Line) :
    (∃ e', writeAll lines e = .ok () e' ∧ Going L F documentation (done ++ lines) e')
      ∨ ∃ n < lines.length, Exceeds L F (done ++ lines.take (n + 1))
        ∧ ∃ fault e', writeAll lines e = .error fault e'
          ∧ Over L F documentation (done ++ lines.take n) e' := by
  induction lines generalizing done e with
  | nil => exact Or.inl ⟨e, rfl, by rwa [List.append_nil]⟩
  | cons line rest ih =>
      rw [writeAll_cons_eq]
      obtain ⟨e', hline, hgoing⟩ | ⟨hexceeds, fault, e', hline, hover⟩ := h.write line
      · rw [hline]
        obtain ⟨e'', hrest, hgoing'⟩ | ⟨n, hn, hexceeds, fault, e'', hrest, hover⟩ := ih hgoing
        · rw [List.append_assoc, List.singleton_append] at hgoing'
          exact Or.inl ⟨e'', hrest, hgoing'⟩
        · rw [List.append_assoc, List.singleton_append] at hexceeds hover
          exact Or.inr ⟨n + 1, Nat.succ_lt_succ hn, hexceeds, fault, e'', hrest, hover⟩
      · rw [hline]
        refine Or.inr ⟨0, Nat.succ_pos _, hexceeds, fault, e', rfl, ?_⟩
        rwa [List.take_zero, List.append_nil]

/-- Once a line has been refused, no lines are completed. -/
lemma Over.writeAll (h : Over L F documentation done e) {lines : List Line} (hne : lines ≠ []) :
    ∃ fault e', writeAll lines e = .error fault e' ∧ Over L F documentation done e' := by
  obtain ⟨line, rest, rfl⟩ := List.exists_cons_of_ne_nil hne
  obtain ⟨fault, e', hline, hover⟩ := h.write line
  rw [writeAll_cons_eq, hline]
  exact ⟨fault, e', rfl, hover⟩

end

end Emitter

end SchemaTypes
